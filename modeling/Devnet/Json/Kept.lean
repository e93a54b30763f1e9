import Devnet.Json.Scanner
import Devnet.Json.Value

/-
Reading values that are kept. Unlike skipped ones they are bounded in depth, their numbers are finite
and their strings are characters. An embedded text is read like a document of its own, its levels
counted anew, and may embed others.
-/
set_option autoImplicit false

namespace Devnet.Json

section Kept

variable (embedded : String → Option Value)

def embeddedAt? (fuel : Nat) (text : List Char) : Option (Value × List Char) :=
  (textAt? fuel text).bind fun (inner, rest) =>
    behind? '\x7d' rest (fun after => (embedded inner).map fun value => (value, after)) fun _ => none

mutual
-- A value nested at most `depth` levels deep; `embedded` reads embedded texts.
def kept? : Nat → Nat → List Char → Option (Value × List Char)
  | 0, _, _ => none
  | fuel + 1, depth, text =>
      match start? text with
      | none => none
      | some (.scalar scalar, rest) => scalar.value?.map fun value => (value, rest)
      | some (.array, rest) =>
          match depth with
          | 0 => none
          | depth + 1 =>
              inside? ']' rest (fun after => some (.array [], after)) fun rest =>
                (keptItems? fuel depth rest).map fun (items, after) => (.array items, after)
      | some (.object, rest) =>
          match depth with
          | 0 => none
          | depth + 1 =>
              inside? '\x7d' rest (fun after => some (.object [], after)) fun rest => keptMembers? fuel depth [] rest

def keptItems? : Nat → Nat → List Char → Option (List Value × List Char)
  | 0, _, _ => none
  | fuel + 1, depth, text =>
      (kept? fuel depth text).bind fun (item, rest) =>
        behind? ']' rest (fun after => some ([item], after)) fun next =>
          (keptItems? fuel depth next).map fun (items, after) => (item :: items, after)

-- The object of the members in `found` and those that follow. The first key of all decides whether
-- it embeds a text, which then has to be the only member.
def keptMembers? : Nat → Nat → List (String × Value) → List Char → Option (Value × List Char)
  | 0, _, _, _ => none
  | fuel + 1, depth, found, text =>
      (key? text).bind fun (key, afterColon) =>
        key.string?.bind fun key =>
          if found.isEmpty && key == embeddingKey then embeddedAt? embedded fuel afterColon
          else
            (kept? fuel depth afterColon).bind fun (value, rest) =>
              behind? '\x7d' rest (fun after => some (.object (insertMember key value found), after)) fun next =>
                keptMembers? fuel depth (insertMember key value found) next
end

end Kept

def depthLimit : Nat := 127

def textValue? : Nat → String → Option Value
  | 0, _ => none
  | levels + 1, text => document? (fun fuel => kept? (textValue? levels) fuel depthLimit) text

-- A text is longer than those inside it, so its length bounds how deep they are embedded.
def embedded? (text : String) : Option Value := textValue? (text.length + 1) text

end Devnet.Json
