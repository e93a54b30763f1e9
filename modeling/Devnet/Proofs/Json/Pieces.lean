import Devnet.Proofs.Json.Tree
import Mathlib.Data.List.Forall2

set_option autoImplicit false

namespace Devnet.Json

def commas (pieces : List (List Char)) : List Char := [','].intercalate pieces

theorem commas_single (piece : List Char) : commas [piece] = piece := List.intercalate_singleton

theorem commas_cons (first second : List Char) (more : List (List Char)) :
    commas (first :: second :: more) = first ++ ',' :: commas (second :: more) := by
  rw [commas, List.intercalate_cons_cons, List.append_assoc, List.singleton_append, commas]

theorem element_of_value (chars : List Char) (tree : Tree) (valid : ValueText chars tree) : ElementText chars tree := by
  have whole := ElementText.mk [] chars [] tree (List.forall_mem_nil _) valid (List.forall_mem_nil _)
  rwa [List.nil_append, List.append_nil] at whole

theorem element_of_scalar (chars : List Char) (scalar : Scalar) (reads : scalar? chars = some (scalar, [])) :
    ElementText chars (.scalar scalar) := by
  obtain ⟨whole, split, valid⟩ := scalar_sound chars [] scalar reads
  rw [List.append_nil] at split
  rw [split]
  exact element_of_value whole _ (.scalar whole scalar valid)

inductive MemberText : List Char → Text × Tree → Prop where
  | mk (keyChars chars : List Char) (key : Text) (value : Tree) (keyValid : KeyText keyChars key)
      (valid : ElementText chars value) : MemberText (keyChars ++ ':' :: chars) (key, value)

section Separated

variable {α : Type} (Piece : List Char → α → Prop)

-- What the inside of an array and that of an object have in common.
inductive Separated : List Char → List α → Prop where
  | last (chars : List Char) (item : α) (valid : Piece chars item) : Separated chars [item]
  | cons (chars more : List Char) (item : α) (items : List α) (valid : Piece chars item)
      (rest : Separated more items) : Separated (chars ++ ',' :: more) (item :: items)

theorem separated_iff (chars : List Char) (items : List α) :
    Separated Piece chars items ↔ ∃ pieces, pieces ≠ [] ∧ chars = commas pieces ∧ List.Forall₂ Piece pieces items := by
  constructor
  · intro separated
    induction separated with
    | last chars item valid => exact ⟨[chars], List.cons_ne_nil _ _, (commas_single chars).symm, .cons valid .nil⟩
    | cons chars more item items valid _ ih =>
        obtain ⟨pieces, filled, same, others⟩ := ih
        obtain ⟨second, later, split⟩ := List.exists_cons_of_ne_nil filled
        refine ⟨chars :: pieces, List.cons_ne_nil _ _, ?_, .cons valid others⟩
        rw [split, commas_cons, ← split, ← same]
  · intro written
    obtain ⟨pieces, filled, same, each⟩ := written
    rw [same]
    clear same chars
    induction each with
    | nil => exact absurd rfl filled
    | cons valid others ih =>
        cases others with
        | nil => exact commas_single _ ▸ .last _ _ valid
        | cons second later =>
            rw [commas_cons]
            exact .cons _ _ _ _ valid (ih (List.cons_ne_nil _ _))

variable (pieces : List (List Char))

theorem all_written_iff :
    (∀ piece ∈ pieces, ∃ item, Piece piece item) ↔ ∃ items, List.Forall₂ Piece pieces items := by
  constructor
  · intro each
    induction pieces with
    | nil => exact ⟨[], .nil⟩
    | cons piece rest ih =>
        obtain ⟨item, valid⟩ := each piece List.mem_cons_self
        obtain ⟨items, written⟩ := ih fun other member => each other (List.mem_cons_of_mem piece member)
        exact ⟨item :: items, .cons valid written⟩
  · intro all
    obtain ⟨items, written⟩ := all
    induction written with
    | nil => exact fun _ member => nomatch member
    | cons valid _ ih =>
        rw [List.forall_mem_cons]
        exact ⟨⟨_, valid⟩, ih⟩

theorem piece_at (left right : List α) (item : α) (written : List.Forall₂ Piece pieces (left ++ item :: right)) :
    ∃ front piece behind, pieces = front ++ piece :: behind ∧ List.Forall₂ Piece front left ∧ Piece piece item ∧
      List.Forall₂ Piece behind right := by
  induction left generalizing pieces with
  | nil =>
      cases written with
      | cons valid rest => exact ⟨[], _, _, rfl, .nil, valid, rest⟩
  | cons first left ih =>
      cases written with
      | cons valid rest =>
          obtain ⟨front, piece, behind, same, before, here, later⟩ := ih _ rest
          exact ⟨_ :: front, piece, behind, congrArg (_ :: ·) same, .cons valid before, here, later⟩

end Separated

theorem items_separated (chars : List Char) (items : List Tree) : ItemsText chars items ↔ Separated ElementText chars items := by
  constructor
  · intro valid
    induction items generalizing chars with
    | nil => cases valid
    | cons item items ih =>
        cases valid with
        | last _ _ valid => exact .last chars item valid
        | cons chars more _ _ valid rest => exact .cons chars more item items valid (ih more rest)
  · intro separated
    induction separated with
    | last chars item valid => exact .last chars item valid
    | cons chars more item items valid _ ih => exact .cons chars more item items valid ih

theorem members_separated (chars : List Char) (members : List (Text × Tree)) :
    MembersText chars members ↔ Separated MemberText chars members := by
  constructor
  · intro valid
    induction members generalizing chars with
    | nil => cases valid
    | cons member members ih =>
        cases valid with
        | last keyChars chars key value keyed valid => exact .last _ _ (.mk keyChars chars key value keyed valid)
        | cons keyChars chars more key value _ keyed valid rest =>
            have both := Separated.cons _ more _ members (.mk keyChars chars key value keyed valid) (ih more rest)
            rwa [List.append_assoc, List.cons_append] at both
  · intro separated
    induction separated with
    | last _ _ valid =>
        obtain ⟨keyChars, chars, key, value, keyed, valid⟩ := valid
        exact .last keyChars chars key value keyed valid
    | cons _ more _ members valid _ ih =>
        obtain ⟨keyChars, chars, key, value, keyed, valid⟩ := valid
        rw [List.append_assoc, List.cons_append]
        exact .cons keyChars chars more key value members keyed valid ih

section Containers

variable (pieces : List (List Char))

theorem array_of_pieces (items : List Tree) (each : List.Forall₂ ElementText pieces items) :
    ValueText ('[' :: (commas pieces ++ [']'])) (.array items) := by
  cases each with
  | nil => exact .emptyArray [] fun _ member => nomatch member
  | cons valid others =>
      apply ValueText.array
      rw [items_separated, separated_iff]
      exact ⟨_, List.cons_ne_nil _ _, rfl, .cons valid others⟩

theorem object_of_pieces (members : List (Text × Tree)) (each : List.Forall₂ MemberText pieces members) :
    ValueText ('\x7b' :: (commas pieces ++ ['\x7d'])) (.object members) := by
  cases each with
  | nil => exact .emptyObject [] fun _ member => nomatch member
  | cons valid others =>
      apply ValueText.object
      rw [members_separated, separated_iff]
      exact ⟨_, List.cons_ne_nil _ _, rfl, .cons valid others⟩

end Containers

theorem pieces_of_array (chars : List Char) (items : List Tree) (filled : items ≠ [])
    (valid : ValueText chars (.array items)) :
    ∃ pieces, chars = '[' :: (commas pieces ++ [']']) ∧ List.Forall₂ ElementText pieces items := by
  cases valid with
  | emptyArray => exact absurd rfl filled
  | array inner _ valid =>
      rw [items_separated, separated_iff] at valid
      obtain ⟨pieces, _, same, each⟩ := valid
      exact ⟨pieces, by rw [same], each⟩

theorem pieces_of_object (chars : List Char) (members : List (Text × Tree)) (filled : members ≠ [])
    (valid : ValueText chars (.object members)) :
    ∃ pieces, chars = '\x7b' :: (commas pieces ++ ['\x7d']) ∧ List.Forall₂ MemberText pieces members := by
  cases valid with
  | emptyObject => exact absurd rfl filled
  | object inner _ valid =>
      rw [members_separated, separated_iff] at valid
      obtain ⟨pieces, _, same, each⟩ := valid
      exact ⟨pieces, by rw [same], each⟩

theorem member_text_unique (piece : List Char) (first second : Text × Tree) (left : MemberText piece first)
    (right : MemberText piece second) : first = second := by
  obtain ⟨keyChars, chars, key, value, keyed, valid⟩ := left
  generalize whole : keyChars ++ ':' :: chars = piece at right
  obtain ⟨otherKeyChars, otherChars, otherKey, otherValue, otherKeyed, otherValid⟩ := right
  have reads := key_complete keyChars chars key keyed
  rw [whole, key_complete otherKeyChars otherChars otherKey otherKeyed] at reads
  obtain ⟨keys, behind⟩ := Prod.mk.inj (Option.some.inj reads)
  rw [← String.toList_ofList (l := chars)] at valid
  rw [behind, ← String.toList_ofList (l := chars)] at otherValid
  rw [keys, element_text_unique _ value otherValue valid otherValid]

theorem member_of_key (piece behind : List Char) (key : Text) (value : Tree) (keyed : key? piece = some (key, behind))
    (valid : ElementText behind value) : MemberText piece (key, value) := by
  obtain ⟨keyChars, split, spelled⟩ := key_sound piece behind key keyed
  rw [split]
  exact .mk keyChars behind key value spelled valid

theorem member_of_readers (piece behind : List Char) (key : Text) (value : Tree) (keyed : key? piece = some (key, behind))
    (parses : Tree.parse? (String.ofList behind) = some value) : MemberText piece (key, value) := by
  have valid := (parse_iff _ value).mp parses
  rw [String.toList_ofList] at valid
  exact member_of_key piece behind key value keyed valid

end Devnet.Json
