import Devnet.Json.Kept
import Devnet.Json.Scanner
import Devnet.Proofs.Json.Tree

set_option autoImplicit false

namespace Devnet.Json

def Tree.string? : Tree → Option String
  | .scalar (.string text) => text.string?
  | _ => none

section Check

variable (embedded : String → Option Value)

mutual
def Tree.value? (depth : Nat) : Tree → Option Value
  | .scalar scalar => scalar.value?
  | .array items =>
      match depth with
      | 0 => none
      | depth + 1 => (itemValues? depth items).map Value.array
  | .object members =>
      match depth with
      | 0 => none
      | depth + 1 => objectValue? depth [] members

def itemValues? (depth : Nat) : List Tree → Option (List Value)
  | [] => some []
  | item :: rest => (item.value? depth).bind fun value => (itemValues? depth rest).map fun values => value :: values

def objectValue? (depth : Nat) (found : List (String × Value)) : List (Text × Tree) → Option Value
  | [] => some (.object found)
  | (key, tree) :: rest =>
      key.string?.bind fun key =>
        if found.isEmpty && key == embeddingKey then
          if rest.isEmpty then tree.string?.bind embedded else none
        else (tree.value? depth).bind fun value => objectValue? depth (insertMember key value found) rest
end

end Check

section Container

variable {α β : Type} (bracket : Char) (text : List Char)

theorem inside_bind (empty filled : List Char → Option α) (next : α → Option β) :
    (inside? bracket text empty filled).bind next =
      inside? bracket text (fun after => (empty after).bind next) fun text => (filled text).bind next := by
  rw [inside?, inside?]
  cases expect? bracket text <;> rfl

theorem inside_map (empty filled : List Char → Option α) (next : α → β) :
    (inside? bracket text empty filled).map next =
      inside? bracket text (fun after => (empty after).map next) fun text => (filled text).map next := by
  rw [inside?, inside?]
  cases expect? bracket text <;> rfl

theorem inside_none : inside? bracket text (fun _ => (none : Option α)) (fun _ => none) = none := by
  rw [inside?]
  cases expect? bracket text <;> rfl

theorem behind_bind (last more : List Char → Option α) (next : α → Option β) :
    (behind? bracket text last more).bind next =
      behind? bracket text (fun after => (last after).bind next) fun text => (more text).bind next := by
  rw [behind?, behind?]
  cases separator? bracket text with
  | none => rfl
  | some found =>
      obtain ⟨separator, rest⟩ := found
      cases separator <;> rfl

theorem behind_none : behind? bracket text (fun _ => (none : Option α)) (fun _ => none) = none := by
  rw [behind?]
  cases separator? bracket text with
  | none => rfl
  | some found =>
      obtain ⟨separator, rest⟩ := found
      cases separator <;> rfl

end Container

def checked {α β : Type} (check : α → Option β) (found : α × List Char) : Option (β × List Char) :=
  (check found.1).map fun value => (value, found.2)

theorem document_checked {α β : Type} (read : Nat → List Char → Option (α × List Char))
    (reads : Nat → List Char → Option (β × List Char)) (check : α → Option β)
    (same : ∀ fuel text, reads fuel text = (read fuel text).bind (checked check)) (text : String) :
    document? reads text = (document? read text).bind check := by
  rw [document?, document?, same]
  cases read (2 * text.toList.length + 1) text.toList with
  | none => rfl
  | some pair =>
      obtain ⟨found, rest⟩ := pair
      simp only [Option.bind_some, checked]
      cases checks : check found with
      | none => split_ifs <;> simp [checks]
      | some value =>
          simp only [Option.map_some]
          split_ifs
          · exact checks.symm
          · rfl

theorem text_at_checked (fuel : Nat) (text : List Char) :
    textAt? fuel text = (tree? fuel text).bind (checked Tree.string?) := by
  cases fuel with
  | zero => rfl
  | succ fuel =>
      rw [textAt?, tree?]
      cases start? text with
      | none => rfl
      | some found =>
          obtain ⟨start, rest⟩ := found
          cases start with
          | scalar scalar => cases scalar <;> rfl
          | array => simp [inside_bind, checked, Tree.string?, Option.bind_map, Function.comp_def, inside_none]
          | object => simp [inside_bind, checked, Tree.string?, Option.bind_map, Function.comp_def, inside_none]

theorem skip_checked (fuel : Nat) :
    (∀ text, skip? fuel text = (tree? fuel text).bind fun found => some found.2) ∧
    (∀ text, skipItems? fuel text = (treeItems? fuel text).bind fun found => some found.2) ∧
    (∀ text, skipMembers? fuel text = (treeMembers? fuel text).bind fun found => some found.2) := by
  induction fuel with
  | zero => exact ⟨fun _ => rfl, fun _ => rfl, fun _ => rfl⟩
  | succ fuel ih =>
      obtain ⟨values, arrays, objects⟩ := ih
      refine ⟨?_, ?_, ?_⟩
      · intro text
        rw [skip?, tree?]
        cases start? text with
        | none => rfl
        | some found =>
            obtain ⟨start, rest⟩ := found
            cases start with
            | scalar scalar => rfl
            | array => simp only [inside_bind, arrays, Option.bind_some, Option.bind_map, Function.comp_def]
            | object => simp only [inside_bind, objects, Option.bind_some, Option.bind_map, Function.comp_def]
      · intro text
        simp only [skipItems?, treeItems?, values, arrays, Option.bind_assoc, Option.bind_some, behind_bind,
          Option.bind_map, Function.comp_def]
      · intro text
        simp only [skipMembers?, treeMembers?, values, objects, Option.bind_assoc, Option.bind_some, behind_bind,
          Option.bind_map, Function.comp_def]

theorem members_nonempty (fuel : Nat) (text : List Char) (found : List (Text × Tree) × List Char)
    (reads : treeMembers? fuel text = some found) : found.1 ≠ [] := by
  cases fuel with
  | zero => cases reads
  | succ fuel =>
      simp only [treeMembers?, Option.bind_eq_some_iff] at reads
      obtain ⟨⟨key, afterColon⟩, -, ⟨value, rest⟩, -, reads⟩ := reads
      rcases behind_sound '\x7d' rest _ _ _ reads with ⟨before, after, -, -, same⟩ | ⟨before, next, -, -, reads⟩
      · cases same
        exact List.cons_ne_nil _ _
      · rw [Option.map_eq_some_iff] at reads
        obtain ⟨others, -, same⟩ := reads
        cases same
        exact List.cons_ne_nil _ _

section Kept

variable (embedded : String → Option Value)

theorem object_value_end (depth : Nat) (found : List (String × Value)) :
    objectValue? embedded depth found [] = some (.object found) := by
  rw [objectValue?]

section Member

variable (depth : Nat) (found : List (String × Value)) (key : Text) (tree : Tree) (rest : List (Text × Tree))
  (name : String) (named : key.string? = some name)

theorem object_value_unnamed (unnamed : key.string? = none) :
    objectValue? embedded depth found ((key, tree) :: rest) = none := by
  rw [objectValue?, unnamed, Option.bind_none]

include named

theorem object_value_embedded (embeds : (found.isEmpty && name == embeddingKey) = true) :
    objectValue? embedded depth found ((key, tree) :: rest) =
      if rest.isEmpty then tree.string?.bind embedded else none := by
  rw [objectValue?, named, Option.bind_some, if_pos embeds]

theorem object_value_member (ordinary : ¬ (found.isEmpty && name == embeddingKey) = true) :
    objectValue? embedded depth found ((key, tree) :: rest) =
      (tree.value? embedded depth).bind fun value => objectValue? embedded depth (insertMember name value found) rest := by
  rw [objectValue?, named, Option.bind_some, if_neg ordinary]

end Member

def KeptValues (fuel : Nat) : Prop :=
  ∀ depth text, kept? embedded fuel depth text = (tree? fuel text).bind (checked (Tree.value? embedded depth))

def KeptItems (fuel : Nat) : Prop :=
  ∀ depth text, keptItems? embedded fuel depth text = (treeItems? fuel text).bind (checked (itemValues? embedded depth))

def KeptMembers (fuel : Nat) : Prop :=
  ∀ depth found text, keptMembers? embedded fuel depth found text =
    (treeMembers? fuel text).bind (checked (objectValue? embedded depth found))

theorem kept_step (fuel : Nat) (arrays : KeptItems embedded fuel) (objects : KeptMembers embedded fuel) :
    KeptValues embedded (fuel + 1) := by
  intro depth text
  rw [kept?, tree?]
  cases start? text with
  | none => rfl
  | some found =>
      obtain ⟨start, rest⟩ := found
      cases start with
      | scalar scalar => rfl
      | array =>
          cases depth with
          | zero => simp [inside_bind, checked, Tree.value?, Option.bind_map, Function.comp_def, inside_none]
          | succ depth =>
              simp only [inside_bind, arrays depth, Option.bind_some, Option.bind_map, Option.map_bind, Function.comp_def,
                checked, Tree.value?, Option.map_map, itemValues?, Option.map_some]
      | object =>
          cases depth with
          | zero => simp [inside_bind, checked, Tree.value?, Option.bind_map, Function.comp_def, inside_none]
          | succ depth =>
              simp only [inside_bind, objects depth, Option.bind_some, Option.bind_map, Function.comp_def]
              rfl

theorem kept_items_step (fuel : Nat) (values : KeptValues embedded fuel) (arrays : KeptItems embedded fuel) :
    KeptItems embedded (fuel + 1) := by
  intro depth text
  rw [keptItems?, treeItems?, values depth, Option.bind_assoc, Option.bind_assoc]
  congr 1
  funext found
  obtain ⟨item, rest⟩ := found
  rw [behind_bind]
  cases checks : item.value? embedded depth with
  | none => simp [checked, checks, itemValues?, Option.bind_map, Function.comp_def, behind_none]
  | some value =>
      simp [checked, checks, itemValues?, arrays depth, Option.bind_map, Option.map_bind, Function.comp_def]

-- The member that is read announces a text, which has to be the last thing in the object.
theorem kept_embedded (fuel depth : Nat) (found : List (String × Value)) (key : Text) (tree : Tree) (rest : List Char)
    (name : String) (named : key.string? = some name) (embeds : (found.isEmpty && name == embeddingKey) = true) :
    ((checked Tree.string? (tree, rest)).bind fun (inner, rest) =>
      behind? '\x7d' rest (fun after => (embedded inner).map fun value => (value, after)) fun _ => none) =
    (behind? '\x7d' rest (fun after => some ([(key, tree)], after)) fun next =>
      (treeMembers? fuel next).map fun (members, after) => ((key, tree) :: members, after)).bind
        (checked (objectValue? embedded depth found)) := by
  have crowded : ∀ next, ((treeMembers? fuel next).map fun (members, after) => ((key, tree) :: members, after)).bind
      (checked (objectValue? embedded depth found)) = none := by
    intro next
    cases reads : treeMembers? fuel next with
    | none => rfl
    | some others =>
        have nonempty := members_nonempty fuel next others reads
        simp [checked, object_value_embedded embedded depth found key tree others.1 name named embeds, nonempty]
  simp only [behind_bind, crowded, Option.bind_some, checked,
    object_value_embedded embedded depth found key tree _ name named embeds, List.isEmpty_nil, if_true]
  cases tree.string? with
  | none => simp [behind_none]
  | some inner => rfl

theorem kept_members_step (fuel : Nat) (values : KeptValues embedded fuel) (objects : KeptMembers embedded fuel) :
    KeptMembers embedded (fuel + 1) := by
  intro depth found text
  rw [keptMembers?, treeMembers?, Option.bind_assoc]
  congr 1
  funext pair
  obtain ⟨key, afterColon⟩ := pair
  dsimp only
  rw [values depth, embeddedAt?, text_at_checked]
  simp only [Option.bind_assoc]
  cases tree? fuel afterColon with
  | none => cases key.string? <;> simp
  | some pair =>
      obtain ⟨tree, rest⟩ := pair
      simp only [Option.bind_some]
      cases named : key.string? with
      | none =>
          simp [behind_bind, checked, object_value_unnamed, named, Option.bind_map, Function.comp_def, behind_none]
      | some name =>
          by_cases embeds : (found.isEmpty && name == embeddingKey) = true
          · rw [Option.bind_some, if_pos embeds]
            exact kept_embedded embedded fuel depth found key tree rest name named embeds
          · rw [Option.bind_some, if_neg embeds, behind_bind]
            cases checks : tree.value? embedded depth with
            | none =>
                simp [checked, checks, object_value_member embedded depth found key tree _ name named embeds,
                  Option.bind_map, Function.comp_def, behind_none]
            | some value =>
                simp only [objects depth, checked, checks, object_value_member embedded depth found key tree _ name named embeds,
                  Option.map_some, Option.bind_some, Option.bind_map, Function.comp_def, object_value_end]
                rfl

theorem kept_checked (fuel : Nat) :
    KeptValues embedded fuel ∧ KeptItems embedded fuel ∧ KeptMembers embedded fuel := by
  induction fuel with
  | zero => exact ⟨fun _ _ => rfl, fun _ _ => rfl, fun _ _ _ => rfl⟩
  | succ fuel ih =>
      obtain ⟨values, arrays, objects⟩ := ih
      exact ⟨kept_step embedded fuel arrays objects, kept_items_step embedded fuel values arrays,
        kept_members_step embedded fuel values objects⟩

end Kept

end Devnet.Json
