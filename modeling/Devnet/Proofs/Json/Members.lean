import Devnet.Json.Value
import Mathlib.Data.String.Basic

set_option autoImplicit false

namespace Devnet.Json

abbrev Members := List (String × Value)

def Ordered (members : Members) : Prop := members.Pairwise fun first second => first.1 < second.1

def insertAll (found contents : Members) : Members :=
  contents.foldl (fun found member => insertMember member.1 member.2 found) found

theorem insert_member_mem (key : String) (value : Value) (members : Members) (member : String × Value)
    (inside : member ∈ insertMember key value members) : member.1 = key ∨ member ∈ members := by
  induction members with
  | nil =>
      rw [insertMember, List.mem_singleton] at inside
      exact .inl (by rw [inside])
  | cons head rest ih =>
      obtain ⟨other, old⟩ := head
      rw [insertMember] at inside
      by_cases same : key = other
      · rw [if_pos same] at inside
        cases inside with
        | head => exact .inl rfl
        | tail _ inside => exact .inr (List.mem_cons_of_mem _ inside)
      · by_cases before : key < other
        · rw [if_neg same, if_pos before] at inside
          cases inside with
          | head => exact .inl rfl
          | tail _ inside => exact .inr inside
        · rw [if_neg same, if_neg before] at inside
          cases inside with
          | head => exact .inr List.mem_cons_self
          | tail _ inside =>
              rcases ih inside with named | inside
              · exact .inl named
              · exact .inr (List.mem_cons_of_mem _ inside)

theorem insert_member_ordered (key : String) (value : Value) (members : Members) (ordered : Ordered members) :
    Ordered (insertMember key value members) := by
  induction members with
  | nil => exact List.pairwise_singleton _ _
  | cons head rest ih =>
      obtain ⟨other, old⟩ := head
      obtain ⟨above, ordered⟩ := List.pairwise_cons.mp ordered
      rw [insertMember]
      by_cases same : key = other
      · rw [if_pos same, same]
        exact List.pairwise_cons.mpr ⟨above, ordered⟩
      · by_cases before : key < other
        · rw [if_neg same, if_pos before]
          refine List.pairwise_cons.mpr ⟨?_, List.pairwise_cons.mpr ⟨above, ordered⟩⟩
          intro member inside
          cases inside with
          | head => exact before
          | tail _ inside => exact lt_trans before (above member inside)
        · rw [if_neg same, if_neg before]
          refine List.pairwise_cons.mpr ⟨?_, ih ordered⟩
          intro member inside
          rcases insert_member_mem key value rest member inside with named | inside
          · have after : other < key := lt_of_le_of_ne (le_of_not_gt before) (Ne.symm same)
            exact named ▸ after
          · exact above member inside

theorem insert_all_ordered (found contents : Members) (ordered : Ordered found) :
    Ordered (insertAll found contents) := by
  induction contents generalizing found with
  | nil => exact ordered
  | cons member contents ih => exact ih _ (insert_member_ordered member.1 member.2 found ordered)

theorem lookup_member (name key : String) (value : Value) (rest : Members) :
    List.lookup name ((key, value) :: rest) = if name = key then some value else rest.lookup name := by
  rw [List.lookup_cons]
  by_cases same : name = key
  · simp [same]
  · rw [if_neg same, beq_false_of_ne same]

theorem lookup_insert (key name : String) (value : Value) (members : Members) :
    (insertMember key value members).lookup name = if name = key then some value else members.lookup name := by
  induction members with
  | nil => rw [insertMember, lookup_member]
  | cons head rest ih =>
      obtain ⟨other, old⟩ := head
      rw [insertMember]
      by_cases same : key = other
      · rw [if_pos same, lookup_member, lookup_member, same]
        by_cases hit : name = other
        · rw [if_pos hit, if_pos hit]
        · rw [if_neg hit, if_neg hit, if_neg hit]
      · by_cases before : key < other
        · rw [if_neg same, if_pos before, lookup_member]
        · rw [if_neg same, if_neg before, lookup_member, ih, lookup_member]
          by_cases hit : name = key
          · rw [if_pos hit, if_pos hit, hit, if_neg same]
          · rw [if_neg hit, if_neg hit]

theorem lookup_insert_all (found contents : Members) (name : String) :
    (insertAll found contents).lookup name = (contents.reverse.lookup name).or (found.lookup name) := by
  induction contents generalizing found with
  | nil => rfl
  | cons member contents ih =>
      obtain ⟨key, value⟩ := member
      have step := ih (insertMember key value found)
      rw [insertAll, List.foldl_cons, ← insertAll, step, lookup_insert, List.reverse_cons, List.lookup_append,
        lookup_member, Option.or_assoc]
      by_cases same : name = key
      · rw [if_pos same, if_pos same, Option.some_or]
      · rw [if_neg same, if_neg same, List.lookup_nil, Option.none_or]

theorem lookup_above (members : Members) (name : String) (above : ∀ member ∈ members, name < member.1) :
    members.lookup name = none := by
  induction members with
  | nil => rfl
  | cons head rest ih =>
      obtain ⟨key, value⟩ := head
      have apart : name ≠ key := ne_of_lt (above (key, value) List.mem_cons_self)
      rw [lookup_member, if_neg apart]
      exact ih fun member inside => above member (List.mem_cons_of_mem _ inside)

theorem head_least (key name : String) (value found : Value) (members : Members)
    (ordered : Ordered ((key, value) :: members)) (finds : List.lookup name ((key, value) :: members) = some found) :
    key ≤ name := by
  obtain ⟨above, -⟩ := List.pairwise_cons.mp ordered
  by_contra below
  have apart : name ≠ key := ne_of_lt (lt_of_not_ge below)
  have absent := lookup_above members name fun member inside => lt_trans (lt_of_not_ge below) (above member inside)
  rw [lookup_member, if_neg apart, absent] at finds
  cases finds

theorem ordered_determined (first second : Members) (firstOrdered : Ordered first) (secondOrdered : Ordered second)
    (same : ∀ name, first.lookup name = second.lookup name) : first = second := by
  induction first generalizing second with
  | nil =>
      cases second with
      | nil => rfl
      | cons head rest =>
          obtain ⟨key, value⟩ := head
          have finds := same key
          rw [List.lookup_nil, lookup_member, if_pos rfl] at finds
          cases finds
  | cons head rest ih =>
      obtain ⟨key, value⟩ := head
      cases second with
      | nil =>
          have finds := same key
          rw [List.lookup_nil, lookup_member, if_pos rfl] at finds
          cases finds
      | cons head others =>
          obtain ⟨other, old⟩ := head
          have here : List.lookup key ((key, value) :: rest) = some value := by rw [lookup_member, if_pos rfl]
          have there : List.lookup other ((other, old) :: others) = some old := by rw [lookup_member, if_pos rfl]
          have below := head_least other key old value others secondOrdered ((same key).symm.trans here)
          have above := head_least key other value old rest firstOrdered ((same other).trans there)
          have keys : key = other := le_antisymm above below
          subst keys
          have values : value = old := Option.some.inj (here.symm.trans ((same key).trans there))
          subst values
          obtain ⟨restAbove, restOrdered⟩ := List.pairwise_cons.mp firstOrdered
          obtain ⟨othersAbove, othersOrdered⟩ := List.pairwise_cons.mp secondOrdered
          have rests : ∀ name, rest.lookup name = others.lookup name := by
            intro name
            by_cases hit : name = key
            · rw [hit, lookup_above rest key restAbove, lookup_above others key othersAbove]
            · have finds := same name
              rw [lookup_member, lookup_member, if_neg hit, if_neg hit] at finds
              exact finds
          rw [ih others restOrdered othersOrdered rests]

end Devnet.Json
