import Devnet.Proofs.Json.Printed
import Devnet.Proofs.Text.Decimal

set_option autoImplicit false

namespace Devnet.Json

structure Literal.IsIntegral (literal : Literal) : Prop where
  unbroken : literal.fraction = none
  unscaled : literal.exponent = none
  small : ∃ n, Numeral.Spells 10 literal.whole n ∧ if literal.negative then 0 < n ∧ n ≤ 2 ^ 63 else n < 2 ^ 64

def Tree.integral : Tree → Prop
  | .scalar (.number literal) => literal.IsIntegral
  | _ => True

-- An object does not announce an embedded text once its members are in order.
def Tree.unannounced : Tree → Prop
  | .object members =>
      Text.ofString embeddingKey ∈ members.map Prod.fst →
        ∃ key, Text.ofString key ∈ members.map Prod.fst ∧ Utf8.encode key < Utf8.encode embeddingKey
  | _ => True

-- The grammar allows no zeros in front of a number.
def Tree.unpadded : Tree → Prop
  | .scalar (.number literal) => WholeText literal.whole
  | _ => True

def Tree.regular (part : Tree) : Prop := part.unpadded ∧ part.integral ∧ part.unannounced

theorem integral_literal (literal : Literal) (whole : WholeText literal.whole) (integral : literal.IsIntegral) :
    ∃ value, IsWord value ∧ literal = literalOf value := by
  obtain ⟨negative, digits, fraction, exponent⟩ := literal
  obtain ⟨rfl, rfl, n, spells, small⟩ := integral
  have same := Numeral.decimal_unique digits n spells whole.canonical
  cases negative with
  | true =>
      simp only [if_pos] at small
      refine ⟨-n, (is_word_iff _).mpr ⟨by omega, by omega⟩, ?_⟩
      rw [literalOf, Int.natAbs_neg, Int.natAbs_natCast, same, decide_eq_true (by omega)]
  | false =>
      simp only [Bool.false_eq_true, if_false] at small
      refine ⟨n, (is_word_iff _).mpr ⟨by omega, by omega⟩, ?_⟩
      rw [literalOf, Int.natAbs_natCast, same, decide_eq_false (by omega)]

theorem number_unpadded (chars : List Char) (scalar : Scalar) (valid : ScalarText chars scalar) :
    Tree.unpadded (.scalar scalar) := by
  cases valid with
  | number chars literal valid =>
      cases valid with
      | mk _ _ _ _ _ _ whole _ _ => exact whole
  | _ => trivial

mutual
theorem value_unpadded (chars : List Char) (tree : Tree) (valid : ValueText chars tree) : tree.Everywhere Tree.unpadded := by
  cases tree with
  | scalar scalar =>
      cases valid with
      | scalar _ _ valid => exact (everywhere_scalar_iff _ _).mpr (number_unpadded chars scalar valid)
  | array items =>
      refine (everywhere_array_iff _ _).mpr ⟨trivial, ?_⟩
      cases items with
      | nil => exact List.forall_mem_nil _
      | cons item items =>
          obtain ⟨pieces, -, each⟩ := pieces_of_array chars _ (List.cons_ne_nil _ _) valid
          exact items_unpadded pieces (item :: items) each
  | object members =>
      refine (everywhere_object_iff _ _).mpr ⟨trivial, ?_⟩
      cases members with
      | nil => exact List.forall_mem_nil _
      | cons member members =>
          obtain ⟨pieces, -, each⟩ := pieces_of_object chars _ (List.cons_ne_nil _ _) valid
          exact members_unpadded pieces (member :: members) each

theorem items_unpadded (pieces : List (List Char)) (items : List Tree) (each : List.Forall₂ ElementText pieces items) :
    ∀ item ∈ items, item.Everywhere Tree.unpadded := by
  cases items with
  | nil => exact List.forall_mem_nil _
  | cons item items =>
      cases each with
      | cons element others =>
          obtain ⟨_, chars, _, _, _, valid, _⟩ := element
          exact List.forall_mem_cons.mpr ⟨value_unpadded chars item valid, items_unpadded _ items others⟩

theorem members_unpadded (pieces : List (List Char)) (members : List (Text × Tree))
    (each : List.Forall₂ MemberText pieces members) : ∀ member ∈ members, member.2.Everywhere Tree.unpadded := by
  cases members with
  | nil => exact List.forall_mem_nil _
  | cons member members =>
      obtain ⟨key, tree⟩ := member
      cases each with
      | cons written others =>
          obtain ⟨_, _, _, _, _, ⟨_, chars, _, _, _, valid, _⟩⟩ := written
          exact List.forall_mem_cons.mpr ⟨value_unpadded chars tree valid, members_unpadded _ members others⟩
end

theorem members_denote_keys (members : List (Text × Tree)) (contents : Members) (each : MembersDenote members contents) :
    members.map Prod.fst = contents.map fun content => Text.ofString content.1 := by
  induction members generalizing contents with
  | nil =>
      cases each
      rfl
  | cons member members ih =>
      cases each with
      | cons key tree value _ contents _ rest => rw [List.map_cons, List.map_cons, ih contents rest]

theorem lookup_mem (members : Members) (key : String) (value : Value) (finds : members.lookup key = some value) :
    (key, value) ∈ members := by
  obtain ⟨before, after, rfl, -⟩ := List.lookup_eq_some_iff.mp finds
  simp

theorem lookup_of_mem (members : Members) (ordered : Ordered members) (key : String) (value : Value)
    (inside : (key, value) ∈ members) : members.lookup key = some value := by
  induction members with
  | nil => cases inside
  | cons member rest ih =>
      obtain ⟨name, found⟩ := member
      obtain ⟨above, ordered⟩ := List.pairwise_cons.mp ordered
      rw [lookup_member]
      cases inside with
      | head => rw [if_pos rfl]
      | tail _ inside => rw [if_neg (ne_of_gt (above _ inside)), ih ordered inside]

theorem lookup_of_key (members : Members) (key : String) (given : key ∈ members.map Prod.fst) :
    ∃ value, members.lookup key = some value := by
  induction members with
  | nil => cases given
  | cons member rest ih =>
      obtain ⟨name, found⟩ := member
      rw [lookup_member]
      by_cases same : key = name
      · exact ⟨found, if_pos same⟩
      · obtain ⟨value, finds⟩ := ih ((List.mem_cons.mp given).resolve_left same)
        exact ⟨value, (if_neg same).trans finds⟩

section Object

variable (members : List (Text × Tree)) (contents values : Members) (ordered : Ordered values)
  (last : ∀ key, values.lookup key = contents.reverse.lookup key)
include ordered last

theorem value_of_content (member : String × Value) (inside : member ∈ values) : member ∈ contents := by
  have finds := lookup_of_mem values ordered member.1 member.2 inside
  rw [last] at finds
  exact List.mem_reverse.mp (lookup_mem _ _ _ finds)

theorem ordered_silent (each : MembersDenote members contents) (unannounced : Tree.unannounced (.object members))
    (value : Value) (rest : Members) : values ≠ (embeddingKey, value) :: rest := by
  rintro rfl
  have keys := members_denote_keys members contents each
  have announced : Text.ofString embeddingKey ∈ members.map Prod.fst := by
    rw [keys]
    exact List.mem_map.mpr ⟨_, value_of_content contents _ ordered last _ List.mem_cons_self, rfl⟩
  obtain ⟨key, given, less⟩ := unannounced announced
  rw [keys] at given
  obtain ⟨content, listed, same⟩ := List.mem_map.mp given
  have named : key ∈ contents.reverse.map Prod.fst := by
    rw [← of_string_injective _ _ same]
    exact List.mem_map_of_mem (List.mem_reverse.mpr listed)
  obtain ⟨found, finds⟩ := lookup_of_key contents.reverse key named
  rw [← last] at finds
  exact absurd (head_least _ key value found rest ordered finds) (not_le_of_gt ((Utf8.encode_lt_iff _ _).mp less))

end Object

section Announcing

-- An object that announces an embedded text holds nothing else, so that it announces it in any order.

variable (embedded : String → Option Value)

theorem object_plain (depth : Nat) (members : List (Text × Tree)) (value : Value)
    (reads : objectValue? embedded depth [] members = some value) (unannounced : Tree.unannounced (.object members)) :
    Tree.plain (.object members) := by
  cases members with
  | nil => trivial
  | cons member rest =>
      obtain ⟨key, tree⟩ := member
      rintro rfl
      rw [object_value_embedded embedded depth [] _ tree rest embeddingKey (string_of_string _) (by decide),
        Option.ite_none_right_eq_some, List.isEmpty_iff] at reads
      obtain ⟨rfl, -⟩ := reads
      obtain ⟨key, given, less⟩ := unannounced List.mem_cons_self
      obtain rfl := of_string_injective _ _ (List.mem_singleton.mp given)
      exact List.lt_irrefl _ less

mutual
theorem value_read_plain (depth : Nat) (tree : Tree) (value : Value) (reads : tree.value? embedded depth = some value)
    (unannounced : tree.Everywhere Tree.unannounced) : tree.Everywhere Tree.plain := by
  cases tree with
  | scalar scalar => exact (everywhere_scalar_iff _ _).mpr trivial
  | array items =>
      cases depth with
      | zero => simp [Tree.value?] at reads
      | succ depth =>
          rw [Tree.value?, Option.map_eq_some_iff] at reads
          obtain ⟨values, reads, -⟩ := reads
          exact (everywhere_array_iff _ _).mpr
            ⟨trivial, items_read_plain depth items values reads (everywhere_array _ items unannounced)⟩
  | object members =>
      cases depth with
      | zero => simp [Tree.value?] at reads
      | succ depth =>
          rw [Tree.value?] at reads
          obtain ⟨here, inside⟩ := everywhere_object _ members unannounced
          have plain := object_plain embedded depth members value reads here
          exact (everywhere_object_iff _ _).mpr
            ⟨plain, members_read_plain depth [] members value (plain_announces_nothing members plain) reads inside⟩

theorem items_read_plain (depth : Nat) (items : List Tree) (values : List Value)
    (reads : itemValues? embedded depth items = some values)
    (unannounced : ∀ item ∈ items, item.Everywhere Tree.unannounced) : ∀ item ∈ items, item.Everywhere Tree.plain := by
  cases items with
  | nil => exact List.forall_mem_nil _
  | cons item items =>
      rw [List.forall_mem_cons] at unannounced
      simp only [itemValues?, Option.bind_eq_some_iff, Option.map_eq_some_iff] at reads
      obtain ⟨value, readsFirst, others, readsRest, -⟩ := reads
      exact List.forall_mem_cons.mpr ⟨value_read_plain depth item value readsFirst unannounced.left,
        items_read_plain depth items others readsRest unannounced.right⟩

theorem members_read_plain (depth : Nat) (found : Members) (members : List (Text × Tree)) (value : Value)
    (silent : ¬ Announces found members) (reads : objectValue? embedded depth found members = some value)
    (unannounced : ∀ member ∈ members, member.2.Everywhere Tree.unannounced) :
    ∀ member ∈ members, member.2.Everywhere Tree.plain := by
  cases members with
  | nil => exact List.forall_mem_nil _
  | cons member members =>
      obtain ⟨key, tree⟩ := member
      rw [List.forall_mem_cons] at unannounced
      cases named : key.string? with
      | none =>
          rw [object_value_unnamed embedded depth found key tree members named] at reads
          cases reads
      | some name =>
          obtain rfl := (string_some_iff key name).mp named
          rw [object_value_member embedded depth found _ tree members name named
            (ordinary_member found name tree members silent), Option.bind_eq_some_iff] at reads
          obtain ⟨here, readsFirst, readsRest⟩ := reads
          exact List.forall_mem_cons.mpr ⟨value_read_plain depth tree here readsFirst unannounced.left,
            members_read_plain depth (insertMember name here found) members value
              (later_announces_nothing name here found members) readsRest unannounced.right⟩
end

end Announcing

mutual
theorem denoted_canonical (tree : Tree) (value : Value) (depth : Nat) (shallow : tree.nesting ≤ depth)
    (denotes : Denotes tree value) (regular : tree.Everywhere Tree.regular) : Canonical depth value := by
  cases tree with
  | scalar scalar =>
      cases denotes with
      | null => exact .null depth
      | bool value => exact .bool depth value
      | string text => exact .string depth text
      | number literal number reads =>
          obtain ⟨unpadded, integral, -⟩ := (everywhere_scalar_iff _ _).mp regular
          obtain ⟨value, word, rfl⟩ := integral_literal literal unpadded integral
          rw [integer_read value word] at reads
          exact Option.some.inj reads ▸ .integer depth value word
  | array items =>
      cases denotes with
      | array _ values each =>
          cases depth with
          | zero => cases shallow
          | succ depth =>
              exact .array depth values
                (items_canonical items values depth (Nat.le_of_succ_le_succ shallow) each (everywhere_array _ items regular))
  | object members =>
      cases denotes with
      | object _ contents values each ordered last =>
          cases depth with
          | zero => cases shallow
          | succ depth =>
              obtain ⟨⟨-, -, unannounced⟩, regular⟩ := everywhere_object _ members regular
              have canonical := members_canonical members contents depth (Nat.le_of_succ_le_succ shallow) each regular
              exact .object depth values ((increasing_ordered values).mpr ordered)
                (ordered_silent members contents values ordered last each unannounced)
                fun member inside => canonical member (value_of_content contents values ordered last member inside)

theorem items_canonical (items : List Tree) (values : List Value) (depth : Nat) (shallow : itemNesting items ≤ depth)
    (each : ItemsDenote items values) (regular : ∀ item ∈ items, item.Everywhere Tree.regular) :
    ∀ value ∈ values, Canonical depth value := by
  cases items with
  | nil =>
      cases each
      exact List.forall_mem_nil _
  | cons item items =>
      cases each with
      | cons _ value _ values first rest =>
          rw [List.forall_mem_cons] at regular
          rw [itemNesting, max_le_iff] at shallow
          exact List.forall_mem_cons.mpr ⟨denoted_canonical item value depth shallow.left first regular.left,
            items_canonical items values depth shallow.right rest regular.right⟩

theorem members_canonical (members : List (Text × Tree)) (contents : Members) (depth : Nat)
    (shallow : memberNesting members ≤ depth) (each : MembersDenote members contents)
    (regular : ∀ member ∈ members, member.2.Everywhere Tree.regular) : ∀ content ∈ contents, Canonical depth content.2 := by
  cases members with
  | nil =>
      cases each
      exact List.forall_mem_nil _
  | cons member members =>
      cases each with
      | cons key tree value _ contents first rest =>
          rw [List.forall_mem_cons] at regular
          rw [memberNesting, max_le_iff] at shallow
          exact List.forall_mem_cons.mpr ⟨denoted_canonical tree value depth shallow.left first regular.left,
            members_canonical members contents depth shallow.right rest regular.right⟩
end

end Devnet.Json
