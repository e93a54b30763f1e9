import Devnet.Proofs.Json.Check
import Devnet.Proofs.Json.Members

set_option autoImplicit false

namespace Devnet.Json

def Text.ofString (text : String) : Text := text.toList.map TextUnit.char

def Tree.ofString (text : String) : Tree := .scalar (.string (Text.ofString text))

def Text.IsPaired (text : Text) : Prop := ∀ code, TextUnit.surrogate code ∉ text

theorem characters_some_iff (text : Text) (chars : List Char) :
    text.mapM TextUnit.char? = some chars ↔ text = chars.map TextUnit.char := by
  induction text generalizing chars with
  | nil => cases chars <;> simp
  | cons unit text ih =>
      rw [List.mapM_cons]
      cases unit with
      | surrogate code => cases chars <;> simp [TextUnit.char?]
      | char c =>
          simp only [TextUnit.char?, bind, Option.bind_some, Option.bind_eq_some_iff, ih, pure, Option.some.injEq]
          cases chars with
          | nil => simp
          | cons first chars => simp [eq_comm, and_comm]

theorem string_some_iff (text : Text) (string : String) : text.string? = some string ↔ text = Text.ofString string := by
  rw [Text.string?, Option.map_eq_some_iff]
  simp only [characters_some_iff, Text.ofString]
  constructor
  · rintro ⟨chars, rfl, rfl⟩
    rw [String.toList_ofList]
  · rintro rfl
    exact ⟨string.toList, rfl, String.ofList_toList⟩

theorem string_of_string (string : String) : (Text.ofString string).string? = some string :=
  (string_some_iff _ string).mpr rfl

theorem of_string_injective (first second : String) (same : Text.ofString first = Text.ofString second) :
    first = second := by
  have strings := congrArg Text.string? same
  rw [string_of_string, string_of_string] at strings
  exact Option.some.inj strings

theorem paired_named (text : Text) (paired : text.IsPaired) : ∃ string, text = Text.ofString string := by
  induction text with
  | nil => exact ⟨"", rfl⟩
  | cons unit text ih =>
      obtain ⟨string, same⟩ := ih fun code inside => paired code (List.mem_cons_of_mem _ inside)
      cases unit with
      | surrogate code => exact absurd List.mem_cons_self (paired code)
      | char c =>
          refine ⟨String.ofList (c :: string.toList), ?_⟩
          rw [Text.ofString, String.toList_ofList, List.map_cons, same]
          rfl

theorem tree_string_iff (tree : Tree) (string : String) : tree.string? = some string ↔ tree = .ofString string := by
  rw [Tree.ofString]
  cases tree with
  | scalar scalar => cases scalar <;> simp [Tree.string?, string_some_iff]
  | array items => simp [Tree.string?]
  | object members => simp [Tree.string?]

mutual
def Tree.parts : Tree → List Tree
  | .scalar scalar => [.scalar scalar]
  | .array items => .array items :: itemParts items
  | .object members => .object members :: memberParts members

def itemParts : List Tree → List Tree
  | [] => []
  | item :: rest => item.parts ++ itemParts rest

def memberParts : List (Text × Tree) → List Tree
  | [] => []
  | (_, tree) :: rest => tree.parts ++ memberParts rest
end

mutual
def Tree.nesting : Tree → Nat
  | .scalar _ => 0
  | .array items => itemNesting items + 1
  | .object members => memberNesting members + 1

def itemNesting : List Tree → Nat
  | [] => 0
  | item :: rest => max item.nesting (itemNesting rest)

def memberNesting : List (Text × Tree) → Nat
  | [] => 0
  | (_, tree) :: rest => max tree.nesting (memberNesting rest)
end

theorem item_nesting_le (items : List Tree) (item : Tree) (inside : item ∈ items) : item.nesting ≤ itemNesting items := by
  induction items with
  | nil => cases inside
  | cons first rest ih =>
      rw [itemNesting]
      cases inside with
      | head => exact le_max_left _ _
      | tail _ inside => exact le_max_of_le_right (ih inside)

theorem member_nesting_le (members : List (Text × Tree)) (member : Text × Tree) (inside : member ∈ members) :
    member.2.nesting ≤ memberNesting members := by
  induction members with
  | nil => cases inside
  | cons first rest ih =>
      rw [memberNesting]
      cases inside with
      | head => exact le_max_left _ _
      | tail _ inside => exact le_max_of_le_right (ih inside)

def Tree.Everywhere (node : Tree → Prop) (tree : Tree) : Prop := ∀ part ∈ tree.parts, node part

def Tree.paired : Tree → Prop
  | .scalar (.string text) => text.IsPaired
  | .object members => ∀ member ∈ members, member.1.IsPaired
  | _ => True

def Tree.finite : Tree → Prop
  | .scalar (.number literal) => ∃ number, literal.number? = some number
  | _ => True

-- An object does not announce an embedded text by its first key.
def Tree.plain : Tree → Prop
  | .object ((key, _) :: _) => key ≠ Text.ofString embeddingKey
  | _ => True

mutual
inductive Denotes : Tree → Value → Prop where
  | null : Denotes (.scalar .null) .null
  | bool (value : Bool) : Denotes (.scalar (.bool value)) (.bool value)
  | number (literal : Literal) (number : Number) (reads : literal.number? = some number) :
      Denotes (.scalar (.number literal)) (.number number)
  | string (text : String) : Denotes (.ofString text) (.string text)
  | array (items : List Tree) (values : List Value) (each : ItemsDenote items values) :
      Denotes (.array items) (.array values)
  | object (members : List (Text × Tree)) (contents values : Members) (each : MembersDenote members contents)
      (ordered : Ordered values) (last : ∀ key, values.lookup key = contents.reverse.lookup key) :
      Denotes (.object members) (.object values)

inductive ItemsDenote : List Tree → List Value → Prop where
  | nil : ItemsDenote [] []
  | cons (item : Tree) (value : Value) (items : List Tree) (values : List Value) (first : Denotes item value)
      (rest : ItemsDenote items values) : ItemsDenote (item :: items) (value :: values)

inductive MembersDenote : List (Text × Tree) → Members → Prop where
  | nil : MembersDenote [] []
  | cons (key : String) (tree : Tree) (value : Value) (members : List (Text × Tree)) (contents : Members)
      (first : Denotes tree value) (rest : MembersDenote members contents) :
      MembersDenote ((Text.ofString key, tree) :: members) ((key, value) :: contents)
end

theorem item_parts (items : List Tree) : itemParts items = items.flatMap Tree.parts := by
  induction items with
  | nil => rfl
  | cons item rest ih => rw [itemParts, ih, List.flatMap_cons]

theorem member_parts (members : List (Text × Tree)) : memberParts members = members.flatMap fun member => member.2.parts := by
  induction members with
  | nil => rfl
  | cons member rest ih => rw [memberParts, ih, List.flatMap_cons]

section Everywhere

variable (node : Tree → Prop)

theorem everywhere_scalar_iff (scalar : Scalar) : (Tree.scalar scalar).Everywhere node ↔ node (.scalar scalar) := by
  rw [Tree.Everywhere, Tree.parts, List.forall_mem_singleton]

theorem everywhere_array_iff (items : List Tree) :
    (Tree.array items).Everywhere node ↔ node (.array items) ∧ ∀ item ∈ items, item.Everywhere node := by
  rw [Tree.Everywhere, Tree.parts, List.forall_mem_cons, item_parts, List.forall_mem_flatMap]
  rfl

theorem everywhere_object_iff (members : List (Text × Tree)) :
    (Tree.object members).Everywhere node ↔ node (.object members) ∧ ∀ member ∈ members, member.2.Everywhere node := by
  rw [Tree.Everywhere, Tree.parts, List.forall_mem_cons, member_parts, List.forall_mem_flatMap]
  rfl

theorem everywhere_array (items : List Tree) (every : (Tree.array items).Everywhere node) :
    ∀ item ∈ items, item.Everywhere node :=
  ((everywhere_array_iff node items).mp every).right

theorem everywhere_object (members : List (Text × Tree)) (every : (Tree.object members).Everywhere node) :
    node (.object members) ∧ ∀ member ∈ members, member.2.Everywhere node :=
  (everywhere_object_iff node members).mp every

end Everywhere

-- A tree has a value where its strings are characters and its numbers are finite.

mutual
theorem denotes_total (tree : Tree) (paired : tree.Everywhere Tree.paired) (finite : tree.Everywhere Tree.finite) :
    ∃ value, Denotes tree value := by
  cases tree with
  | scalar scalar =>
      cases scalar with
      | null => exact ⟨_, .null⟩
      | bool value => exact ⟨_, .bool value⟩
      | number literal =>
          obtain ⟨number, reads⟩ := finite (.scalar (.number literal)) List.mem_cons_self
          exact ⟨_, .number literal number reads⟩
      | string text =>
          obtain ⟨string, rfl⟩ := paired_named text (paired (.scalar (.string text)) List.mem_cons_self)
          exact ⟨_, .string string⟩
  | array items =>
      obtain ⟨values, each⟩ :=
        items_denote_total items (everywhere_array _ items paired) (everywhere_array _ items finite)
      exact ⟨_, .array items values each⟩
  | object members =>
      obtain ⟨keys, pairedMembers⟩ := everywhere_object _ members paired
      obtain ⟨-, finiteMembers⟩ := everywhere_object _ members finite
      obtain ⟨contents, each⟩ := members_denote_total members keys pairedMembers finiteMembers
      refine ⟨_, .object members contents (insertAll [] contents) each (insert_all_ordered [] contents .nil) ?_⟩
      intro key
      rw [lookup_insert_all, List.lookup_nil, Option.or_none]

theorem items_denote_total (items : List Tree) (paired : ∀ item ∈ items, item.Everywhere Tree.paired)
    (finite : ∀ item ∈ items, item.Everywhere Tree.finite) : ∃ values, ItemsDenote items values := by
  cases items with
  | nil => exact ⟨[], .nil⟩
  | cons item items =>
      rw [List.forall_mem_cons] at paired finite
      obtain ⟨value, first⟩ := denotes_total item paired.left finite.left
      obtain ⟨values, rest⟩ := items_denote_total items paired.right finite.right
      exact ⟨_, .cons item value items values first rest⟩

theorem members_denote_total (members : List (Text × Tree)) (keys : ∀ member ∈ members, member.1.IsPaired)
    (paired : ∀ member ∈ members, member.2.Everywhere Tree.paired)
    (finite : ∀ member ∈ members, member.2.Everywhere Tree.finite) : ∃ contents, MembersDenote members contents := by
  cases members with
  | nil => exact ⟨[], .nil⟩
  | cons member members =>
      obtain ⟨key, tree⟩ := member
      rw [List.forall_mem_cons] at keys paired finite
      obtain ⟨name, rfl⟩ := paired_named key keys.left
      obtain ⟨value, first⟩ := denotes_total tree paired.left finite.left
      obtain ⟨contents, rest⟩ := members_denote_total members keys.right paired.right finite.right
      exact ⟨_, .cons name tree value members contents first rest⟩
end

-- The check of a tree gives its value, if the tree is plain and not nested too deep. Only the first
-- member of an object can announce an embedded text.

def Announces (found : Members) (members : List (Text × Tree)) : Prop :=
  found = [] ∧ ∃ tree rest, members = (Text.ofString embeddingKey, tree) :: rest

theorem plain_announces_nothing (members : List (Text × Tree)) (plain : Tree.plain (.object members)) :
    ¬ Announces [] members := by
  rintro ⟨-, tree, rest, rfl⟩
  exact plain rfl

theorem later_announces_nothing (name : String) (value : Value) (found : Members) (members : List (Text × Tree)) :
    ¬ Announces (insertMember name value found) members := by
  rintro ⟨empty, -⟩
  have finds := lookup_insert name name value found
  rw [empty, List.lookup_nil, if_pos rfl] at finds
  cases finds

theorem ordinary_member (found : Members) (name : String) (tree : Tree) (rest : List (Text × Tree))
    (silent : ¬ Announces found ((Text.ofString name, tree) :: rest)) :
    ¬ (found.isEmpty && name == embeddingKey) = true := by
  intro announced
  simp only [Bool.and_eq_true, List.isEmpty_iff, beq_iff_eq] at announced
  obtain ⟨empty, rfl⟩ := announced
  exact silent ⟨empty, tree, rest, rfl⟩

section Value

variable (embedded : String → Option Value)

mutual
theorem value_complete (depth : Nat) (tree : Tree) (value : Value) (plain : tree.Everywhere Tree.plain)
    (shallow : tree.nesting ≤ depth) (denotes : Denotes tree value) : tree.value? embedded depth = some value := by
  cases tree with
  | scalar scalar =>
      rw [Tree.value?]
      cases denotes with
      | null => rfl
      | bool value => rfl
      | number literal number reads => rw [Scalar.value?, reads, Option.map_some]
      | string text => rw [Scalar.value?, string_of_string, Option.map_some]
  | array items =>
      cases denotes with
      | array _ values each =>
          cases depth with
          | zero => cases shallow
          | succ depth =>
              have shallowItems : itemNesting items ≤ depth := by
                rw [Tree.nesting] at shallow
                omega
              rw [Tree.value?]
              simp only [items_complete_value depth items values (everywhere_array _ items plain) shallowItems each,
                Option.map_some]
  | object members =>
      cases denotes with
      | object _ contents values each ordered last =>
          cases depth with
          | zero => cases shallow
          | succ depth =>
              have shallowMembers : memberNesting members ≤ depth := by
                rw [Tree.nesting] at shallow
                omega
              obtain ⟨here, plainMembers⟩ := everywhere_object _ members plain
              have same : insertAll [] contents = values := by
                refine ordered_determined _ values (insert_all_ordered [] contents .nil) ordered ?_
                intro key
                rw [lookup_insert_all, List.lookup_nil, Option.or_none, last]
              rw [Tree.value?]
              simp only [members_complete_value depth [] members contents (plain_announces_nothing members here)
                plainMembers shallowMembers each, same]

theorem items_complete_value (depth : Nat) (items : List Tree) (values : List Value)
    (plain : ∀ item ∈ items, item.Everywhere Tree.plain) (shallow : itemNesting items ≤ depth)
    (denote : ItemsDenote items values) : itemValues? embedded depth items = some values := by
  cases items with
  | nil =>
      cases denote
      rw [itemValues?]
  | cons item items =>
      cases denote with
      | cons _ value _ values first rest =>
          rw [List.forall_mem_cons] at plain
          rw [itemNesting] at shallow
          rw [itemValues?, value_complete depth item value plain.left (by omega) first,
            items_complete_value depth items values plain.right (by omega) rest]
          rfl

theorem members_complete_value (depth : Nat) (found : Members) (members : List (Text × Tree)) (contents : Members)
    (silent : ¬ Announces found members) (plain : ∀ member ∈ members, member.2.Everywhere Tree.plain)
    (shallow : memberNesting members ≤ depth) (denote : MembersDenote members contents) :
    objectValue? embedded depth found members = some (.object (insertAll found contents)) := by
  cases members with
  | nil =>
      cases denote
      rw [object_value_end]
      rfl
  | cons member members =>
      cases denote with
      | cons name tree value _ contents first rest =>
          rw [List.forall_mem_cons] at plain
          rw [memberNesting] at shallow
          rw [object_value_member embedded depth found _ tree members name (string_of_string name)
              (ordinary_member found name tree members silent),
            value_complete depth tree value plain.left (by omega) first, Option.bind_some,
            members_complete_value depth (insertMember name value found) members contents
              (later_announces_nothing name value found members) plain.right (by omega) rest]
          rfl
end

theorem scalar_sound_value (scalar : Scalar) (value : Value) (reads : scalar.value? = some value) :
    Denotes (.scalar scalar) value := by
  cases scalar with
  | null =>
      cases reads
      exact .null
  | bool flag =>
      cases reads
      exact .bool flag
  | number literal =>
      rw [Scalar.value?, Option.map_eq_some_iff] at reads
      obtain ⟨number, reads, rfl⟩ := reads
      exact .number literal number reads
  | string text =>
      rw [Scalar.value?, Option.map_eq_some_iff] at reads
      obtain ⟨string, reads, rfl⟩ := reads
      rw [(string_some_iff text string).mp reads]
      exact .string string

mutual
theorem value_sound (depth : Nat) (tree : Tree) (value : Value) (plain : tree.Everywhere Tree.plain)
    (reads : tree.value? embedded depth = some value) : tree.nesting ≤ depth ∧ Denotes tree value := by
  cases tree with
  | scalar scalar =>
      rw [Tree.value?] at reads
      exact ⟨Nat.zero_le depth, scalar_sound_value scalar value reads⟩
  | array items =>
      cases depth with
      | zero => simp [Tree.value?] at reads
      | succ depth =>
          rw [Tree.value?, Option.map_eq_some_iff] at reads
          obtain ⟨values, reads, rfl⟩ := reads
          obtain ⟨shallow, each⟩ := items_sound_value depth items values (everywhere_array _ items plain) reads
          exact ⟨Nat.succ_le_succ shallow, .array items values each⟩
  | object members =>
      cases depth with
      | zero => simp [Tree.value?] at reads
      | succ depth =>
          rw [Tree.value?] at reads
          obtain ⟨here, plainMembers⟩ := everywhere_object _ members plain
          obtain ⟨shallow, contents, each, rfl⟩ := members_sound_value depth [] members value
            (plain_announces_nothing members here) plainMembers reads
          refine ⟨Nat.succ_le_succ shallow, .object members contents _ each (insert_all_ordered [] contents .nil) ?_⟩
          intro key
          rw [lookup_insert_all, List.lookup_nil, Option.or_none]

theorem items_sound_value (depth : Nat) (items : List Tree) (values : List Value)
    (plain : ∀ item ∈ items, item.Everywhere Tree.plain) (reads : itemValues? embedded depth items = some values) :
    itemNesting items ≤ depth ∧ ItemsDenote items values := by
  cases items with
  | nil =>
      rw [itemValues?] at reads
      cases reads
      exact ⟨Nat.zero_le depth, .nil⟩
  | cons item items =>
      rw [List.forall_mem_cons] at plain
      simp only [itemValues?, Option.bind_eq_some_iff, Option.map_eq_some_iff] at reads
      obtain ⟨value, readsFirst, others, readsRest, rfl⟩ := reads
      obtain ⟨shallowFirst, first⟩ := value_sound depth item value plain.left readsFirst
      obtain ⟨shallowRest, rest⟩ := items_sound_value depth items others plain.right readsRest
      exact ⟨max_le shallowFirst shallowRest, .cons item value items others first rest⟩

theorem members_sound_value (depth : Nat) (found : Members) (members : List (Text × Tree)) (value : Value)
    (silent : ¬ Announces found members) (plain : ∀ member ∈ members, member.2.Everywhere Tree.plain)
    (reads : objectValue? embedded depth found members = some value) :
    memberNesting members ≤ depth ∧
      ∃ contents, MembersDenote members contents ∧ value = .object (insertAll found contents) := by
  cases members with
  | nil =>
      rw [object_value_end] at reads
      cases reads
      exact ⟨Nat.zero_le depth, [], .nil, rfl⟩
  | cons member members =>
      obtain ⟨key, tree⟩ := member
      rw [List.forall_mem_cons] at plain
      cases named : key.string? with
      | none =>
          rw [object_value_unnamed embedded depth found key tree members named] at reads
          cases reads
      | some name =>
          have same := (string_some_iff key name).mp named
          subst same
          rw [object_value_member embedded depth found _ tree members name named
            (ordinary_member found name tree members silent), Option.bind_eq_some_iff] at reads
          obtain ⟨here, readsFirst, readsRest⟩ := reads
          obtain ⟨shallowFirst, first⟩ := value_sound depth tree here plain.left readsFirst
          obtain ⟨shallowRest, contents, rest, rfl⟩ := members_sound_value depth (insertMember name here found) members
            value (later_announces_nothing name here found members) plain.right readsRest
          exact ⟨max_le shallowFirst shallowRest, (name, here) :: contents,
            .cons name tree here members contents first rest, rfl⟩
end

theorem value_iff (depth : Nat) (tree : Tree) (value : Value) (plain : tree.Everywhere Tree.plain) :
    tree.value? embedded depth = some value ↔ tree.nesting ≤ depth ∧ Denotes tree value := by
  constructor
  · exact value_sound embedded depth tree value plain
  · rintro ⟨shallow, denotes⟩
    exact value_complete embedded depth tree value plain shallow denotes

end Value

end Devnet.Json
