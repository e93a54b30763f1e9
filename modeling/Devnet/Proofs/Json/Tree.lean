import Devnet.Proofs.Json.Structure

set_option autoImplicit false

namespace Devnet.Json

inductive Tree where
  | scalar (scalar : Scalar)
  | array (items : List Tree)
  | object (members : List (Text × Tree))
  deriving Repr

-- An element is a value with the blanks around it; a whole text is one, too.
mutual
inductive ValueText : List Char → Tree → Prop where
  | scalar (chars : List Char) (scalar : Scalar) (valid : ScalarText chars scalar) : ValueText chars (.scalar scalar)
  | emptyArray (between : List Char) (blank : Blanks between) : ValueText ('[' :: (between ++ [']'])) (.array [])
  | array (chars : List Char) (items : List Tree) (valid : ItemsText chars items) :
      ValueText ('[' :: (chars ++ [']'])) (.array items)
  | emptyObject (between : List Char) (blank : Blanks between) :
      ValueText ('\x7b' :: (between ++ ['\x7d'])) (.object [])
  | object (chars : List Char) (members : List (Text × Tree)) (valid : MembersText chars members) :
      ValueText ('\x7b' :: (chars ++ ['\x7d'])) (.object members)

inductive ElementText : List Char → Tree → Prop where
  | mk (before chars after : List Char) (tree : Tree) (blankBefore : Blanks before) (valid : ValueText chars tree)
      (blankAfter : Blanks after) : ElementText (before ++ (chars ++ after)) tree

inductive ItemsText : List Char → List Tree → Prop where
  | last (chars : List Char) (item : Tree) (valid : ElementText chars item) : ItemsText chars [item]
  | cons (chars more : List Char) (item : Tree) (items : List Tree) (valid : ElementText chars item)
      (rest : ItemsText more items) : ItemsText (chars ++ ',' :: more) (item :: items)

inductive MembersText : List Char → List (Text × Tree) → Prop where
  | last (keyChars chars : List Char) (key : Text) (value : Tree) (keyValid : KeyText keyChars key)
      (valid : ElementText chars value) : MembersText (keyChars ++ ':' :: chars) [(key, value)]
  | cons (keyChars chars more : List Char) (key : Text) (value : Tree) (members : List (Text × Tree))
      (keyValid : KeyText keyChars key) (valid : ElementText chars value) (rest : MembersText more members) :
      MembersText (keyChars ++ ':' :: (chars ++ ',' :: more)) ((key, value) :: members)
end

mutual
def tree? : Nat → List Char → Option (Tree × List Char)
  | 0, _ => none
  | fuel + 1, text =>
      match start? text with
      | none => none
      | some (.scalar scalar, rest) => some (.scalar scalar, rest)
      | some (.array, rest) =>
          inside? ']' rest (fun after => some (.array [], after)) fun rest =>
            (treeItems? fuel rest).map fun (items, after) => (.array items, after)
      | some (.object, rest) =>
          inside? '\x7d' rest (fun after => some (.object [], after)) fun rest =>
            (treeMembers? fuel rest).map fun (members, after) => (.object members, after)

def treeItems? : Nat → List Char → Option (List Tree × List Char)
  | 0, _ => none
  | fuel + 1, text =>
      (tree? fuel text).bind fun (item, rest) =>
        behind? ']' rest (fun after => some ([item], after)) fun next =>
          (treeItems? fuel next).map fun (items, after) => (item :: items, after)

def treeMembers? : Nat → List Char → Option (List (Text × Tree) × List Char)
  | 0, _ => none
  | fuel + 1, text =>
      (key? text).bind fun (key, afterColon) =>
        (tree? fuel afterColon).bind fun (value, rest) =>
          behind? '\x7d' rest (fun after => some ([(key, value)], after)) fun next =>
            (treeMembers? fuel next).map fun (members, after) => ((key, value) :: members, after)
end

def Tree.parse? (text : String) : Option Tree := document? tree? text

def ReadsValue (text rest : List Char) (tree : Tree) : Prop :=
  ∃ before chars, Blanks before ∧ text = before ++ (chars ++ rest) ∧ ValueText chars tree

def ReadsItems (text rest : List Char) (items : List Tree) : Prop :=
  ∃ chars, text = chars ++ ']' :: rest ∧ ItemsText chars items

def ReadsMembers (text rest : List Char) (members : List (Text × Tree)) : Prop :=
  ∃ chars, text = chars ++ '\x7d' :: rest ∧ MembersText chars members

section Sound

variable (fuel : Nat)
  (values : ∀ text rest tree, tree? fuel text = some (tree, rest) → ReadsValue text rest tree)
  (arrays : ∀ text rest items, treeItems? fuel text = some (items, rest) → ReadsItems text rest items)
  (objects : ∀ text rest members, treeMembers? fuel text = some (members, rest) → ReadsMembers text rest members)

include arrays objects in
theorem tree_sound_step (text rest : List Char) (tree : Tree) (reads : tree? (fuel + 1) text = some (tree, rest)) :
    ReadsValue text rest tree := by
  rw [tree?] at reads
  split at reads
  · cases reads
  · rename_i scalar after start
    cases reads
    obtain ⟨before, chars, blank, split, valid⟩ := start_scalar_sound text rest scalar start
    exact ⟨before, chars, blank, split, .scalar chars scalar valid⟩
  · rename_i opened start
    obtain ⟨before, blank, split⟩ := start_array_sound text opened start
    rcases inside_sound ']' opened _ _ _ reads with ⟨between, after, blankBetween, closed, same⟩ | reads
    · cases same
      exact ⟨before, _, blank, by rw [split, closed]; simp, .emptyArray between blankBetween⟩
    · rw [Option.map_eq_some_iff] at reads
      obtain ⟨⟨items, after⟩, reads, same⟩ := reads
      cases same
      obtain ⟨chars, closed, valid⟩ := arrays opened rest items reads
      exact ⟨before, _, blank, by rw [split, closed]; simp, .array chars items valid⟩
  · rename_i opened start
    obtain ⟨before, blank, split⟩ := start_object_sound text opened start
    rcases inside_sound '\x7d' opened _ _ _ reads with ⟨between, after, blankBetween, closed, same⟩ | reads
    · cases same
      exact ⟨before, _, blank, by rw [split, closed]; simp, .emptyObject between blankBetween⟩
    · rw [Option.map_eq_some_iff] at reads
      obtain ⟨⟨members, after⟩, reads, same⟩ := reads
      cases same
      obtain ⟨chars, closed, valid⟩ := objects opened rest members reads
      exact ⟨before, _, blank, by rw [split, closed]; simp, .object chars members valid⟩

include values arrays in
theorem items_sound_step (text rest : List Char) (items : List Tree)
    (reads : treeItems? (fuel + 1) text = some (items, rest)) : ReadsItems text rest items := by
  rw [treeItems?, Option.bind_eq_some_iff] at reads
  obtain ⟨⟨item, left⟩, readsItem, reads⟩ := reads
  obtain ⟨before, chars, blankBefore, split, valid⟩ := values text left item readsItem
  rcases behind_sound ']' left _ _ _ reads with
    ⟨between, after, blankAfter, closed, same⟩ | ⟨between, next, blankAfter, separated, reads⟩
  · cases same
    exact ⟨_, by rw [split, closed]; simp, .last _ item (.mk before chars between item blankBefore valid blankAfter)⟩
  · rw [Option.map_eq_some_iff] at reads
    obtain ⟨⟨items, after⟩, reads, same⟩ := reads
    cases same
    obtain ⟨others, closed, others_valid⟩ := arrays next rest items reads
    exact ⟨_, by rw [split, separated, closed]; simp,
      .cons _ others item items (.mk before chars between item blankBefore valid blankAfter) others_valid⟩

include values objects in
theorem members_sound_step (text rest : List Char) (members : List (Text × Tree))
    (reads : treeMembers? (fuel + 1) text = some (members, rest)) : ReadsMembers text rest members := by
  simp only [treeMembers?, Option.bind_eq_some_iff] at reads
  obtain ⟨⟨key, afterColon⟩, readsKey, ⟨value, left⟩, readsValue, reads⟩ := reads
  obtain ⟨keyChars, keySplit, keyValid⟩ := key_sound text afterColon key readsKey
  obtain ⟨before, chars, blankBefore, split, valid⟩ := values afterColon left value readsValue
  rcases behind_sound '\x7d' left _ _ _ reads with
    ⟨between, after, blankAfter, closed, same⟩ | ⟨between, next, blankAfter, separated, reads⟩
  · cases same
    exact ⟨_, by rw [keySplit, split, closed]; simp,
      .last keyChars _ key value keyValid (.mk before chars between value blankBefore valid blankAfter)⟩
  · rw [Option.map_eq_some_iff] at reads
    obtain ⟨⟨members, after⟩, readsOthers, same⟩ := reads
    cases same
    obtain ⟨others, closed, others_valid⟩ := objects next after members readsOthers
    exact ⟨_, by rw [keySplit, split, separated, closed]; simp,
      .cons keyChars _ others key value members keyValid
        (.mk before chars between value blankBefore valid blankAfter) others_valid⟩

end Sound

-- A unit of fuel is spent before each call, so the three readers are sound together.
theorem readers_sound (fuel : Nat) :
    (∀ text rest tree, tree? fuel text = some (tree, rest) → ReadsValue text rest tree) ∧
    (∀ text rest items, treeItems? fuel text = some (items, rest) → ReadsItems text rest items) ∧
    (∀ text rest members, treeMembers? fuel text = some (members, rest) → ReadsMembers text rest members) := by
  induction fuel with
  | zero =>
      refine ⟨?_, ?_, ?_⟩
      · intro text rest tree reads
        cases reads
      · intro text rest items reads
        cases reads
      · intro text rest members reads
        cases reads
  | succ fuel ih =>
      obtain ⟨values, arrays, objects⟩ := ih
      exact ⟨tree_sound_step fuel arrays objects, items_sound_step fuel values arrays,
        members_sound_step fuel values objects⟩

-- What is derivable is read, if two units of fuel are left for each character.

theorem value_text_head (chars : List Char) (tree : Tree) (valid : ValueText chars tree) :
    ∃ c rest, chars = c :: rest ∧ c ∉ ']' :: blanks := by
  cases valid with
  | scalar _ scalar valid =>
      obtain ⟨c, rest, split, apart⟩ := scalar_text_head chars scalar valid
      simp only [List.mem_cons, not_or] at apart
      exact ⟨c, rest, split, by simp only [List.mem_cons, not_or]; exact apart.right.right⟩
  | emptyArray between blank => exact ⟨'[', _, rfl, by decide⟩
  | array chars items valid => exact ⟨'[', _, rfl, by decide⟩
  | emptyObject between blank => exact ⟨'\x7b', _, rfl, by decide⟩
  | object chars members valid => exact ⟨'\x7b', _, rfl, by decide⟩

theorem element_text_open (chars rest : List Char) (tree : Tree) (valid : ElementText chars tree) :
    expect? ']' (chars ++ rest) = none := by
  obtain ⟨before, chars, after, tree, blank, valid, -⟩ := valid
  obtain ⟨c, more, rfl, apart⟩ := value_text_head chars tree valid
  simp only [List.mem_cons, not_or] at apart
  simp only [List.append_assoc, List.cons_append]
  exact expect_other ']' c before _ blank apart.right apart.left

theorem items_text_open (chars rest : List Char) (items : List Tree) (valid : ItemsText chars items) :
    expect? ']' (chars ++ rest) = none := by
  cases valid with
  | last _ item valid => exact element_text_open chars rest item valid
  | cons chars more item items valid _ =>
      rw [List.append_assoc]
      exact element_text_open chars _ item valid

theorem key_text_open (chars rest : List Char) (key : Text) (valid : KeyText chars key) :
    expect? '\x7d' (chars ++ rest) = none := by
  obtain ⟨before, chars, after, key, blank, -, -⟩ := valid
  simp only [List.append_assoc, List.cons_append]
  exact expect_other '\x7d' '\x22' before _ blank (by decide) (by decide)

theorem members_text_open (chars rest : List Char) (members : List (Text × Tree)) (valid : MembersText chars members) :
    expect? '\x7d' (chars ++ rest) = none := by
  cases valid with
  | last keyChars chars key value keyValid _ =>
      rw [List.append_assoc]
      exact key_text_open keyChars _ key keyValid
  | cons keyChars chars more key value members keyValid _ _ =>
      rw [List.append_assoc]
      exact key_text_open keyChars _ key keyValid

theorem delimited_blanks (after rest : List Char) (blank : Blanks after) (delimited : Delimited rest) :
    Delimited (after ++ rest) := by
  cases after with
  | nil => exact delimited
  | cons c after =>
      intro head same
      cases same
      have member := blank c List.mem_cons_self
      simp only [blanks, List.mem_cons, List.not_mem_nil, or_false] at member
      rcases member with rfl | rfl | rfl | rfl <;> decide

theorem delimited_bracket (c : Char) (rest : List Char) (delimiter : c ∈ delimiters) : Delimited (c :: rest) := by
  intro head same
  cases same
  exact delimiter

def ValuesComplete (fuel : Nat) : Prop :=
  ∀ chars tree before rest, ValueText chars tree → Blanks before → Delimited rest → 2 * chars.length ≤ fuel →
    tree? fuel (before ++ (chars ++ rest)) = some (tree, rest)

def ItemsComplete (fuel : Nat) : Prop :=
  ∀ chars items rest, ItemsText chars items → 2 * chars.length + 1 ≤ fuel →
    treeItems? fuel (chars ++ ']' :: rest) = some (items, rest)

def MembersComplete (fuel : Nat) : Prop :=
  ∀ chars members rest, MembersText chars members → 2 * chars.length + 1 ≤ fuel →
    treeMembers? fuel (chars ++ '\x7d' :: rest) = some (members, rest)

theorem value_complete_step (fuel : Nat) (arrays : ItemsComplete fuel) (objects : MembersComplete fuel) :
    ValuesComplete (fuel + 1) := by
  intro chars tree before rest valid blank delimited enough
  cases valid with
  | scalar _ scalar valid => rw [tree?, start_scalar before blank chars rest scalar valid delimited]
  | emptyArray between blankBetween =>
      simp only [List.cons_append, List.append_assoc, List.nil_append]
      rw [tree?, start_array before blank]
      exact inside_empty ']' between rest _ _ blankBetween (by decide)
  | array chars items valid =>
      simp only [List.length_cons, List.length_append, List.length_nil] at enough
      simp only [List.cons_append, List.append_assoc, List.nil_append]
      have reads := arrays chars items rest valid (by omega)
      rw [tree?, start_array before blank]
      simp only [inside_filled ']' _ _ _ (items_text_open chars (']' :: rest) items valid), reads, Option.map_some]
  | emptyObject between blankBetween =>
      simp only [List.cons_append, List.append_assoc, List.nil_append]
      rw [tree?, start_object before blank]
      exact inside_empty '\x7d' between rest _ _ blankBetween (by decide)
  | object chars members valid =>
      simp only [List.length_cons, List.length_append, List.length_nil] at enough
      simp only [List.cons_append, List.append_assoc, List.nil_append]
      have reads := objects chars members rest valid (by omega)
      rw [tree?, start_object before blank]
      simp only [inside_filled '\x7d' _ _ _ (members_text_open chars ('\x7d' :: rest) members valid), reads,
        Option.map_some]

theorem element_complete (fuel : Nat) (values : ValuesComplete fuel) (chars : List Char) (tree : Tree)
    (valid : ElementText chars tree) (rest : List Char) (delimited : Delimited rest)
    (enough : 2 * chars.length ≤ fuel) :
    ∃ after, Blanks after ∧ tree? fuel (chars ++ rest) = some (tree, after ++ rest) := by
  obtain ⟨before, chars, after, tree, blankBefore, valid, blankAfter⟩ := valid
  simp only [List.length_append] at enough
  simp only [List.append_assoc]
  have delimitedAfter := delimited_blanks after rest blankAfter delimited
  exact ⟨after, blankAfter, values chars tree before (after ++ rest) valid blankBefore delimitedAfter (by omega)⟩

theorem items_complete_step (fuel : Nat) (values : ValuesComplete fuel) (arrays : ItemsComplete fuel) :
    ItemsComplete (fuel + 1) := by
  intro chars items rest valid enough
  cases valid with
  | last _ item valid =>
      obtain ⟨after, blank, reads⟩ :=
        element_complete fuel values chars item valid (']' :: rest) (delimited_bracket ']' rest (by decide)) (by omega)
      rw [treeItems?, reads]
      exact behind_last ']' after rest _ _ blank (by decide)
  | cons chars more item items valid others =>
      simp only [List.length_append, List.length_cons] at enough
      simp only [List.append_assoc, List.cons_append]
      obtain ⟨after, blank, reads⟩ := element_complete fuel values chars item valid (',' :: (more ++ ']' :: rest))
        (delimited_bracket ',' _ (by decide)) (by omega)
      have readsOthers := arrays more items rest others (by omega)
      rw [treeItems?, reads]
      simp only [Option.bind_some, behind_more ']' after _ _ _ blank (by decide), readsOthers, Option.map_some]

theorem members_complete_step (fuel : Nat) (values : ValuesComplete fuel) (objects : MembersComplete fuel) :
    MembersComplete (fuel + 1) := by
  intro chars members rest valid enough
  cases valid with
  | last keyChars chars key value keyValid valid =>
      simp only [List.length_append, List.length_cons] at enough
      simp only [List.append_assoc, List.cons_append]
      obtain ⟨after, blank, reads⟩ := element_complete fuel values chars value valid ('\x7d' :: rest)
        (delimited_bracket '\x7d' rest (by decide)) (by omega)
      rw [treeMembers?, key_complete keyChars _ key keyValid]
      simp only [Option.bind_some, reads, behind_last '\x7d' after rest _ _ blank (by decide)]
  | cons keyChars chars more key value members keyValid valid others =>
      simp only [List.length_append, List.length_cons] at enough
      simp only [List.append_assoc, List.cons_append]
      obtain ⟨after, blank, reads⟩ := element_complete fuel values chars value valid (',' :: (more ++ '\x7d' :: rest))
        (delimited_bracket ',' _ (by decide)) (by omega)
      have readsOthers := objects more members rest others (by omega)
      rw [treeMembers?, key_complete keyChars _ key keyValid]
      simp only [Option.bind_some, reads, behind_more '\x7d' after _ _ _ blank (by decide), readsOthers, Option.map_some]

theorem readers_complete (fuel : Nat) : ValuesComplete fuel ∧ ItemsComplete fuel ∧ MembersComplete fuel := by
  induction fuel with
  | zero =>
      refine ⟨?_, ?_, ?_⟩
      · intro chars tree before rest valid _ _ enough
        obtain ⟨c, more, rfl, -⟩ := value_text_head chars tree valid
        rw [List.length_cons] at enough
        omega
      · intro chars items rest _ enough
        omega
      · intro chars members rest _ enough
        omega
  | succ fuel ih =>
      obtain ⟨values, arrays, objects⟩ := ih
      exact ⟨value_complete_step fuel arrays objects, items_complete_step fuel values arrays,
        members_complete_step fuel values objects⟩

theorem parse_iff (text : String) (tree : Tree) : Tree.parse? text = some tree ↔ ElementText text.toList tree := by
  rw [Tree.parse?, document?]
  constructor
  · intro parses
    split at parses
    · rename_i found rest reads
      obtain ⟨before, chars, blankBefore, split, valid⟩ := (readers_sound _).left _ rest found reads
      split_ifs at parses with ends
      cases parses
      rw [split]
      exact .mk before chars rest tree blankBefore valid ((skip_blanks_empty rest).mp ends)
    · cases parses
  · intro valid
    obtain ⟨after, blank, reads⟩ := element_complete (2 * text.toList.length + 1) (readers_complete _).left
      text.toList tree valid [] (fun c head => by cases head) (by omega)
    rw [List.append_nil, List.append_nil] at reads
    simp only [reads, if_pos ((skip_blanks_empty after).mpr blank)]

theorem element_text_unique (text : String) (first second : Tree) (left : ElementText text.toList first)
    (right : ElementText text.toList second) : first = second := by
  have parsesFirst := (parse_iff text first).mpr left
  have parsesSecond := (parse_iff text second).mpr right
  rw [parsesFirst] at parsesSecond
  exact Option.some.inj parsesSecond

end Devnet.Json
