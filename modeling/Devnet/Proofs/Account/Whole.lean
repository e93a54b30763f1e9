import Devnet.Proofs.Account.Check

set_option autoImplicit false

namespace Devnet

namespace Json

section Ending

variable (before chars rest : List Char) (items : List Tree) (blank : Blanks before)
  (valid : ValueText chars (.array items))
include blank valid

theorem array_read (fuel : Nat) (enough : 2 * chars.length ≤ fuel) :
    tree? fuel (before ++ (chars ++ rest)) = some (.array items, rest) := by
  cases valid with
  | emptyArray between blankBetween =>
      simp only [List.length_cons] at enough
      obtain ⟨less, rfl⟩ : ∃ less, fuel = less + 1 := ⟨fuel - 1, by omega⟩
      simp only [List.cons_append, List.append_assoc, List.nil_append]
      rw [tree?, start_array before blank]
      exact inside_empty ']' between rest _ _ blankBetween (by decide)
  | array inner _ valid =>
      simp only [List.length_cons, List.length_append, List.length_nil] at enough
      obtain ⟨less, rfl⟩ : ∃ less, fuel = less + 1 := ⟨fuel - 1, by omega⟩
      have reads := (readers_complete less).right.left inner items rest valid (by omega)
      simp only [List.cons_append, List.append_assoc, List.nil_append]
      rw [tree?, start_array before blank]
      simp only [inside_filled ']' _ _ _ (items_text_open inner (']' :: rest) items valid), reads, Option.map_some]

theorem parse_array_iff (tree : Tree) :
    Tree.parse? (String.ofList (before ++ (chars ++ rest))) = some tree ↔ tree = .array items ∧ Blanks rest := by
  have enough : 2 * chars.length ≤ 2 * (before ++ (chars ++ rest)).length + 1 := by
    simp only [List.length_append]
    omega
  rw [Tree.parse?, document?, String.toList_ofList, array_read before chars rest items blank valid _ enough]
  simp only [← skip_blanks_empty, Option.ite_none_right_eq_some, Option.some.injEq]
  exact and_comm.trans (and_congr_left' eq_comm)

end Ending

end Json

namespace Account

open Json (Blanks Tree ValueText)

structure Trimmed (body text trailing : String) : Prop where
  split : body = text ++ trailing
  blank : Blanks trailing.toList
  visible : ∀ c ∈ text.toList.getLast?, c ∉ Json.blanks

structure Encloses (body : String) (before chars after : List Char) (items : List Tree) (accounts : List Account) :
    Prop where
  split : body.toList = before ++ (chars ++ after)
  blankBefore : Blanks before
  valid : ValueText chars (.array items)
  blankAfter : Blanks after
  listed : listOf? items = some accounts

theorem accepted_encloses (body : String) (accounts : List Account) (accepted : parseList? body = some accounts) :
    ∃ before chars after items, Encloses body before chars after items accounts := by
  rw [parse_list_checked, Option.bind_eq_some_iff] at accepted
  obtain ⟨tree, parses, reads⟩ := accepted
  have grammar := (Json.parse_iff body tree).mp parses
  generalize whole : body.toList = text at grammar
  obtain ⟨before, chars, after, tree, blankBefore, valid, blankAfter⟩ := grammar
  cases tree with
  | scalar _ => cases reads
  | object _ => cases reads
  | array items => exact ⟨before, chars, after, items, whole, blankBefore, valid, blankAfter, reads⟩

section Enclosed

variable (body : String) (before chars after : List Char) (items : List Tree) (accounts : List Account)
  (encloses : Encloses body before chars after items accounts)
include encloses

theorem surrounded_iff (front behind : List Char) (blank : Blanks front) (found : List Account) :
    parseList? (String.ofList (front ++ (chars ++ behind))) = some found ↔ found = accounts ∧ Blanks behind := by
  rw [parse_list_checked, Option.bind_eq_some_iff]
  simp only [Json.parse_array_iff front chars behind items blank encloses.valid]
  constructor
  · rintro ⟨tree, ⟨rfl, ends⟩, reads⟩
    exact ⟨(Option.some.inj (encloses.listed.symm.trans reads)).symm, ends⟩
  · rintro ⟨rfl, ends⟩
    exact ⟨.array items, ⟨rfl, ends⟩, encloses.listed⟩

theorem enclosed_trimmed : Trimmed body (String.ofList (before ++ chars)) (String.ofList after) := by
  obtain ⟨inner, bracket⟩ : ∃ inner, chars = inner ++ [']'] := by
    cases encloses.valid with
    | emptyArray between _ => exact ⟨'[' :: between, rfl⟩
    | array inner _ _ => exact ⟨'[' :: inner, rfl⟩
  refine ⟨?_, ?_, ?_⟩
  · rw [← String.toList_inj, encloses.split]
    simp
  · rw [String.toList_ofList]
    exact encloses.blankAfter
  · intro c last
    rw [String.toList_ofList, bracket, ← List.append_assoc, List.getLast?_concat] at last
    cases last
    decide

end Enclosed

theorem blanks_append (first second : List Char) : Blanks (first ++ second) ↔ Blanks first ∧ Blanks second :=
  List.forall_mem_append

theorem nothing_cut (text cut rest : String) (visible : ∀ c ∈ text.toList.getLast?, c ∉ Json.blanks)
    (split : text = cut ++ rest) (blank : Blanks rest.toList) : rest = "" := by
  by_contra filled
  have chars : rest.toList ≠ [] := fun none => filled (String.toList_eq_nil_iff.mp none)
  have last := List.getLast?_eq_some_getLast chars
  rw [split, String.toList_append, List.getLast?_append, last, Option.some_or] at visible
  exact visible _ rfl (blank _ (List.getLast_mem chars))

theorem whole_list_only (body : String) (accounts : List Account) (accepted : parseList? body = some accounts) :
    (∃ text trailing, Trimmed body text trailing) ∧
    (∀ text trailing, Trimmed body text trailing → ∀ cut rest, text = cut ++ rest → rest ≠ "" → parseList? cut = none) ∧
    (∀ more : String, ¬ Blanks more.toList → parseList? (body ++ more) = none) ∧
    ∀ front behind : String, Blanks front.toList → Blanks behind.toList →
      parseList? (front ++ body ++ behind) = some accounts := by
  obtain ⟨before, chars, after, items, encloses⟩ := accepted_encloses body accounts accepted
  refine ⟨⟨_, _, enclosed_trimmed body before chars after items accounts encloses⟩, ?_, ?_, ?_⟩
  · intro text trailing trimmed cut rest split filled
    rw [Option.eq_none_iff_forall_ne_some]
    intro found shorter
    -- A list that ends before the text does is followed by what was cut off, which is not blank.
    obtain ⟨front, list, closing, others, inside⟩ := accepted_encloses cut found shorter
    have whole : body = String.ofList (front ++ (list ++ (closing ++ (rest.toList ++ trailing.toList)))) := by
      rw [← String.toList_inj, trimmed.split, split]
      simp [inside.split]
    rw [whole, surrounded_iff cut front list closing others found inside front _ inside.blankBefore, blanks_append,
      blanks_append] at accepted
    exact filled (nothing_cut text cut rest trimmed.visible split accepted.right.right.left)
  · intro more visible
    have whole : body ++ more = String.ofList (before ++ (chars ++ (after ++ more.toList))) := by
      rw [← String.toList_inj]
      simp [encloses.split]
    rw [Option.eq_none_iff_forall_ne_some]
    intro found longer
    rw [whole, surrounded_iff body before chars after items accounts encloses before _ encloses.blankBefore,
      blanks_append] at longer
    exact visible longer.right.right
  · intro front behind blankFront blankBehind
    have whole : front ++ body ++ behind =
        String.ofList ((front.toList ++ before) ++ (chars ++ (after ++ behind.toList))) := by
      rw [← String.toList_inj]
      simp [encloses.split]
    rw [whole, surrounded_iff body before chars after items accounts encloses _ _
      ((blanks_append _ _).mpr ⟨blankFront, encloses.blankBefore⟩), blanks_append]
    exact ⟨rfl, encloses.blankAfter, blankBehind⟩

def nested : String := "[[\"0x1\",\"]\",\"0x3\",\"4\",[-5]] ]"

theorem whole_list_only_nested :
    ∃ accounts, accounts.map publicKey = ["]"] ∧ parseList? (nested ++ "\n") = some accounts ∧
      parseList? "[[\"0x1\",\"]" = none ∧ parseList? "[[\"0x1\",\"]\",\"0x3\",\"4\",[-5]]" = none ∧
      parseList? (nested ++ "\n" ++ "\n]") = none ∧ parseList? ("\t" ++ (nested ++ "\n") ++ " ") = some accounts := by
  have keys : (parseList? (nested ++ "\n")).map (List.map publicKey) = some ["]"] := by decide +kernel
  obtain ⟨accounts, accepted, same⟩ := Option.map_eq_some_iff.mp keys
  have last : nested.toList.getLast? = some ']' := by decide
  have trimmed : Trimmed (nested ++ "\n") nested "\n" := by
    refine ⟨rfl, by decide, ?_⟩
    rw [last]
    simp [Json.blanks]
  obtain ⟨-, cut, extended, surrounded⟩ := whole_list_only (nested ++ "\n") accounts accepted
  refine ⟨accounts, same, accepted, ?_, ?_, extended "\n]" (by decide), surrounded "\t" " " (by decide) (by decide)⟩
  · exact cut nested "\n" trimmed _ "\",\"0x3\",\"4\",[-5]] ]" (by decide) (by decide)
  · exact cut nested "\n" trimmed _ " ]" (by decide) (by decide)

end Account
end Devnet
