import Devnet.Proofs.CommandLine.Matches

set_option autoImplicit false

namespace Devnet.CommandLine

variable {ι : Type}

theorem arity_of_taking (spec : Spec ι) (takes : spec.takesValue = true) : spec.arity = .one ∨ spec.arity = .many := by
  rw [Spec.takesValue] at takes
  cases arity : spec.arity with
  | one => exact .inl rfl
  | many => exact .inr rfl
  | flag => simp [arity] at takes
  | count => simp [arity] at takes
  | help => simp [arity] at takes
  | version => simp [arity] at takes

namespace Interface

def attached (interface : Interface ι) (assignment : ι × String) : String :=
  "--" ++ (interface.spec assignment.1).long ++ "=" ++ assignment.2

def Attachable (interface : Interface ι) (option : ι) : Prop :=
  interface.long? (interface.spec option).long = some option ∧ (interface.spec option).takesValue = true ∧
    '=' ∉ (interface.spec option).long.toList

theorem equals_ends_name (name value : List Char) (plain : '=' ∉ name) :
    (name ++ '=' :: value).takeWhile (· ≠ '=') = name ∧
      (name ++ '=' :: value).dropWhile (· ≠ '=') = '=' :: value := by
  induction name with
  | nil => simp
  | cons c rest ih =>
      have other : c ≠ '=' := fun eq => plain (by simp [eq])
      obtain ⟨taken, dropped⟩ := ih fun member => plain (List.mem_cons_of_mem c member)
      rw [List.cons_append, List.takeWhile_cons_of_pos (by simpa using other),
        List.dropWhile_cons_of_pos (by simpa using other)]
      exact ⟨congrArg (c :: ·) taken, dropped⟩

theorem word_of_attached (name value : String) (plain : '=' ∉ name.toList) :
    Word.ofText ("--" ++ name ++ "=" ++ value) = .long name (some value) := by
  have chars : ("--" ++ name ++ "=" ++ value).toList = '-' :: '-' :: (name.toList ++ '=' :: value.toList) := by
    simp [String.toList_append]
  obtain ⟨taken, dropped⟩ := equals_ends_name name.toList value.toList plain
  have present : (name.toList ++ '=' :: value.toList).contains '=' = true := by simp
  rw [Word.ofText, chars]
  generalize name.toList ++ '=' :: value.toList = text at taken dropped present
  cases text with
  | nil => simp at present
  | cons first rest =>
      simp only [taken, dropped, present, if_pos, List.drop_succ_cons, List.drop_zero, String.ofList_toList]

def spelled? (interface : Interface ι) (word : String) : Option (ι × String) :=
  match Word.ofText word with
  | .long name (some value) => (interface.long? name).map fun option => (option, value)
  | _ => none

theorem spelled_attached (interface : Interface ι) (assignment : ι × String)
    (attachable : interface.Attachable assignment.1) :
    interface.spelled? (interface.attached assignment) = some assignment := by
  rw [spelled?, attached, word_of_attached _ _ attachable.2.2]
  simp only [attachable.1, Option.map_some]

theorem spelled_words (interface : Interface ι) (assignments : List (ι × String))
    (attachable : ∀ assignment ∈ assignments, interface.Attachable assignment.1) :
    (assignments.map interface.attached).filterMap interface.spelled? = assignments := by
  induction assignments with
  | nil => rfl
  | cons assignment rest ih =>
      rw [List.map_cons, List.filterMap_cons_some (interface.spelled_attached assignment
        (attachable _ List.mem_cons_self)), ih fun other member => attachable other (List.mem_cons_of_mem _ member)]

def Once (interface : Interface ι) : List (ι × String) → Prop :=
  List.Pairwise fun a b => (interface.spec a.1).arity = .one → a.1 ≠ b.1

theorem once_of_perm (interface : Interface ι) (a b : List (ι × String)) (same : a.Perm b)
    (once : interface.Once b) : interface.Once a := by
  refine (same.pairwise_iff ?_).mpr once
  intro first second apart arity eq
  exact apart (eq ▸ arity) eq.symm

variable [DecidableEq ι]

theorem enter_value (interface : Interface ι) (found : Matches ι) (option : ι) (value : String)
    (takes : (interface.spec option).takesValue = true)
    (accepted : (interface.spec option).check value = .ok ())
    (fresh : (interface.spec option).arity = .one → found.given option = false) :
    interface.enter found option [value] = .ok (found.append option [value]) := by
  have checked : interface.checkValues option [value] = .ok () := by simp [checkValues, accepted]
  rcases arity_of_taking (interface.spec option) takes with one | many
  · simp [enter, one, fresh one, checked, Except.map, Matches.append]
  · simp [enter, many, checked, Except.map]

theorem read_attached_steps (interface : Interface ι) (found : Matches ι) (pending : Option (Pending ι)) (option : ι)
    (value : String) (rest : List String) (attachable : interface.Attachable option) :
    interface.readWords found pending (interface.attached (option, value) :: rest) =
      (interface.settle found pending).bind fun middle =>
        (interface.enter middle option [value]).bind fun first => interface.readWords first none rest := by
  obtain ⟨known, takes, plain⟩ := attachable
  rw [readWords.eq_def]
  simp only [attached, word_of_attached _ _ plain, readLong, known, if_pos takes]
  cases interface.settle found pending with
  | error stop => rfl
  | ok middle =>
      simp only [Except.bind]
      cases interface.enter middle option [value] with
      | error stop => rfl
      | ok first => rfl

theorem read_attached_word (interface : Interface ι) (found : Matches ι) (assignment : ι × String)
    (rest : List String) (attachable : interface.Attachable assignment.1)
    (accepted : (interface.spec assignment.1).check assignment.2 = .ok ())
    (fresh : (interface.spec assignment.1).arity = .one → found.given assignment.1 = false) :
    interface.readWords found none (interface.attached assignment :: rest) =
      interface.readWords (found.append assignment.1 [assignment.2]) none rest := by
  have entered := interface.enter_value found assignment.1 assignment.2 attachable.2.1 accepted fresh
  rw [interface.read_attached_steps found none assignment.1 assignment.2 rest attachable, settle, Except.bind, entered]
  rfl

theorem read_attached (interface : Interface ι) (found : Matches ι) (assignments : List (ι × String))
    (attachable : ∀ assignment ∈ assignments, interface.Attachable assignment.1)
    (accepted : ∀ assignment ∈ assignments, (interface.spec assignment.1).check assignment.2 = .ok ())
    (once : interface.Once assignments)
    (fresh : ∀ assignment ∈ assignments, (interface.spec assignment.1).arity = .one →
      found.given assignment.1 = false) :
    interface.readWords found none (assignments.map interface.attached) = .ok (found.appendAll assignments) := by
  induction assignments generalizing found with
  | nil => rfl
  | cons assignment rest ih =>
      have head := List.mem_cons_self (a := assignment) (l := rest)
      have tail : ∀ other ∈ rest, other ∈ assignment :: rest := fun _ => List.mem_cons_of_mem assignment
      have apart := List.pairwise_cons.mp once
      rw [List.map_cons, interface.read_attached_word found assignment _ (attachable _ head) (accepted _ head)
        (fresh _ head), Matches.appendAll]
      apply ih _ (fun other member => attachable other (tail other member))
        (fun other member => accepted other (tail other member)) apart.2
      intro other member arity
      have different : other.1 ≠ assignment.1 := fun eq => apart.1 other member (eq ▸ arity) eq.symm
      rw [Matches.given_iff_values, Matches.values_of_append, if_neg different, ← Matches.given_iff_values]
      exact fresh other (tail other member) arity

end Interface
end Devnet.CommandLine
