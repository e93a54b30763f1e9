import Devnet.Deployment
import Devnet.Proofs.Felt.Residue
import Mathlib.Data.List.Forall2

set_option autoImplicit false

namespace Devnet.Deployment

open Felt (IsText SameResidue)

def texts (deployment : Deployment) : List (String × String) :=
  [("class hash", deployment.classHash), ("salt", deployment.salt)] ++
    deployment.constructorCalldata.map fun value => ("constructor calldata", value)

-- The error names the first text that denotes no field element, and holds it unchanged.
def BlamesFirst (texts : List (String × String)) (e : InvalidFelt) : Prop :=
  ∃ before after, texts = before ++ (e.part.name, e.value) :: after ∧ (∀ text ∈ before, IsText text.2) ∧
    ¬ IsText e.value

section Blame

theorem name_injective (a b : Part) (same : a.name = b.name) : a = b := by
  cases a <;> cases b <;> first | rfl | exact absurd same (by decide)

theorem blames_here (part : Part) (value : String) (rest : List (String × String)) (fault : ¬ IsText value) :
    BlamesFirst ((part.name, value) :: rest) ⟨part, value⟩ :=
  ⟨[], rest, rfl, fun _ member => (nomatch member), fault⟩

theorem blames_later (text : String × String) (rest : List (String × String)) (e : InvalidFelt) (good : IsText text.2)
    (blames : BlamesFirst rest e) : BlamesFirst (text :: rest) e := by
  obtain ⟨before, after, same, goods, fault⟩ := blames
  refine ⟨text :: before, after, congrArg (text :: ·) same, fun other member => ?_, fault⟩
  rcases List.mem_cons.mp member with rfl | earlier
  · exact good
  · exact goods other earlier

theorem blames_iff_found (texts : List (String × String)) (e : InvalidFelt) :
    BlamesFirst texts e ↔ texts.find? (fun text => decide (¬ IsText text.2)) = some (e.part.name, e.value) := by
  rw [List.find?_eq_some_iff_append, decide_eq_true_iff]
  constructor
  · rintro ⟨before, after, same, goods, fault⟩
    exact ⟨fault, before, after, same, fun text member => by simpa using goods text member⟩
  · rintro ⟨fault, before, after, same, goods⟩
    exact ⟨before, after, same, fun text member => by simpa using goods text member, fault⟩

theorem blames_unique (texts : List (String × String)) (a b : InvalidFelt) (first : BlamesFirst texts a)
    (second : BlamesFirst texts b) : a = b := by
  rw [blames_iff_found] at first second
  have same := Prod.mk.inj (Option.some.inj (first.symm.trans second))
  cases a
  cases b
  simp only [InvalidFelt.mk.injEq]
  exact ⟨name_injective _ _ same.1, same.2⟩

theorem blames_fault (texts : List (String × String)) (e : InvalidFelt) (blames : BlamesFirst texts e) :
    ∃ text ∈ texts, ¬ IsText text.2 := by
  obtain ⟨before, after, rfl, _, fault⟩ := blames
  exact ⟨_, List.mem_append_right before List.mem_cons_self, fault⟩

end Blame

section Reading

variable (part : Part)

theorem felt_ok_iff (value : String) (x : Felt) : felt part value = .ok x ↔ Felt.parse? value = some x := by
  rw [felt]
  cases Felt.parse? value <;> simp

theorem felt_fails (value : String) (e : InvalidFelt) (failed : felt part value = .error e) :
    e = ⟨part, value⟩ ∧ ¬ IsText value := by
  rw [Felt.is_text_iff]
  rw [felt] at failed
  cases read : Felt.parse? value with
  | some x =>
      rw [read] at failed
      cases failed
  | none =>
      rw [read] at failed
      exact ⟨(Except.error.inj failed).symm, Bool.false_ne_true⟩

theorem felts_cons (value : String) (rest : List String) :
    felts part (value :: rest) = (felt part value).bind fun x => (felts part rest).map (x :: ·) := by
  rw [felts]
  cases felt part value with
  | error e => rfl
  | ok x => cases felts part rest <;> rfl

theorem felts_ok_iff (values : List String) (xs : List Felt) :
    felts part values = .ok xs ↔ List.Forall₂ (fun value x => Felt.parse? value = some x) values xs := by
  induction values generalizing xs with
  | nil =>
      rw [felts, List.forall₂_nil_left_iff]
      exact ⟨fun same => (Except.ok.inj same).symm, fun same => congrArg Except.ok same.symm⟩
  | cons value rest ih =>
      rw [felts_cons, List.forall₂_cons_left_iff]
      constructor
      · intro read
        cases first : felt part value with
        | error e =>
            rw [first] at read
            cases read
        | ok x =>
            rw [first, Except.bind] at read
            cases later : felts part rest with
            | error e =>
                rw [later] at read
                cases read
            | ok ys =>
                rw [later] at read
                exact ⟨x, ys, (felt_ok_iff part value x).mp first, (ih ys).mp later, (Except.ok.inj read).symm⟩
      · rintro ⟨x, ys, first, later, rfl⟩
        rw [(felt_ok_iff part value x).mpr first, Except.bind, (ih ys).mpr later]
        rfl

theorem felts_blame (values : List String) (e : InvalidFelt) (failed : felts part values = .error e) :
    BlamesFirst (values.map fun value => (part.name, value)) e := by
  induction values with
  | nil => cases failed
  | cons value rest ih =>
      rw [felts_cons] at failed
      cases first : felt part value with
      | error earlier =>
          rw [first] at failed
          obtain ⟨same, fault⟩ := felt_fails part value earlier first
          rw [← Except.error.inj failed, same]
          exact blames_here part value _ fault
      | ok x =>
          rw [first] at failed
          have good := Felt.is_text_of_parse value x ((felt_ok_iff part value x).mp first)
          apply blames_later _ _ e good
          cases later : felts part rest with
          | error other =>
              rw [later] at failed
              exact ih (later.trans failed)
          | ok xs =>
              rw [later] at failed
              cases failed

end Reading

section Address

variable (deployment : Deployment)

structure Denoted (classHash salt : Felt) (calldata : List Felt) : Prop where
  classHash : Felt.parse? deployment.classHash = some classHash
  salt : Felt.parse? deployment.salt = some salt
  calldata : List.Forall₂ (fun value x => Felt.parse? value = some x) deployment.constructorCalldata calldata

theorem address_of_denoted (classHash salt : Felt) (calldata : List Felt)
    (denoted : deployment.Denoted classHash salt calldata) :
    deployment.expectedAddress = .ok (contractAddress salt classHash calldata) := by
  rw [expectedAddress, (felt_ok_iff .classHash _ _).mpr denoted.classHash, (felt_ok_iff .salt _ _).mpr denoted.salt,
    (felts_ok_iff .constructorCalldata _ _).mpr denoted.calldata]
  rfl

theorem denoted_or_blamed :
    (∃ classHash salt calldata, deployment.Denoted classHash salt calldata) ∨
      ∃ e, deployment.expectedAddress = .error e ∧ BlamesFirst deployment.texts e := by
  have read (part : Part) (value : String) (x : Felt) (first : felt part value = .ok x) : IsText value :=
    Felt.is_text_of_parse value x ((felt_ok_iff part value x).mp first)
  cases first : felt .classHash deployment.classHash with
  | error e =>
      obtain ⟨rfl, fault⟩ := felt_fails _ _ e first
      refine .inr ⟨_, ?_, blames_here .classHash deployment.classHash _ fault⟩
      rw [expectedAddress, first]
      rfl
  | ok classHash =>
      cases second : felt .salt deployment.salt with
      | error e =>
          obtain ⟨rfl, fault⟩ := felt_fails _ _ e second
          refine .inr ⟨_, ?_, blames_later _ _ _ (read _ _ _ first) (blames_here .salt deployment.salt _ fault)⟩
          rw [expectedAddress, first, second]
          rfl
      | ok salt =>
          cases third : felts .constructorCalldata deployment.constructorCalldata with
          | error e =>
              have blames := felts_blame .constructorCalldata _ e third
              refine .inr ⟨e, ?_, blames_later _ _ _ (read _ _ _ first) (blames_later _ _ _ (read _ _ _ second) blames)⟩
              rw [expectedAddress, first, second, third]
              rfl
          | ok calldata =>
              exact .inl ⟨classHash, salt, calldata, (felt_ok_iff _ _ _).mp first, (felt_ok_iff _ _ _).mp second,
                (felts_ok_iff _ _ _).mp third⟩

theorem error_blames (e : InvalidFelt) (failed : deployment.expectedAddress = .error e) :
    BlamesFirst deployment.texts e := by
  rcases deployment.denoted_or_blamed with ⟨classHash, salt, calldata, denoted⟩ | ⟨other, also, blames⟩
  · cases failed.symm.trans (deployment.address_of_denoted classHash salt calldata denoted)
  · have same : other = e := Except.error.inj (also.symm.trans failed)
    exact same ▸ blames

theorem denoted_texts (classHash salt : Felt) (calldata : List Felt)
    (denoted : deployment.Denoted classHash salt calldata) : ∀ text ∈ deployment.texts, IsText text.2 := by
  have good := denoted.calldata.imp fun {value x} read => And.intro (Felt.is_text_of_parse value x read) read
  intro text member
  simp only [texts, List.mem_append, List.mem_cons, List.not_mem_nil, or_false, List.mem_map] at member
  rcases member with (rfl | rfl) | ⟨value, listed, rfl⟩
  · exact Felt.is_text_of_parse _ classHash denoted.classHash
  · exact Felt.is_text_of_parse _ salt denoted.salt
  · exact ((List.forall₂_and_left _ _).mp good).1 value listed

end Address

theorem expected_address_blames_first (deployment : Deployment) :
    ((∃ address, deployment.expectedAddress = .ok address) ↔ ∀ text ∈ deployment.texts, IsText text.2) ∧
    ∀ e, deployment.expectedAddress = .error e ↔ BlamesFirst deployment.texts e := by
  rcases deployment.denoted_or_blamed with ⟨classHash, salt, calldata, denoted⟩ | ⟨e, failed, blames⟩
  · have known := deployment.address_of_denoted classHash salt calldata denoted
    have good := deployment.denoted_texts classHash salt calldata denoted
    refine ⟨iff_of_true ⟨_, known⟩ good, fun e => iff_of_false ?_ ?_⟩
    · rw [known]
      exact fun same => nomatch same
    · intro blames
      obtain ⟨text, member, fault⟩ := blames_fault _ e blames
      exact fault (good text member)
  · obtain ⟨text, member, fault⟩ := blames_fault _ e blames
    refine ⟨iff_of_false ?_ fun good => fault (good text member), fun other => ?_⟩
    · rintro ⟨address, known⟩
      cases known.symm.trans failed
    · rw [failed]
      exact ⟨fun same => Except.error.inj same ▸ blames, fun also => congrArg Except.error (blames_unique _ _ _ blames also)⟩

example : (Deployment.mk "0x1" "0X1" ["-", "2"]).expectedAddress = .error ⟨.salt, "0X1"⟩ := by decide +kernel

section Residues

structure Alike (a b : Deployment) : Prop where
  classHash : SameResidue a.classHash b.classHash
  salt : SameResidue a.salt b.salt
  calldata : List.Forall₂ SameResidue a.constructorCalldata b.constructorCalldata

theorem calldata_denoted (values others : List String) (alike : List.Forall₂ SameResidue values others) :
    ∃ calldata, List.Forall₂ (fun value x => Felt.parse? value = some x) values calldata ∧
      List.Forall₂ (fun value x => Felt.parse? value = some x) others calldata := by
  induction alike with
  | nil => exact ⟨[], .nil, .nil⟩
  | cons same _ ih =>
      obtain ⟨x, first, second⟩ := (Felt.same_residue_iff _ _).mp same
      obtain ⟨calldata, values, others⟩ := ih
      exact ⟨x :: calldata, .cons first values, .cons second others⟩

theorem denoted_alike (a b : Deployment) (alike : a.Alike b) :
    ∃ classHash salt calldata, a.Denoted classHash salt calldata ∧ b.Denoted classHash salt calldata := by
  obtain ⟨classHash, firstClass, secondClass⟩ := (Felt.same_residue_iff _ _).mp alike.classHash
  obtain ⟨salt, firstSalt, secondSalt⟩ := (Felt.same_residue_iff _ _).mp alike.salt
  obtain ⟨calldata, values, others⟩ := calldata_denoted _ _ alike.calldata
  exact ⟨classHash, salt, calldata, ⟨firstClass, firstSalt, values⟩, ⟨secondClass, secondSalt, others⟩⟩

-- The residues alone count, and every number has texts of all three forms.
theorem address_by_residues :
    (∀ a b : Deployment, a.Alike b →
      ∃ address, a.expectedAddress = .ok address ∧ b.expectedAddress = .ok address) ∧
    ∀ n zeros, n < Nat.pow 2 256 → Felt.Written n zeros := by
  refine ⟨fun a b alike => ?_, Felt.written⟩
  obtain ⟨classHash, salt, calldata, first, second⟩ := denoted_alike a b alike
  exact ⟨_, a.address_of_denoted _ _ _ first, b.address_of_denoted _ _ _ second⟩

def sparse : Deployment := ⟨"0x00000AbC", "-0", ["-1", "7"]⟩

def dense : Deployment :=
  ⟨"2748", "0x800000000000011000000000000000000000000000000000000000000000001",
    ["0x800000000000011000000000000000000000000000000000000000000000000",
      "3618502788666131213697322783095070105623107215331596699973092056135872020488"]⟩

theorem address_by_residues_mixed :
    (∃ address, sparse.expectedAddress = .ok address ∧ dense.expectedAddress = .ok address) ∧
    Felt.Denotes "-00255".toList (fieldOrder - 255) := by
  have alike : sparse.Alike dense := ⟨by decide +kernel, by decide +kernel, by decide +kernel⟩
  have small : 255 < Nat.pow 2 256 := by decide +kernel
  refine ⟨address_by_residues.1 sparse dense alike, ?_⟩
  have negative := (address_by_residues.2 255 2 small).negative
  have text : '-' :: (List.replicate 2 '0' ++ Numeral.decimalDigits 255) = "-00255".toList := by decide +kernel
  have residue : (fieldOrder - 255 % fieldOrder) % fieldOrder = fieldOrder - 255 := by decide +kernel
  rwa [text, residue] at negative

end Residues

end Devnet.Deployment
