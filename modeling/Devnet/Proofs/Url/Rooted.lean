import Devnet.Proofs.Url.Normal
import Mathlib.Data.List.DropRight

set_option autoImplicit false

namespace Devnet.Url

-- A text that starts with a slash, and with no other slash behind it once the gaps are left out.
structure IsRooted (text : String) : Prop where
  slash : text.toList.head? = some '/'
  single : ¬ ['/', '/'] <+: withoutGaps text.toList ∧ ¬ ['/', '\\'] <+: withoutGaps text.toList

instance (text : String) : Decidable (IsRooted text) :=
  decidable_of_iff (text.toList.head? = some '/' ∧
      ¬ ['/', '/'] <+: withoutGaps text.toList ∧ ¬ ['/', '\\'] <+: withoutGaps text.toList)
    ⟨fun parts => ⟨parts.1, parts.2⟩, fun rooted => ⟨rooted.slash, rooted.single⟩⟩

-- In the text of the URL no slash follows the scheme.
def IsOpaque (url : Url) : Prop := ¬ (url.scheme ++ ":/").toList <+: url.text.toList

instance (url : Url) : Decidable url.IsOpaque :=
  inferInstanceAs (Decidable (¬ (url.scheme ++ ":/").toList <+: url.text.toList))

def upToPath (url : Url) : String := url.scheme ++ ":" ++ url.beforePath

theorem up_to_path_same (url other : Url) (authority : Authority) (hosted : url.authority = some authority)
    (scheme : other.scheme = url.scheme) (same : other.authority = url.authority) : other.upToPath = url.upToPath := by
  rw [upToPath, upToPath, beforePath, beforePath, scheme, same, hosted]

theorem text_up_to_path (url : Url) : url.text.toList = url.upToPath.toList ++ (url.path.toList ++ url.suffix) := by
  simp [Url.text, upToPath, suffix]

theorem suffix_unslashed (url : Url) : url.suffix.head? ≠ some '/' := by
  intro slash
  rcases url.suffix_starts '/' slash with mark | hash
  · exact absurd mark (by decide)
  · exact absurd hash (by decide)

theorem opaque_iff (url : Url) : url.IsOpaque ↔ url.isVerbatim = true := by
  have behind : url.IsOpaque ↔ (url.beforePath.toList ++ (url.path.toList ++ url.suffix)).head? ≠ some '/' := by
    have text : url.text.toList =
        url.scheme.toList ++ ':' :: (url.beforePath.toList ++ (url.path.toList ++ url.suffix)) := by
      simp [text_up_to_path, upToPath]
    have front : (url.scheme ++ ":/").toList = url.scheme.toList ++ [':', '/'] := by simp
    rw [IsOpaque, text, front, List.prefix_append_right_inj, List.prefix_cons_inj]
    cases url.beforePath.toList ++ (url.path.toList ++ url.suffix) with
    | nil => simp
    | cons c more => simp [eq_comm]
  rw [behind, isVerbatim, beforePath]
  cases url.authority with
  | some authority => simp [Authority.text]
  | none =>
      dsimp only
      by_cases double : url.path.toList.take 2 = ['/', '/']
      · have slash : url.path.toList.head? = some '/' := by
          have first : (url.path.toList.take 2).head? = url.path.toList.head? := List.head?_take
          rw [← first, double]
          rfl
        rw [if_pos double, slash]
        simp
      · rw [if_neg double]
        cases url.path.toList with
        | nil => simpa using suffix_unslashed url
        | cons c more => simp

section Trim

def isEdge (c : Char) : Bool := decide (c.toNat ≤ 0x20)

theorem drop_edge (front rest : List Char) (c : Char) (inner : isEdge c = false) :
    (front ++ c :: rest).rdropWhile isEdge = front ++ c :: rest.rdropWhile isEdge := by
  have unlike : ¬ isEdge c = true := Bool.eq_false_iff.mp inner
  induction rest using List.reverseRecOn with
  | nil =>
      rw [List.rdropWhile_concat_neg isEdge front c unlike]
      rfl
  | append_singleton rest last ih =>
      have split : front ++ c :: (rest ++ [last]) = front ++ c :: rest ++ [last] := by simp
      by_cases edge : isEdge last = true
      · rw [split, List.rdropWhile_concat_pos isEdge _ last edge, List.rdropWhile_concat_pos isEdge rest last edge, ih]
      · rw [split, List.rdropWhile_concat_neg isEdge _ last edge, List.rdropWhile_concat_neg isEdge rest last edge, ← split]

-- In front of a rooted text nothing is dropped but what is dropped there anyway.
theorem trimmed_rooted (text : String) (front rest : List Char) (visible : ∀ c ∈ front, Visible c)
    (same : text.toList = front ++ '/' :: rest) : trimmed text = front ++ '/' :: rest.rdropWhile isEdge := by
  have starts : (front ++ '/' :: rest).dropWhile isEdge = front ++ '/' :: rest := by
    cases front with
    | nil => rfl
    | cons c more =>
        have first := visible c List.mem_cons_self
        rw [List.cons_append, List.dropWhile_cons_of_neg]
        simpa [isEdge] using first.1
  have ends := drop_edge front rest '/' (by decide)
  rw [List.rdropWhile] at ends
  rw [trimmed, same]
  exact (congrArg (fun chars : List Char => (chars.reverse.dropWhile isEdge).reverse) starts).trans ends

end Trim

section Join

theorem rooted_parts (text : String) (rooted : IsRooted text) :
    ∃ rest, text.toList = '/' :: rest ∧ ∀ c ∈ (withoutGaps (rest.rdropWhile isEdge)).head?, isSlash c = false := by
  obtain ⟨rest, same⟩ := List.head?_eq_some_iff.mp rooted.slash
  refine ⟨rest, same, ?_⟩
  intro c first
  obtain ⟨more, split⟩ := List.head?_eq_some_iff.mp first
  have begins : ['/', c] <+: withoutGaps text.toList := by
    have kept : withoutGaps (rest.rdropWhile isEdge) <+: withoutGaps rest :=
      List.IsPrefix.filter _ (List.rdropWhile_prefix isEdge rest)
    have whole : withoutGaps text.toList = '/' :: withoutGaps rest := by
      rw [same]
      rfl
    rw [whole, List.prefix_cons_inj]
    exact List.IsPrefix.trans ⟨more, by rw [split]; rfl⟩ kept
  rw [isSlash, Bool.or_eq_false_iff]
  constructor
  · rw [beq_eq_false_iff_ne]
    rintro rfl
    exact rooted.single.1 begins
  · rw [beq_eq_false_iff_ne]
    rintro rfl
    exact rooted.single.2 begins

theorem rooted_unnamed (rest : List Char) : scheme? ('/' :: rest) = none := by
  have name : withoutGaps (('/' :: rest).takeWhile (· ≠ ':')) = '/' :: withoutGaps (rest.takeWhile (· ≠ ':')) := by
    rw [List.takeWhile_cons_of_pos (by decide)]
    rfl
  rw [scheme?, name]
  cases ('/' :: rest).dropWhile (· ≠ ':') with
  | nil => rfl
  | cons c more => rfl

theorem reference_rooted (base : Url) (more : List Char) (single : ∀ c ∈ more.head?, isSlash c = false) :
    reference base ('/' :: more) = .ok (fromRoot base more) := by
  have elsewhere : samePath? base ('/' :: more) = none := rfl
  cases more with
  | nil => rfl
  | cons c rest =>
      have second := single c rfl
      have other : c ≠ '/' := by
        rintro rfl
        exact absurd second (by decide)
      rw [reference, elsewhere]
      · simp only [second, Bool.and_false, Bool.false_eq_true, if_false]
        rfl
      · exact fun _ same => other same

theorem without_gaps_behind (text : List Char) : withoutGaps (text.dropWhile isGap) = withoutGaps text := by
  induction text with
  | nil => rfl
  | cons c rest ih =>
      cases gap : isGap c with
      | false => rw [List.dropWhile_cons_of_neg (Bool.eq_false_iff.mp gap)]
      | true =>
          rw [List.dropWhile_cons_of_pos gap, ih]
          simp [withoutGaps, gap]

theorem file_reference_rooted (base : Option Url) (rest : List Char)
    (single : ∀ c ∈ (withoutGaps rest).head?, isSlash c = false) : ∃ url, fileReference base ('/' :: rest) = .ok url := by
  have slash : isSlash '/' = true := by decide
  have starts : ('/' :: rest).dropWhile isGap = '/' :: rest := List.dropWhile_cons_of_neg (by decide)
  rw [fileReference, starts]
  simp only [slash, if_true]
  cases behind : rest.dropWhile isGap with
  | nil => exact ⟨_, rfl⟩
  | cons c more =>
      have inner : isGap c = false := by
        have head := List.head?_dropWhile_not isGap rest
        rw [behind] at head
        simpa using head
      have first : (withoutGaps rest).head? = some c := by
        rw [← without_gaps_behind, behind]
        simp [withoutGaps, inner]
      simp only [single c first, Bool.false_eq_true, if_false]
      exact ⟨_, rfl⟩

section Rooted

variable (base : Url) (text : String) (rooted : IsRooted text)
include rooted

theorem join_steps : ∃ rest, text.toList = '/' :: rest ∧
    (∀ c ∈ (withoutGaps (rest.rdropWhile isEdge)).head?, isSlash c = false) ∧
    base.join text =
      if base.isVerbatim then .error .relativeToVerbatim
      else if base.kind = .file then fileReference (some base) ('/' :: rest.rdropWhile isEdge)
      else reference base ('/' :: withoutGaps (rest.rdropWhile isEdge)) := by
  obtain ⟨rest, same, single⟩ := rooted_parts text rooted
  refine ⟨rest, same, single, ?_⟩
  have chars := trimmed_rooted text [] rest (fun _ member => nomatch member) same
  rw [List.nil_append] at chars
  unfold join resolve
  simp only [chars, rooted_unnamed]
  rfl

theorem join_rooted_error_iff (cause : ParseError) :
    base.join text = .error cause ↔ base.isVerbatim = true ∧ cause = .relativeToVerbatim := by
  obtain ⟨rest, _, single, steps⟩ := join_steps base text rooted
  rw [steps]
  by_cases verbatim : base.isVerbatim = true
  · simp [verbatim, eq_comm]
  · by_cases file : base.kind = .file
    · obtain ⟨url, read⟩ := file_reference_rooted (some base) _ single
      simp [verbatim, file, read]
    · simp [verbatim, file, reference_rooted base _ single]

end Rooted

section Normal

variable (base : Url) (normal : IsNormal base)
include normal

theorem normal_hierarchical : base.isVerbatim = false := by
  obtain ⟨authority, hosted, _⟩ := normal.authority
  rw [isVerbatim, hosted]
  rfl

theorem normal_unlike_file : ¬ base.kind = .file := by
  rw [normal.web]
  decide

variable (text : String) (rooted : IsRooted text)
include rooted

theorem join_rooted : ∃ url, base.join text = .ok url ∧ url.scheme = base.scheme ∧ url.authority = base.authority := by
  obtain ⟨rest, _, single, steps⟩ := join_steps base text rooted
  rw [steps, normal_hierarchical base normal, if_neg Bool.false_ne_true, if_neg (normal_unlike_file base normal),
    reference_rooted base _ single]
  exact ⟨_, rfl, rfl, rfl⟩

theorem join_rooted_parse : base.join text = parse (base.upToPath ++ text) := by
  obtain ⟨rest, same, single, steps⟩ := join_steps base text rooted
  obtain ⟨authority, hosted, is⟩ := normal.authority
  have visible : ∀ c ∈ base.upToPath.toList, Visible c := by
    intro c member
    apply text_visible base normal c
    rw [text_up_to_path]
    exact List.mem_append_left _ member
  have front : base.upToPath.toList = base.scheme.toList ++ ':' :: '/' :: '/' :: authority.body := by
    simp [upToPath, beforePath, hosted, Authority.text, Authority.body]
  have chars : trimmed (base.upToPath ++ text) =
      base.scheme.toList ++ ':' :: '/' :: '/' :: (authority.body ++ '/' :: rest.rdropWhile isEdge) := by
    have split : (base.upToPath ++ text).toList = base.upToPath.toList ++ '/' :: rest := by rw [String.toList_append, same]
    rw [trimmed_rooted _ _ rest visible split, front]
    simp
  have web : kindOf base.scheme = .web := normal.web
  rw [steps, normal_hierarchical base normal, if_neg Bool.false_ne_true, if_neg (normal_unlike_file base normal),
    reference_rooted base _ single, parse_behind_authority base.scheme _ authority is web _ chars, ← hosted]
  have kind : base.kind = .web := normal.web
  rw [fromRoot, kind]
  rfl

end Normal
end Join

end Devnet.Url
