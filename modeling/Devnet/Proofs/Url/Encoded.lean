import Devnet.Url.Parser
import Devnet.Proofs.Text.Digits

set_option autoImplicit false

namespace Devnet.Url

def Visible (c : Char) : Prop := 0x20 < c.toNat ∧ c.toNat ≤ 0x7E

instance (c : Char) : Decidable (Visible c) := inferInstanceAs (Decidable (_ ∧ _))

def encodingCharacters : List Char := '%' :: (List.range 16).map upperDigit

-- A part of a URL keeps what percent encoding writes, and visible characters alone.
structure KeepsEncoding (keeps : Char → Bool) : Prop where
  encoding : ∀ c ∈ encodingCharacters, keeps c = true
  visible : ∀ c, keeps c = true → Visible c

theorem keeps_outside (encoded : List Char) (blank : ' ' ∈ encoded)
    (apart : ∀ c ∈ encodingCharacters, keepsOutside encoded c = true) : KeepsEncoding (keepsOutside encoded) := by
  refine ⟨apart, ?_⟩
  intro c keeps
  simp only [keepsOutside, isPrintable, Bool.and_eq_true, decide_eq_true_eq, Bool.not_eq_true',
    List.contains_eq_mem, decide_eq_false_iff_not] at keeps
  obtain ⟨⟨low, high⟩, free⟩ := keeps
  have other : c.toNat ≠ 0x20 := by
    intro same
    have space : c = ' ' := Char.toNat_inj.mp same
    exact free (space ▸ blank)
  exact ⟨by omega, high⟩

theorem fragment_keeps : KeepsEncoding keepsInFragment :=
  keeps_outside _ (by decide) (members_checked _ _ rfl)

theorem path_keeps : KeepsEncoding keepsInPath :=
  keeps_outside _ (by decide) (members_checked _ _ rfl)

theorem userinfo_keeps : KeepsEncoding keepsInUserinfo :=
  keeps_outside _ (by decide) (members_checked _ _ rfl)

theorem query_keeps (special : Bool) : KeepsEncoding (keepsInQuery special) := by
  cases special with
  | true => exact keeps_outside _ (by decide) (members_checked _ _ rfl)
  | false => exact keeps_outside _ (by decide) (members_checked _ _ rfl)

theorem encoded_byte_members (b : UInt8) : ∀ c ∈ encodeByte b, c ∈ encodingCharacters := by
  intro c member
  have digit (d : Nat) (small : d < 16) : upperDigit d ∈ encodingCharacters :=
    List.mem_cons_of_mem _ (List.mem_map_of_mem (List.mem_range.mpr small))
  have byte := b.toNat_lt
  simp only [encodeByte, List.mem_cons, List.not_mem_nil, or_false] at member
  rcases member with first | high | low
  · rw [first]
    exact List.mem_cons_self
  · rw [high]
    exact digit _ (by omega)
  · rw [low]
    exact digit _ (by omega)

section Encode

variable (keeps : Char → Bool)

theorem encoded_character (c : Char) :
    encodeCharacter keeps c = [c] ∧ keeps c = true ∨
      ∀ other ∈ encodeCharacter keeps c, other ∈ encodingCharacters := by
  by_cases kept : keeps c = true
  · rw [encodeCharacter, if_pos kept]
    exact .inl ⟨rfl, kept⟩
  · rw [encodeCharacter, if_neg kept]
    refine .inr ?_
    intro other member
    obtain ⟨b, _, written⟩ := List.mem_flatMap.mp member
    exact encoded_byte_members b other written

theorem encoded_kept (keeping : KeepsEncoding keeps) (text : List Char) :
    ∀ c ∈ percentEncode keeps text, keeps c = true := by
  intro c member
  obtain ⟨source, _, written⟩ := List.mem_flatMap.mp member
  rcases encoded_character keeps source with alone | encoding
  · rw [alone.1] at written
    rw [List.mem_singleton.mp written]
    exact alone.2
  · exact keeping.encoding c (encoding c written)

theorem percent_encode_kept (text : List Char) (kept : ∀ c ∈ text, keeps c = true) :
    percentEncode keeps text = text := by
  induction text with
  | nil => rfl
  | cons c rest ih =>
      have same : encodeCharacter keeps c = [c] := if_pos (kept c List.mem_cons_self)
      have behind := ih fun other member => kept other (List.mem_cons_of_mem c member)
      rw [percentEncode] at behind
      rw [percentEncode, List.flatMap_cons, same, behind, List.singleton_append]

end Encode

theorem visible_not_gap (c : Char) (visible : Visible c) : isGap c = false := by
  have other (gap : Char) (low : gap.toNat ≤ 0x20) : c ≠ gap := by
    intro same
    rw [same] at visible
    exact absurd visible.1 (by omega)
  have tab := other '\t' (by decide)
  have feed := other '\n' (by decide)
  have turn := other '\r' (by decide)
  simp [isGap, tab, feed, turn]

theorem without_gaps_visible (text : List Char) (visible : ∀ c ∈ text, Visible c) : withoutGaps text = text := by
  rw [withoutGaps, List.filter_eq_self]
  intro c member
  rw [visible_not_gap c (visible c member)]
  rfl

theorem drop_blanks_visible (text : List Char) (visible : ∀ c ∈ text, Visible c) :
    text.dropWhile (fun c => decide (c.toNat ≤ 0x20)) = text := by
  cases text with
  | nil => rfl
  | cons c rest =>
      have first := visible c List.mem_cons_self
      rw [List.dropWhile_cons_of_neg]
      simpa using first.1

theorem trimmed_visible (text : String) (visible : ∀ c ∈ text.toList, Visible c) : trimmed text = text.toList := by
  have backwards : ∀ c ∈ text.toList.reverse, Visible c := fun c member => visible c (List.mem_reverse.mp member)
  rw [trimmed, drop_blanks_visible _ visible, drop_blanks_visible _ backwards, List.reverse_reverse]

end Devnet.Url
