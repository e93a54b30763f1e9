import Devnet.Url.Parser
import Devnet.Proofs.Text.Utf8
import Devnet.Proofs.Url.Addresses
import Devnet.Proofs.Url.Encoded

set_option autoImplicit false

namespace Devnet.Url

-- A name as it stands in a URL, also one that is to be read as an address.
structure IsName (text : List Char) : Prop where
  filled : text ≠ []
  free : ∀ c ∈ text, isForbiddenInDomain c = false
  lower : ∀ c ∈ text, lowerAscii c = c
  labels : (splitOn '.' [] text).all Punycode.isLabel = true

inductive IsHost : Host → Prop where
  | name (text : List Char) (is : IsName text) (worded : endsInNumber text = false) : IsHost (.name (String.ofList text))
  | ipv4 (address : Nat) (small : address < 4294967296) : IsHost (.ipv4 address)
  | ipv6 (pieces : List Nat) (is : IsIpv6 pieces) : IsHost (.ipv6 pieces)

-- A character that ends no authority and stands in front of no host.
def InHost (c : Char) : Prop := Visible c ∧ c ∉ ['/', '\\', '?', '#', '@']

instance (c : Char) : Decidable (InHost c) := inferInstanceAs (Decidable (_ ∧ _))

theorem lower_twice (c : Char) : lowerAscii (lowerAscii c) = lowerAscii c := by
  by_cases upper : 0x41 ≤ c.toNat ∧ c.toNat ≤ 0x5A
  · have lower : lowerAscii c = Char.ofNat (c.toNat + 0x20) := if_pos upper
    have all : ∀ n, n ≤ 0x5A → 0x41 ≤ n → lowerAscii (Char.ofNat (n + 0x20)) = Char.ofNat (n + 0x20) := by decide
    rw [lower]
    exact all c.toNat upper.2 upper.1
  · have same : lowerAscii c = c := if_neg upper
    rw [same, same]

section Free

variable (c : Char) (free : isForbiddenInDomain c = false)
include free

theorem free_apart : Visible c ∧
    c ∉ [' ', '%', '#', '/', ':', '<', '>', '?', '@', '[', '\\', ']', '^', '|'] := by
  rw [isForbiddenInDomain, Bool.or_eq_false_iff, Bool.not_eq_false', isPrintable, Bool.and_eq_true, decide_eq_true_eq,
    decide_eq_true_eq] at free
  obtain ⟨⟨low, high⟩, apart⟩ := free
  have absent := fun member => Bool.false_ne_true (apart.symm.trans (List.contains_iff_mem.mpr member))
  have other : c.toNat ≠ 0x20 := by
    intro same
    have space : c = ' ' := Char.toNat_inj.mp same
    exact absent (space ▸ List.mem_cons_self)
  exact ⟨⟨by omega, high⟩, absent⟩

theorem free_in_host : InHost c := by
  have apart := free_apart c free
  refine ⟨apart.1, fun member => apart.2 ?_⟩
  have all : ∀ other ∈ ['/', '\\', '?', '#', '@'],
      other ∈ [' ', '%', '#', '/', ':', '<', '>', '?', '@', '[', '\\', ']', '^', '|'] := members_checked _ _ rfl
  exact all c member

end Free

theorem percent_decode_plain (text : List Char) (plain : '%' ∉ text) :
    percentDecode text = text.flatMap Utf8.encodeChar := by
  induction text with
  | nil => rfl
  | cons c rest ih =>
      have other : c ≠ '%' := fun same => plain (same ▸ List.mem_cons_self)
      have behind := ih fun member => plain (List.mem_cons_of_mem c member)
      rw [percentDecode, behind, List.flatMap_cons]
      exact fun _ _ _ same _ => other same

theorem allowed_iff (name : List Char) :
    ¬ (name.any isForbiddenInDomain || !(splitOn '.' [] name).all Punycode.isLabel) = true ↔
      (∀ c ∈ name, isForbiddenInDomain c = false) ∧ (splitOn '.' [] name).all Punycode.isLabel = true := by
  rw [Bool.not_eq_true, Bool.or_eq_false_iff, Bool.not_eq_false', List.any_eq_false]
  simp only [Bool.not_eq_true]

theorem domain_host_name (text : List Char) (is : IsName text) :
    domainHost text =
      if endsInNumber text then
        match ipv4? text with
        | some address => .ok (.ipv4 address)
        | none => .error .invalidIpv4
      else .ok (.name (String.ofList text)) := by
  have apart (c : Char) (member : c ∈ text) := free_apart c (is.free c member)
  have plain : '%' ∉ text := fun member => (apart '%' member).2 (by decide)
  have unbracketed : '[' ∉ text := fun member => (apart '[' member).2 (by decide)
  have decoded : Utf8.decode (percentDecode text) = .ok (String.ofList text) := by
    rw [Utf8.decode_ok_iff, percent_decode_plain text plain, Utf8.encode, String.toList_ofList]
  have lower : (String.ofList text).toList.map lowerAscii = text := by
    rw [String.toList_ofList, List.map_congr_left is.lower, List.map_id']
  have allowed := (allowed_iff text).mpr ⟨is.free, is.labels⟩
  have filled : ¬ text.isEmpty = true := fun empty => is.filled (List.isEmpty_iff.mp empty)
  unfold domainHost
  split
  case h_1 rest => exact absurd List.mem_cons_self unbracketed
  case h_2 =>
    simp only [decoded, lower]
    exact (if_neg allowed).trans (if_neg filled)

theorem domain_host_sound (text : List Char) (host : Host) (read : domainHost text = .ok host) : IsHost host := by
  unfold domainHost at read
  split at read
  case h_1 rest =>
    rw [bracketed] at read
    split at read
    · split at read
      case h_1 pieces found =>
        cases read
        exact .ipv6 pieces (ipv6_sound _ pieces found)
      case h_2 => cases read
    · cases read
  case h_2 =>
    split at read
    case h_1 => cases read
    case h_2 decoded _ =>
      generalize same : decoded.toList.map lowerAscii = name at read
      simp only at read
      split at read
      case isTrue => cases read
      case isFalse allowed =>
        split at read
        case isTrue => cases read
        case isFalse filled =>
          have lower : ∀ c ∈ name, lowerAscii c = c := by
            intro c member
            obtain ⟨source, _, written⟩ := List.mem_map.mp (same ▸ member)
            exact written ▸ lower_twice source
          have permitted := (allowed_iff name).mp allowed
          have is : IsName name :=
            ⟨fun empty => filled (List.isEmpty_iff.mpr empty), permitted.1, lower, permitted.2⟩
          split at read
          case isTrue =>
            split at read
            case h_1 address found =>
              cases read
              exact .ipv4 address (ipv4_small name address found)
            case h_2 => cases read
          case isFalse worded =>
            cases read
            exact .name name is (Bool.not_eq_true _ ▸ worded)

theorem plain_label (label : List Char) (plain : 'x' ∉ label) : Punycode.isLabel label = true := by
  unfold Punycode.isLabel
  split
  case h_1 rest => exact absurd List.mem_cons_self plain
  case h_2 => rfl

theorem ipv4_member (address : Nat) (c : Char) (member : c ∈ ipv4Characters address) :
    c ∈ '.' :: (List.range 10).map Numeral.digitChar := by
  rcases joined_members '.' _ c member with same | ⟨piece, among, inside⟩
  · exact same ▸ List.mem_cons_self
  · obtain ⟨byte, _, same⟩ := List.mem_map.mp among
    exact List.mem_cons_of_mem _ (Numeral.decimal_members byte c (same ▸ inside))

theorem ipv4_name (address : Nat) : IsName (ipv4Characters address) := by
  have free : ∀ c ∈ '.' :: (List.range 10).map Numeral.digitChar, isForbiddenInDomain c = false :=
    members_checked _ _ rfl
  have lower : ∀ c ∈ '.' :: (List.range 10).map Numeral.digitChar, lowerAscii c = c := members_checked _ _ rfl
  have digits : 'x' ∉ (List.range 10).map Numeral.digitChar := by decide
  refine ⟨?_, fun c member => free c (ipv4_member address c member), fun c member => lower c (ipv4_member address c member), ?_⟩
  · intro empty
    have number := ipv4_ends_in_number address
    rw [empty] at number
    cases number
  · rw [ipv4_split, List.all_eq_true]
    intro label member
    obtain ⟨byte, _, same⟩ := List.mem_map.mp member
    exact plain_label label fun x => digits (Numeral.decimal_members byte 'x' (same ▸ x))

theorem ipv6_host_text (pieces : List Nat) : (Host.ipv6 pieces).text.toList = '[' :: ((ipv6Text pieces).toList ++ [']']) := by
  simp [Host.text]

theorem domain_host_again (host : Host) (is : IsHost host) : domainHost host.text.toList = .ok host := by
  cases is with
  | name text name worded =>
      rw [Host.text, String.toList_ofList, domain_host_name text name, worded]
      rfl
  | ipv4 address small =>
      rw [Host.text, ipv4_text, domain_host_name _ (ipv4_name address), if_pos (ipv4_ends_in_number address),
        ipv4_of_characters address small]
  | ipv6 pieces pieces_is =>
      have closed : ((ipv6Text pieces).toList ++ [']']).getLast? = some ']' := List.getLast?_concat
      rw [ipv6_host_text, domainHost, bracketed, if_pos closed, List.dropLast_concat, ipv6_of_text pieces pieces_is]

theorem ipv6_member (pieces : List Nat) (c : Char) (member : c ∈ (ipv6Text pieces).toList) :
    c ∈ ':' :: (List.range 16).map Numeral.digitChar := by
  have joined (side : List Nat) (inside : c ∈ joinedHex side) : c ∈ ':' :: (List.range 16).map Numeral.digitChar := by
    rcases joined_members ':' _ c inside with same | ⟨text, among, within⟩
    · exact same ▸ List.mem_cons_self
    · obtain ⟨piece, _, same⟩ := List.mem_map.mp among
      exact List.mem_cons_of_mem _ (Numeral.hex_members piece c (same ▸ within))
  rw [ipv6Text] at member
  generalize longestZeroRun 0 (0, 0) pieces = place at member
  by_cases short : place.2 < 2
  · simp only [short, if_pos, colon_joined] at member
    exact joined _ member
  · simp only [short, if_neg, not_false_eq_true, String.toList_append, colon_joined] at member
    rcases List.mem_append.mp member with front | right
    · rcases List.mem_append.mp front with left | between
      · exact joined _ left
      · have colons : ∀ other ∈ "::".toList, other = ':' := members_checked _ _ rfl
        exact colons c between ▸ List.mem_cons_self
    · exact joined _ right

theorem ipv6_host_member (pieces : List Nat) (c : Char) (member : c ∈ (Host.ipv6 pieces).text.toList) :
    c ∈ '[' :: ']' :: ':' :: (List.range 16).map Numeral.digitChar := by
  rw [ipv6_host_text] at member
  rcases List.mem_cons.mp member with first | inside
  · exact first ▸ List.mem_cons_self
  · rcases List.mem_append.mp inside with written | last
    · exact List.mem_cons_of_mem _ (List.mem_cons_of_mem _ (ipv6_member pieces c written))
    · exact List.mem_singleton.mp last ▸ List.mem_cons_of_mem _ List.mem_cons_self

theorem host_members (host : Host) (is : IsHost host) : ∀ c ∈ host.text.toList, InHost c := by
  intro c member
  cases is with
  | name text name worded =>
      rw [Host.text, String.toList_ofList] at member
      exact free_in_host c (name.free c member)
  | ipv4 address small =>
      rw [Host.text, ipv4_text] at member
      exact free_in_host c ((ipv4_name address).free c member)
  | ipv6 pieces pieces_is =>
      have all : ∀ other ∈ '[' :: ']' :: ':' :: (List.range 16).map Numeral.digitChar, InHost other :=
        members_checked _ _ rfl
      exact all c (ipv6_host_member pieces c member)

theorem host_nonempty (host : Host) (is : IsHost host) : host.text.toList ≠ [] := by
  cases is with
  | name text name worded =>
      rw [Host.text, String.toList_ofList]
      exact name.filled
  | ipv4 address small =>
      rw [Host.text, ipv4_text]
      exact (ipv4_name address).filled
  | ipv6 pieces pieces_is =>
      rw [ipv6_host_text]
      exact List.cons_ne_nil _ _

theorem host_named (host : Host) (is : IsHost host) : host ≠ .name "" := by
  intro same
  exact host_nonempty host is (by rw [same]; rfl)

theorem host_sound (text : List Char) (found : Host) (read : host .web text = .ok found) : IsHost found := by
  have special : host .web text = if text.isEmpty then .error .emptyHost else domainHost text := rfl
  rw [special] at read
  by_cases empty : text.isEmpty = true
  · rw [if_pos empty] at read
    cases read
  · rw [if_neg empty] at read
    exact domain_host_sound text found read

theorem host_again (found : Host) (is : IsHost found) : host .web found.text.toList = .ok found := by
  have special : host .web found.text.toList =
      if found.text.toList.isEmpty then .error .emptyHost else domainHost found.text.toList := rfl
  rw [special, if_neg fun empty => host_nonempty found is (List.isEmpty_iff.mp empty), domain_host_again found is]

section Split

theorem split_host_through (inBrackets : Bool) (text rest : List Char)
    (inside : ∀ c ∈ text, (c = ':' → inBrackets = true) ∧ c ∉ ['/', '\\', '?', '#', '[', ']']) :
    splitHost .web inBrackets (text ++ rest) =
      (text ++ (splitHost .web inBrackets rest).1, (splitHost .web inBrackets rest).2) := by
  induction text with
  | nil => rfl
  | cons c more ih =>
      have behind := ih fun other member => inside other (List.mem_cons_of_mem c member)
      obtain ⟨colon, apart⟩ := inside c List.mem_cons_self
      simp only [List.mem_cons, List.not_mem_nil, or_false, not_or] at apart
      obtain ⟨slash, back, mark, hash, opening, closing⟩ := apart
      have goes : ¬ ((c = ':' ∧ (!inBrackets) = true) ∨ (c = '\\' ∧ Kind.web.isSpecial = true) ∨ c = '/' ∨ c = '?' ∨ c = '#') := by
        simp only [back, slash, mark, hash, false_and, or_false, not_and]
        intro same
        rw [colon same]
        exact Bool.false_ne_true
      rw [List.cons_append, splitHost, if_neg goes, if_neg opening, if_neg closing, behind]
      rfl

theorem split_host_end (rest : List Char) (ends : ∀ c ∈ rest.head?, c = ':' ∨ c = '/') :
    splitHost .web false rest = ([], rest) := by
  cases rest with
  | nil => rfl
  | cons c more =>
      rw [splitHost, if_pos]
      rcases ends c rfl with colon | slash
      · exact .inl ⟨colon, rfl⟩
      · exact .inr (.inr (.inl slash))

theorem name_split (text rest : List Char) (free : ∀ c ∈ text, isForbiddenInDomain c = false)
    (ends : ∀ c ∈ rest.head?, c = ':' ∨ c = '/') : splitHost .web false (text ++ rest) = (text, rest) := by
  rw [split_host_through false text rest, split_host_end rest ends, List.append_nil]
  intro c member
  have apart := (free_apart c (free c member)).2
  have all : ∀ other ∈ [':', '/', '\\', '?', '#', '[', ']'],
      other ∈ [' ', '%', '#', '/', ':', '<', '>', '?', '@', '[', '\\', ']', '^', '|'] := members_checked _ _ rfl
  refine ⟨fun colon => absurd (all c (colon ▸ List.mem_cons_self)) apart, fun other => apart ?_⟩
  exact all c (List.mem_cons_of_mem _ other)

theorem host_split (host : Host) (is : IsHost host) (rest : List Char) (ends : ∀ c ∈ rest.head?, c = ':' ∨ c = '/') :
    splitHost .web false (host.text.toList ++ rest) = (host.text.toList, rest) := by
  cases is with
  | name text name worded =>
      rw [Host.text, String.toList_ofList]
      exact name_split text rest name.free ends
  | ipv4 address small =>
      rw [Host.text, ipv4_text]
      exact name_split _ rest (ipv4_name address).free ends
  | ipv6 pieces pieces_is =>
      have inside : ∀ c ∈ (ipv6Text pieces).toList,
          (c = ':' → true = true) ∧ c ∉ ['/', '\\', '?', '#', '[', ']'] := by
        have all : ∀ c ∈ ':' :: (List.range 16).map Numeral.digitChar, c ∉ ['/', '\\', '?', '#', '[', ']'] :=
          members_checked _ _ rfl
        exact fun c member => ⟨fun _ => rfl, all c (ipv6_member pieces c member)⟩
      have behind := split_host_through true _ (']' :: rest) inside
      have opened : splitHost .web false ('[' :: ((ipv6Text pieces).toList ++ ']' :: rest)) =
          ('[' :: (splitHost .web true ((ipv6Text pieces).toList ++ ']' :: rest)).1,
            (splitHost .web true ((ipv6Text pieces).toList ++ ']' :: rest)).2) := rfl
      have closed : splitHost .web true (']' :: rest) =
          (']' :: (splitHost .web false rest).1, (splitHost .web false rest).2) := rfl
      rw [ipv6_host_text, List.cons_append, List.append_assoc, List.singleton_append, opened, behind, closed,
        split_host_end rest ends]

end Split
end Devnet.Url
