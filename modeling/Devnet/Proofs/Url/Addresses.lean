import Mathlib.Data.List.TakeWhile
import Devnet.Url.Host
import Devnet.Proofs.Text.Digits

set_option autoImplicit false

namespace Devnet.Url

section Split

variable (separator : Char)

theorem split_through (current piece rest : List Char) (free : separator ∉ piece) :
    splitOn separator current (piece ++ rest) = splitOn separator (piece.reverse ++ current) rest := by
  induction piece generalizing current with
  | nil => rfl
  | cons c more ih =>
      have other : c ≠ separator := fun same => free (same ▸ List.mem_cons_self)
      have behind := ih (c :: current) fun member => free (List.mem_cons_of_mem c member)
      rw [List.cons_append, splitOn, if_neg other, behind, List.reverse_cons, List.append_assoc, List.singleton_append]

theorem split_joined (pieces : List (List Char)) (filled : pieces ≠ []) (free : ∀ piece ∈ pieces, separator ∉ piece) :
    splitOn separator [] ([separator].intercalate pieces) = pieces := by
  induction pieces with
  | nil => exact absurd rfl filled
  | cons first more ih =>
      have whole := free first List.mem_cons_self
      cases more with
      | nil =>
          have read := split_through separator [] first [] whole
          rw [List.append_nil, List.append_nil] at read
          rw [List.intercalate_singleton, read, splitOn, List.reverse_reverse]
      | cons second others =>
          have behind := ih (List.cons_ne_nil _ _) fun piece member => free piece (List.mem_cons_of_mem first member)
          rw [List.intercalate_cons_cons, List.append_assoc, split_through separator [] first _ whole,
            List.singleton_append, splitOn, if_pos rfl, behind, List.append_nil, List.reverse_reverse]

theorem joined_members (pieces : List (List Char)) (c : Char) (member : c ∈ [separator].intercalate pieces) :
    c = separator ∨ ∃ piece ∈ pieces, c ∈ piece := by
  induction pieces with
  | nil => cases member
  | cons first more ih =>
      cases more with
      | nil =>
          rw [List.intercalate_singleton] at member
          exact .inr ⟨first, List.mem_cons_self, member⟩
      | cons second others =>
          rw [List.intercalate_cons_cons, List.append_assoc] at member
          rcases List.mem_append.mp member with front | behind
          · exact .inr ⟨first, List.mem_cons_self, front⟩
          · rcases List.mem_append.mp behind with between | later
            · exact .inl (List.mem_singleton.mp between)
            · rcases ih later with same | ⟨piece, among, inside⟩
              · exact .inl same
              · exact .inr ⟨piece, List.mem_cons_of_mem first among, inside⟩

end Split

section Ipv4

def ipv4Bytes (address : Nat) : List Nat :=
  [address / 16777216 % 256, address / 65536 % 256, address / 256 % 256, address % 256]

def ipv4Characters (address : Nat) : List Char :=
  ['.'].intercalate ((ipv4Bytes address).map Numeral.decimalDigits)

theorem ipv4_text (address : Nat) : (ipv4Text address).toList = ipv4Characters address := by
  simp [ipv4Text, ipv4Characters, ipv4Bytes, Numeral.decimal]

theorem decimal_undotted (n : Nat) : '.' ∉ Numeral.decimalDigits n := by
  have apart : ∀ c ∈ (List.range 10).map Numeral.digitChar, c ≠ '.' := members_checked _ _ rfl
  exact fun member => apart '.' (Numeral.decimal_members n '.' member) rfl

theorem ipv4_number_unprefixed (c : Char) (rest : List Char) (leading : c ≠ '0') :
    ipv4Number? (c :: rest) = Numeral.value? 10 (c :: rest) := by
  unfold ipv4Number?
  split <;> simp_all

-- A number without leading zeros is never taken for an octal one.
theorem ipv4_number_decimal (n : Nat) : ipv4Number? (Numeral.decimalDigits n) = some n := by
  obtain ⟨d, rest, small, leading, same, zero⟩ := Numeral.digits_head 10 n (by decide) (by decide) []
  by_cases none : n = 0
  · obtain ⟨digit, empty⟩ := zero none
    rw [Numeral.decimalDigits, same, digit, empty, none]
    rfl
  · have positive : ∀ d, d < 10 → 0 < d → Numeral.digitChar d ≠ '0' := by decide
    have first := positive d small (leading (Nat.pos_of_ne_zero none))
    have value := Numeral.value_of_decimal n
    rw [Numeral.decimalDigits, same] at value ⊢
    rw [ipv4_number_unprefixed _ _ first, value]

theorem ipv4_split (address : Nat) :
    splitOn '.' [] (ipv4Characters address) = (ipv4Bytes address).map Numeral.decimalDigits := by
  apply split_joined '.' ((ipv4Bytes address).map Numeral.decimalDigits) (List.cons_ne_nil _ _)
  intro piece member
  obtain ⟨n, _, same⟩ := List.mem_map.mp member
  exact same ▸ decimal_undotted n

theorem ipv4_parts (address : Nat) :
    dottedParts (ipv4Characters address) = (ipv4Bytes address).map Numeral.decimalDigits := by
  have closed : ((ipv4Bytes address).map Numeral.decimalDigits).getLast? ≠ some [] := fun empty =>
    Numeral.decimal_nonempty _ (Option.some.inj empty)
  rw [dottedParts, ipv4_split]
  exact if_neg fun both => closed both.2

theorem ipv4_ends_in_number (address : Nat) : endsInNumber (ipv4Characters address) = true := by
  have number := ipv4_number_decimal (address % 256)
  rw [endsInNumber, ipv4_parts]
  simp [ipv4Bytes, number]

theorem ipv4_of_characters (address : Nat) (small : address < 4294967296) :
    ipv4? (ipv4Characters address) = some address := by
  have numbers : ((ipv4Bytes address).map Numeral.decimalDigits).mapM ipv4Number? = some (ipv4Bytes address) := by
    simp [ipv4Bytes, ipv4_number_decimal]
  have whole : ipv4FromNumbers (ipv4Bytes address).dropLast (address % 256) = some address := by
    have weight : Nat.pow 256 (4 - (0 + 1 + 1 + 1)) = 256 := rfl
    simp only [ipv4Bytes, ipv4FromNumbers, List.dropLast, List.length_cons, List.length_nil, List.all_cons, List.all_nil,
      List.foldl_cons, List.foldl_nil, Bool.and_true, Bool.and_eq_true, decide_eq_true_eq, weight]
    rw [if_pos (by omega), Option.some.injEq]
    omega
  rw [ipv4?, ipv4_parts, numbers]
  exact whole

theorem bytes_bound (bytes : List Nat) (high : Nat) (small : ∀ byte ∈ bytes, byte ≤ 255) :
    bytes.foldl (fun high byte => high * 256 + byte) high < (high + 1) * Nat.pow 256 bytes.length := by
  induction bytes generalizing high with
  | nil =>
      show high < (high + 1) * 1
      omega
  | cons byte rest ih =>
      have first := small byte List.mem_cons_self
      have bound := ih (high * 256 + byte) fun other member => small other (List.mem_cons_of_mem byte member)
      have step : (high * 256 + byte + 1) * Nat.pow 256 rest.length ≤ ((high + 1) * 256) * Nat.pow 256 rest.length :=
        Nat.mul_le_mul_right _ (by omega)
      have power : Nat.pow 256 (byte :: rest).length = 256 * Nat.pow 256 rest.length := Nat.mul_comm _ _
      rw [List.foldl_cons, power, ← Nat.mul_assoc]
      exact Nat.lt_of_lt_of_le bound step

theorem ipv4_small (name : List Char) (address : Nat) (read : ipv4? name = some address) : address < 4294967296 := by
  rw [ipv4?] at read
  cases numbers : (dottedParts name).mapM ipv4Number? with
  | none => simp [numbers] at read
  | some found =>
      cases final : found.getLast? with
      | none => simp [numbers, final] at read
      | some last =>
          simp only [numbers, final, ipv4FromNumbers] at read
          by_cases fits : found.dropLast.length ≤ 3 ∧ found.dropLast.all (· ≤ 255) = true ∧
              last < Nat.pow 256 (4 - found.dropLast.length)
          · rw [if_pos fits] at read
            obtain ⟨few, all, below⟩ := fits
            have high := bytes_bound found.dropLast 0 fun byte member => of_decide_eq_true (List.all_eq_true.mp all byte member)
            generalize found.dropLast.foldl (fun high byte => high * 256 + byte) 0 = front at high read
            have total : Nat.pow 256 found.dropLast.length * Nat.pow 256 (4 - found.dropLast.length) = 4294967296 := by
              have sum : found.dropLast.length + (4 - found.dropLast.length) = 4 := by omega
              exact (Nat.pow_add 256 _ _).symm.trans (congrArg (Nat.pow 256) sum)
            have scaled : (front + 1) * Nat.pow 256 (4 - found.dropLast.length) ≤ 4294967296 := by
              rw [← total]
              exact Nat.mul_le_mul_right _ (by omega)
            have value := Option.some.inj read
            rw [Nat.succ_mul] at scaled
            omega
          · rw [if_neg fits] at read
            cases read

end Ipv4

section Ipv6

structure IsIpv6 (pieces : List Nat) : Prop where
  eight : pieces.length = 8
  small : ∀ piece ∈ pieces, piece < 65536

theorem piece_small (text : List Char) (piece : Nat) (read : ipv6Piece? text = some piece) : piece < 65536 := by
  rw [ipv6Piece?] at read
  by_cases short : text.length ≤ 4
  · rw [if_pos short, Numeral.value?] at read
    by_cases empty : text.isEmpty = true
    · rw [if_pos empty] at read
      cases read
    · rw [if_neg empty] at read
      have bound := Numeral.value_bound 16 0 piece text read
      have power : Nat.pow 16 text.length ≤ 65536 := Nat.pow_le_pow_right (by decide) short
      omega
  · rw [if_neg short] at read
    cases read

theorem byte_small (text : List Char) (byte : Nat) (read : strictByte? text = some byte) : byte ≤ 255 := by
  unfold strictByte? at read
  split at read
  · cases read
  · split at read
    · split at read
      · cases read
        assumption
      · cases read
    · cases read

theorem bytes_small (texts : List (List Char)) (bytes : List Nat) (read : texts.mapM strictByte? = some bytes) :
    ∀ byte ∈ bytes, byte ≤ 255 := by
  induction texts generalizing bytes with
  | nil =>
      cases read
      exact fun _ member => (nomatch member)
  | cons first rest ih =>
      rw [List.mapM_cons] at read
      obtain ⟨byte, single, more⟩ := Option.bind_eq_some_iff.mp read
      obtain ⟨others, several, same⟩ := Option.bind_eq_some_iff.mp more
      cases same
      intro other member
      rcases List.mem_cons.mp member with this | among
      · exact this ▸ byte_small first byte single
      · exact ih others several other among

theorem embedded_small (text : List Char) (pieces : List Nat) (read : embeddedIpv4? text = some pieces) :
    ∀ piece ∈ pieces, piece < 65536 := by
  unfold embeddedIpv4? at read
  split at read
  case h_1 a b c d bytes =>
    cases read
    have small := bytes_small _ _ bytes
    simp only [List.mem_cons, List.not_mem_nil, or_false, forall_eq_or_imp, forall_eq] at small ⊢
    omega
  case h_2 => cases read

theorem pieces_small (texts : List (List Char)) (pieces : List Nat) (read : ipv6Pieces? texts = some pieces) :
    ∀ piece ∈ pieces, piece < 65536 := by
  induction texts generalizing pieces with
  | nil =>
      cases read
      exact fun _ member => (nomatch member)
  | cons first rest ih =>
      cases rest with
      | nil =>
          rw [ipv6Pieces?] at read
          by_cases dotted : first.contains '.' = true
          · rw [if_pos dotted] at read
            exact embedded_small first pieces read
          · rw [if_neg dotted] at read
            obtain ⟨piece, single, same⟩ := Option.map_eq_some_iff.mp read
            cases same
            intro other member
            exact List.mem_singleton.mp member ▸ piece_small first piece single
      | cons second others =>
          rw [ipv6Pieces?] at read
          · split at read
            case h_1 piece more single several =>
              cases read
              intro other member
              rcases List.mem_cons.mp member with this | among
              · exact this ▸ piece_small first piece single
              · exact ih more several other among
            case h_2 => cases read
          · exact List.cons_ne_nil _ _

theorem side_small (text : List Char) (pieces : List Nat) (read : ipv6Side? text = some pieces) :
    ∀ piece ∈ pieces, piece < 65536 := by
  rw [ipv6Side?] at read
  by_cases empty : text.isEmpty = true
  · rw [if_pos empty] at read
    cases read
    exact fun _ member => (nomatch member)
  · rw [if_neg empty] at read
    exact pieces_small _ pieces read

theorem ipv6_sound (text : List Char) (pieces : List Nat) (read : ipv6? text = some pieces) : IsIpv6 pieces := by
  rw [ipv6?] at read
  cases halves : atDoubleColon? [] text with
  | none =>
      simp only [halves] at read
      cases side : ipv6Side? text with
      | none => simp [side] at read
      | some found =>
          simp only [side] at read
          by_cases eight : found.length = 8
          · rw [if_pos eight] at read
            exact Option.some.inj read ▸ ⟨eight, side_small text found side⟩
          · rw [if_neg eight] at read
            cases read
  | some sides =>
      obtain ⟨left, right⟩ := sides
      simp only [halves] at read
      split at read
      · cases read
      · split at read
        case h_1 before after leftRead rightRead =>
          by_cases few : before.length + after.length ≤ 7
          · rw [if_pos few] at read
            cases read
            refine ⟨?_, ?_⟩
            · simp only [List.length_append, List.length_replicate]
              omega
            · intro piece member
              rcases List.mem_append.mp member with front | behind
              · rcases List.mem_append.mp front with first | zero
                · exact side_small left before leftRead piece first
                · rw [List.eq_of_mem_replicate zero]
                  decide
              · exact side_small right after rightRead piece behind
          · rw [if_neg few] at read
            cases read
        case h_2 => cases read

def joinedHex (pieces : List Nat) : List Char := [':'].intercalate (pieces.map Numeral.hexDigits)

theorem colon_joined (pieces : List Nat) : (colonJoined pieces).toList = joinedHex pieces := by
  simp [colonJoined, joinedHex, Numeral.hex, String.toList_intercalate, Function.comp_def]

theorem joined_hex_single (piece : Nat) : joinedHex [piece] = Numeral.hexDigits piece := List.intercalate_singleton

theorem joined_hex_more (first second : Nat) (rest : List Nat) :
    joinedHex (first :: second :: rest) = Numeral.hexDigits first ++ ':' :: joinedHex (second :: rest) := by
  simp [joinedHex]

theorem hex_unseparated (n : Nat) : ':' ∉ Numeral.hexDigits n ∧ '.' ∉ Numeral.hexDigits n := by
  have apart : ∀ c ∈ (List.range 16).map Numeral.digitChar, c ≠ ':' ∧ c ≠ '.' := members_checked _ _ rfl
  exact ⟨fun member => (apart ':' (Numeral.hex_members n ':' member)).1 rfl,
    fun member => (apart '.' (Numeral.hex_members n '.' member)).2 rfl⟩

theorem joined_hex_head (first : Nat) (rest : List Nat) : ∃ c more, joinedHex (first :: rest) = c :: more ∧ c ≠ ':' := by
  obtain ⟨c, digits, same⟩ := List.exists_cons_of_ne_nil (Numeral.hex_nonempty first)
  have digit : c ≠ ':' := by
    intro colon
    exact (hex_unseparated first).1 (by rw [same, colon]; exact List.mem_cons_self)
  cases rest with
  | nil => exact ⟨c, digits, by rw [joined_hex_single, same], digit⟩
  | cons second others => exact ⟨c, _, by rw [joined_hex_more, same, List.cons_append], digit⟩

theorem joined_hex_undotted (pieces : List Nat) : '.' ∉ joinedHex pieces := by
  intro member
  rcases joined_members ':' _ '.' member with same | ⟨text, among, inside⟩
  · cases same
  · obtain ⟨piece, _, same⟩ := List.mem_map.mp among
    exact (hex_unseparated piece).2 (same ▸ inside)

theorem piece_of_hex (piece : Nat) (small : piece < 65536) : ipv6Piece? (Numeral.hexDigits piece) = some piece := by
  have short := Numeral.digits_length 16 piece 3 (by decide) [] small
  rw [ipv6Piece?, if_pos (by simpa [Numeral.hexDigits] using short), Numeral.value_of_hex]

theorem pieces_of_hex (pieces : List Nat) (small : ∀ piece ∈ pieces, piece < 65536) :
    ipv6Pieces? (pieces.map Numeral.hexDigits) = some pieces := by
  induction pieces with
  | nil => rfl
  | cons first rest ih =>
      have single := piece_of_hex first (small first List.mem_cons_self)
      cases rest with
      | nil =>
          have undotted : ¬ (Numeral.hexDigits first).contains '.' = true := fun member =>
            (hex_unseparated first).2 (List.contains_iff_mem.mp member)
          rw [List.map_cons, List.map_nil, ipv6Pieces?, if_neg undotted, single]
          rfl
      | cons second others =>
          have several := ih fun piece member => small piece (List.mem_cons_of_mem first member)
          rw [List.map_cons, ipv6Pieces?, single, several]
          exact List.cons_ne_nil _ _

theorem side_of_hex (pieces : List Nat) (small : ∀ piece ∈ pieces, piece < 65536) :
    ipv6Side? (joinedHex pieces) = some pieces := by
  cases pieces with
  | nil => rfl
  | cons first rest =>
      have parts := split_joined ':' ((first :: rest).map Numeral.hexDigits) (List.cons_ne_nil _ _) (by
        intro text member
        obtain ⟨piece, _, same⟩ := List.mem_map.mp member
        exact same ▸ (hex_unseparated piece).1)
      have filled : ¬ (joinedHex (first :: rest)).isEmpty = true := by
        obtain ⟨c, more, same, _⟩ := joined_hex_head first rest
        rw [same]
        exact Bool.false_ne_true
      rw [ipv6Side?, if_neg filled, joinedHex, parts, pieces_of_hex _ small]

theorem double_colon_piece (before piece rest : List Char) (free : ':' ∉ piece) :
    atDoubleColon? before (piece ++ rest) = atDoubleColon? (piece.reverse ++ before) rest := by
  induction piece generalizing before with
  | nil => rfl
  | cons c more ih =>
      have other : c ≠ ':' := fun same => free (same ▸ List.mem_cons_self)
      have behind := ih (c :: before) fun member => free (List.mem_cons_of_mem c member)
      rw [List.cons_append, atDoubleColon?, behind, List.reverse_cons, List.append_assoc, List.singleton_append]
      exact fun _ same _ => other same

-- Single colons are passed, since a digit stands behind each of them.
theorem double_colon_joined (before rest : List Char) (pieces : List Nat) :
    atDoubleColon? before (joinedHex pieces ++ rest) = atDoubleColon? ((joinedHex pieces).reverse ++ before) rest := by
  induction pieces generalizing before with
  | nil => rfl
  | cons first more ih =>
      have whole := (hex_unseparated first).1
      cases more with
      | nil =>
          rw [joined_hex_single]
          exact double_colon_piece before _ rest whole
      | cons second others =>
          obtain ⟨c, digits, same, digit⟩ := joined_hex_head second others
          have passed (front : List Char) : atDoubleColon? front (':' :: (joinedHex (second :: others) ++ rest)) =
              atDoubleColon? (':' :: front) (joinedHex (second :: others) ++ rest) := by
            rw [same, List.cons_append, atDoubleColon?]
            intro after _ colon
            exact digit (List.cons.inj colon).1
          rw [joined_hex_more, List.append_assoc, double_colon_piece before _ _ whole, List.cons_append, passed, ih]
          simp

theorem longest_zero_run (index : Nat) (best : Nat × Nat) (pieces : List Nat) :
    longestZeroRun index best pieces = best ∨ ∃ before length after,
      pieces = before ++ List.replicate length 0 ++ after ∧
        longestZeroRun index best pieces = (index + before.length, length) := by
  induction pieces generalizing index best with
  | nil => exact .inl rfl
  | cons piece rest ih =>
      have run : piece :: rest = [] ++ List.replicate (zeroRun (piece :: rest)) 0 ++
          (piece :: rest).dropWhile (· = 0) := by
        have zeros : ∀ other ∈ (piece :: rest).takeWhile (· = 0), other = 0 := fun other member => by
          simpa using List.mem_takeWhile_imp member
        rw [List.nil_append, zeroRun, ← List.eq_replicate_of_mem zeros, List.takeWhile_append_dropWhile]
      rw [longestZeroRun]
      rcases ih (index + 1) (if zeroRun (piece :: rest) > best.2 then (index, zeroRun (piece :: rest)) else best) with
        kept | ⟨before, length, after, same, found⟩
      · rw [kept]
        by_cases longer : zeroRun (piece :: rest) > best.2
        · rw [if_pos longer]
          exact .inr ⟨[], _, _, run, rfl⟩
        · rw [if_neg longer]
          exact .inl rfl
      · refine .inr ⟨piece :: before, length, after, ?_, ?_⟩
        · rw [same]
          rfl
        · rw [found, List.length_cons, Nat.add_assoc, Nat.add_comm 1]

theorem ipv6_of_text (pieces : List Nat) (is : IsIpv6 pieces) : ipv6? (ipv6Text pieces).toList = some pieces := by
  have eight := is.eight
  have small := is.small
  have found := longest_zero_run 0 (0, 0) pieces
  generalize run : longestZeroRun 0 (0, 0) pieces = place at found
  by_cases short : place.2 < 2
  · have text : (ipv6Text pieces).toList = joinedHex pieces ++ [] := by
      rw [ipv6Text, run, List.append_nil]
      simp only [short, if_pos, colon_joined]
    have single : atDoubleColon? [] (joinedHex pieces ++ []) = none := by
      rw [double_colon_joined]
      rfl
    rw [text, ipv6?, single, List.append_nil, side_of_hex pieces small]
    exact if_pos eight
  · rcases found with none | ⟨before, length, after, split, placed⟩
    · rw [none] at short
      exact absurd (by decide) short
    · rw [Nat.zero_add] at placed
      have front : pieces.take before.length = before := by rw [split, List.append_assoc, List.take_left]
      have back : pieces.drop (before.length + length) = after := by
        rw [split, ← List.drop_drop, List.append_assoc, List.drop_left, List.drop_left' List.length_replicate]
      have long : ¬ length < 2 := by rwa [placed] at short
      have text : (ipv6Text pieces).toList = joinedHex before ++ ':' :: ':' :: joinedHex after := by
        rw [ipv6Text, run, placed]
        simp [long, front, back, colon_joined]
      have halves : atDoubleColon? [] (joinedHex before ++ ':' :: ':' :: joinedHex after) =
          some (joinedHex before, joinedHex after) := by
        rw [double_colon_joined, List.append_nil, atDoubleColon?, List.reverse_reverse]
      have undotted : ¬ (joinedHex before).contains '.' = true := fun member =>
        joined_hex_undotted before (List.contains_iff_mem.mp member)
      have left := side_of_hex before fun piece member => small piece (by rw [split]; simp [member])
      have right := side_of_hex after fun piece member => small piece (by rw [split]; simp [member])
      rw [split, List.length_append, List.length_append, List.length_replicate] at eight
      have filling : 8 - before.length - after.length = length := by omega
      rw [text, ipv6?, halves]
      simp only [undotted, left, right]
      rw [if_neg Bool.false_ne_true, if_pos (by omega), filling, split]

end Ipv6
end Devnet.Url
