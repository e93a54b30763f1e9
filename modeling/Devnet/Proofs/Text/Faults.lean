import Devnet.Proofs.Text.Utf8

set_option autoImplicit false

namespace Devnet.Utf8

def IsTail (b : UInt8) : Prop := 0x80 ≤ b.toNat ∧ b.toNat ≤ 0xBF

theorem tail_iff (b : UInt8) : (0x80 ≤ b && b ≤ 0xBF) = true ↔ IsTail b := by
  simp only [Bool.and_eq_true, decide_eq_true_eq, UInt8.le_iff_toNat_le]
  rfl

section Continuation

variable (taken code missing : Nat) (bytes after : Bytes)

theorem invalid_of_continuation (length : Nat)
    (read : continuation taken code missing bytes = (.invalid length, after)) :
    ∃ skipped : Bytes, bytes = skipped ++ after ∧ taken + skipped.length = length ∧ skipped.length < missing := by
  induction missing generalizing taken code bytes with
  | zero => cases congrArg Prod.fst read
  | succ missing ih =>
      cases bytes with
      | nil => cases congrArg Prod.fst read
      | cons b rest =>
          by_cases tail : (0x80 ≤ b && b ≤ 0xBF) = true
          · rw [continuation, if_pos tail] at read
            obtain ⟨skipped, same, counted, short⟩ := ih _ _ _ read
            refine ⟨b :: skipped, congrArg (b :: ·) same, ?_, Nat.succ_lt_succ short⟩
            rw [List.length_cons]
            omega
          · rw [continuation, if_neg tail] at read
            injection read with piece rest
            injection piece with counted
            exact ⟨[], rest, counted, Nat.succ_pos missing⟩

theorem incomplete_of_continuation (read : continuation taken code missing bytes = (.incomplete, after)) :
    after = [] ∧ bytes.length < missing ∧ ∀ b ∈ bytes, IsTail b := by
  induction missing generalizing taken code bytes with
  | zero => cases congrArg Prod.fst read
  | succ missing ih =>
      cases bytes with
      | nil => exact ⟨(congrArg Prod.snd read).symm, Nat.succ_pos missing, fun b member => nomatch member⟩
      | cons b rest =>
          by_cases tail : (0x80 ≤ b && b ≤ 0xBF) = true
          · rw [continuation, if_pos tail] at read
            obtain ⟨nothing, short, tails⟩ := ih _ _ _ read
            refine ⟨nothing, Nat.succ_lt_succ short, ?_⟩
            intro other member
            rcases List.mem_cons.mp member with first | later
            · exact first ▸ (tail_iff b).mp tail
            · exact tails other later
          · rw [continuation, if_neg tail] at read
            cases congrArg Prod.fst read

theorem char_of_tails (tails : ∀ b ∈ bytes, IsTail b) (enough : bytes.length = missing) :
    ∃ c, continuation taken code missing bytes = (.char c, []) := by
  induction missing generalizing taken code bytes with
  | zero =>
      rw [List.length_eq_zero_iff.mp enough]
      exact ⟨_, rfl⟩
  | succ missing ih =>
      cases bytes with
      | nil => cases enough
      | cons b rest =>
          have first := tails b List.mem_cons_self
          rw [continuation_tail taken code missing b rest first.1 first.2]
          exact ih _ _ rest (fun other member => tails other (List.mem_cons_of_mem b member)) (Nat.succ.inj enough)

end Continuation

theorem lead_follow (b : UInt8) (lead : Lead) (is : IsLead b lead) : 1 ≤ lead.follow ∧ lead.follow ≤ 3 := by
  cases is <;> exact ⟨by simp, by simp⟩

theorem lead_range (b : UInt8) (lead : Lead) (is : IsLead b lead) : lead.low.toNat ≤ lead.high.toNat := by
  cases is with
  | two low high => decide
  | three low high =>
      dsimp only
      split_ifs <;> first | decide | omega
  | four low high =>
      dsimp only
      split_ifs <;> first | decide | omega

inductive Starts (b : UInt8) (rest : Bytes) : Prop where
  | alone (same : piece b rest = (.invalid 1, rest))
  | last (lead : Lead) (is : IsLead b lead) (nothing : rest = []) (same : piece b rest = (.incomplete, []))
  | long (lead : Lead) (is : IsLead b lead) (second : UInt8) (more : Bytes) (split : rest = second :: more)
      (low : lead.low.toNat ≤ second.toNat) (high : second.toNat ≤ lead.high.toNat)
      (same : piece b rest =
        continuation 2 (leadBits b lead.follow * 64 + payload second) (lead.follow - 1) more)

theorem piece_starts (b : UInt8) (rest : Bytes) (long : ¬ b < 0x80) : Starts b rest := by
  cases found : lead? b with
  | none => exact .alone (by rw [piece, if_neg long, found])
  | some lead =>
      have is := is_lead_of_lead b lead found
      cases rest with
      | nil => exact .last lead is rfl (by rw [piece, if_neg long, found])
      | cons second more =>
          by_cases inside : (lead.low ≤ second && second ≤ lead.high) = true
          · have range := inside
            simp only [Bool.and_eq_true, decide_eq_true_eq, UInt8.le_iff_toNat_le] at range
            exact .long lead is second more rfl range.1 range.2 (piece_of_lead b second more lead is range.1 range.2)
          · apply Starts.alone
            rw [piece, if_neg long, found]
            exact if_neg inside

theorem ascii_piece (b : UInt8) (rest : Bytes) (short : b < 0x80) :
    piece b rest = (.char (Char.ofNat b.toNat), rest) := by
  rw [piece, if_pos short]

theorem invalid_of_piece (b : UInt8) (rest after : Bytes) (length : Nat)
    (read : piece b rest = (.invalid length, after)) :
    1 ≤ length ∧ length ≤ 3 ∧ ∃ skipped : Bytes, b :: rest = skipped ++ after ∧ skipped.length = length := by
  by_cases short : b < 0x80
  · rw [ascii_piece b rest short] at read
    cases congrArg Prod.fst read
  · cases piece_starts b rest short with
    | alone same =>
        rw [same] at read
        injection read with piece rest
        injection piece with counted
        rw [← counted]
        exact ⟨by decide, by decide, [b], congrArg (b :: ·) rest, rfl⟩
    | last lead is nothing same =>
        rw [same] at read
        cases congrArg Prod.fst read
    | long lead is second more split low high same =>
        rw [same] at read
        obtain ⟨skipped, behind, counted, fewer⟩ := invalid_of_continuation _ _ _ more after length read
        have follow := lead_follow b lead is
        refine ⟨by omega, by omega, b :: second :: skipped, ?_, ?_⟩
        · rw [split, behind]
          rfl
        · rw [List.length_cons, List.length_cons]
          omega

theorem char_of_filled (b second : UInt8) (more filling : Bytes) (lead : Lead) (is : IsLead b lead)
    (low : lead.low.toNat ≤ second.toNat) (high : second.toNat ≤ lead.high.toNat)
    (tails : ∀ tail ∈ more ++ filling, IsTail tail) (enough : (more ++ filling).length = lead.follow - 1) :
    ∃ c, encodeChar c = b :: second :: (more ++ filling) := by
  obtain ⟨c, read⟩ := char_of_tails 2 (leadBits b lead.follow * 64 + payload second) (lead.follow - 1)
    (more ++ filling) tails enough
  rw [← piece_of_lead b second (more ++ filling) lead is low high] at read
  obtain ⟨tail, same, spells⟩ := spelled_of_piece b (second :: (more ++ filling)) [] c read
  rw [List.append_nil] at same
  exact ⟨c, same ▸ encoded_of_spelled c _ spells⟩

theorem padding_tails (count : Nat) : ∀ tail ∈ List.replicate count (0x80 : UInt8), IsTail tail := by
  intro tail member
  rw [List.eq_of_mem_replicate member]
  exact ⟨Nat.le_refl _, by decide⟩

theorem incomplete_of_piece (b : UInt8) (rest after : Bytes) (read : piece b rest = (.incomplete, after)) :
    after = [] ∧ ∃ c filling, filling ≠ [] ∧ encodeChar c = b :: rest ++ filling := by
  by_cases short : b < 0x80
  · rw [ascii_piece b rest short] at read
    cases congrArg Prod.fst read
  · cases piece_starts b rest short with
    | alone same =>
        rw [same] at read
        cases congrArg Prod.fst read
    | last lead is nothing same =>
        rw [same] at read
        obtain ⟨c, filled⟩ := char_of_filled b lead.low [] (List.replicate (lead.follow - 1) 0x80) lead is
          (Nat.le_refl _) (lead_range b lead is) (padding_tails _) List.length_replicate
        refine ⟨(congrArg Prod.snd read).symm, c, lead.low :: List.replicate (lead.follow - 1) 0x80,
          List.cons_ne_nil _ _, ?_⟩
        rw [filled, nothing]
        rfl
    | long lead is second more split low high same =>
        rw [same] at read
        obtain ⟨nothing, fewer, tails⟩ := incomplete_of_continuation _ _ _ more after read
        have lengths : (more ++ List.replicate (lead.follow - 1 - more.length) (0x80 : UInt8)).length =
            lead.follow - 1 := by
          rw [List.length_append, List.length_replicate]
          omega
        obtain ⟨c, filled⟩ := char_of_filled b second more (List.replicate (lead.follow - 1 - more.length) 0x80) lead
          is low high (by
            intro tail member
            rcases List.mem_append.mp member with given | padded
            · exact tails tail given
            · exact padding_tails _ tail padded) lengths
        refine ⟨nothing, c, List.replicate (lead.follow - 1 - more.length) 0x80, ?_, ?_⟩
        · intro empty
          have none := congrArg List.length empty
          rw [List.length_replicate, List.length_nil] at none
          omega
        · rw [filled, split]
          rfl

theorem encode_char_length (c : Char) : (encodeChar c).length = c.utf8Size := by
  rw [encoded_of_spelled c _ (standard_spells c), String.length_utf8EncodeChar]

theorem pieces_nil : pieces [] = [] := by simp [pieces, collect]

theorem pieces_after (chars : List Char) (tail : Bytes) :
    pieces (chars.flatMap encodeChar ++ tail) = chars.map .char ++ pieces tail := by
  induction chars with
  | nil => rfl
  | cons c rest ih =>
      rw [List.flatMap_cons, List.append_assoc, pieces_encoded, ih]
      rfl

theorem bytes_of_pieces (bytes : Bytes) (chars : List Char) (others : List Piece)
    (read : pieces bytes = chars.map .char ++ others) :
    ∃ tail, bytes = chars.flatMap encodeChar ++ tail ∧ pieces tail = others := by
  induction chars generalizing bytes with
  | nil => exact ⟨bytes, rfl, read⟩
  | cons c more ih =>
      cases bytes with
      | nil => simp [pieces, collect] at read
      | cons b rest =>
          rw [pieces_cons, List.map_cons, List.cons_append, List.cons.injEq] at read
          obtain ⟨first, same, spells⟩ := spelled_of_piece b rest (piece b rest).2 c (Prod.ext read.1 rfl)
          obtain ⟨tail, behind, others⟩ := ih _ read.2
          refine ⟨tail, ?_, others⟩
          rw [List.flatMap_cons, encoded_of_spelled c _ spells, List.append_assoc, ← behind, List.cons_append, ← same]

theorem lossy_after (text : String) (tail : Bytes) :
    decodeLossy (encode text ++ tail) = text ++ decodeLossy tail := by
  apply String.ext
  rw [decodeLossy, encode, pieces_after, List.map_append, List.map_map, String.toList_append, String.toList_ofList,
    decodeLossy, String.toList_ofList]
  exact congrArg (· ++ _) (List.map_id _)

theorem lossy_of_decoded (bytes : Bytes) (text : String) (decoded : decode bytes = .ok text) :
    decodeLossy bytes = text := by
  have same := lossy_after text []
  rw [List.append_nil, (decode_ok_iff bytes text).mp decoded] at same
  rw [same, decodeLossy, pieces_nil]
  exact String.append_empty

-- How many bytes a piece reports as its fault.
def Piece.faulty : Piece → Option Nat
  | .invalid length => some length
  | _ => none

theorem characters_error (index : Nat) (text : String) (found : List Piece) (cause : DecodeError)
    (fails : characters index text found = .error cause) :
    ∃ (chars : List Char) (bad : Piece) (others : List Piece), found = chars.map .char ++ bad :: others ∧
      (∀ c, bad ≠ .char c) ∧ cause = ⟨index + (chars.flatMap encodeChar).length, bad.faulty⟩ := by
  induction found generalizing index text with
  | nil => cases fails
  | cons piece rest ih =>
      cases piece with
      | char c =>
          rw [characters] at fails
          obtain ⟨chars, bad, others, same, odd, told⟩ := ih _ _ fails
          refine ⟨c :: chars, bad, others, congrArg (Piece.char c :: ·) same, odd, ?_⟩
          rw [told, List.flatMap_cons, List.length_append, encode_char_length, Nat.add_assoc]
      | invalid length =>
          refine ⟨[], .invalid length, rest, rfl, ?_, (Except.error.inj fails).symm⟩
          intro c same
          cases same
      | incomplete =>
          refine ⟨[], .incomplete, rest, rfl, ?_, (Except.error.inj fails).symm⟩
          intro c same
          cases same

-- The text that the first `index` bytes spell; no more bytes from the start spell any.
structure LongestText (bytes : Bytes) (index : Nat) (text : String) : Prop where
  inside : index ≤ bytes.length
  spelled : encode text = bytes.take index
  longest : ∀ length other, length ≤ bytes.length → encode other = bytes.take length → length ≤ index

theorem text_behind (text other : String) (behind : Bytes) (same : encode other = encode text ++ behind) :
    ∃ chars : List Char, behind = chars.flatMap encodeChar := by
  have read := pieces_after text.toList behind
  rw [← encode, ← same, encode, pieces_encode] at read
  have later := congrArg (List.drop text.toList.length) read
  rw [List.drop_left' (List.length_map _), ← List.map_drop] at later
  exact ⟨_, bytes_of_char_pieces behind _ later.symm⟩

theorem longest_before_fault (text : String) (tail : Bytes) (bad : Piece) (others : List Piece)
    (read : pieces tail = bad :: others) (odd : ∀ c, bad ≠ .char c) :
    LongestText (encode text ++ tail) (encode text).length text := by
  refine ⟨by simp, by simp, ?_⟩
  intro length other inside spelled
  by_contra beyond
  rw [List.take_append, List.take_of_length_le (by omega)] at spelled
  obtain ⟨chars, behind⟩ := text_behind text other _ spelled
  cases chars with
  | nil =>
      have empty := List.take_eq_nil_iff.mp behind
      rcases empty with none | none
      · omega
      · rw [none, pieces_nil] at read
        cases read
  | cons c more =>
      have split := List.take_append_drop (length - (encode text).length) tail
      rw [behind, List.flatMap_cons, List.append_assoc] at split
      rw [← split, pieces_encoded] at read
      exact odd c (List.cons.inj read).1.symm

-- What the strict decoder says about bytes, and what the lossy decoder makes of them.
inductive Faulty (bytes : Bytes) (lossy : String) : DecodeError → Prop where
  | invalid (text : String) (index length : Nat) (longest : LongestText bytes index text) (positive : 1 ≤ length)
      (short : length ≤ 3) (inside : index + length ≤ bytes.length)
      (replaced : lossy = text ++ "\uFFFD" ++ decodeLossy (bytes.drop (index + length))) :
      Faulty bytes lossy ⟨index, some length⟩
  | incomplete (text : String) (index : Nat) (longest : LongestText bytes index text) (c : Char) (missing : Bytes)
      (started : bytes.drop index ≠ []) (unfinished : missing ≠ [])
      (filled : encodeChar c = bytes.drop index ++ missing) (replaced : lossy = text ++ "\uFFFD") :
      Faulty bytes lossy ⟨index, none⟩

theorem lossy_fault (bytes : Bytes) (bad : Piece) (others : List Piece) (read : pieces bytes = bad :: others)
    (odd : ∀ c, bad ≠ .char c) : decodeLossy bytes = "\uFFFD" ++ String.ofList (others.map Piece.lossy) := by
  have mark : bad.lossy = Char.ofNat 0xFFFD := by
    cases bad with
    | char c => exact absurd rfl (odd c)
    | invalid length => rfl
    | incomplete => rfl
  apply String.ext
  simp [decodeLossy, read, mark]

theorem decode_faulty (bytes : Bytes) (cause : DecodeError) (fails : decode bytes = .error cause) :
    Faulty bytes (decodeLossy bytes) cause := by
  obtain ⟨chars, bad, others, found, odd, told⟩ := characters_error 0 "" (pieces bytes) cause fails
  obtain ⟨tail, split, read⟩ := bytes_of_pieces bytes chars (bad :: others) found
  have encoded : chars.flatMap encodeChar = encode (String.ofList chars) := by rw [encode, String.toList_ofList]
  have longest := longest_before_fault (String.ofList chars) tail bad others read odd
  have lossy := lossy_after (String.ofList chars) tail
  rw [lossy_fault tail bad others read odd] at lossy
  rw [told, Nat.zero_add, encoded]
  rw [encoded] at split
  rw [← split] at longest lossy
  have rest : bytes.drop (encode (String.ofList chars)).length = tail := by rw [split, List.drop_left]
  cases tail with
  | nil =>
      rw [pieces_nil] at read
      cases read
  | cons b more =>
      rw [pieces_cons, List.cons.injEq] at read
      cases bad with
      | char c => exact absurd rfl (odd c)
      | invalid length =>
          obtain ⟨positive, short, skipped, same, counted⟩ := invalid_of_piece b more (piece b more).2 length
            (Prod.ext read.1 rfl)
          refine .invalid _ _ length longest positive short ?_ ?_
          · rw [split, same, List.length_append, List.length_append]
            omega
          · have behind : bytes.drop ((encode (String.ofList chars)).length + length) = (piece b more).2 := by
              rw [← List.drop_drop, rest, same, ← counted, List.drop_left]
            rw [lossy, behind, decodeLossy, read.2, String.append_assoc]
      | incomplete =>
          obtain ⟨nothing, c, missing, unfinished, filled⟩ := incomplete_of_piece b more (piece b more).2
            (Prod.ext read.1 rfl)
          rw [nothing, pieces_nil] at read
          refine .incomplete _ _ longest c missing ?_ unfinished ?_ ?_
          · rw [rest]
            exact List.cons_ne_nil b more
          · rw [rest, filled]
          · rw [lossy, ← read.2]
            rfl

end Devnet.Utf8
