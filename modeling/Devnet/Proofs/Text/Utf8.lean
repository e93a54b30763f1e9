import Devnet.Text.Utf8
import Mathlib.Tactic.SplitIfs
import Mathlib.Data.List.Basic
import Mathlib.Data.String.Basic

set_option autoImplicit false

namespace Devnet.Utf8

inductive IsLead (b : UInt8) : Lead → Prop where
  | two (low : 0xC2 ≤ b.toNat) (high : b.toNat ≤ 0xDF) : IsLead b ⟨1, 0x80, 0xBF⟩
  | three (low : 0xE0 ≤ b.toNat) (high : b.toNat ≤ 0xEF) :
      IsLead b ⟨2, if b.toNat = 0xE0 then 0xA0 else 0x80, if b.toNat = 0xED then 0x9F else 0xBF⟩
  | four (low : 0xF0 ≤ b.toNat) (high : b.toNat ≤ 0xF4) :
      IsLead b ⟨3, if b.toNat = 0xF0 then 0x90 else 0x80, if b.toNat = 0xF4 then 0x8F else 0xBF⟩

theorem lead_of_is_lead (b : UInt8) (lead : Lead) (is : IsLead b lead) : lead? b = some lead := by
  cases is with
  | two low high => simp [lead?, UInt8.le_iff_toNat_le, low, high]
  | three low high =>
      simp only [lead?, UInt8.le_iff_toNat_le, ← UInt8.toNat_inj, beq_iff_eq, Bool.and_eq_true, decide_eq_true_eq,
        UInt8.reduceToNat]
      split_ifs <;> first | rfl | omega
  | four low high =>
      simp only [lead?, UInt8.le_iff_toNat_le, ← UInt8.toNat_inj, beq_iff_eq, Bool.and_eq_true, decide_eq_true_eq,
        UInt8.reduceToNat]
      split_ifs <;> first | rfl | omega

theorem is_lead_of_lead (b : UInt8) (lead : Lead) (found : lead? b = some lead) : IsLead b lead := by
  have known : IsLead b lead ∨ ¬ (0xC2 ≤ b.toNat ∧ b.toNat ≤ 0xF4) := by
    by_cases two : 0xC2 ≤ b.toNat ∧ b.toNat ≤ 0xDF
    · have is := IsLead.two two.1 two.2
      rw [lead_of_is_lead b _ is] at found
      exact .inl (Option.some.inj found ▸ is)
    · by_cases three : 0xE0 ≤ b.toNat ∧ b.toNat ≤ 0xEF
      · have is := IsLead.three three.1 three.2
        rw [lead_of_is_lead b _ is] at found
        exact .inl (Option.some.inj found ▸ is)
      · by_cases four : 0xF0 ≤ b.toNat ∧ b.toNat ≤ 0xF4
        · have is := IsLead.four four.1 four.2
          rw [lead_of_is_lead b _ is] at found
          exact .inl (Option.some.inj found ▸ is)
        · exact .inr (by omega)
  rcases known with is | outside
  · exact is
  · simp only [lead?, UInt8.le_iff_toNat_le, ← UInt8.toNat_inj, beq_iff_eq, Bool.and_eq_true, decide_eq_true_eq,
      UInt8.reduceToNat] at found
    split_ifs at found <;> omega

theorem piece_of_lead (b second : UInt8) (more : Bytes) (lead : Lead) (is : IsLead b lead)
    (low : lead.low.toNat ≤ second.toNat) (high : second.toNat ≤ lead.high.toNat) :
    piece b (second :: more) =
      continuation 2 (leadBits b lead.follow * 64 + payload second) (lead.follow - 1) more := by
  have long : ¬ b < 0x80 := by
    rw [UInt8.lt_iff_toNat_lt]
    change ¬ b.toNat < 128
    cases is <;> omega
  rw [piece, if_neg long, lead_of_is_lead b lead is]
  simp [UInt8.le_iff_toNat_le, low, high]

theorem continuation_tail (taken code missing : Nat) (b : UInt8) (rest : Bytes) (low : 0x80 ≤ b.toNat)
    (high : b.toNat ≤ 0xBF) :
    continuation taken code (missing + 1) (b :: rest) =
      continuation (taken + 1) (code * 64 + payload b) missing rest := by
  simp [continuation, UInt8.le_iff_toNat_le, low, high]

inductive Spells (n : Nat) : Bytes → Prop where
  | one (a : UInt8) (first : a.toNat = n) (small : n < 0x80) : Spells n [a]
  | two (a b : UInt8) (first : a.toNat = 0xC0 + n / 64) (second : b.toNat = 0x80 + n % 64)
      (low : 0x80 ≤ n) (high : n < 0x800) : Spells n [a, b]
  | three (a b c : UInt8) (first : a.toNat = 0xE0 + n / 4096) (second : b.toNat = 0x80 + n / 64 % 64)
      (third : c.toNat = 0x80 + n % 64) (low : 0x800 ≤ n) (high : n < 0x10000)
      (scalar : n < 0xD800 ∨ 0xDFFF < n) : Spells n [a, b, c]
  | four (a b c d : UInt8) (first : a.toNat = 0xF0 + n / 262144) (second : b.toNat = 0x80 + n / 4096 % 64)
      (third : c.toNat = 0x80 + n / 64 % 64) (fourth : d.toNat = 0x80 + n % 64)
      (low : 0x10000 ≤ n) (high : n < 0x110000) : Spells n [a, b, c, d]

theorem piece_of_spelled (n : Nat) (b : UInt8) (tail rest : Bytes) (spells : Spells n (b :: tail)) :
    piece b (tail ++ rest) = (.char (Char.ofNat n), rest) := by
  cases spells with
  | one _ first small =>
      have short : b < 0x80 := by
        rw [UInt8.lt_iff_toNat_lt, first]
        exact small
      rw [piece, if_pos short, first, List.nil_append]
  | two _ s first second low high =>
      have is := IsLead.two (b := b) (by omega) (by omega)
      have code : leadBits b 1 * 64 + payload s = n := by
        change b.toNat % 32 * 64 + s.toNat % 64 = n
        omega
      rw [List.cons_append, piece_of_lead b s _ _ is (by change 128 ≤ _; omega) (by change _ ≤ 191; omega), code]
      rfl
  | three _ s t first second third low high scalar =>
      have is := IsLead.three (b := b) (by omega) (by omega)
      have code : (leadBits b 2 * 64 + payload s) * 64 + payload t = n := by
        change (b.toNat % 16 * 64 + s.toNat % 64) * 64 + t.toNat % 64 = n
        omega
      rw [List.cons_append, piece_of_lead b s _ _ is (by dsimp only; split_ifs <;> simp <;> omega)
        (by dsimp only; split_ifs <;> simp <;> omega)]
      change continuation 2 (leadBits b 2 * 64 + payload s) 1 (t :: rest) = _
      rw [continuation_tail _ _ _ t _ (by omega) (by omega), code]
      rfl
  | four _ s t u first second third fourth low high =>
      have is := IsLead.four (b := b) (by omega) (by omega)
      have code : ((leadBits b 3 * 64 + payload s) * 64 + payload t) * 64 + payload u = n := by
        change ((b.toNat % 8 * 64 + s.toNat % 64) * 64 + t.toNat % 64) * 64 + u.toNat % 64 = n
        omega
      rw [List.cons_append, piece_of_lead b s _ _ is (by dsimp only; split_ifs <;> simp <;> omega)
        (by dsimp only; split_ifs <;> simp <;> omega)]
      change continuation 2 (leadBits b 3 * 64 + payload s) 2 (t :: u :: rest) = _
      rw [continuation_tail _ _ _ t _ (by omega) (by omega), continuation_tail _ _ _ u _ (by omega) (by omega), code]
      rfl

theorem char_value (c : Char) : c.toNat < 0xD800 ∨ 0xDFFF < c.toNat ∧ c.toNat < 0x110000 := c.valid

theorem byte_value (n : Nat) (small : n < 256) : n.toUInt8.toNat = n := by
  simpa using Nat.mod_eq_of_lt small

theorem encoded_spells (c : Char) : Spells c.toNat (encodeChar c) := by
  have valid := char_value c
  simp only [encodeChar]
  split_ifs with one two three
  · exact .one _ (byte_value _ (by omega)) one
  · exact .two _ _ (byte_value _ (by omega)) (byte_value _ (by omega)) (by omega) two
  · exact .three _ _ _ (byte_value _ (by omega)) (byte_value _ (by omega)) (byte_value _ (by omega)) (by omega) three
      (by omega)
  · exact .four _ _ _ _ (byte_value _ (by omega)) (byte_value _ (by omega)) (byte_value _ (by omega))
      (byte_value _ (by omega)) (by omega) (by omega)

theorem standard_spells (c : Char) : Spells c.toNat (String.utf8EncodeChar c) := by
  have valid := char_value c
  change Spells c.val.toNat _
  change c.val.toNat < _ ∨ _ < c.val.toNat ∧ c.val.toNat < _ at valid
  simp only [String.utf8EncodeChar]
  split_ifs with one two three
  · exact .one _ (byte_value _ (by omega)) (by omega)
  · exact .two _ _ ((byte_value _ (by omega)).trans (by omega)) ((byte_value _ (by omega)).trans (by omega))
      (by omega) (by omega)
  · exact .three _ _ _ ((byte_value _ (by omega)).trans (by omega)) ((byte_value _ (by omega)).trans (by omega))
      ((byte_value _ (by omega)).trans (by omega)) (by omega) (by omega) (by omega)
  · exact .four _ _ _ _ ((byte_value _ (by omega)).trans (by omega)) ((byte_value _ (by omega)).trans (by omega))
      ((byte_value _ (by omega)).trans (by omega)) ((byte_value _ (by omega)).trans (by omega)) (by omega) (by omega)

theorem spelling_unique (n : Nat) (a b : Bytes) (left : Spells n a) (right : Spells n b) : a = b := by
  cases left <;> cases right <;>
    simp only [List.cons.injEq, ← UInt8.toNat_inj, and_true, and_false, reduceCtorEq] <;> omega

theorem value_of_scalar (n : Nat) (valid : n < 0xD800 ∨ 0xDFFF < n ∧ n < 0x110000) :
    (Char.ofNat n).toNat = n := by
  rw [Char.ofNat, dif_pos valid]
  rfl

theorem char_of_continuation (taken code missing : Nat) (bytes after : Bytes) (c : Char)
    (read : continuation taken code (missing + 1) bytes = (.char c, after)) :
    ∃ b rest, bytes = b :: rest ∧ 0x80 ≤ b.toNat ∧ b.toNat ≤ 0xBF ∧
      continuation (taken + 1) (code * 64 + payload b) missing rest = (.char c, after) := by
  cases bytes with
  | nil => simp [continuation] at read
  | cons b rest =>
      by_cases tail : (0x80 ≤ b && b ≤ 0xBF) = true
      · rw [continuation, if_pos tail] at read
        simp only [Bool.and_eq_true, decide_eq_true_eq, UInt8.le_iff_toNat_le] at tail
        exact ⟨b, rest, rfl, tail.1, tail.2, read⟩
      · rw [continuation, if_neg tail] at read
        cases congrArg Prod.fst read

theorem spelled_of_long (b second : UInt8) (more after : Bytes) (lead : Lead) (c : Char) (is : IsLead b lead)
    (low : lead.low.toNat ≤ second.toNat) (high : second.toNat ≤ lead.high.toNat)
    (read : continuation 2 (leadBits b lead.follow * 64 + payload second) (lead.follow - 1) more = (.char c, after)) :
    ∃ tail, more = tail ++ after ∧ Spells c.toNat (b :: second :: tail) := by
  cases is with
  | two first last =>
      change 0x80 ≤ _ at low
      change _ ≤ 0xBF at high
      change (Piece.char (Char.ofNat (b.toNat % 32 * 64 + second.toNat % 64)), more) = _ at read
      injection read with piece rest
      injection piece with char
      refine ⟨[], rest, ?_⟩
      rw [← char, value_of_scalar _ (by omega)]
      exact .two _ _ (by omega) (by omega) (by omega) (by omega)
  | three first last =>
      obtain ⟨third, _, rfl, thirdLow, thirdHigh, read⟩ := char_of_continuation _ _ _ _ _ _ read
      change (Piece.char (Char.ofNat ((b.toNat % 16 * 64 + second.toNat % 64) * 64 + third.toNat % 64)), _) = _ at read
      injection read with piece rest
      injection piece with char
      have ranges : (b.toNat = 0xE0 → 0xA0 ≤ second.toNat) ∧ (b.toNat = 0xED → second.toNat ≤ 0x9F) ∧
          0x80 ≤ second.toNat ∧ second.toNat ≤ 0xBF := by
        dsimp only at low high
        split_ifs at low high <;> simp at low high <;> omega
      refine ⟨[third], congrArg (third :: ·) rest, ?_⟩
      rw [← char, value_of_scalar _ (by omega)]
      exact .three _ _ _ (by omega) (by omega) (by omega) (by omega) (by omega) (by omega)
  | four first last =>
      obtain ⟨third, _, rfl, thirdLow, thirdHigh, read⟩ := char_of_continuation _ _ _ _ _ _ read
      obtain ⟨fourth, _, rfl, fourthLow, fourthHigh, read⟩ := char_of_continuation _ _ _ _ _ _ read
      change (Piece.char (Char.ofNat (((b.toNat % 8 * 64 + second.toNat % 64) * 64 + third.toNat % 64) * 64 +
        fourth.toNat % 64)), _) = _ at read
      injection read with piece rest
      injection piece with char
      have ranges : (b.toNat = 0xF0 → 0x90 ≤ second.toNat) ∧ (b.toNat = 0xF4 → second.toNat ≤ 0x8F) ∧
          0x80 ≤ second.toNat ∧ second.toNat ≤ 0xBF := by
        dsimp only at low high
        split_ifs at low high <;> simp at low high <;> omega
      refine ⟨[third, fourth], congrArg (third :: fourth :: ·) rest, ?_⟩
      rw [← char, value_of_scalar _ (by omega)]
      exact .four _ _ _ _ (by omega) (by omega) (by omega) (by omega) (by omega) (by omega)

theorem spelled_of_piece (b : UInt8) (rest after : Bytes) (c : Char) (read : piece b rest = (.char c, after)) :
    ∃ tail, rest = tail ++ after ∧ Spells c.toNat (b :: tail) := by
  by_cases short : b < 0x80
  · rw [piece, if_pos short] at read
    injection read with piece same
    injection piece with char
    have small : b.toNat < 0x80 := UInt8.lt_iff_toNat_lt.mp short
    refine ⟨[], same, ?_⟩
    rw [← char, value_of_scalar _ (by omega)]
    exact .one b rfl small
  · rw [piece, if_neg short] at read
    cases found : lead? b with
    | none =>
        rw [found] at read
        cases congrArg Prod.fst read
    | some lead =>
        rw [found] at read
        cases rest with
        | nil => cases congrArg Prod.fst read
        | cons second more =>
            by_cases inside : (lead.low ≤ second && second ≤ lead.high) = true
            · dsimp only at read
              rw [if_pos inside] at read
              simp only [Bool.and_eq_true, decide_eq_true_eq, UInt8.le_iff_toNat_le] at inside
              obtain ⟨tail, same, spells⟩ := spelled_of_long b second more after lead c (is_lead_of_lead b lead found)
                inside.1 inside.2 read
              exact ⟨second :: tail, congrArg (second :: ·) same, spells⟩
            · dsimp only at read
              rw [if_neg inside] at read
              cases congrArg Prod.fst read

theorem encoded_of_spelled (c : Char) (bytes : Bytes) (spells : Spells c.toNat bytes) : encodeChar c = bytes :=
  spelling_unique _ _ _ (encoded_spells c) spells

theorem encode_standard (text : String) : encode text = text.toUTF8.data.toList := by
  have same : encodeChar = String.utf8EncodeChar :=
    funext fun c => encoded_of_spelled c _ (standard_spells c)
  have bytes : text.toUTF8 = text.toList.utf8Encode := by
    rw [← String.toByteArray_ofList, String.ofList_toList]
    rfl
  rw [encode, same, bytes, List.utf8Encode]
  simp

theorem collect_after (found : Array Piece) (bytes : Bytes) :
    (collect found bytes).toList = found.toList ++ pieces bytes := by
  cases bytes with
  | nil => simp [collect, pieces]
  | cons b rest =>
      rw [pieces, collect, collect, collect_after (found.push _) _, collect_after (#[].push _) _]
      simp
termination_by bytes.length
decreasing_by all_goals exact Nat.lt_succ_of_le (piece_length b rest)

theorem pieces_cons (b : UInt8) (rest : Bytes) : pieces (b :: rest) = (piece b rest).1 :: pieces (piece b rest).2 := by
  rw [pieces, collect, collect_after]
  rfl

theorem pieces_encoded (c : Char) (rest : Bytes) : pieces (encodeChar c ++ rest) = .char c :: pieces rest := by
  have spells := encoded_spells c
  cases bytes : encodeChar c with
  | nil => rw [bytes] at spells; cases spells
  | cons b tail =>
      rw [bytes] at spells
      rw [List.cons_append, pieces_cons, piece_of_spelled _ b tail rest spells, Char.ofNat_toNat]

theorem pieces_encode (text : List Char) : pieces (text.flatMap encodeChar) = text.map .char := by
  induction text with
  | nil => simp [pieces, collect]
  | cons c rest ih => rw [List.flatMap_cons, pieces_encoded, ih, List.map_cons]

theorem bytes_of_char_pieces (bytes : Bytes) (chars : List Char) (read : pieces bytes = chars.map .char) :
    bytes = chars.flatMap encodeChar := by
  induction chars generalizing bytes with
  | nil =>
      cases bytes with
      | nil => rfl
      | cons b rest => rw [pieces_cons] at read; cases read
  | cons c more ih =>
      cases bytes with
      | nil => simp [pieces, collect] at read
      | cons b rest =>
          rw [pieces_cons, List.map_cons, List.cons.injEq] at read
          obtain ⟨tail, same, spells⟩ := spelled_of_piece b rest (piece b rest).2 c (Prod.ext read.1 rfl)
          rw [List.flatMap_cons, encoded_of_spelled c _ spells, ← ih _ read.2, List.cons_append, ← same]

theorem push_characters (text : String) (c : Char) (chars : List Char) :
    text.push c ++ String.ofList chars = text ++ String.ofList (c :: chars) := by
  apply String.ext
  simp

theorem characters_ok_iff (index : Nat) (text result : String) (found : List Piece) :
    characters index text found = .ok result ↔
      ∃ chars : List Char, found = chars.map .char ∧ result = text ++ String.ofList chars := by
  induction found generalizing index text with
  | nil =>
      rw [characters]
      constructor
      · intro same
        exact ⟨[], rfl, by simpa using (Except.ok.inj same).symm⟩
      · rintro ⟨chars, none, rfl⟩
        rw [List.map_eq_nil_iff.mp none.symm]
        simp
  | cons piece rest ih =>
      cases piece with
      | char c =>
          rw [characters, ih]
          constructor
          · rintro ⟨chars, rfl, rfl⟩
            exact ⟨c :: chars, rfl, push_characters text c chars⟩
          · rintro ⟨chars, same, rfl⟩
            cases chars with
            | nil => cases same
            | cons first more =>
                rw [List.map_cons, List.cons.injEq, Piece.char.injEq] at same
                obtain ⟨rfl, rfl⟩ := same
                exact ⟨more, rfl, (push_characters text c more).symm⟩
      | invalid length =>
          rw [characters]
          refine ⟨fun failed => (by cases failed), ?_⟩
          rintro ⟨chars, same, _⟩
          cases chars <;> cases same
      | incomplete =>
          rw [characters]
          refine ⟨fun failed => (by cases failed), ?_⟩
          rintro ⟨chars, same, _⟩
          cases chars <;> cases same

theorem decode_ok_iff (bytes : Bytes) (text : String) : decode bytes = .ok text ↔ encode text = bytes := by
  rw [decode, characters_ok_iff]
  constructor
  · rintro ⟨chars, read, rfl⟩
    rw [bytes_of_char_pieces bytes chars read]
    simp [encode]
  · rintro rfl
    exact ⟨text.toList, pieces_encode text.toList, by simp⟩

-- The first byte that differs decides, whatever stands behind the two characters.
theorem spelled_lt (m n : Nat) (first second x y : Bytes) (left : Spells m first) (right : Spells n second) (less : m < n) :
    first ++ x < second ++ y := by
  cases left <;> cases right <;>
    simp only [List.cons_append, List.nil_append, List.cons_lt_cons_iff, UInt8.lt_iff_toNat_lt, ← UInt8.toNat_inj] <;>
    omega

theorem spelled_nonempty (n : Nat) (bytes rest : Bytes) (spells : Spells n bytes) : [] < bytes ++ rest := by
  cases spells <;> exact List.nil_lt_cons _ _

theorem encode_chars_lt (first second : List Char) (less : first < second) :
    first.flatMap encodeChar < second.flatMap encodeChar := by
  induction first generalizing second with
  | nil =>
      cases second with
      | nil => exact absurd less (lt_irrefl _)
      | cons d second => exact spelled_nonempty _ _ _ (encoded_spells d)
  | cons c first ih =>
      cases second with
      | nil => exact absurd less (List.not_lt_nil _)
      | cons d second =>
          rw [List.flatMap_cons, List.flatMap_cons]
          rcases List.cons_lt_cons_iff.mp less with before | ⟨rfl, later⟩
          · exact spelled_lt _ _ _ _ _ _ (encoded_spells c) (encoded_spells d) before
          · exact List.append_left_lt (ih second later)

theorem encode_lt_iff (first second : String) : encode first < encode second ↔ first < second := by
  have increasing (first second : String) (less : first < second) : encode first < encode second :=
    encode_chars_lt _ _ (String.lt_iff_toList_lt.mp less)
  constructor
  · intro bytes
    rcases lt_trichotomy first second with less | rfl | greater
    · exact less
    · exact absurd bytes (List.lt_irrefl _)
    · exact absurd (increasing second first greater) (List.lt_asymm bytes)
  · exact increasing first second

end Devnet.Utf8
