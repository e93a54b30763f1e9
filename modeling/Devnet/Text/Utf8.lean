set_option autoImplicit false

namespace Devnet

abbrev Bytes := List UInt8

namespace Utf8

inductive Piece where
  | char (c : Char)
  -- `length` bytes that begin no character, followed by more input or by a byte that ends them.
  | invalid (length : Nat)
  | incomplete
  deriving DecidableEq, Repr

-- The lead byte of a longer character: how many bytes follow it, and the range of the first.
structure Lead where
  follow : Nat
  low : UInt8
  high : UInt8

def lead? (b : UInt8) : Option Lead :=
  if 0xC2 ≤ b && b ≤ 0xDF then some ⟨1, 0x80, 0xBF⟩
  else if b == 0xE0 then some ⟨2, 0xA0, 0xBF⟩
  else if b == 0xED then some ⟨2, 0x80, 0x9F⟩
  else if 0xE1 ≤ b && b ≤ 0xEF then some ⟨2, 0x80, 0xBF⟩
  else if b == 0xF0 then some ⟨3, 0x90, 0xBF⟩
  else if 0xF1 ≤ b && b ≤ 0xF3 then some ⟨3, 0x80, 0xBF⟩
  else if b == 0xF4 then some ⟨3, 0x80, 0x8F⟩
  else none

def payload (b : UInt8) : Nat := b.toNat % 64

-- Continuation bytes after the second: `taken` bytes and the bits `code` are already read.
def continuation (taken code : Nat) : Nat → Bytes → Piece × Bytes
  | 0, rest => (.char (Char.ofNat code), rest)
  | _ + 1, [] => (.incomplete, [])
  | missing + 1, b :: rest =>
      if 0x80 ≤ b && b ≤ 0xBF then continuation (taken + 1) (code * 64 + payload b) missing rest
      else (.invalid taken, b :: rest)

def leadBits (b : UInt8) (follow : Nat) : Nat := b.toNat % Nat.pow 2 (6 - follow)

def piece (b : UInt8) (rest : Bytes) : Piece × Bytes :=
  if b < 0x80 then (.char (Char.ofNat b.toNat), rest)
  else
    match lead? b with
    | none => (.invalid 1, rest)
    | some lead =>
        match rest with
        | [] => (.incomplete, [])
        | second :: more =>
            if lead.low ≤ second && second ≤ lead.high then
              continuation 2 (leadBits b lead.follow * 64 + payload second) (lead.follow - 1) more
            else (.invalid 1, second :: more)

theorem continuation_length (taken code missing : Nat) (bytes : Bytes) :
    (continuation taken code missing bytes).2.length ≤ bytes.length := by
  induction missing generalizing taken code bytes with
  | zero => simp [continuation]
  | succ missing ih =>
      cases bytes with
      | nil => simp [continuation]
      | cons b rest =>
          by_cases tail : (0x80 ≤ b && b ≤ 0xBF) = true
          · rw [continuation, if_pos tail]
            exact Nat.le_succ_of_le (ih (taken + 1) (code * 64 + payload b) rest)
          · simp [continuation, tail]

theorem piece_length (b : UInt8) (rest : Bytes) : (piece b rest).2.length ≤ rest.length := by
  unfold piece
  split
  · exact Nat.le_refl _
  · split
    · exact Nat.le_refl _
    · cases rest with
      | nil => exact Nat.le_refl _
      | cons second more =>
          dsimp only
          split
          · exact Nat.le_succ_of_le (continuation_length _ _ _ more)
          · exact Nat.le_refl _

def collect (found : Array Piece) (bytes : Bytes) : Array Piece :=
  match bytes with
  | [] => found
  | b :: rest => collect (found.push (piece b rest).1) (piece b rest).2
  termination_by bytes.length
  decreasing_by
    exact Nat.lt_succ_of_le (piece_length b rest)

def pieces (bytes : Bytes) : List Piece := (collect #[] bytes).toList

-- Why a byte string is not UTF-8: the index of the first byte outside a character, and how many
-- bytes are at fault unless the input ends there.
structure DecodeError where
  index : Nat
  length : Option Nat
  deriving DecidableEq, Repr

def DecodeError.message (e : DecodeError) : String :=
  match e.length with
  | some length => s!"invalid utf-8 sequence of {length} bytes from index {e.index}"
  | none => s!"incomplete utf-8 byte sequence from index {e.index}"

def characters (index : Nat) (text : String) : List Piece → Except DecodeError String
  | [] => .ok text
  | .char c :: rest => characters (index + c.utf8Size) (text.push c) rest
  | .invalid length :: _ => .error ⟨index, some length⟩
  | .incomplete :: _ => .error ⟨index, none⟩

def decode (bytes : Bytes) : Except DecodeError String := characters 0 "" (pieces bytes)

def Piece.lossy : Piece → Char
  | .char c => c
  | .invalid _ => Char.ofNat 0xFFFD
  | .incomplete => Char.ofNat 0xFFFD

def decodeLossy (bytes : Bytes) : String := String.ofList ((pieces bytes).map Piece.lossy)

def encodeChar (c : Char) : Bytes :=
  let n := c.toNat
  if n < 0x80 then [n.toUInt8]
  else if n < 0x800 then [(0xC0 + n / 64).toUInt8, (0x80 + n % 64).toUInt8]
  else if n < 0x10000 then
    [(0xE0 + n / 4096).toUInt8, (0x80 + n / 64 % 64).toUInt8, (0x80 + n % 64).toUInt8]
  else
    [(0xF0 + n / 262144).toUInt8, (0x80 + n / 4096 % 64).toUInt8, (0x80 + n / 64 % 64).toUInt8,
      (0x80 + n % 64).toUInt8]

def encode (text : String) : Bytes := text.toList.flatMap encodeChar

theorem encode_append (a b : String) : encode (a ++ b) = encode a ++ encode b := by
  rw [encode, String.toList_append, List.flatMap_append, encode, encode]

end Utf8
end Devnet
