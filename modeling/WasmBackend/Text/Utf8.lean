import WasmBackend.Text

/-!
# Code points of a text

A text is read as a sequence of pieces: well-formed UTF-8 sequences give their code point, and a
byte that starts none stands alone as a bad byte.
-/

namespace WasmBackend

/-- One step of reading a text: a code point, or a byte that is not part of one. -/
inductive Piece where
  | char (code : Nat)
  | bad (byte : UInt8)
deriving DecidableEq, Repr

namespace Utf8

/-- The low six bits of a continuation byte. -/
def tail? (b : UInt8) : Option Nat :=
  if 0x80 ≤ b ∧ b ≤ 0xBF then some (b.toNat - 0x80) else none

/-- The code point that a byte and its successors start, and how many successors it takes.
Overlong forms, surrogates and numbers above the last code point are refused. -/
def first? (b : UInt8) (rest : List UInt8) : Option (Nat × Nat) :=
  if b < 0x80 then some (b.toNat, 0)
  else if b < 0xC2 then none
  else if b < 0xE0 then
    match rest with
    | b1 :: _ => do
      let x ← tail? b1
      return ((b.toNat - 0xC0) * 64 + x, 1)
    | _ => none
  else if b < 0xF0 then
    match rest with
    | b1 :: b2 :: _ => do
      let x ← tail? b1
      let y ← tail? b2
      let c := (b.toNat - 0xE0) * 4096 + x * 64 + y
      if c < 0x800 ∨ (0xD800 ≤ c ∧ c ≤ 0xDFFF) then none else some (c, 2)
    | _ => none
  else if b < 0xF5 then
    match rest with
    | b1 :: b2 :: b3 :: _ => do
      let x ← tail? b1
      let y ← tail? b2
      let z ← tail? b3
      let c := (b.toNat - 0xF0) * 262144 + x * 4096 + y * 64 + z
      if c < 0x10000 ∨ 0x10FFFF < c then none else some (c, 3)
    | _ => none
  else none

/-- The pieces of a byte string after `skip` bytes already read. -/
def piecesFrom (skip : Nat) : List UInt8 → List Piece
  | [] => []
  | b :: rest =>
    match skip with
    | n + 1 => piecesFrom n rest
    | 0 =>
      match first? b rest with
      | some (c, n) => .char c :: piecesFrom n rest
      | none => .bad b :: piecesFrom 0 rest

/-- The UTF-8 bytes of a code point. -/
def encode (c : Nat) : List UInt8 :=
  if c < 0x80 then [c.toUInt8]
  else if c < 0x800 then [(0xC0 + c / 64).toUInt8, (0x80 + c % 64).toUInt8]
  else if c < 0x10000 then
    [(0xE0 + c / 4096).toUInt8, (0x80 + c / 64 % 64).toUInt8, (0x80 + c % 64).toUInt8]
  else
    [(0xF0 + c / 262144).toUInt8, (0x80 + c / 4096 % 64).toUInt8, (0x80 + c / 64 % 64).toUInt8,
      (0x80 + c % 64).toUInt8]

end Utf8

/-- The bytes of a piece. -/
def Piece.bytes : Piece → List UInt8
  | .char c => Utf8.encode c
  | .bad b => [b]

/-- The code point of a piece; a bad byte counts as the replacement character. -/
def Piece.code : Piece → Nat
  | .char c => c
  | .bad _ => 0xFFFD

namespace Text

/-- The pieces of a text. -/
def pieces (t : Text) : List Piece :=
  Utf8.piecesFrom 0 t.bytes

/-- The text made of pieces. -/
def ofPieces (ps : List Piece) : Text :=
  ⟨ps.flatMap Piece.bytes⟩

/-- The number of characters, a bad byte counting as one. -/
def length (t : Text) : Nat :=
  t.pieces.length

/-- Blanks on the left up to `width` characters. -/
def padLeft (width : Nat) (t : Text) : Text :=
  replicate (width - t.length) 32 ++ t

/-- Blanks on the right up to `width` characters. -/
def padRight (width : Nat) (t : Text) : Text :=
  t ++ replicate (width - t.length) 32

/-- The text with every bad byte replaced by the replacement character. -/
def scrubbed (t : Text) : Text :=
  ⟨t.pieces.flatMap fun p => Utf8.encode p.code⟩

end Text

end WasmBackend
