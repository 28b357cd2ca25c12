/-
Text as bytes, in UTF-8.

Decoding cuts the bytes into pieces: a piece is a character, or a malformed stretch as long as
it is the beginning of some character's encoding and one byte otherwise.  `decode?` accepts a
byte string only when every piece is a character; `decodeLossy` writes U+FFFD for each malformed
piece, so that it reads every byte string.
-/

namespace LintHost.Text.Utf8

/-- The bytes of a text. -/
def encode (s : List Char) : List UInt8 := s.flatMap String.utf8EncodeChar

/-- What a first byte asks for: the ranges of the bytes to follow, and the bits it carries. -/
def lead (b : Nat) : Option (List (Nat × Nat) × Nat) :=
  if b ≤ 0x7F then some ([], b)
  else if 0xC2 ≤ b && b ≤ 0xDF then some ([(0x80, 0xBF)], b - 0xC0)
  else if b == 0xE0 then some ([(0xA0, 0xBF), (0x80, 0xBF)], 0)
  else if b == 0xED then some ([(0x80, 0x9F), (0x80, 0xBF)], 13)
  else if 0xE1 ≤ b && b ≤ 0xEF then some ([(0x80, 0xBF), (0x80, 0xBF)], b - 0xE0)
  else if b == 0xF0 then some ([(0x90, 0xBF), (0x80, 0xBF), (0x80, 0xBF)], 0)
  else if b == 0xF4 then some ([(0x80, 0x8F), (0x80, 0xBF), (0x80, 0xBF)], 4)
  else if 0xF1 ≤ b && b ≤ 0xF3 then
    some ([(0x80, 0xBF), (0x80, 0xBF), (0x80, 0xBF)], b - 0xF0)
  else none

/-- Reads the bytes that have to follow; stops before the first that does not fit. -/
def follow : List (Nat × Nat) → Nat → List UInt8 → Option Char × List UInt8
  | [], n, bs => (some (Char.ofNat n), bs)
  | _ :: _, _, [] => (none, [])
  | (lo, hi) :: more, n, b :: bs =>
    if lo ≤ b.toNat && b.toNat ≤ hi then follow more (n * 64 + (b.toNat - 0x80)) bs
    else (none, b :: bs)

/-- The first piece of a byte string that starts with `b`, and what comes after it. -/
def piece (b : UInt8) (bs : List UInt8) : Option Char × List UInt8 :=
  match lead b.toNat with
  | none => (none, bs)
  | some (ranges, n) => follow ranges n bs

theorem follow_length (ranges : List (Nat × Nat)) (n : Nat) (bs : List UInt8) :
    (follow ranges n bs).2.length ≤ bs.length := by
  fun_induction follow ranges n bs with
  | case1 => simp
  | case2 => simp
  | case3 n lo hi more b bs h ih => simp only [List.length_cons]; omega
  | case4 => simp

theorem piece_length (b : UInt8) (bs : List UInt8) : (piece b bs).2.length ≤ bs.length := by
  unfold piece
  split
  · simp
  · exact follow_length _ _ _

/-- The pieces of a byte string: characters, and `none` for each malformed stretch. -/
def pieces : List UInt8 → List (Option Char)
  | [] => []
  | b :: bs => (piece b bs).1 :: pieces (piece b bs).2
termination_by bs => bs.length
decreasing_by
  have := piece_length b bs
  simp only [List.length_cons]
  omega

/-- The text of well-formed bytes. -/
def decode? (bs : List UInt8) : Option (List Char) := (pieces bs).mapM id

/-- The character written for a malformed piece. -/
def replacement : Char := Char.ofNat 0xFFFD

/-- The text of any bytes. -/
def decodeLossy (bs : List UInt8) : List Char := (pieces bs).map (·.getD replacement)

/-- The number of bytes of a text. -/
def size (s : List Char) : Nat := (encode s).length

end LintHost.Text.Utf8
