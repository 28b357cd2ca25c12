/-
Texts as the bytes of paths.

The name of a file is a string of bytes, and mostly a text in UTF-8.  A byte that is part of no
character is written as a half, U+DC80 for the byte 80 and so on up to U+DCFF, and in a path such a
half is that byte again; any other half has no byte, and no path holds it.

What holds of the stand-ins for halves holds here: a path with one of the characters from U+DDC80 to
U+DDCFF is taken for one with a half.  Names are told apart by their texts, so halves in a row are
not put together where their bytes make up a character.
-/
import LintHost.Text.Half
import LintHost.Text.Utf8

namespace LintHost.Text

/-- The number of the half that stands for the byte of number 0. -/
def byteHalves : Nat := 0xDC00

/-- The byte that a half stands for in a path, if it stands for one. -/
def byte? (c : Char) : Option UInt8 :=
  match half? c with
  | some n => if byteHalves + 0x80 ≤ n && n ≤ byteHalves + 0xFF then
      some (n - byteHalves).toUInt8 else none
  | none => none

/-- Whether a character is a half that no byte is written as. -/
def isStray (c : Char) : Bool := (half? c).isSome && (byte? c).isNone

/-- The bytes of a character in a path. -/
def charBytes (c : Char) : List UInt8 :=
  match byte? c with
  | some b => [b]
  | none => String.utf8EncodeChar c

/-- The number of bytes of a text as a path. -/
def pathSize (s : String) : Nat := (s.toList.flatMap charBytes).length

/-- A path as messages show it: what is no text in its bytes is replaced. -/
def shownPath (s : String) : String :=
  String.ofList (Utf8.decodeLossy (s.toList.flatMap charBytes))

end LintHost.Text
