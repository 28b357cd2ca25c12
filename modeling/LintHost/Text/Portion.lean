/-
A file's text as far as it can be read.

Bytes are decoded block by block.  Of bytes that are malformed somewhere there is no text from the
block on in which they are; what stands in the blocks before it can still be read, and whoever
needs no more than that never meets the fault.  Well-formed bytes are read as a whole, which is
what `isWhole_read` says.
-/
import LintHost.Text.Lines
import LintHost.Text.Utf8

namespace LintHost.Text

/-- The front of a text, and whether it is all of the text. -/
structure Portion where
  text : List Char
  isWhole : Bool
deriving DecidableEq, Repr

namespace Portion

/-- The number of bytes that are decoded at once. -/
def blockSize : Nat := 8192

/-- The characters in front of the first malformed piece. -/
def soundFront (bs : List UInt8) : List Char :=
  ((Utf8.pieces bs).takeWhile (·.isSome)).filterMap id

/-- The characters that lie wholly in the first so many bytes. -/
def takeBytes : Nat → List Char → List Char
  | _, [] => []
  | n, c :: rest => if c.utf8Size ≤ n then c :: takeBytes (n - c.utf8Size) rest else []

/-- A text without a line end that is only begun: a return may be the first half of one. -/
def dropReturn (s : List Char) : List Char :=
  if s.getLast? = some '\r' then s.dropLast else s

/-- What can be read of some bytes, with its line ends unified. -/
def read (bs : List UInt8) : Portion :=
  match Utf8.decode? bs with
  | some s => ⟨unifyBreaks s, true⟩
  | none =>
    let front := soundFront bs
    let whole := takeBytes (Utf8.size front / blockSize * blockSize) front
    ⟨unifyBreaks (dropReturn whole), false⟩

/-- The lines that are there up to their ends, as a text. -/
def wholeLines (p : Portion) : List Char :=
  if p.isWhole then p.text else (p.text.reverse.dropWhile (· ≠ '\n')).reverse

/-- Well-formed bytes, and no others, are read as a whole. -/
theorem isWhole_read (bs : List UInt8) : (read bs).isWhole = (Utf8.decode? bs).isSome := by
  unfold read
  split <;> rename_i h <;> simp [h]

end Portion

end LintHost.Text
