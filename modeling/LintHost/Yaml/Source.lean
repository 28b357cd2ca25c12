/-
A configuration text as it comes in.

The text comes in blocks of characters, the first two of them at once.  A block that holds a
character no configuration text may hold does not come in, nor does one in which the file is no
text at all; what has come in by then ends there, and the fault shows only when more is asked for.
-/
import LintHost.Text.Portion
import LintHost.Yaml.Cursor

namespace LintHost.Yaml

open LintHost.Text

/-- The front of a text, and what is wrong behind it if anything is. -/
structure Source where
  text : List Char
  stop : Option Error
deriving Repr

namespace Source

/-- The number of characters of a block. -/
def blockLength : Nat := 4096

/-- The number of blocks that come in at once. -/
def firstBlocks : Nat := 2

/-- The blocks of a text in front of a faulty one. -/
def before (block : Nat) (s : List Char) (e : Error) : Source :=
  ⟨if block < firstBlocks then [] else s.take (block * blockLength), some e⟩

/-- What comes in of a file's text. -/
def ofPortion (p : Portion) : Source :=
  let readable := p.text.length / blockLength
  match p.text.findIdx? (!isText ·), p.isWhole with
  | none, true => ⟨p.text, none⟩
  | none, false => before readable p.text .undecodable
  | some i, true => before (i / blockLength) p.text .malformed
  | some i, false =>
    if firstBlocks ≤ readable && i / blockLength < readable then
      before (i / blockLength) p.text .malformed
    else before readable p.text .undecodable

end Source

end LintHost.Yaml
