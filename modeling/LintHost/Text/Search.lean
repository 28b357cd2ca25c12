/-
Looking for one text in another.

`offset? needle s` is the offset of the first occurrence of `needle` in `s`, the empty text
occurring at offset 0.  `replace` writes each occurrence anew, from left to right and without
overlaps.
-/

namespace LintHost.Text

/-- The offset of the first occurrence. -/
def offset? (needle : List Char) : List Char → Option Nat
  | [] => if needle = [] then some 0 else none
  | c :: rest =>
    if needle.isPrefixOf (c :: rest) then some 0 else (offset? needle rest).map (· + 1)

/-- Whether the text holds the other anywhere. -/
def contains (s needle : List Char) : Bool := (offset? needle s).isSome

/-- Whether the text ends with the other, character for character. -/
def endsWith (s tail : List Char) : Bool := tail.isSuffixOf s

/-- The text with each occurrence of a non-empty text written anew. -/
def replace (needle new : List Char) (s : List Char) : List Char :=
  match s with
  | [] => []
  | c :: rest =>
    if needle.isPrefixOf (c :: rest) then
      new ++ replace needle new (rest.drop (needle.length - 1))
    else c :: replace needle new rest
termination_by s.length

end LintHost.Text
