/-
Lowercase text.

Each character has its own lowercase form, with two exceptions to one character for one: the
capital I with a dot above becomes two characters, and a capital sigma becomes the final sigma at
the end of a word.  A sigma is final when, passing over ignorable characters, there is a cased
character before it and none after it.  `lower_ascii` says what becomes of the basic alphabet.
-/
import LintHost.Text.CaseTable

namespace LintHost.Text

/-- Whether the character is passed over in looking for a cased neighbour. -/
def isIgnorable (c : Char) : Bool := inRanges ignorableRanges c.toNat

/-- Whether the character is cased and not passed over. -/
def isCased (c : Char) : Bool := inRanges casedRanges c.toNat

/-- The lowercase form of a character on its own. -/
def lowerChar (c : Char) : List Char :=
  let n := c.toNat
  if n < 0x80 then [c.toLower]
  else if n == 0x130 then ['i', Char.ofNat 0x307]
  else
    match lowerRuns.find? (·.holds n) with
    | some r => [Char.ofNat ((n : Int) + r.shift).toNat]
    | none => [c]

/-- Whether the next character that is not passed over is cased. -/
def meetsCased (s : List Char) : Bool :=
  match s.dropWhile isIgnorable with
  | [] => false
  | c :: _ => isCased c

/-- The capital sigma and its two lowercase forms. -/
def capitalSigma : Char := Char.ofNat 0x3A3
def smallSigma : Char := Char.ofNat 0x3C3
def finalSigma : Char := Char.ofNat 0x3C2

/-- The lowercase form of a text that follows the characters of `before`, the nearest first. -/
def lowerAfter (before : List Char) : List Char → List Char
  | [] => []
  | c :: rest =>
    (if c = capitalSigma then
      [if meetsCased before && !meetsCased rest then finalSigma else smallSigma]
    else lowerChar c) ++ lowerAfter (c :: before) rest

/-- The lowercase form of a text. -/
def lower (s : List Char) : List Char := lowerAfter [] s

theorem lowerChar_ascii {c : Char} (h : c.toNat < 0x80) : lowerChar c = [c.toLower] := by
  simp [lowerChar, h]

/-- Text of the basic alphabet is lowered letter by letter. -/
theorem lowerAfter_ascii (before s : List Char) (h : ∀ c ∈ s, c.toNat < 0x80) :
    lowerAfter before s = s.map Char.toLower := by
  induction s generalizing before with
  | nil => rfl
  | cons c rest ih =>
    have hc := h c (by simp)
    have hs : c ≠ capitalSigma := by rintro rfl; exact absurd hc (by decide)
    simp [lowerAfter, hs, lowerChar_ascii hc, ih _ fun d hd => h d (by simp [hd])]

theorem lower_ascii (s : List Char) (h : ∀ c ∈ s, c.toNat < 0x80) :
    lower s = s.map Char.toLower := lowerAfter_ascii [] s h

end LintHost.Text
