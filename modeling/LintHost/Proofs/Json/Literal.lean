/-
Texts in quotes, read back.

What `quote` writes for a text, `readText` reads as that text, whatever characters it holds.  A
character goes three ways: as itself, as a letter behind a backslash, or as its UTF-16 units with
four digits each.  `readUnits_escapedChar` says for all of them that the reader gets the units of
the character; `joinUnits_units` says that the units of a text make that text.  The second is where
the surrogates are: the unit of a single character is never half of a pair, so two characters that
stand next to each other are never taken for one.
-/
import LintHost.Json.Printer
import LintHost.Json.Reader
import LintHost.Proofs.Text.Digit
import Mathlib.Tactic.SplitIfs

namespace LintHost.Json

open LintHost.Text

/-- The first unit of a pair for the character of a number. -/
def highUnit (n : Nat) : Nat := 0xD800 + (n - 0x10000) / 0x400

/-- The second unit of a pair for the character of a number. -/
def lowUnit (n : Nat) : Nat := 0xDC00 + (n - 0x10000) % 0x400

/-- The UTF-16 units of a character. -/
def unitsOf (c : Char) : List Nat :=
  if c.toNat < 0x10000 then [c.toNat] else [highUnit c.toNat, lowUnit c.toNat]

/-! ### A character read back as its units -/

/-- The digit of a value is read as that value. -/
theorem readUnit_digitChar {a b c d : Nat} (ha : a < 16) (hb : b < 16) (hc : c < 16)
    (hd : d < 16) :
    readUnit (Nat.digitChar a) (Nat.digitChar b) (Nat.digitChar c) (Nat.digitChar d) =
      some ((a * 16 + b) * 256 + c * 16 + d) := by
  have hdigit : ∀ k < 16,
      (if (Nat.digitChar k).isDigit then some ((Nat.digitChar k).toNat - 48)
      else if 97 ≤ (Nat.digitChar k).toNat && (Nat.digitChar k).toNat ≤ 102 then
        some ((Nat.digitChar k).toNat - 87)
      else if 65 ≤ (Nat.digitChar k).toNat && (Nat.digitChar k).toNat ≤ 70 then
        some ((Nat.digitChar k).toNat - 55)
      else none) = some k := by decide
  simp only [readUnit, hdigit a ha, hdigit b hb, hdigit c hc, hdigit d hd]
  rfl

/-- The reader with the units of one character in front of what it reads. -/
def before (us : List Nat) (r : Option (List Nat × List Char)) : Option (List Nat × List Char) :=
  r.map fun p => (us ++ p.1, p.2)

theorem readUnits_escapedUnit {n : Nat} (h : n < 0x10000) (rest : List Char) :
    readUnits (escapedUnit n ++ rest) = before [n] (readUnits rest) := by
  rw [escapedUnit, hexadecimal_four h]
  show readUnits ('\\' :: 'u' :: _ :: _ :: _ :: _ :: rest) = _
  rw [readUnits, readUnit_digitChar (by omega) (by omega) (by omega) (by omega)]
  have hvalue :
      (n / 16 / 16 / 16 * 16 + n / 16 / 16 % 16) * 256 + n / 16 % 16 * 16 + n % 16 = n := by
    omega
  rw [hvalue]
  cases readUnits rest <;> rfl

/-- A letter behind a backslash. -/
theorem readUnits_letter {e x : Char} (he : readEscape e = some x) (hu : e ≠ 'u')
    (rest : List Char) : readUnits ('\\' :: e :: rest) = before [x.toNat] (readUnits rest) := by
  rw [readUnits, he]
  · cases readUnits rest <;> rfl
  · intro a b c d more h
    exact absurd h hu

/-- A character that stands for itself. -/
theorem readUnits_plain {c : Char} (hquote : c ≠ '"') (hslash : c ≠ '\\') (hlow : 0x20 ≤ c.toNat)
    (rest : List Char) : readUnits (c :: rest) = before [c.toNat] (readUnits rest) := by
  have hlow' : ¬ c.toNat < 0x20 := by omega
  rw [readUnits]
  · simp only [hlow', hslash, decide_false, Bool.or_self]
    cases readUnits rest <;> rfl
  · exact hquote
  · intro a b d e more h
    exact absurd h hslash
  · intro e more h
    exact absurd h hslash

theorem unitsOf_of_lt {c : Char} (h : c.toNat < 0x10000) : unitsOf c = [c.toNat] := if_pos h

/-- **Whichever way a character is written, the reader gets its units.** -/
theorem readUnits_escapedChar (c : Char) (rest : List Char) :
    readUnits (escapedChar c ++ rest) = before (unitsOf c) (readUnits rest) := by
  have hletter : ∀ {e x : Char}, readEscape e = some x → e ≠ 'u' → c.toNat = x.toNat →
      c.toNat < 0x10000 →
      readUnits (['\\', e] ++ rest) = before (unitsOf c) (readUnits rest) := by
    intro e x he hu hx hshort
    rw [unitsOf_of_lt hshort, hx]
    exact readUnits_letter he hu rest
  have hvalid : c.toNat < 0xD800 ∨ 0xDFFF < c.toNat ∧ c.toNat < 0x110000 := c.valid
  simp only [escapedChar]
  split_ifs with hquote hslash hfeed hreturn htab hback hform hplain hshort
  · exact hletter rfl (by decide) (by rw [hquote]) (by rw [hquote]; decide)
  · exact hletter rfl (by decide) (by rw [hslash]) (by rw [hslash]; decide)
  · exact hletter rfl (by decide) (by rw [hfeed]) (by rw [hfeed]; decide)
  · exact hletter rfl (by decide) (by rw [hreturn]) (by rw [hreturn]; decide)
  · exact hletter rfl (by decide) (by rw [htab]) (by rw [htab]; decide)
  · exact hletter rfl (by decide) hback (by omega)
  · exact hletter rfl (by decide) hform (by omega)
  · simp only [Bool.and_eq_true, decide_eq_true_eq] at hplain
    rw [unitsOf_of_lt (by omega)]
    exact readUnits_plain hquote hslash hplain.1 rest
  · rw [unitsOf_of_lt hshort]
    exact readUnits_escapedUnit hshort rest
  · rw [unitsOf, if_neg hshort, List.append_assoc]
    show readUnits (escapedUnit (highUnit c.toNat) ++ (escapedUnit (lowUnit c.toNat) ++ rest)) = _
    rw [readUnits_escapedUnit (by unfold highUnit; omega),
      readUnits_escapedUnit (by unfold lowUnit; omega)]
    cases readUnits rest <;> rfl

theorem readUnits_escaped (s rest : List Char) :
    readUnits (s.flatMap escapedChar ++ '"' :: rest) = some (s.flatMap unitsOf, rest) := by
  induction s with
  | nil => rfl
  | cons c s ih =>
    rw [List.flatMap_cons, List.append_assoc, readUnits_escapedChar, ih]
    rfl

/-! ### Units put together -/

/-- The unit of a single character is no half of a pair, and stands for itself. -/
theorem joinUnits_single {n : Nat} (h : isHalf n = false) (us : List Nat) :
    joinUnits (n :: us) = Char.ofNat n :: joinUnits us := by
  have hnumber : ofNumber n = Char.ofNat n := by
    rw [ofNumber, h]
    rfl
  cases us with
  | nil =>
    show [ofNumber n] = _
    rw [hnumber]
    rfl
  | cons m us =>
    rw [joinUnits, if_neg, hnumber]
    simp only [isHalf, Bool.and_eq_false_iff, decide_eq_false_iff_not] at h
    simp only [Bool.and_eq_true, decide_eq_true_eq]
    omega

/-- Two units of a pair are the character they were made from. -/
theorem joinUnits_pair {n : Nat} (hlow : 0x10000 ≤ n) (hhigh : n < 0x110000) (us : List Nat) :
    joinUnits (highUnit n :: lowUnit n :: us) = Char.ofNat n :: joinUnits us := by
  have hhi : highUnit n = 0xD800 + (n - 0x10000) / 0x400 := rfl
  have hlo : lowUnit n = 0xDC00 + (n - 0x10000) % 0x400 := rfl
  have hvalue : 0x10000 + (highUnit n - 0xD800) * 0x400 + (lowUnit n - 0xDC00) = n := by omega
  rw [joinUnits, if_pos, hvalue]
  simp only [Bool.and_eq_true, decide_eq_true_eq]
  omega

/-- **The units of a text make that text.** -/
theorem joinUnits_units (s : List Char) : joinUnits (s.flatMap unitsOf) = s := by
  induction s with
  | nil => rfl
  | cons c s ih =>
    have hvalid : c.toNat < 0xD800 ∨ 0xDFFF < c.toNat ∧ c.toNat < 0x110000 := c.valid
    rw [List.flatMap_cons]
    by_cases hshort : c.toNat < 0x10000
    · have hhalf : isHalf c.toNat = false := by
        simp only [isHalf, Bool.and_eq_false_iff, decide_eq_false_iff_not]
        omega
      rw [unitsOf_of_lt hshort, List.singleton_append, joinUnits_single hhalf, ih, Char.ofNat_toNat]
    · rw [unitsOf, if_neg hshort]
      show joinUnits (highUnit c.toNat :: lowUnit c.toNat :: s.flatMap unitsOf) = _
      rw [joinUnits_pair (by omega) (by omega), ih, Char.ofNat_toNat]

/-- **A text in quotes is read as that text.** -/
theorem readText_escaped (s : String) (rest : List Char) :
    readText (s.toList.flatMap escapedChar ++ '"' :: rest) = some (s, rest) := by
  rw [readText, readUnits_escaped]
  show some (String.ofList (joinUnits (s.toList.flatMap unitsOf)), rest) = _
  rw [joinUnits_units, String.ofList_toList]

end LintHost.Json
