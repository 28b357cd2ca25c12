/-
Whole numbers read back.

A whole number of any size is written with its digits, and read as that number:
`readNumber_integer`. The reader goes on as long as there are digits, and then looks for a fraction
or an exponent, so what stands behind the number matters.  In a written value that is a comma, a new
line, or nothing.
-/
import LintHost.Json.Printer
import LintHost.Json.Reader
import LintHost.Proofs.Text.Digit

namespace LintHost.Json

open LintHost.Text

/-- What stands behind a written value: nothing, a comma, or a new line. -/
inductive Behind : List Char → Prop where
  | nothing : Behind []
  | comma (rest : List Char) : Behind (',' :: rest)
  | feed (rest : List Char) : Behind ('\n' :: rest)

/-! ### Digits -/

/-- The digits of a number have its value. -/
theorem digitsValue_decimal (n : Nat) : digitsValue (decimal n) = n := by
  have hstep : (fun (v : Nat) (c : Char) => v * 10 + (c.toNat - 48)) =
      fun v c => 10 * v + (c.toNat - '0'.toNat) := by
    funext v c
    rw [Nat.mul_comm]
    rfl
  rw [digitsValue, hstep, ← Nat.ofDigitChars_eq_foldl]
  exact Nat.ofDigitChars_ten_toDigits

theorem spanDigits_decimal (n : Nat) {rest : List Char} (h : Behind rest) :
    spanDigits (decimal n ++ rest) = (decimal n, rest) := by
  have hall : ∀ c ∈ decimal n, c.isDigit = true := fun c => isDigit_of_mem_decimal
  rw [spanDigits, List.takeWhile_append_of_pos hall, List.dropWhile_append_of_pos hall]
  cases h with
  | nothing => simp
  | comma rest => simp [show Char.isDigit ',' = false from rfl]
  | feed rest => simp [show Char.isDigit '\n' = false from rfl]

/-! ### Numbers -/

/-- **A whole number is read as it was written, whatever its size.** -/
theorem readNumber_integer (n : Int) {rest : List Char} (h : Behind rest) :
    readNumber (integer n ++ rest) = some (.int n, rest) := by
  have hspan := spanDigits_decimal n.natAbs h
  have hempty : (decimal n.natAbs).isEmpty = false := by
    simpa using decimal_ne_nil n.natAbs
  have hzero := no_leading_zero n.natAbs
  have hvalue := digitsValue_decimal n.natAbs
  unfold integer
  by_cases hn : n < 0
  · have hresult : some (Json.int (-(digitsValue (decimal n.natAbs) : Int)), rest) =
        some (.int n, rest) := by
      rw [hvalue, Int.ofNat_natAbs_of_nonpos (by omega), Int.neg_neg]
    rw [if_pos hn]
    unfold readNumber
    simp only [List.cons_append, hspan, hempty, hzero, Bool.or_self]
    cases h <;> exact hresult
  · have hresult : some (Json.int (digitsValue (decimal n.natAbs) : Int), rest) =
        some (.int n, rest) := by
      rw [hvalue, Int.natAbs_of_nonneg (by omega)]
    rw [if_neg hn]
    have hsign : ∀ more, decimal n.natAbs ++ rest = '-' :: more → False := by
      intro more hmore
      cases hdigits : decimal n.natAbs with
      | nil => exact decimal_ne_nil _ hdigits
      | cons c cs =>
        rw [hdigits] at hmore
        have hdigit := isDigit_of_mem_decimal (n := n.natAbs) (c := c) (by rw [hdigits]; simp)
        rw [(List.cons.inj hmore).1] at hdigit
        exact absurd hdigit (by decide)
    unfold readNumber
    split
    next negative body hbody =>
    split at hbody
    next more hmore => exact (hsign more hmore).elim
    obtain ⟨rfl, rfl⟩ := Prod.mk.inj hbody
    simp only [hspan, hempty, hzero, Bool.or_self]
    cases h <;> exact hresult

end LintHost.Json
