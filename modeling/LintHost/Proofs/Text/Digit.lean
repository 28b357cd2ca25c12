/-
The digits of a written number.

A decimal number is written with decimal digits only, at least one, and with no zero in front unless
it is zero.  A hexadecimal number of a fixed width shows the remainder in its last digit and the
quotient in the digits before it, `hexadecimal_succ`; four digits are all that a UTF-16 unit needs.
-/
import LintHost.Text.Digit

namespace LintHost.Text

/-! ### Decimal digits -/

theorem toNat_of_isDigit {c : Char} (h : c.isDigit = true) : 48 ≤ c.toNat ∧ c.toNat ≤ 57 := by
  rw [Char.isDigit, Bool.and_eq_true, decide_eq_true_eq, decide_eq_true_eq] at h
  exact h

theorem isDigit_of_mem_decimal {n : Nat} {c : Char} (h : c ∈ decimal n) : c.isDigit = true :=
  Nat.isDigit_of_mem_toDigits (by omega) (by omega) h

theorem decimal_ne_nil (n : Nat) : decimal n ≠ [] := Nat.toDigits_ne_nil

/-- Only the digits of zero begin with a zero. -/
theorem head?_decimal {n : Nat} (h : 0 < n) : (decimal n).head? ≠ some '0' := by
  induction n using Nat.strongRecOn with
  | _ n ih =>
    unfold decimal
    by_cases hn : n < 10
    · rw [Nat.toDigits_of_lt_base hn]
      have hdigit : ∀ k < 10, 0 < k → [Nat.digitChar k].head? ≠ some '0' := by decide
      exact hdigit n hn h
    · rw [Nat.toDigits_of_base_le (by omega) (by omega), List.head?_append]
      intro hzero
      cases hfront : (Nat.toDigits 10 (n / 10)).head? with
      | none => exact Nat.toDigits_ne_nil (List.head?_eq_none_iff.mp hfront)
      | some c =>
        rw [hfront, Option.some_or] at hzero
        exact ih (n / 10) (by omega) (by omega) (hfront.trans hzero)

/-- A number is not written with zeros in front. -/
theorem no_leading_zero (n : Nat) :
    ((decimal n).length > 1 && (decimal n).head? == some '0') = false := by
  rcases Nat.eq_zero_or_pos n with rfl | h
  · rfl
  · rw [Bool.and_eq_false_iff]
    exact Or.inr (beq_false_of_ne (head?_decimal h))

/-! ### Hexadecimal digits -/

theorem hexadecimal_one {n : Nat} (h : n < 16) : hexadecimal 1 n = [Nat.digitChar n] := by
  rw [hexadecimal, Nat.toDigits_of_lt_base h]
  rfl

/-- One digit more shows the remainder, and the digits in front of it show the quotient. -/
theorem hexadecimal_succ {width : Nat} (hw : 1 ≤ width) (n : Nat) :
    hexadecimal (width + 1) n = hexadecimal width (n / 16) ++ [Nat.digitChar (n % 16)] := by
  unfold hexadecimal
  by_cases hn : n < 16
  · obtain ⟨k, rfl⟩ : ∃ k, width = k + 1 := ⟨width - 1, by omega⟩
    rw [Nat.div_eq_of_lt hn, Nat.mod_eq_of_lt hn, Nat.toDigits_of_lt_base hn]
    show List.replicate (k + 1) '0' ++ _ = List.replicate k '0' ++ ['0'] ++ _
    rw [List.replicate_succ']
  · have hdigits : Nat.toDigits 16 n = Nat.toDigits 16 (n / 16) ++ [Nat.digitChar (n % 16)] :=
      Nat.toDigits_of_base_le (by omega) (by omega)
    have hlength : (Nat.toDigits 16 n).length = (Nat.toDigits 16 (n / 16)).length + 1 := by
      rw [hdigits, List.length_append]
      rfl
    show List.replicate (width + 1 - (Nat.toDigits 16 n).length) '0' ++ Nat.toDigits 16 n = _
    rw [hlength, Nat.add_sub_add_right, hdigits, ← List.append_assoc]

theorem hexadecimal_four {n : Nat} (h : n < 0x10000) :
    hexadecimal 4 n = [Nat.digitChar (n / 16 / 16 / 16), Nat.digitChar (n / 16 / 16 % 16),
      Nat.digitChar (n / 16 % 16), Nat.digitChar (n % 16)] := by
  rw [hexadecimal_succ (by omega), hexadecimal_succ (by omega), hexadecimal_succ (by omega),
    hexadecimal_one (by omega)]
  rfl

end LintHost.Text
