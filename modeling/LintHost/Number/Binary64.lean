/-
Floating-point numbers of 64 bits, as exact values.

A finite number is a sign, a mantissa and a power of two.  It is kept in the one form where the
mantissa has 53 bits, or fewer when the exponent is the least one, so that two numbers have the
same bits exactly when they are equal as values of the type.  `ofRatio` rounds an exact quotient
to the nearest number, a tie to the even mantissa; sums and products are formed exactly and then
rounded once.
-/

namespace LintHost

/-- A number of the binary format with 53 bits of precision and exponents from -1074 to 971. -/
inductive Binary64 where
  | nan
  | infinite (negative : Bool)
  | finite (negative : Bool) (mantissa : Nat) (exponent : Int)
deriving DecidableEq, Repr, Inhabited

namespace Binary64

/-- The least and the greatest power of two of the format, and the first mantissa too long. -/
def minExponent : Int := -1074
def maxExponent : Int := 971
def mantissaLimit : Nat := 9007199254740992

/-- A power of two. -/
def twoTo (n : Nat) : Nat := Nat.pow 2 n

/-- The zero of either sign. -/
def zero (negative : Bool) : Binary64 := .finite negative 0 minExponent

/-- The quotient rounded to a whole number, a tie to the even one. -/
def roundDiv (num den : Nat) : Nat :=
  let q := num / den
  let r := num % den
  if 2 * r > den || (2 * r == den && q % 2 == 1) then q + 1 else q

/-- The quotient of `num / 2 ^ e` and `den`, rounded. -/
def roundScaled (num den : Nat) (e : Int) : Nat :=
  if e < 0 then roundDiv (num * twoTo e.natAbs) den else roundDiv num (den * twoTo e.natAbs)

/-- Whether `num / den` is at least `2 ^ e`. -/
def reaches (num den : Nat) (e : Int) : Bool :=
  if e < 0 then den ≤ num * twoTo e.natAbs else den * twoTo e.natAbs ≤ num

/-- The number nearest to `± num / den`. -/
def ofRatio (negative : Bool) (num den : Nat) : Binary64 :=
  if num = 0 then zero negative
  else
    let guess : Int := (num.log2 : Int) - den.log2
    let top := if reaches num den guess then guess else guess - 1
    let e := max (top - 52) minExponent
    let m := roundScaled num den e
    if m = 0 then zero negative
    else
      let (m, e) := if m == mantissaLimit then (m / 2, e + 1) else (m, e)
      if e > maxExponent then .infinite negative else .finite negative m e

/-- The number nearest to `± m * 2 ^ e`. -/
def ofScaled (negative : Bool) (m : Nat) (e : Int) : Binary64 :=
  if e < 0 then ofRatio negative m (twoTo e.natAbs) else ofRatio negative (m * twoTo e.natAbs) 1

/-- The number nearest to a whole number. -/
def ofInt (n : Int) : Binary64 := ofRatio (n < 0) n.natAbs 1

/-- A mantissa with its sign, at a lower exponent. -/
def shifted (negative : Bool) (m : Nat) (e low : Int) : Int :=
  let n : Int := m * twoTo (e - low).natAbs
  if negative then -n else n

/-- The sum, rounded once. -/
def add : Binary64 → Binary64 → Binary64
  | .nan, _ => .nan
  | _, .nan => .nan
  | .infinite s, .infinite t => if s == t then .infinite s else .nan
  | .infinite s, _ => .infinite s
  | _, .infinite t => .infinite t
  | .finite s m e, .finite t n f =>
    let low := min e f
    let sum := shifted s m e low + shifted t n f low
    if sum = 0 then zero (s && t) else ofScaled (sum < 0) sum.natAbs low

/-- The product, rounded once. -/
def mul : Binary64 → Binary64 → Binary64
  | .nan, _ => .nan
  | _, .nan => .nan
  | .infinite s, .infinite t => .infinite (s != t)
  | .infinite s, .finite t n _ => if n = 0 then .nan else .infinite (s != t)
  | .finite s m _, .infinite t => if m = 0 then .nan else .infinite (s != t)
  | .finite s m e, .finite t n f => ofScaled (s != t) (m * n) (e + f)

/-- The number with the other sign. -/
def neg : Binary64 → Binary64
  | .nan => .nan
  | .infinite s => .infinite (!s)
  | .finite s m e => .finite (!s) m e

/-- The whole number it is, if it is one. -/
def toInt? : Binary64 → Option Int
  | .finite s m e =>
    if e < 0 then
      if m % twoTo e.natAbs = 0 then
        let n : Int := m / twoTo e.natAbs
        some (if s then -n else n)
      else none
    else
      let n : Int := m * twoTo e.natAbs
      some (if s then -n else n)
  | _ => none

/-- Equality of values: the two zeros are one value, and the not-a-number equals nothing. -/
def sameValue : Binary64 → Binary64 → Bool
  | .nan, _ => false
  | _, .nan => false
  | .finite s m e, .finite t n f => (m == 0 && n == 0) || (s == t && m == n && e == f)
  | a, b => a == b

end Binary64

end LintHost
