/-!
# Double-precision numbers, exactly

A finite double is a sign, a mantissa `m` and a power of two `e`, and stands for `± m · 2 ^ e`.
Nothing here goes through machine arithmetic: a decimal is rounded to the nearest double in
natural numbers (`ofDecimal?`), so reading a number is a function one can reason about.

Zero keeps its sign, because the text of a number shows it.
-/

namespace InfraDiagram

/-! ## 1. The numbers -/

/-- A finite double: `± mantissa · 2 ^ exponent`. The numbers built here are in their one
    canonical form: `mantissa < 2 ^ 53`, and `mantissa ≥ 2 ^ 52` unless `exponent = -1074`. -/
structure Binary64 where
  negative : Bool
  mantissa : Nat
  exponent : Int
  deriving DecidableEq, Repr

namespace Binary64

/-- The smallest exponent of a double. -/
def minExponent : Int := -1074

/-- The largest exponent of a finite double. -/
def maxExponent : Int := 971

/-- Zero, with its sign. -/
def zero (negative : Bool) : Binary64 := ⟨negative, 0, minExponent⟩

/-- Whether the number is one of the two zeros. -/
def isZero (x : Binary64) : Bool := x.mantissa == 0

/-! ## 2. Scaling by powers -/

/-- A positive fraction times `b ^ k`, for any integer `k`. -/
def scale (b : Nat) (k : Int) (num den : Nat) : Nat × Nat :=
  match k with
  | .ofNat n => (num * Nat.pow b n, den)
  | .negSucc n => (num, den * Nat.pow b (n + 1))

/-- The quotient rounded to the nearest natural number, a half going to the even one. -/
def divNearestEven (num den : Nat) : Nat :=
  let q := num / den
  let r := num % den
  if 2 * r < den then q
  else if 2 * r > den then q + 1
  else if q % 2 == 0 then q else q + 1

/-! ## 3. Rounding -/

/-- The exponent that gives `num / den` a mantissa of 53 bits, not below the smallest one. -/
def exponentFor (num den : Nat) : Int :=
  let guess : Int := (num.log2 : Int) - (den.log2 : Int) - 52
  let (n, d) := scale 2 (-guess) num den
  let e := if n < d * Nat.pow 2 52 then guess - 1 else guess
  max e minExponent

/-- The double nearest to `± num / den`; `none` when it is beyond the finite ones. -/
def ofFraction? (negative : Bool) (num den : Nat) : Option Binary64 :=
  if num == 0 then some (zero negative)
  else
    let e := exponentFor num den
    let (n, d) := scale 2 (-e) num den
    let m := divNearestEven n d
    let (m, e) := if m == Nat.pow 2 53 then (Nat.pow 2 52, e + 1) else (m, e)
    if e > maxExponent then none else some ⟨negative, m, e⟩

/-- The number of decimal digits of `n` (one for zero). -/
def digitCount (n : Nat) : Nat := (Nat.toDigits 10 n).length

/-- The double nearest to `± digits · 10 ^ exponent`; `none` when it is beyond the finite ones.
    Decimals far outside the range of doubles are settled by their size alone. -/
def ofDecimal? (negative : Bool) (digits : Nat) (exponent : Int) : Option Binary64 :=
  if digits == 0 then some (zero negative)
  else
    let magnitude := exponent + digitCount digits
    if magnitude > 400 then none
    else if magnitude < -400 then some (zero negative)
    else
      let (num, den) := scale 10 exponent digits 1
      ofFraction? negative num den

end Binary64

end InfraDiagram
