import InfraDiagram.Binary64.Basic

/-!
# The shortest decimal of a double

A double is written with the fewest digits that read back as the same double, and of those with
the digits nearest to it. For 1, 2, … 17 digits the two decimals around the number are read back
(`Decimal.candidates`); the first grid with a hit wins.

The text is positional between `10 ^ -5` and `10 ^ 16` and always shows a point there; outside,
it has an exponent with its sign (`1e-7`, `1.5e+20`).
-/

namespace InfraDiagram.Binary64

/-! ## 1. Digits -/

/-- A decimal `digits · 10 ^ exponent`. -/
structure Decimal where
  digits : Nat
  exponent : Int
  deriving DecidableEq, Repr

/-- The power of ten of the leading digit of `num / den`, which is not zero. -/
def leadingPower (num den : Nat) : Int :=
  let guess : Int := (digitCount num : Int) - (digitCount den : Int)
  let (n, d) := scale 10 (-guess) num den
  if n < d then guess - 1 else guess

/-- Whether a decimal reads back as the number. -/
def readsBack (x : Binary64) (d : Decimal) : Bool :=
  ofDecimal? x.negative d.digits d.exponent == some x

/-- The decimal of `n` digits nearest to the number among those that read back, if there is one. -/
def withDigits? (x : Binary64) (n : Nat) : Option Decimal :=
  let (num, den) := scale 2 x.exponent x.mantissa 1
  let p := leadingPower num den - (n : Int) + 1
  let (a, b) := scale 10 (-p) num den
  let low : Decimal := ⟨a / b, p⟩
  let high : Decimal := ⟨a / b + 1, p⟩
  let r := a % b
  let lowNearer := 2 * r < b || (2 * r == b && (a / b) % 2 == 0)
  match readsBack x low, readsBack x high with
  | true, true => some (if lowNearer then low else high)
  | true, false => some low
  | false, true => some high
  | false, false => none

/-- The shortest decimal that reads back; seventeen digits always do. -/
def shortest (x : Binary64) : Decimal :=
  ((List.range 17).findSome? fun i => withDigits? x (i + 1)).getD ⟨x.mantissa, x.exponent⟩

/-- The same decimal without zeros at the end of its digits. -/
def Decimal.strip : Nat → Decimal → Decimal
  | 0, d => d
  | fuel + 1, d =>
    if d.digits != 0 && d.digits % 10 == 0 then strip fuel ⟨d.digits / 10, d.exponent + 1⟩ else d

/-! ## 2. Text -/

private def zeros (n : Nat) : List Char := List.replicate n '0'

/-- An exponent with its sign: `e-7`, `e+16`. -/
def exponentText (e : Int) : List Char :=
  'e' :: (if e < 0 then '-' else '+') :: Nat.toDigits 10 e.natAbs

/-- The digits of a decimal with its point, or its exponent. -/
def Decimal.text (d : Decimal) : List Char :=
  let ds := Nat.toDigits 10 d.digits
  let point : Int := ds.length + d.exponent
  if -5 < point && point ≤ 16 then
    if 0 ≤ d.exponent then ds ++ zeros d.exponent.toNat ++ ['.', '0']
    else if 0 < point then ds.take point.toNat ++ '.' :: ds.drop point.toNat
    else '0' :: '.' :: zeros (-point).toNat ++ ds
  else
    match ds with
    | [d0] => d0 :: exponentText (point - 1)
    | d0 :: rest => d0 :: '.' :: rest ++ exponentText (point - 1)
    | [] => []

/-- The text of a double. -/
def text (x : Binary64) : String :=
  let sign := if x.negative then ['-'] else []
  let body := if x.isZero then ['0', '.', '0'] else (Decimal.strip 20 (shortest x)).text
  String.ofList (sign ++ body)

end InfraDiagram.Binary64
