import ComponentMarkdown.Decimal.Double

namespace ComponentMarkdown

/-- A positive decimal `digits * 10 ^ exponent`. -/
structure Decimal where
  digits : Nat
  exponent : Int
deriving DecidableEq, Repr, Inhabited

namespace Decimal

/-- The decimal digits of a number, most significant first. -/
def digitChars (n : Nat) : List Char := Nat.toDigits 10 n

/-- Drops the trailing zeros of the digits, at most `fuel` of them. -/
def dropZeros : Nat → Decimal → Decimal
  | 0, d => d
  | fuel + 1, d =>
    if d.digits ≠ 0 ∧ d.digits % 10 = 0 then dropZeros fuel ⟨d.digits / 10, d.exponent + 1⟩ else d

end Decimal

namespace Double

/-- The interval of reals that round to a positive double, over one denominator: the double is
`value / denominator` and the ends are `(value - below) / denominator` and
`(value + above) / denominator`. -/
structure RoundingInterval where
  value : Nat
  below : Nat
  above : Nat
  denominator : Nat
  closed : Bool

/-- The gap below a power of two is half the gap above it, except at the bottom of the range. -/
def roundingInterval (x : Double) : RoundingInterval :=
  let m := x.significand
  let numerator := if 0 ≤ x.scale then Nat.pow 2 x.scale.toNat else 1
  let denominator := if 0 ≤ x.scale then 1 else Nat.pow 2 (-x.scale).toNat
  let narrow := x.fractionBits = 0 ∧ 1 < x.exponentBits
  { value := 4 * m * numerator
    below := if narrow then numerator else 2 * numerator
    above := 2 * numerator
    denominator := 4 * denominator
    closed := m % 2 = 0 }

/-- Whether `digits * 10 ^ exponent` lies in the interval, with its distance from the double scaled
by a factor that depends on the interval and the exponent only. -/
def RoundingInterval.distance? (i : RoundingInterval) (d : Decimal) : Option Nat :=
  let up := if 0 ≤ d.exponent then Nat.pow 10 d.exponent.toNat else 1
  let down := if 0 ≤ d.exponent then 1 else Nat.pow 10 (-d.exponent).toNat
  let point := d.digits * up * i.denominator
  let value := i.value * down
  if point ≤ value then
    let gap := value - point
    if gap < i.below * down ∨ (i.closed ∧ gap = i.below * down) then some gap else none
  else
    let gap := point - value
    if gap < i.above * down ∨ (i.closed ∧ gap = i.above * down) then some gap else none

/-- The nearest point of the grid of multiples of `10 ^ exponent` that lies in the interval. -/
def RoundingInterval.nearest? (i : RoundingInterval) (exponent : Int) : Option Decimal :=
  let up := if 0 ≤ exponent then Nat.pow 10 exponent.toNat else 1
  let down := if 0 ≤ exponent then 1 else Nat.pow 10 (-exponent).toNat
  let floor := i.value * down / (i.denominator * up)
  let lower : Decimal := ⟨floor, exponent⟩
  let upper : Decimal := ⟨floor + 1, exponent⟩
  match (if floor = 0 then none else i.distance? lower), i.distance? upper with
  | none, none => none
  | some _, none => some lower
  | none, some _ => some upper
  | some a, some b => some (if a < b ∨ (a = b ∧ floor % 2 = 0) then lower else upper)

/-- The position of the leading digit of `value / denominator`: the largest `e` with
`10 ^ e ≤ value / denominator`. -/
def RoundingInterval.leading (i : RoundingInterval) : Int :=
  if i.denominator ≤ i.value then
    ((Decimal.digitChars (i.value / i.denominator)).length : Int) - 1
  else
    let inverse := (i.denominator + i.value - 1) / i.value
    Int.negOfNat (Decimal.digitChars (inverse - 1)).length

/-- Tries grids of growing fineness, starting with one digit. -/
def RoundingInterval.shortest (i : RoundingInterval) : Nat → Int → Decimal
  | 0, exponent => ⟨i.value / i.denominator, exponent⟩
  | fuel + 1, exponent =>
    match i.nearest? exponent with
    | some d => d
    | none => i.shortest fuel (exponent - 1)

/-- The shortest decimal of the absolute value of a finite double other than zero. Of the decimals that read back
as the double, these are the ones with the fewest digits, of those the nearest to the double, and of two equally
near the one with an even last digit. -/
def shortest (x : Double) : Decimal :=
  let i := x.roundingInterval
  (i.shortest 20 i.leading).dropZeros 20

end Double

/-- How a format spells a finite double. -/
structure DoubleFormat where
  /-- The mark in front of an exponent that is not negative. -/
  plusMark : List Char

namespace DoubleFormat

/-- JSON marks a positive exponent with a plus sign. -/
def json : DoubleFormat := ⟨['+']⟩

/-- YAML writes a positive exponent bare. -/
def yaml : DoubleFormat := ⟨[]⟩

/-- The exponent, with its sign. -/
def exponentText (format : DoubleFormat) (e : Int) : List Char :=
  if e < 0 then '-' :: Decimal.digitChars e.natAbs
  else format.plusMark ++ Decimal.digitChars e.natAbs

/-- The text of a positive decimal. A number below `10 ^ 16` and not below `10 ^ -5` is written
positionally and always has a point; any other has one digit before the point and an exponent. -/
def decimalText (format : DoubleFormat) (d : Decimal) : List Char :=
  let digits := Decimal.digitChars d.digits
  let point := (digits.length : Int) + d.exponent
  if 0 ≤ d.exponent ∧ point ≤ 16 then
    digits ++ List.replicate d.exponent.toNat '0' ++ ['.', '0']
  else if 0 < point ∧ point ≤ 16 then
    digits.take point.toNat ++ '.' :: digits.drop point.toNat
  else if -5 < point ∧ point ≤ 0 then
    '0' :: '.' :: (List.replicate (-point).toNat '0' ++ digits)
  else
    match digits with
    | [] => []
    | [first] => first :: 'e' :: format.exponentText (point - 1)
    | first :: rest => first :: '.' :: (rest ++ 'e' :: format.exponentText (point - 1))

/-- The text of a finite double: the sign, then the shortest decimal; zero is `0.0`. -/
def text (format : DoubleFormat) (x : Double) : List Char :=
  let sign := if x.isNegative then ['-'] else []
  sign ++ if x.isZero then ['0', '.', '0'] else format.decimalText x.shortest

end DoubleFormat

end ComponentMarkdown
