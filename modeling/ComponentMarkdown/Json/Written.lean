import ComponentMarkdown.Attrs

namespace ComponentMarkdown.Json

/-- A character of a string literal, or a code unit written as a `\u` escape. -/
inductive StringUnit where
  | char (c : Char)
  | escaped (unit : Nat)
deriving DecidableEq, Repr, Inhabited

/-- A number literal: digits before the point, digits after it, and an exponent. -/
structure NumberLiteral where
  negative : Bool
  whole : List Char
  fraction : Option (List Char)
  exponent : Option (Bool × List Char)
deriving DecidableEq, Repr, Inhabited

/-- JSON text as a tree, nothing interpreted yet: repeated fields, number literals and escaped surrogates are
still in it. -/
inductive Written where
  | null
  | bool (value : Bool)
  | num (literal : NumberLiteral)
  | str (units : List StringUnit)
  | arr (items : List Written)
  | obj (fields : List (List StringUnit × Written))
deriving Repr, Inhabited

/-- The characters of a string literal. A code unit in the surrogate range counts only together with
its partner. -/
def unitChars? : List StringUnit → Option (List Char)
  | [] => some []
  | .char c :: rest => (unitChars? rest).map (c :: ·)
  | .escaped high :: .escaped low :: rest =>
    if 0xD800 ≤ high ∧ high < 0xDC00 then
      if 0xDC00 ≤ low ∧ low < 0xE000 then
        (unitChars? rest).map (Char.ofNat (0x10000 + (high - 0xD800) * 0x400 + (low - 0xDC00)) :: ·)
      else none
    else if 0xDC00 ≤ high ∧ high < 0xE000 then none
    else (unitChars? (.escaped low :: rest)).map (Char.ofNat high :: ·)
  | .escaped unit :: rest =>
    if 0xD800 ≤ unit ∧ unit < 0xE000 then none
    else (unitChars? rest).map (Char.ofNat unit :: ·)

/-- The string of a literal. -/
def string? (units : List StringUnit) : Option String := (unitChars? units).map String.ofList

def digitValue (c : Char) : Nat := c.toNat - 48

/-- The largest integer that is kept exactly. -/
def maxInteger : Nat := 0xffffffffffffffff

/-- Appends digits to a significand while it stays within `maxInteger`. Returns the significand, the
number of digits taken and the digits left. -/
def takeDigits : Nat → List Char → Nat × Nat × List Char
  | significand, [] => (significand, 0, [])
  | significand, c :: rest =>
    let next := significand * 10 + digitValue c
    if next ≤ maxInteger then
      let (result, count, left) := takeDigits next rest
      (result, count + 1, left)
    else (significand, 0, c :: rest)

/-- The powers of ten that a double is scaled by in one step. -/
def largestPower : Nat := 308

/-- Divides by powers of ten until the exponent is used up. -/
def scaleDown : Nat → Float → Nat → Float
  | 0, x, _ => x
  | fuel + 1, x, exponent =>
    if exponent ≤ largestPower then x / Float.ofScientific 1 false exponent
    else if x == 0 then x
    else scaleDown fuel (x / Float.ofScientific 1 false largestPower) (exponent - largestPower)

/-- The value `significand * 10 ^ exponent` in double arithmetic: the significand is rounded first,
then scaled by a rounded power of ten. Fails when the result is beyond the range. -/
def scaled? (negative : Bool) (significand : Nat) (exponent : Int) : Option Number :=
  let x := Float.ofNat significand
  let signed := fun (y : Float) => Number.float (Double.ofFloat (if negative then -y else y))
  if 0 ≤ exponent then
    if exponent.natAbs ≤ largestPower then
      let y := x * Float.ofScientific 1 false exponent.natAbs
      if y.isInf then none else some (signed y)
    else if x == 0 then some (signed x) else none
  else some (signed (scaleDown 10 x exponent.natAbs))

/-- The number of a decimal digit list, most significant first. -/
def digitsNat (digits : List Char) : Nat :=
  digits.foldl (fun n c => n * 10 + digitValue c) 0

/-- The exponent of a literal is capped at this size. -/
def maxExponent : Nat := 0x7fffffff

/-- Applies the exponent of a literal to a significand that already has one. -/
def withExponent? (negative : Bool) (significand : Nat) (start : Int) :
    Option (Bool × List Char) → Option Number
  | none => scaled? negative significand start
  | some (down, digits) =>
    let exponent := digitsNat digits
    if maxExponent < exponent then
      if significand ≠ 0 ∧ !down then none
      else some (.float (Double.ofFloat (if negative then -0.0 else 0.0)))
    else scaled? negative significand (if down then start - exponent else start + exponent)

/-- The number of a literal. A literal without point and exponent is an integer if it fits the signed
or unsigned sixty-four bit range; `-0` is the negative zero. Digits that no longer fit the
significand only count by their place. -/
def NumberLiteral.number? (literal : NumberLiteral) : Option Number :=
  let (significand, _, dropped) := takeDigits 0 literal.whole
  match literal.fraction, literal.exponent, dropped with
  | none, none, [] =>
    if !literal.negative then some (.int significand)
    else if significand = 0 ∨ 0x8000000000000000 < significand then
      some (.float (Double.ofFloat (-Float.ofNat significand)))
    else some (.int (-(significand : Int)))
  | none, exponent, dropped =>
    withExponent? literal.negative significand dropped.length exponent
  | some fraction, exponent, dropped =>
    let (significand', count, _) := takeDigits significand fraction
    withExponent? literal.negative significand' ((dropped.length : Int) - count) exponent

mutual

/-- The value of a written tree. -/
def Written.value? : Written → Option Value
  | .null => some .null
  | .bool value => some (.bool value)
  | .num literal => literal.number?.map .num
  | .str units => (string? units).map .str
  | .arr items => (Written.items? items).map .arr
  | .obj fields => (Written.fields? fields).map (fun entries => .obj (Attrs.ofFields entries))

/-- The values of the items of a written array. -/
def Written.items? : List Written → Option (List Value)
  | [] => some []
  | item :: rest => do
    let value ← item.value?
    let values ← Written.items? rest
    return value :: values

/-- The fields of a written object, repetitions included. -/
def Written.fields? : List (List StringUnit × Written) → Option (List (String × Value))
  | [] => some []
  | (units, item) :: rest => do
    let key ← string? units
    let value ← item.value?
    let entries ← Written.fields? rest
    return (key, value) :: entries

end

end ComponentMarkdown.Json
