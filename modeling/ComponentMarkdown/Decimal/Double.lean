namespace ComponentMarkdown

/-- A double-precision number, given by its bits: a sign, eleven exponent bits and fifty-two fraction bits. Two
numbers are the same exactly when they were built from the same bits; `numEq` is the numeric comparison. -/
structure Double where
  bits : UInt64
deriving DecidableEq, Repr, Inhabited

namespace Double

def ofFloat (x : Float) : Double := ⟨x.toBits⟩

def toFloat (x : Double) : Float := Float.ofBits x.bits

/-- The nearest double to `digits * 10 ^ exponent`, ties going to the even fraction. Beyond the range
of doubles the answer is known without computing the power of ten. -/
def ofDecimal (digits : Nat) (exponent : Int) : Double :=
  let leading := ((Nat.toDigits 10 digits).length : Int) + exponent
  if digits = 0 ∨ leading < -400 then ofFloat 0.0
  else if 400 < leading then ofFloat (1.0 / 0.0)
  else ofFloat (Float.ofScientific digits (exponent < 0) exponent.natAbs)

def isNegative (x : Double) : Bool := x.bits.toNat / 0x8000000000000000 = 1

def exponentBits (x : Double) : Nat := x.bits.toNat / 0x10000000000000 % 0x800

def fractionBits (x : Double) : Nat := x.bits.toNat % 0x10000000000000

/-- Neither an infinity nor a value that is not a number. -/
def isFinite (x : Double) : Bool := x.exponentBits ≠ 0x7ff

def isZero (x : Double) : Bool := x.exponentBits = 0 && x.fractionBits = 0

/-- A value that is not a number. -/
def isNaN (x : Double) : Bool := x.exponentBits = 0x7ff && x.fractionBits ≠ 0

def neg (x : Double) : Double := ofFloat (-x.toFloat)

/-- Numeric equality: the two zeros are equal, and a value that is not a number equals nothing. -/
def numEq (x y : Double) : Bool :=
  !x.isNaN && !y.isNaN && (x.bits = y.bits || (x.isZero && y.isZero))

/-- The significand of the absolute value, with the implicit bit of a normal number. -/
def significand (x : Double) : Nat :=
  if x.exponentBits = 0 then x.fractionBits else 0x10000000000000 + x.fractionBits

/-- The power of two that the significand is scaled by: `|x| = significand x * 2 ^ scale x`. -/
def scale (x : Double) : Int :=
  if x.exponentBits = 0 then -1074 else (x.exponentBits : Int) - 1075

end Double

end ComponentMarkdown
