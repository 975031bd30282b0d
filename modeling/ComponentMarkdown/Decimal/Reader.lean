import ComponentMarkdown.Decimal.Double

namespace ComponentMarkdown.Double

/-- The value of a digit list in a base, most significant first. -/
def natOfDigits (base : Nat) (digit : Char → Nat) (s : List Char) : Nat :=
  s.foldl (fun n c => n * base + digit c) 0

def decimalDigit (c : Char) : Nat := c.toNat - 48

/-- The exponent at the end of a number text: nothing, or a mark, an optional sign and digits. -/
def exponent? : List Char → Option Int
  | [] => some 0
  | c :: rest =>
    if c = 'e' ∨ c = 'E' then
      let (negative, digits) := match rest with
        | '-' :: digits => (true, digits)
        | '+' :: digits => (false, digits)
        | digits => (false, digits)
      if digits.isEmpty ∨ !digits.all Char.isDigit then none
      else
        let size := min (natOfDigits 10 decimalDigit digits) 1000000000
        some (if negative then Int.negOfNat size else Int.ofNat size)
    else none

/-- An unsigned number text. There has to be a digit before or after the point. -/
def unsigned? (s : List Char) : Option Double :=
  let (whole, rest) := s.span Char.isDigit
  let (fraction, rest) := match rest with
    | '.' :: rest => rest.span Char.isDigit
    | rest => ([], rest)
  if whole.isEmpty ∧ fraction.isEmpty then none
  else (exponent? rest).map fun exponent =>
    ofDecimal (natOfDigits 10 decimalDigit (whole ++ fraction)) (exponent - fraction.length)

/-- A number text with an optional sign. A number beyond the range is an infinity. -/
def parse? : List Char → Option Double
  | '-' :: s => (unsigned? s).map neg
  | '+' :: s => unsigned? s
  | s => unsigned? s

end ComponentMarkdown.Double
