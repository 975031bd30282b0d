import ComponentMarkdown.Text.Lines
import ComponentMarkdown.Toml.Table

namespace ComponentMarkdown.Toml

/-- The value of a digit in a base up to sixteen. -/
def digit? (base : Nat) (c : Char) : Option Nat :=
  let value :=
    if c.isDigit then c.toNat - 48
    else if 'a' ≤ c ∧ c ≤ 'f' then c.toNat - 87
    else if 'A' ≤ c ∧ c ≤ 'F' then c.toNat - 55
    else base
  if value < base then some value else none

/-- The number of digits with single underscores between them. `value` is what was read, and `between`
tells whether an underscore may follow. -/
def digitsFrom (base value : Nat) (between : Bool) : List Char → Option Nat
  | [] => if between then some value else none
  | '_' :: rest => if between then digitsFrom base value false rest else none
  | c :: rest => do
    let digit ← digit? base c
    digitsFrom base (value * base + digit) true rest

/-- The number of a text of digits. -/
def digits? (base : Nat) (s : List Char) : Option Nat := digitsFrom base 0 false s

/-- A decimal number without a leading zero. -/
def decimal? : List Char → Option Nat
  | '0' :: c :: rest => if c.isDigit ∨ c = '_' then none else digits? 10 ('0' :: c :: rest)
  | s => digits? 10 s

/-- A text without its sign, and whether it was negative. -/
def unsigned : List Char → Bool × List Char
  | '-' :: rest => (true, rest)
  | '+' :: rest => (false, rest)
  | s => (false, s)

def integer? (s : List Char) : Option Int :=
  match s with
  | '0' :: 'x' :: rest => (digits? 16 rest).map Int.ofNat
  | '0' :: 'o' :: rest => (digits? 8 rest).map Int.ofNat
  | '0' :: 'b' :: rest => (digits? 2 rest).map Int.ofNat
  | s =>
    let (negative, rest) := unsigned s
    (decimal? rest).map fun n => if negative then -(n : Int) else n

/-- Whether a text is an exponent behind its letter. -/
def isExponent (s : List Char) : Bool := (digits? 10 (unsigned s).2).isSome

def isExponentLetter (c : Char) : Bool := c = 'e' || c = 'E'

/-- Whether a text is a floating point number. -/
def isFloat (s : List Char) : Bool :=
  let s := (unsigned s).2
  if s = "inf".toList || s = "nan".toList then true
  else
    let mantissa := s.takeWhile (!isExponentLetter ·)
    let whole := mantissa.takeWhile (· ≠ '.')
    let fraction := mantissa.dropWhile (· ≠ '.')
    let exponent := s.dropWhile (!isExponentLetter ·)
    (decimal? whole).isSome
      && (fraction.isEmpty || (digits? 10 (fraction.drop 1)).isSome)
      && (exponent.isEmpty || isExponent (exponent.drop 1))
      && !(fraction.isEmpty && exponent.isEmpty)

/-- The number of exactly so many digits. -/
def fixed? (count : Nat) (s : List Char) : Option Nat :=
  if s.length = count && s.all Char.isDigit then digits? 10 s else none

def isLeapYear (year : Nat) : Bool := year % 4 = 0 && (year % 100 ≠ 0 || year % 400 = 0)

def daysInMonth (year month : Nat) : Nat :=
  if month = 2 then (if isLeapYear year then 29 else 28)
  else if month ∈ [4, 6, 9, 11] then 30
  else 31

def isDate (s : List Char) : Bool :=
  match (Text.splitOn '-' s) with
  | [year, month, day] =>
    match fixed? 4 year, fixed? 2 month, fixed? 2 day with
    | some year, some month, some day =>
      1 ≤ month && month ≤ 12 && 1 ≤ day && day ≤ daysInMonth year month
    | _, _, _ => false
  | _ => false

/-- Whether a text is a number of seconds, which may have a fraction. -/
def isSeconds (s : List Char) : Bool :=
  let fraction := s.dropWhile (· ≠ '.')
  (fixed? 2 (s.takeWhile (· ≠ '.'))).any (· ≤ 60)
    && (fraction.isEmpty || (!(fraction.drop 1).isEmpty && (fraction.drop 1).all Char.isDigit))

/-- Whether a text is a time of day. The seconds may be left out. -/
def isTime (s : List Char) : Bool :=
  match Text.splitOn ':' s with
  | [hour, minute] => (fixed? 2 hour).any (· < 24) && (fixed? 2 minute).any (· < 60)
  | [hour, minute, second] =>
    (fixed? 2 hour).any (· < 24) && (fixed? 2 minute).any (· < 60) && isSeconds second
  | _ => false

/-- Whether a text is a time of day with the distance from universal time behind it. -/
def isOffsetTime (s : List Char) : Bool :=
  match s.getLast? with
  | none => false
  | some last =>
    if last = 'Z' ∨ last = 'z' then isTime s.dropLast
    else
      let sign := fun (c : Char) => c = '+' || c = '-'
      let offset := (s.dropWhile (!sign ·)).drop 1
      isTime (s.takeWhile (!sign ·))
        && (match Text.splitOn ':' offset with
          | [hour, minute] => (fixed? 2 hour).any (· < 24) && (fixed? 2 minute).any (· < 60)
          | _ => false)

/-- Whether a text is a date, a time of day, or both with `T` or a blank between them. -/
def isMoment (s : List Char) : Bool :=
  let date := s.take 10
  match s.drop 10 with
  | [] => isDate date || isTime s
  | c :: time =>
    if isDate date then (c = 'T' || c = 't' || c = ' ') && (isTime time || isOffsetTime time)
    else isTime s

/-- The value of a word. -/
def scalar? (s : List Char) : Option Item :=
  if s = "true".toList then some (.bool true)
  else if s = "false".toList then some (.bool false)
  else
    match integer? s with
    | some n => some (.int n)
    | none => if isFloat s || isMoment s then some .other else none

end ComponentMarkdown.Toml
