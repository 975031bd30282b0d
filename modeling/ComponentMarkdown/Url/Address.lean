import ComponentMarkdown.Text.Lines

namespace ComponentMarkdown.Url

/-- The value of a digit in a base up to sixteen. -/
def digitValue? (base : Nat) (c : Char) : Option Nat :=
  let value :=
    if c.isDigit then c.toNat - 48
    else if 'a' ≤ c ∧ c ≤ 'f' then c.toNat - 87
    else if 'A' ≤ c ∧ c ≤ 'F' then c.toNat - 55
    else base
  if value < base then some value else none

/-- The number of a text of digits. -/
def numeral? (base : Nat) (s : List Char) : Option Nat :=
  s.foldlM (fun n c => (digitValue? base c).map (n * base + ·)) 0

namespace FourPart

/-- A part of an address: hexadecimal behind `0x`, octal behind another zero, and decimal
otherwise. -/
def number? : List Char → Option Nat
  | [] => none
  | '0' :: c :: rest =>
    if c = 'x' ∨ c = 'X' then numeral? 16 rest else numeral? 8 (c :: rest)
  | s => numeral? 10 s

/-- The parts of a name; a full stop at the end counts for nothing. -/
def parts (name : List Char) : List (List Char) :=
  let parts := Text.splitOn '.' name
  if parts.getLast? = some [] then parts.dropLast else parts

/-- Whether a name has to be an address, because its last part is a number. -/
def endsInNumber (name : List Char) : Bool :=
  match (parts name).getLast? with
  | none => false
  | some [] => false
  | some part => part.all Char.isDigit || (number? part).isSome

/-- Whether the numbers of an address fit: all but the last one in a byte, and the last one in the
bytes that are left. -/
def fit (numbers : List Nat) : Bool :=
  numbers.length ≤ 4 && numbers.dropLast.all (· < 256)
    && numbers.getLast?.any (· < Nat.pow 256 (5 - numbers.length))

def isAddress (name : List Char) : Bool :=
  match (parts name).mapM number? with
  | some numbers => fit numbers
  | none => false

end FourPart

namespace EightPart

/-- A decimal byte without leading zeros. -/
def isByte (s : List Char) : Bool :=
  match s with
  | [] => false
  | ['0'] => true
  | '0' :: _ => false
  | s => s.length ≤ 3 && (numeral? 10 s).any (· < 256)

/-- A four-part address at the end, which stands for two groups. -/
def isDotted (s : List Char) : Bool :=
  let parts := Text.splitOn '.' s
  parts.length = 4 && parts.all isByte

def isGroup (s : List Char) : Bool :=
  1 ≤ s.length && s.length ≤ 4 && (numeral? 16 s).isSome

/-- The number of groups in parts between colons, if all of them are groups. The last part may be a
four-part address. -/
def groups? : List (List Char) → Option Nat
  | [] => some 0
  | [last] => if isGroup last then some 1 else if isDotted last then some 2 else none
  | part :: rest => if isGroup part then (groups? rest).map (· + 1) else none

/-- Cuts a text at the first two colons in a row. -/
def cut? : List Char → Option (List Char × List Char)
  | ':' :: ':' :: rest => some ([], rest)
  | c :: rest => (cut? rest).map fun (before, after) => (c :: before, after)
  | [] => none

/-- The groups on one side of two colons. There may be none. -/
def side? (s : List Char) : Option Nat :=
  if s.isEmpty then some 0 else groups? (Text.splitOn ':' s)

def isAddress (s : List Char) : Bool :=
  match cut? s with
  | none => groups? (Text.splitOn ':' s) = some 8
  | some (before, after) =>
    if before.contains '.' then false
    else
      match side? before, side? after with
      | some m, some n => m + n < 8
      | _, _ => false

end EightPart

end ComponentMarkdown.Url
