import ComponentMarkdown.Value
import ComponentMarkdown.Decimal.Reader
import ComponentMarkdown.Text.Lines

namespace ComponentMarkdown.Yaml

/-- What an unquoted scalar stands for, which its spelling says. Digits behind a leading zero are a string. -/
inductive Resolved where
  | null
  | bool (value : Bool)
  | int (value : Int)
  | float (value : Double)
  | string
deriving DecidableEq, Repr, Inhabited

/-- The value of a digit in a base up to sixteen. -/
def digit? (base : Nat) (c : Char) : Option Nat :=
  let value :=
    if '0' ≤ c ∧ c ≤ '9' then c.toNat - 48
    else if 'a' ≤ c ∧ c ≤ 'f' then c.toNat - 87
    else if 'A' ≤ c ∧ c ≤ 'F' then c.toNat - 55
    else 16
  if value < base then some value else none

/-- The number of a nonempty digit list in a base. -/
def natural? (base : Nat) (s : List Char) : Option Nat :=
  if s.isEmpty then none
  else s.foldlM (fun n c => (digit? base c).map (n * base + ·)) 0

/-- An optional sign in front of a text. -/
def sign : List Char → Option Char × List Char
  | '+' :: s => (some '+', s)
  | '-' :: s => (some '-', s)
  | s => (none, s)

/-- Whether a text is a zero followed by more digits, with an optional sign. -/
def hasLeadingZero (s : List Char) : Bool :=
  match (sign s).2 with
  | '0' :: c :: rest => (c :: rest).all Char.isDigit
  | _ => false

/-- The magnitude of an integer: hexadecimal, octal, binary or decimal. -/
def magnitude? (s : List Char) : Option Nat :=
  match s with
  | '0' :: 'x' :: digits => natural? 16 digits
  | '0' :: 'o' :: digits => natural? 8 digits
  | '0' :: 'b' :: digits => natural? 2 digits
  | digits => natural? 10 digits

/-- An integer with an optional sign, of at most 128 bits. -/
def integer? (s : List Char) : Option Int :=
  if hasLeadingZero s then none
  else
    match sign s with
    | (some '-', digits) =>
      (magnitude? digits).bind (fun n => if n ≤ 0x80000000000000000000000000000000 then some (-(n : Int)) else none)
    | (_, digits) =>
      (magnitude? digits).bind (fun n => if n < 0x100000000000000000000000000000000 then some (n : Int) else none)

/-- A double: decimal text, or one of the names of the infinities and of no number. -/
def float? (s : List Char) : Option Double :=
  let unsigned := if s.head? = some '+' then s.tail else s
  if unsigned ∈ [".inf".toList, ".Inf".toList, ".INF".toList] then
    some (Double.ofFloat (1.0 / 0.0))
  else if s ∈ ["-.inf".toList, "-.Inf".toList, "-.INF".toList] then
    some (Double.ofFloat (-1.0 / 0.0))
  else if s ∈ [".nan".toList, ".NaN".toList, ".NAN".toList] then
    some (Double.ofFloat (0.0 / 0.0))
  else if unsigned ≠ s ∧ (sign unsigned).1.isSome then none
  else (Double.parse? unsigned).bind (fun x => if x.isFinite then some x else none)

/-- What an unquoted scalar stands for. -/
def resolve (s : List Char) : Resolved :=
  if s ∈ [[], ['~'], "null".toList, "Null".toList, "NULL".toList] then .null
  else if s ∈ ["true".toList, "True".toList, "TRUE".toList] then .bool true
  else if s ∈ ["false".toList, "False".toList, "FALSE".toList] then .bool false
  else
    match integer? s with
    | some n => .int n
    | none =>
      match if hasLeadingZero s then none else float? s with
      | some x => .float x
      | none => .string

end ComponentMarkdown.Yaml
