import ComponentMarkdown.CommonMark.EntityTable
import ComponentMarkdown.Text.CharRanges
import ComponentMarkdown.Text.Lines
import ComponentMarkdown.Text.Punctuation

namespace ComponentMarkdown.CommonMark.Entity

/-- The number of hexadecimal digits. -/
def hexNat (s : List Char) : Nat :=
  s.foldl (fun n c => n * 16 + Text.CharRanges.hexValue c.toLower) 0

/-- The entry of a name in the table: the name, an equality sign, and the code points. -/
def parseEntry (entry : List Char) : List Char × List Char :=
  let name := entry.takeWhile (· ≠ '=')
  let points := Text.splitOn ',' (entry.drop (name.length + 1))
  (name, points.map (fun point => Char.ofNat (hexNat point)))

/-- The names and what they stand for. -/
def table : List (List Char × List Char) :=
  EntityTable.lines.flatMap fun line => (Text.splitOn ' ' line.toList).map parseEntry

def isHexDigit (c : Char) : Bool :=
  c.isDigit || ('a' ≤ c && c ≤ 'f') || ('A' ≤ c && c ≤ 'F')

/-- The character of a code point. Zero, a surrogate and a number beyond the range stand for the
replacement character. -/
def ofCodePoint (n : Nat) : Char :=
  if 0 < n ∧ (n < 0xD800 ∨ (0xDFFF < n ∧ n ≤ 0x10FFFF)) then Char.ofNat n else '\ufffd'

/-- A numeric reference from its digits on, of at most `width` digits. -/
def numeric? (isDigit : Char → Bool) (value : List Char → Nat) (width : Nat) (s : List Char) :
    Option (List Char × List Char) :=
  let digits := (s.take width).takeWhile isDigit
  match s.drop digits.length with
  | ';' :: rest =>
    if digits.isEmpty then none
    else some ([ofCodePoint (value digits)], rest)
  | _ => none

def decimalNat (s : List Char) : Nat := s.foldl (fun n c => n * 10 + (c.toNat - 48)) 0

/-- What the reference at the start of a text stands for, and the text behind it. -/
def read? (s : List Char) : Option (List Char × List Char) :=
  match s with
  | '&' :: '#' :: c :: rest =>
    if c = 'x' ∨ c = 'X' then numeric? isHexDigit hexNat 6 rest
    else numeric? Char.isDigit decimalNat 7 (c :: rest)
  | '&' :: rest =>
    let name := rest.takeWhile Char.isAlphanum
    match rest.drop name.length with
    | ';' :: after => (table.lookup name).map fun text => (text, after)
    | _ => none
  | _ => none

/-- Replaces references and escapes by what they stand for, and drops carriage returns. -/
def unescapeWith : Nat → List Char → List Char
  | 0, s => s
  | _ + 1, [] => []
  | fuel + 1, '\\' :: c :: rest =>
    if Text.isAsciiPunctuation c then c :: unescapeWith fuel rest
    else '\\' :: unescapeWith fuel (c :: rest)
  | fuel + 1, '\r' :: rest => unescapeWith fuel rest
  | fuel + 1, c :: rest =>
    match read? (c :: rest) with
    | some (text, after) => text ++ unescapeWith fuel after
    | none => c :: unescapeWith fuel rest

/-- Replaces references and escapes by what they stand for, and drops carriage returns. -/
def unescape (s : List Char) : List Char := unescapeWith (s.length + 1) s

end ComponentMarkdown.CommonMark.Entity
