import ComponentMarkdown.Json.Printer
import ComponentMarkdown.Yaml.Scalar

namespace ComponentMarkdown.Yaml

/-- The styles a string can be written in. -/
inductive Style where
  | plain
  | singleQuoted
  | doubleQuoted
  | literal
deriving DecidableEq, Repr, Inhabited

/-- The line breaks of YAML. -/
def isBreak (c : Char) : Bool :=
  c = '\n' || c = '\r' || c = '\u0085' || c = '\u2028' || c = '\u2029'

/-- A blank, a tab or a line break. -/
def isBlankOrBreak (c : Char) : Bool := c = ' ' || c = '\t' || isBreak c

/-- The characters that may stand in a document unescaped. -/
def isPrintable (c : Char) : Bool :=
  let n := c.toNat
  c = '\n' || (0x20 ≤ n && n ≤ 0x7E) || (0xA0 ≤ n && n ≤ 0xD7FF)
    || (0xE000 ≤ n && n ≤ 0xFFFD && n != 0xFEFF) || 0x10000 ≤ n

/-- Whether a blank, a break or the end of the text follows. -/
def blankFollows : List Char → Bool
  | [] => true
  | c :: _ => isBlankOrBreak c

/-- The characters that start a token wherever they start a scalar. -/
def startIndicators : List Char :=
  ['#', ',', '[', ']', '\x7b', '\x7d', '&', '*', '!', '|', '>', '\x27', '\x22', '%', '@', '\x60']

/-- Whether the first characters of a scalar would be read as a token. -/
def startsToken : List Char → Bool
  | '-' :: '-' :: '-' :: _ => true
  | '.' :: '.' :: '.' :: _ => true
  | c :: rest => c ∈ startIndicators || ((c = '?' || c = ':' || c = '-') && blankFollows rest)
  | [] => false

/-- Whether a colon before a blank, or a number sign after one, stands behind the first character. -/
def hasInnerToken : Char → List Char → Bool
  | _, [] => false
  | before, c :: rest =>
    (c = ':' && blankFollows rest) || (c = '#' && isBlankOrBreak before) || hasInnerToken c rest

/-- Whether two characters of these classes stand side by side. -/
def hasPair (p q : Char → Bool) : List Char → Bool
  | a :: b :: rest => (p a && q b) || hasPair p q (b :: rest)
  | _ => false

def isSpace (c : Char) : Bool := c = ' '

/-- What decides the style of a nonempty string. -/
structure Shape where
  multiline : Bool
  plainAllowed : Bool
  singleQuotedAllowed : Bool
  literalAllowed : Bool

/-- The styles a nonempty string admits. -/
def shapeOf (s : List Char) : Shape :=
  let edge := fun (c : Option Char) => c.any (fun c => isSpace c || isBreak c)
  let hidden := hasPair isSpace isBreak s || s.any (fun c => !isPrintable c)
  let brokenSpace := hasPair isBreak isSpace s
  let multiline := s.any isBreak
  let inner := match s with
    | [] => false
    | c :: rest => hasInnerToken c rest
  { multiline := multiline
    plainAllowed := !(edge s.head? || edge s.getLast? || hidden || brokenSpace || multiline
      || startsToken s || inner)
    singleQuotedAllowed := !(hidden || brokenSpace)
    literalAllowed := !(hidden || s.getLast?.any isSpace) }

/-- The style of a string. A key on one line with its value can be no literal block. Digits behind a
leading zero are quoted, because not every reader of YAML takes them for a string. -/
def styleOf (asKey : Bool) (s : List Char) : Style :=
  if s.isEmpty then .singleQuoted
  else
    let shape := shapeOf s
    let quoted := if shape.singleQuotedAllowed then Style.singleQuoted else .doubleQuoted
    if '\n' ∈ s then
      if shape.literalAllowed ∧ !asKey then .literal else .doubleQuoted
    else if asKey ∧ shape.multiline then .doubleQuoted
    else if resolve s ≠ .string ∨ hasLeadingZero s then quoted
    else if shape.plainAllowed then .plain
    else quoted

def upperHexDigit (n : Nat) : Char :=
  if n < 10 then Char.ofNat (48 + n) else Char.ofNat (55 + n)

/-- A number in hexadecimal with at least `width` digits. -/
def upperHex : Nat → Nat → List Char
  | 0, _ => []
  | width + 1, n => upperHex width (n / 16) ++ [upperHexDigit (n % 16)]

/-- The one-letter escapes of double-quoted strings. -/
def letterEscapes : List (Nat × Char) :=
  [(0x00, '0'), (0x07, 'a'), (0x08, 'b'), (0x09, 't'), (0x0A, 'n'), (0x0B, 'v'), (0x0C, 'f'),
    (0x0D, 'r'), (0x1B, 'e'), (0x22, '\x22'), (0x5C, '\\'), (0x85, 'N'), (0xA0, '_'), (0x2028, 'L'),
    (0x2029, 'P')]

/-- A character inside double quotes. -/
def escape (c : Char) : List Char :=
  if isPrintable c && !isBreak c && c != '\x22' && c != '\\' then [c]
  else
    match letterEscapes.lookup c.toNat with
    | some letter => ['\\', letter]
    | none =>
      if c.toNat ≤ 0xFF then '\\' :: 'x' :: upperHex 2 c.toNat
      else if c.toNat ≤ 0xFFFF then '\\' :: 'u' :: upperHex 4 c.toNat
      else '\\' :: 'U' :: upperHex 8 c.toNat

/-- The characters inside single quotes; a line that follows a break is indented. -/
def singleQuotedBody (indent : Nat) (afterBreak : Bool) : List Char → List Char
  | [] => if afterBreak then List.replicate indent ' ' else []
  | c :: rest =>
    if isBreak c then c :: singleQuotedBody indent true rest
    else
      (if afterBreak then List.replicate indent ' ' else [])
        ++ (if c = '\x27' then ['\x27', '\x27'] else [c])
        ++ singleQuotedBody indent false rest

/-- The header of a literal block: an indentation mark if the text starts with a blank or a break,
and how the breaks at the end count. -/
def literalHeader (s : List Char) : List Char :=
  let hint := if s.head?.any (fun c => isSpace c || isBreak c) then ['2'] else []
  let chomp := match s.reverse with
    | [] => ['-']
    | last :: before =>
      if !isBreak last then ['-']
      else match before with
        | [] => ['+']
        | c :: _ => if isBreak c then ['+'] else []
  '|' :: (hint ++ chomp)

/-- The lines of a literal block; lines that are not empty are indented. -/
def literalBody (indent : Nat) (afterBreak : Bool) : List Char → List Char
  | [] => if afterBreak then [] else ['\n']
  | c :: rest =>
    if isBreak c then c :: literalBody indent true rest
    else (if afterBreak then List.replicate indent ' ' else []) ++ c :: literalBody indent false rest

/-- A string in quotes or plain. -/
def inlineString (indent : Nat) (style : Style) (s : List Char) : List Char :=
  match style with
  | .doubleQuoted => '\x22' :: (s.flatMap escape ++ ['\x22'])
  | .singleQuoted => '\x27' :: (singleQuotedBody indent false s ++ ['\x27'])
  | _ => s

/-- A string with the line feed after it. The content of a literal block is indented by `indent`. -/
def stringLine (indent : Nat) (s : List Char) : List Char :=
  match styleOf false s with
  | .literal => literalHeader s ++ '\n' :: literalBody indent true s
  | style => inlineString indent style s ++ ['\n']

/-- A scalar with the line feed after it; nothing for a collection that is not empty. -/
def scalarLine (indent : Nat) : Value → List Char
  | .null => "null\n".toList
  | .bool true => "true\n".toList
  | .bool false => "false\n".toList
  | .num (.int n) => n.repr.toList ++ ['\n']
  | .num (.float x) => DoubleFormat.yaml.text x ++ ['\n']
  | .str s => stringLine indent s.toList
  | .arr _ => "[]\n".toList
  | .obj _ => "\x7b\x7d\n".toList

/-- Whether a key stands on one line with its value: it is short and has no break. -/
def isSimpleKey (key : String) : Bool :=
  key.utf8ByteSize ≤ 128 && !key.toList.any isBreak

def pad (indent : Nat) : List Char := List.replicate indent ' '

mutual

/-- A value behind a dash or another mark of the same column, whose collections start on that line. -/
def afterMark (indent : Nat) : Value → List Char
  | .arr (item :: items) => ' ' :: sequence (indent + 2) true (item :: items)
  | .obj (field :: fields) => ' ' :: mapping (indent + 2) true (field :: fields)
  | v => ' ' :: scalarLine (indent + 2) v

/-- A value behind a simple key. The items of a sequence stand below the key, the fields of a
mapping are indented. -/
def afterKey (indent : Nat) : Value → List Char
  | .arr (item :: items) => '\n' :: sequence indent false (item :: items)
  | .obj (field :: fields) => '\n' :: mapping (indent + 2) false (field :: fields)
  | v => ' ' :: scalarLine (indent + 2) v

/-- The items of a sequence. The first may already stand at its column. -/
def sequence (indent : Nat) (placed : Bool) : List Value → List Char
  | [] => []
  | v :: rest =>
    (if placed then [] else pad indent) ++ '-' :: afterMark indent v ++ sequence indent false rest

/-- The fields of a mapping. A key that is not simple gets a mark of its own. -/
def mapping (indent : Nat) (placed : Bool) : List (String × Value) → List Char
  | [] => []
  | (key, v) :: rest =>
    (if placed then [] else pad indent)
      ++ (if isSimpleKey key then
            inlineString (indent + 2) (styleOf true key.toList) key.toList ++ ':' :: afterKey indent v
          else
            '?' :: ' ' :: stringLine (indent + 2) key.toList ++ pad indent ++ ':' :: afterMark indent v)
      ++ mapping indent false rest

end

/-- The YAML text of a value. -/
def render : Value → List Char
  | .arr (item :: items) => sequence 0 false (item :: items)
  | .obj (field :: fields) => mapping 0 false (field :: fields)
  | v => scalarLine 2 v

end ComponentMarkdown.Yaml
