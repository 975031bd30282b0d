import ComponentMarkdown.Text.Lines
import ComponentMarkdown.Url.Address
import ComponentMarkdown.Url.HostChar
import ComponentMarkdown.Url.Punycode

namespace ComponentMarkdown.Url

/-- The byte that two hexadecimal digits write. -/
def escapedByte? (a b : UInt8) : Option UInt8 := do
  let high ← digitValue? 16 (Char.ofNat a.toNat)
  let low ← digitValue? 16 (Char.ofNat b.toNat)
  return UInt8.ofNat (high * 16 + low)

/-- Reads the escapes of a text of bytes. A percent sign without two digits behind it is itself. -/
def unescaped : List UInt8 → List UInt8
  | percent :: a :: b :: rest =>
    match if percent = 37 then escapedByte? a b else none with
    | some byte => byte :: unescaped rest
    | none => percent :: unescaped (a :: b :: rest)
  | bytes => bytes

/-- The text of a host with its escapes read. The bytes have to be a text again. -/
def unescapedText? (host : List Char) : Option (List Char) :=
  if host.contains '%' then
    let bytes := unescaped (String.ofList host).toUTF8.toList
    (String.fromUTF8? ⟨bytes.toArray⟩).map String.toList
  else some host

/-- The characters that a domain name stands for. -/
def domainChars? : List Char → Option (List Char)
  | [] => some []
  | c :: rest => do
    let chars ← hostChar? c
    let tail ← domainChars? rest
    return chars ++ tail

def isAscii (s : List Char) : Bool := s.all (·.toNat < 0x80)

/-- Whether every joiner stands behind a sign that takes the vowel off a letter. -/
def joinersFit (before : Option Char) : List Char → Bool
  | [] => true
  | c :: rest => (!isJoiner c || before.any isVirama) && joinersFit (some c) rest

/-- Whether a label with characters beyond ASCII does not start with a mark and has joiners only where
they fit. -/
def isWideLabel (label : List Char) : Bool :=
  !label.head?.any isMark && joinersFit none label

/-- The label that a label stands for, decoded if it is encoded. An encoded label has to decode to
characters that stand for themselves, not all of them ASCII. -/
def label? (label : List Char) : Option (List Char) :=
  match label with
  | 'x' :: 'n' :: '-' :: '-' :: encoded => do
    let decoded ← Punycode.decode? encoded
    if !isAscii encoded || encoded.getLast? = some '-' || isAscii decoded || !isWideLabel decoded
      || domainChars? decoded ≠ some decoded then none
    else some decoded
  | label => if isAscii label || isWideLabel label then some label else none

/-- The directions of a label without the marks at its end. -/
def directions (label : List Char) : List Direction :=
  (((label.map direction).reverse).dropWhile (· = .mark)).reverse

/-- Whether a label can stand in a name with parts that run from right to left. -/
def isOneWay (label : List Char) : Bool :=
  let all := directions label
  match all.head? with
  | none => true
  | some .rightToLeft =>
    !all.contains .leftToRight && !(all.contains .number && all.contains .arabicNumber)
      && all.getLast?.any (fun d => d = .rightToLeft || d = .number || d = .arabicNumber)
  | some .leftToRight =>
    !all.contains .rightToLeft && !all.contains .arabicNumber
      && all.getLast?.any (fun d => d = .leftToRight || d = .number)
  | some _ => false

def hasRightToLeft (label : List Char) : Bool :=
  label.any fun c => direction c = .rightToLeft || direction c = .arabicNumber

/-- Whether a text is a domain name, or a four-part address. A name that ends in a number has to be one. -/
def isDomain (host : List Char) : Bool :=
  match (unescapedText? host).bind domainChars? with
  | none => false
  | some [] => false
  | some name =>
    match (Text.splitOn '.' name).mapM label? with
    | none => false
    | some labels =>
      (!labels.any hasRightToLeft || labels.all isOneWay)
        && (!FourPart.endsInNumber name || FourPart.isAddress name)

def isHost (host : List Char) : Bool :=
  match host with
  | '[' :: rest => rest.getLast? = some ']' && EightPart.isAddress rest.dropLast
  | host => isDomain host

end ComponentMarkdown.Url
