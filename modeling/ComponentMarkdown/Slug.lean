import ComponentMarkdown.Text.Blank
import ComponentMarkdown.Text.Grapheme
import ComponentMarkdown.Text.Lines

namespace ComponentMarkdown

namespace Slug

/-- A character in lower case, as far as ASCII characters come of it: the letters, the Kelvin sign,
and the capital I with a dot, which becomes a letter with a mark on it. -/
def lowered (c : Char) : List Char :=
  if c = '\u212a' then ['k']
  else if c = '\u0130' then ['i', '\u0307']
  else [c.toLower]

/-- The characters that separate the groups of a slug. -/
def isSeparator (c : Char) : Bool := Text.isBlank c || c = '_' || c = '-'

/-- The characters that stand alone even behind a character that joins what follows it. -/
def isLineControl (c : Char) : Bool :=
  c.toNat < 0x20 || c = '\u0085' || c = '\u2028' || c = '\u2029'

/-- Reads the clusters of a text: a separator counts as a hyphen, a letter or digit that is a whole
cluster as itself, and anything else not at all. `joined` tells whether the character in front joins
the next one to its own cluster. -/
def reduced (joined : Bool) : List Char → List Char
  | [] => []
  | c :: rest =>
    let tail := reduced (Text.isPrepended c) rest
    if joined && !isLineControl c then tail
    else if isSeparator c then '-' :: tail
    else if c.isAlphanum && !rest.head?.any Text.isExtending then c :: tail
    else tail

/-- The groups of letters and digits. -/
def groups (s : List Char) : List (List Char) :=
  (Text.splitOn '-' (reduced false (s.flatMap lowered))).filter (fun group => !group.isEmpty)

/-- Puts an underscore in front of a digit. -/
def guardDigit : List Char → List Char
  | c :: rest => if c.isDigit then '_' :: c :: rest else c :: rest
  | [] => []

end Slug

/-- The anchor of a text: groups of ASCII letters and digits in lower case with single hyphens between them. It is
empty if the text has no letter or digit. -/
def slugify (s : String) : String :=
  String.ofList (Slug.guardDigit (Text.join ['-'] (Slug.groups s.toList)))

/-- The slugs that were issued, each with the last number that was tried behind it. An entry hides
those behind it with the same slug. -/
structure SlugRegistry where
  entries : List (String × Nat)
deriving DecidableEq, Repr, Inhabited

namespace SlugRegistry

def empty : SlugRegistry := ⟨[]⟩

/-- Whether a slug was issued. -/
def contains (registry : SlugRegistry) (slug : String) : Bool :=
  (registry.entries.lookup slug).isSome

/-- A slug with a number behind it. -/
def numbered (base : String) (n : Nat) : String := base ++ "-" ++ toString n

/-- The first number from `n` on for which the numbered slug is free, among the next `fuel` ones. -/
def firstFree (registry : SlugRegistry) (base : String) : Nat → Nat → Nat
  | 0, n => n
  | fuel + 1, n =>
    if registry.contains (numbered base n) then registry.firstFree base fuel (n + 1) else n

/-- The slug of a text that says nothing is `heading`. -/
def baseOf (text : String) : String :=
  let slug := slugify text
  if slug = "" then "heading" else slug

/-- Issues a slug for a text. One number more than there are entries has to be tried at most. -/
def issue (registry : SlugRegistry) (text : String) : String × SlugRegistry :=
  let base := baseOf text
  match registry.entries.lookup base with
  | none => (base, ⟨(base, 0) :: registry.entries⟩)
  | some last =>
    let n := registry.firstFree base registry.entries.length (last + 1)
    let slug := numbered base n
    (slug, ⟨(slug, 0) :: (base, n) :: registry.entries⟩)

/-- The slugs of a list of texts, issued one after the other. -/
def issueAll (registry : SlugRegistry) : List String → List String
  | [] => []
  | text :: rest =>
    let (slug, registry) := registry.issue text
    slug :: issueAll registry rest

end SlugRegistry

end ComponentMarkdown
