import ComponentMarkdown.Surroundings
import ComponentMarkdown.Text.Lines

namespace ComponentMarkdown.Shortcode

/-- A piece of a text: plain, or the glyph of a shortcode, which is a name between colons. -/
inductive Piece where
  | plain (text : List Char)
  | emoji (name glyph : String)
deriving DecidableEq, Repr, Inhabited

/-- The text that a piece was read from. -/
def Piece.source : Piece → List Char
  | plain text => text
  | emoji name _ => ':' :: (name.toList ++ [':'])

def isNameChar (c : Char) : Bool :=
  c.isLower || c.isDigit || c = '_' || c = '+' || c = '-'

section Reading

variable (glyphOf? : String → Option String)

/-- The shortcode at the start of a text, its name, its glyph and what follows it. A name has at least one
character. -/
def known? : List Char → Option (String × String × List Char)
  | ':' :: rest =>
    match rest.takeWhile isNameChar, rest.dropWhile isNameChar with
    | c :: more, ':' :: tail =>
      let name := String.ofList (c :: more)
      (glyphOf? name).map fun glyph => (name, glyph, tail)
    | _, _ => none
  | _ => none

theorem known?_length {s tail : List Char} {name glyph : String}
    (h : known? glyphOf? s = some (name, glyph, tail)) : tail.length < s.length := by
  unfold known? at h
  split at h
  · rename_i rest
    split at h
    · rename_i c more left _ drop
      obtain ⟨g, -, eq⟩ := Option.map_eq_some_iff.1 h
      have le : (rest.dropWhile isNameChar).length ≤ rest.length :=
        (List.dropWhile_sublist _).length_le
      simp only [Prod.mk.injEq] at eq
      rw [drop, List.length_cons] at le
      rw [← eq.2.2, List.length_cons]
      omega
    · cases h
  · cases h

/-- Puts a character of plain text in front of pieces. -/
def consPlain (c : Char) : List Piece → List Piece
  | .plain text :: rest => .plain (c :: text) :: rest
  | pieces => .plain [c] :: pieces

/-- The pieces of a text, with the glyphs of the names that are known. A name that is not known is plain
text, and its closing colon may open the next shortcode. -/
def splitWith (s : List Char) : List Piece :=
  match s with
  | [] => []
  | c :: rest =>
    match _h : known? glyphOf? (c :: rest) with
    | some (name, glyph, tail) => .emoji name glyph :: splitWith tail
    | none => consPlain c (splitWith rest)
termination_by s.length
decreasing_by
  · exact known?_length glyphOf? _h
  · simp

end Reading

/-- The pieces of a text. -/
def split [Surroundings] (s : List Char) : List Piece := splitWith Surroundings.glyphOf? s

end ComponentMarkdown.Shortcode
