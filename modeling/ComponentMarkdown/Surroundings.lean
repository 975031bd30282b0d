namespace ComponentMarkdown

/-- What the editor asks of the world outside of a page: the glyph that a shortcode stands for, if it stands
for one, and whether an address is one of another site. Nothing is assumed about the answers. -/
class Surroundings where
  glyphOf? (name : String) : Option String
  isWeb (address : String) : Bool

end ComponentMarkdown
