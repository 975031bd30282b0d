import ComponentMarkdown.Surroundings
import ComponentMarkdown.Url.Web

namespace ComponentMarkdown

/-- Glyphs by the names of their shortcodes. -/
def Shortcode.table : List (String × String) :=
  [("+1", "👍"), ("-1", "👎"), ("100", "💯"), ("1st_place_medal", "🥇"), ("bug", "🐛"),
    ("e-mail", "📧"), ("fire", "🔥"), ("heart", "❤\ufe0f"), ("non-potable_water", "🚱"),
    ("rocket", "🚀"), ("smile", "😄"), ("tada", "🎉"), ("thumbsup", "👍"), ("warning", "⚠\ufe0f"),
    ("wave", "👋"), ("white_check_mark", "✅"), ("x", "❌")]

/-- The surroundings in which the program runs. -/
@[reducible]
def Surroundings.platform : Surroundings where
  glyphOf? name := Shortcode.table.lookup name
  isWeb := Url.isWeb

end ComponentMarkdown
