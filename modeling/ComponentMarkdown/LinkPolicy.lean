import ComponentMarkdown.Attrs
import ComponentMarkdown.Surroundings

namespace ComponentMarkdown.LinkPolicy

def defaultTarget : String := "_blank"

def defaultRel : String := "noopener noreferrer nofollow"

variable [Surroundings]

/-- Whether the attributes of a link lead to another site. -/
def isExternal (attrs : Attrs) : Bool := (attrs.getString? "href").any Surroundings.isWeb

/-- The attributes of a link in the editor: one to another site without a `rel` of its own opens in a new tab and
names no referrer. -/
def editorAttrs (attrs : Attrs) : Attrs :=
  if isExternal attrs && !attrs.contains "rel" then
    (attrs.insert "target" (.str defaultTarget)).insert "rel" (.str defaultRel)
  else attrs

/-- The attributes of a link without those that are the editor's. -/
def withoutDefaults (attrs : Attrs) : Attrs :=
  if isExternal attrs then
    let attrs := attrs.erase "target"
    if attrs.getString? "rel" = some defaultRel then attrs.erase "rel" else attrs
  else attrs

/-- The attributes of a link in markup. -/
def markupAttrs (attrs : Attrs) : Attrs :=
  (withoutDefaults attrs).filter fun entry => !entry.2.isNull

end ComponentMarkdown.LinkPolicy
