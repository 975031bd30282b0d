import ComponentMarkdown.Doc.OfMarkup
import ComponentMarkdown.Doc.ToMarkup
import ComponentMarkdown.Markup.Component
import ComponentMarkdown.Markup.Writer
import ComponentMarkdown.Settings
import ComponentMarkdown.Text.Escaped

namespace ComponentMarkdown

/-- Why a page does not survive. -/
inductive RoundTripError where
  | unparsable (error : ParseError)
  | differs (added : List (List Char))
deriving Repr

namespace RoundTripError

/-- An error with its cause, or the words that the detour brought in. -/
def message : RoundTripError → String
  | unparsable error => match error.cause? with
    | none => error.message
    | some cause => error.message ++ ": " ++ cause.message
  | differs added =>
    "round trip differs (added: [" ++ String.ofList (Text.join [',', ' '] (added.map Text.shown))
      ++ "])"

end RoundTripError

/-- The tree after the detour through the editor. -/
def Tree.throughEditor [Surroundings] (tree : Tree) (emoji : Bool) : Tree := (Doc.ofTree tree emoji).toTree

/-- The texts of the spans that are new. -/
def WordDiff.added (spans : List WordDiff.Span) : List (List Char) :=
  (spans.filter (·.kind = .added)).map (·.text)

/-- Says why a page does not survive the editor, if it does not: it is parsed, turned into a document and back,
and what is written then is compared with what is written without the detour. -/
def roundTripError? [Surroundings] (settings : Settings) (source : String) : Option RoundTripError :=
  match Tree.parse source with
  | .error error => some (.unparsable error)
  | .ok tree =>
    let expected := tree.toMarkdown false
    let found := (tree.throughEditor settings.emoji).toMarkdown false
    if found = expected then none
    else some (.differs (WordDiff.added (wordDiff settings.tokenLimit expected found)))

end ComponentMarkdown
