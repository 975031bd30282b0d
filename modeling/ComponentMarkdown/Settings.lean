import ComponentMarkdown.Attrs
import ComponentMarkdown.Highlight.Theme
import ComponentMarkdown.Json.Printer
import ComponentMarkdown.Toml.Printer
import ComponentMarkdown.WordDiff

namespace ComponentMarkdown

/-- The settings of a file: how code is decorated, whether shortcodes become emoji, whether JSON is indented, and
up to how many words texts are compared. What is not set has a default. -/
structure Settings where
  highlightEnabled : Option Bool
  theme : Option String
  variants : Option (List (String × String))
  emojiSet : Option Bool
  prettySet : Option Bool
  maxTokens : Option Nat
deriving DecidableEq, Repr, Inhabited

namespace Settings

def empty : Settings := ⟨none, none, none, none, none, none⟩

/-- The name of the file. -/
def fileName : String := "_mdc-studio.toml"

def schemaAddress : String :=
  "https://raw.githubusercontent.com/mdc-studio/mdc-studio/main/crates/mdc-studio/schema/"
    ++ "mdc-studio.schema.json"

/-- The settings that a new file starts with. -/
def sample : Settings where
  highlightEnabled := some false
  theme := some Highlight.ThemeChoice.defaultName
  variants := some [("dark", "base16-ocean.dark")]
  emojiSet := some true
  prettySet := some true
  maxTokens := some WordDiff.defaultLimit

/-- Whether code is decorated. -/
def highlights (settings : Settings) : Bool := settings.highlightEnabled.getD false

/-- The themes that code is decorated with. -/
def themeChoice (settings : Settings) : Highlight.ThemeChoice :=
  .ofVariants (settings.theme.getD Highlight.ThemeChoice.defaultName) (settings.variants.getD [])

/-- Whether shortcodes become emoji. -/
def emoji (settings : Settings) : Bool := settings.emojiSet.getD true

/-- Whether JSON is indented. -/
def pretty (settings : Settings) : Bool := settings.prettySet.getD true

/-- The number of words up to which texts are compared. -/
def tokenLimit (settings : Settings) : Nat := settings.maxTokens.getD WordDiff.defaultLimit

/-- The fields of a section, by name: those of a table, or an array of their values in order. -/
def sectionFields? (names : List String) : Option Toml.Item → Option (List (String × Toml.Item))
  | none => some []
  | some (.table _ fields) => some fields
  | some (.array items) => some (names.zip items)
  | some _ => none

/-- A setting that may be left out but has to have its type. -/
def setting? {α : Type} (read : Toml.Item → Option α) (fields : List (String × Toml.Item))
    (name : String) : Option (Option α) :=
  match fields.lookup name with
  | none => some none
  | some item => (read item).map some

def bool? : Toml.Item → Option Bool
  | .bool value => some value
  | _ => none

def string? : Toml.Item → Option String
  | .str value => some value
  | _ => none

/-- A count, within the unsigned range of sixty-four bits. -/
def count? : Toml.Item → Option Nat
  | .int value => if 0 ≤ value ∧ value < 0x10000000000000000 then some value.toNat else none
  | _ => none

/-- A table of strings, in the order of their names. -/
def strings? : Toml.Item → Option (List (String × String))
  | .table _ fields => do
    let entries ← fields.mapM fun (name, item) => (string? item).map fun text => (name, text)
    return entries.foldl (fun sorted entry => Highlight.insertVariant entry.1 entry.2 sorted) []
  | _ => none

/-- The settings of a root table. Other keys are not looked at. -/
def ofTable? (table : Toml.Table) : Option Settings := do
  let highlight ← sectionFields? ["enabled", "theme", "variants"] (table.get? "highlight")
  let enabled ← setting? bool? highlight "enabled"
  let theme ← setting? string? highlight "theme"
  let variants ← setting? strings? highlight "variants"
  let editor ← sectionFields? ["emoji"] (table.get? "editor")
  let emoji ← setting? bool? editor "emoji"
  let output ← sectionFields? ["pretty"] (table.get? "output")
  let pretty ← setting? bool? output "pretty"
  let diff ← sectionFields? ["max_tokens"] (table.get? "diff")
  let maxTokens ← setting? count? diff "max_tokens"
  return ⟨enabled, theme, variants, emoji, pretty, maxTokens⟩

/-- The settings of a file. -/
def ofToml? (text : String) : Option Settings := (Toml.document? text).bind ofTable?

/-- The fields that are set, with their values as JSON, by section. -/
def sections (settings : Settings) : List (String × Attrs) :=
  let field := fun {α : Type} (name : String) (write : α → Value) (value : Option α) =>
    (value.map fun v => (name, write v)).toList
  [("highlight",
      field "enabled" .bool settings.highlightEnabled ++ field "theme" .str settings.theme
        ++ field "variants" (fun entries => .obj (entries.map fun (name, theme) => (name, .str theme)))
          settings.variants),
    ("editor", field "emoji" .bool settings.emojiSet),
    ("output", field "pretty" .bool settings.prettySet),
    ("diff", field "max_tokens" (fun n => .num (.int n)) settings.maxTokens)]

/-- The settings as an object of the sections that have any. -/
def toValue (settings : Settings) : Value :=
  .obj ((settings.sections.filter (!·.2.isEmpty)).map fun (name, fields) => (name, .obj fields))

/-- The lines of a section, one for every setting that is no table. -/
def lines (fields : Attrs) : List (List Char) :=
  fields.flatMap fun
    | (name, .bool value) => [Toml.assignment name.toList (Json.compact (.bool value))]
    | (name, .num number) => [Toml.assignment name.toList (Json.numberText number)]
    | (name, .str value) => [Toml.assignment name.toList (Toml.stringText value.toList)]
    | _ => []

/-- The text of a section: its lines under its header, and its tables under headers of their own. -/
def sectionTexts (name : String) (fields : Attrs) : List (List Char) :=
  let own := lines fields
  let tables := fields.flatMap fun
    | (key, .obj entries) => [Toml.section_ (name ++ "." ++ key) (lines entries)]
    | _ => []
  (if own.isEmpty then [] else [Toml.section_ name own]) ++ tables

/-- The text of a settings file, with the address of its schema in the first line. -/
def toToml (settings : Settings) : String :=
  let sections := settings.sections.flatMap fun (name, fields) => sectionTexts name fields
  "#:schema " ++ schemaAddress ++ "\n\n" ++ String.ofList (Text.join ['\n'] sections)

end Settings

end ComponentMarkdown
