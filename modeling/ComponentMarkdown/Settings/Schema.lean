import ComponentMarkdown.Settings

namespace ComponentMarkdown.Settings

/-- A setting's schema: what it does, and its type, besides which it may be null. -/
def settingSchema (description kind : String) (more : Attrs) : Value :=
  .obj ([("description", .str description), ("type", .arr [.str kind, .str "null"])] ++ more)

/-- A section's schema: what it is about, and its settings. -/
def sectionSchema (description : String) (settings : Attrs) : Value :=
  .obj [("description", .str description), ("type", .str "object"), ("properties", .obj settings)]

/-- The place of a section in the file: what it is about, and the name of its schema. -/
def sectionReference (description definition : String) : Value :=
  .obj [("description", .str description), ("$ref", .str ("#/$defs/" ++ definition))]

/-- The schemas of the sections by name. -/
def sectionSchemas : Attrs :=
  [("HighlightConfig", sectionSchema "Highlighting configuration"
      [("enabled", settingSchema "Decorate code blocks when saving (default: false)" "boolean" []),
        ("theme", settingSchema "Default theme name (default: \"InspiredGitHub\")" "string" []),
        ("variants", settingSchema
          "Extra themes exposed as CSS variables, keyed by variant name (e.g. dark)" "object"
          [("additionalProperties", .obj [("type", .str "string")])])]),
    ("EditorConfig", sectionSchema "Editor document configuration"
      [("emoji", settingSchema "Turn `:shortcode:` text into emoji nodes (default: true)" "boolean"
        [])]),
    ("OutputConfig", sectionSchema "Output configuration"
      [("pretty", settingSchema "Pretty-print JSON output (default: true)" "boolean" [])]),
    ("DiffConfig", sectionSchema "Word diff configuration"
      [("max_tokens", settingSchema
        "Largest token count per side before the diff is skipped (default: 2000)" "integer"
        [("format", .str "uint"), ("minimum", .num (.int 0))])])]

/-- The schema of a settings file. -/
def schema : Value :=
  .obj [("$schema", .str "https://json-schema.org/draft/2020-12/schema"), ("title", .str "Config"),
    ("description", .str "Root configuration structure"), ("type", .str "object"),
    ("properties", .obj
      [("highlight", sectionReference "Code block highlighting on save" "HighlightConfig"),
        ("editor", sectionReference "Editor document options" "EditorConfig"),
        ("output", sectionReference "Output formatting" "OutputConfig"),
        ("diff", sectionReference "Word diff options" "DiffConfig")]),
    ("$defs", .obj sectionSchemas)]

end ComponentMarkdown.Settings
