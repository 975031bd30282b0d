namespace ComponentMarkdown.Highlight

/-- A theme: its name, and the colour of text that it says nothing else about. -/
structure Theme where
  name : String
  foreground : String
deriving DecidableEq, Repr, Inhabited

/-- The themes there are, by name. -/
def themes : List Theme :=
  [⟨"InspiredGitHub", "#323232"⟩, ⟨"Solarized (dark)", "#839496"⟩,
    ⟨"Solarized (light)", "#657b83"⟩, ⟨"base16-eighties.dark", "#d3d0c8"⟩,
    ⟨"base16-mocha.dark", "#d0c8c6"⟩, ⟨"base16-ocean.dark", "#c0c5ce"⟩,
    ⟨"base16-ocean.light", "#4f5b66"⟩]

/-- The theme of a name. -/
def theme? (name : String) : Option Theme := themes.find? (·.name = name)

/-- Sets a variant. Variants are kept in the order of their names. -/
def insertVariant (name theme : String) : List (String × String) → List (String × String)
  | [] => [(name, theme)]
  | (other, value) :: rest =>
    if name = other then (name, theme) :: rest
    else if name < other then (name, theme) :: (other, value) :: rest
    else (other, value) :: insertVariant name theme rest

/-- The names of the themes to use: one for every token, and the variants that a page can switch to. -/
structure ThemeChoice where
  default : String
  variants : List (String × String)
deriving DecidableEq, Repr, Inhabited

namespace ThemeChoice

def defaultName : String := "InspiredGitHub"

/-- The choice of a default theme and variants in any order. -/
def ofVariants (default : String) (variants : List (String × String)) : ThemeChoice :=
  ⟨default, variants.foldl (fun sorted entry => insertVariant entry.1 entry.2 sorted) []⟩

end ThemeChoice

/-- The themes of a choice whose names are all known. -/
structure Palette where
  default : Theme
  variants : List (String × Theme)
deriving DecidableEq, Repr, Inhabited

/-- The themes of a choice. -/
def ThemeChoice.palette? (choice : ThemeChoice) : Option Palette := do
  let default ← theme? choice.default
  let variants ← choice.variants.mapM fun (name, theme) => (theme? theme).map fun found => (name, found)
  return ⟨default, variants⟩

end ComponentMarkdown.Highlight
