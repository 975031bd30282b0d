import ComponentMarkdown.CommandLine.FileAccess
import ComponentMarkdown.CommandLine.Path

namespace ComponentMarkdown.CommandLine

/-- A place: so many folders up from the working folder, then down by names. -/
structure Place where
  climbs : Nat
  names : List (List Char)
deriving DecidableEq, Repr, Inhabited

namespace Place

/-- The working folder. -/
def here : Place := ⟨0, []⟩

def up (place : Place) : Place :=
  if place.names.isEmpty then { place with climbs := place.climbs + 1 }
  else { place with names := place.names.dropLast }

def down (place : Place) (name : List Char) : Place := { place with names := place.names ++ [name] }

/-- The names that lead from a place to one below it. -/
def below? (place deeper : Place) : Option (List (List Char)) :=
  if place.climbs = deeper.climbs ∧ place.names.isPrefixOf deeper.names then
    some (deeper.names.drop place.names.length)
  else none

end Place

/-- Texts by place, and the folders that were made. Runs of the program over it can be computed and reasoned
about. -/
structure FileTree where
  files : List (Place × String)
  folders : List Place
deriving Repr, Inhabited

namespace FileTree

/-- The text at a place. -/
def text? (tree : FileTree) (place : Place) : Option String := tree.files.lookup place

/-- Whether a place is a folder: it was made, something lies below it, or it is the working folder or
one above. -/
def isFolder (tree : FileTree) (place : Place) : Bool :=
  place.names.isEmpty
    || tree.folders.any (fun folder => (place.below? folder).isSome)
    || tree.files.any (fun (file, _) => file ≠ place && (place.below? file).isSome)

/-- Puts a text at a place, over the text that was there. -/
def insert (tree : FileTree) (place : Place) (text : String) : FileTree :=
  { tree with files := (place, text) :: tree.files.filter (·.1 ≠ place) }

/-- What is read is what was written last. -/
theorem text?_insert (tree : FileTree) (place other : Place) (text : String) :
    (tree.insert place text).text? other = if other = place then some text else tree.text? other := by
  by_cases h : other = place
  · simp [insert, text?, h]
  · have kept (files : List (Place × String)) :
        (files.filter (·.1 ≠ place)).lookup other = files.lookup other := by
      induction files with
      | nil => rfl
      | cons file rest ih =>
        obtain ⟨found, held⟩ := file
        by_cases same : found = place
        · have : (other == found) = false := by simpa [same] using h
          rw [List.lookup_cons, this, ← ih, List.filter_cons_of_neg (by simp [same])]
        · rw [List.filter_cons_of_pos (by simp [same]), List.lookup_cons, List.lookup_cons, ih]
    have : (other == place) = false := by simpa using h
    simp only [text?, insert, List.lookup_cons, this, h, ↓reduceIte]
    exact kept tree.files

/-- Goes on from a place by the parts of a path. Every place but the last has to be a folder. -/
def walk (tree : FileTree) (place : Place) : List (List Char) → Option Place
  | [] => some place
  | part :: rest =>
    if tree.isFolder place then
      walk tree (if part = ['.', '.'] then place.up
        else if Path.isName part then place.down part else place) rest
    else none

/-- The place that a path leads to from the working folder. -/
def place? (tree : FileTree) (path : String) : Option Place :=
  match Path.allParts path with
  | [] :: _ => none
  | parts => tree.walk .here parts

/-- Makes the folders that the parts of a path name. -/
def makeFolders (tree : FileTree) (place : Place) : List (List Char) → Option FileTree
  | [] => some tree
  | part :: rest =>
    let place := if part = ['.', '.'] then place.up
      else if Path.isName part then place.down part else place
    if tree.isFolder place then makeFolders tree place rest
    else if (tree.text? place).isSome then none
    else makeFolders { tree with folders := place :: tree.folders } place rest

/-- The tree that holds texts by their paths. -/
def ofTexts (texts : List (String × String)) : FileTree :=
  texts.foldl (fun tree (path, text) => tree.insert ⟨0, Path.parts path⟩ text) ⟨[], []⟩

/-- The texts below the working folder by their paths. -/
def texts (tree : FileTree) : List (String × String) :=
  (tree.files.filter (·.1.climbs = 0)).map fun (place, text) =>
    (String.ofList (Text.join ['/'] place.names), text)

/-- The texts that are not in an earlier tree. -/
def textsSince (tree earlier : FileTree) : List (String × String) :=
  texts { tree with files := tree.files.filter fun (place, text) => earlier.text? place ≠ some text }

/-- The operations on files, over a tree. -/
def access : FileAccess (StateM FileTree) where
  read path := do
    let tree ← get
    return (tree.place? path).bind tree.text?
  isFile path := do
    let tree ← get
    return ((tree.place? path).bind tree.text?).isSome
  isFolder path := do
    let tree ← get
    return ((tree.place? path).map tree.isFolder).getD false
  makeFolder path := do
    let tree ← get
    match Path.allParts path with
    | [] :: _ => return false
    | parts => match tree.makeFolders .here parts with
      | none => return false
      | some made => set made; return true
  write path text := do
    let tree ← get
    match tree.place? path with
    | none => return false
    | some place =>
      if tree.isFolder place then return false
      set (tree.insert place text)
      return true
  filesIn path deep := do
    let tree ← get
    match tree.place? path with
    | none => return .error path
    | some folder =>
      return .ok (tree.files.filterMap fun (place, _) => match folder.below? place with
        | some (name :: rest) =>
          if deep || rest.isEmpty then
            some (Path.join path (String.ofList (Text.join ['/'] (name :: rest))))
          else none
        | _ => none)

end FileTree

end ComponentMarkdown.CommandLine
