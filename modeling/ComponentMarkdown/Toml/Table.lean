namespace ComponentMarkdown.Toml

/-- How a table came to be, which decides what may still be added to it. -/
inductive TableKind where
  | header
  | implied
  | dotted
  | inline
deriving DecidableEq, Repr, Inhabited

/-- A value of a TOML document. Floating point numbers and times are not told apart. -/
inductive Item where
  | str (value : String)
  | int (value : Int)
  | bool (value : Bool)
  | other
  | array (items : List Item)
  | table (kind : TableKind) (fields : List (String × Item))
  | tables (elements : List (List (String × Item)))
deriving Repr, Inhabited

/-- A table: how it came to be, and its fields in order. -/
structure Table where
  kind : TableKind
  fields : List (String × Item)
deriving Repr, Inhabited

namespace Table

def empty (kind : TableKind) : Table := ⟨kind, []⟩

def get? (table : Table) (key : String) : Option Item := table.fields.lookup key

/-- Replaces the value of a key, or puts one at the end. -/
def changeFields (change : Option Item → Option Item) (key : String) :
    List (String × Item) → Option (List (String × Item))
  | [] => (change none).map fun item => [(key, item)]
  | (k, item) :: rest =>
    if k = key then (change (some item)).map fun item => (k, item) :: rest
    else (changeFields change key rest).map ((k, item) :: ·)

/-- Changes the value of a key, unless the change is refused. -/
def change (table : Table) (key : String) (f : Option Item → Option Item) : Option Table :=
  (changeFields f key table.fields).map fun fields => { table with fields }

def toItem (table : Table) : Item := .table table.kind table.fields

/-- Changes the last of the tables under a header. -/
def changeLast (f : Table → Option Table) :
    List (List (String × Item)) → Option (List (List (String × Item)))
  | [] => none
  | [last] => (f ⟨.header, last⟩).map fun table => [table.fields]
  | first :: rest => (changeLast f rest).map (first :: ·)

/-- Changes the table at the end of a path. Tables on the way that are not there yet come to be. A
dotted key does not reach into a table that has a header, and nothing reaches into an inline one. -/
def changeAt (dotted : Bool) (f : Table → Option Table) : List String → Table → Option Table
  | [], table => f table
  | key :: path, table =>
    table.change key fun
      | none => (changeAt dotted f path (empty (if dotted then .dotted else .implied))).map toItem
      | some (.tables elements) => (changeLast (changeAt dotted f path) elements).map .tables
      | some (.table kind fields) =>
        if kind = .inline ∨ (dotted ∧ kind = .header) then none
        else (changeAt dotted f path ⟨kind, fields⟩).map toItem
      | some _ => none

/-- Sets the key at the end of a dotted key. -/
def assign (path : List String) (key : String) (value : Item) (table : Table) : Option Table :=
  let set := fun (target : Table) =>
    if !path.isEmpty && target.kind ≠ .dotted then none
    else target.change key fun
      | none => some value
      | some _ => none
  changeAt true set path table

/-- Opens the table of a header. -/
def openHeader (path : List String) (key : String) (table : Table) : Option Table :=
  let open_ := fun (parent : Table) => parent.change key fun
    | none => some (.table .header [])
    | some (.table .implied fields) => some (.table .header fields)
    | some _ => none
  changeAt false open_ path table

/-- Adds a table under a header in double brackets. -/
def addElement (path : List String) (key : String) (table : Table) : Option Table :=
  let add := fun (parent : Table) => parent.change key fun
    | none => some (.tables [[]])
    | some (.tables elements) => some (.tables (elements ++ [[]]))
    | some _ => none
  changeAt false add path table

end Table

/-- A key with the keys in front of its last dot. -/
structure Path where
  parents : List String
  last : String
deriving DecidableEq, Repr, Inhabited

namespace Path

def toList (path : Path) : List String := path.parents ++ [path.last]

end Path

/-- A line of a document that says something. -/
inductive Statement where
  | header (path : Path)
  | element (path : Path)
  | assign (path : Path) (value : Item)
deriving Repr, Inhabited

namespace Table

/-- The root table after a statement, and the header that the next ones stand under. -/
def step (state : Table × List String) : Statement → Option (Table × List String)
  | .header path => do
    let root ← openHeader path.parents path.last state.1
    return (root, path.toList)
  | .element path => do
    let root ← addElement path.parents path.last state.1
    return (root, path.toList)
  | .assign path value => do
    let root ← changeAt false (assign path.parents path.last value) state.2 state.1
    return (root, state.2)

/-- The root table of a document. -/
def ofStatements? (statements : List Statement) : Option Table :=
  (statements.foldlM step (empty .header, [])).map Prod.fst

/-- The table of the fields between braces. -/
def ofInline? (fields : List (Path × Item)) : Option Item := do
  let table ← fields.foldlM
    (fun table (path, value) => assign path.parents path.last value table) (empty .header)
  return .table .inline table.fields

end Table

end ComponentMarkdown.Toml
