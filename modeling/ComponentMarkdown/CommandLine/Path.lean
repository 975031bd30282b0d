import ComponentMarkdown.Text.Lines

namespace ComponentMarkdown.Path

/-- The parts between the slashes, with those that do not count. -/
def allParts (path : String) : List (List Char) := Text.splitOn '/' path.toList

/-- Whether a part other than the first counts. -/
def isName (part : List Char) : Bool := part ≠ [] && part ≠ ['.']

/-- The parts that count: not those of a doubled slash, a slash at the end, or a dot other than the first part. An
absolute path starts with an empty one. -/
def parts (path : String) : List (List Char) :=
  match allParts path with
  | [] => []
  | first :: rest => first :: rest.filter isName

/-- Drops the parts at the end that do not count. The parts are given last one first. -/
def dropIdle : List (List Char) → List (List Char)
  | [] => []
  | [first] => [first]
  | part :: before => if isName part then part :: before else dropIdle before

/-- The folder that a path names its last part in, if it names one. -/
def folder? (path : String) : Option String :=
  match dropIdle (allParts path).reverse with
  | _ :: part :: before => match dropIdle (part :: before) with
    | [[]] => some "/"
    | parts => some (String.ofList (Text.join ['/'] parts.reverse))
  | _ => none

/-- The path of a file in a folder. -/
def join (folder name : String) : String :=
  if folder.toList.getLast? = some '/' then folder ++ name else folder ++ "/" ++ name

/-- The last part of a path. -/
def name (path : String) : List Char := (dropIdle (allParts path).reverse).headD []

/-- What stands behind the last dot of a name, if something stands before it. -/
def extension? (name : List Char) : Option (List Char) :=
  let behind := name.reverse.takeWhile (· ≠ '.')
  if name ≠ ['.', '.'] ∧ behind.length + 1 < name.length then some behind.reverse else none

/-- Whether a path names a markdown file, in whatever case. -/
def isMarkdown (path : String) : Bool :=
  (extension? (name path)).map (·.map Char.toLower) = some ['m', 'd']

/-- Whether a path is not behind another in the order of their parts. -/
def le (a b : String) : Bool :=
  !(parts b).lex (parts a) (fun p q => p.lex q (fun c d => c.toNat < d.toNat))

end ComponentMarkdown.Path
