namespace ComponentMarkdown.CommandLine

/-- The operations on files that the program needs, in a monad that they run in. They may be those of a file
system, or of a value. -/
structure FileAccess (m : Type → Type) where
  /-- The text of a file, if it can be read. -/
  read : String → m (Option String)
  isFile : String → m Bool
  isFolder : String → m Bool
  /-- Makes a folder and those that it lies in. Says whether it is there then. -/
  makeFolder : String → m Bool
  /-- Writes a text into a file in a folder that is there. Says whether it could. -/
  write : String → String → m Bool
  /-- The paths of the files in a folder, or also of those further down, in any order. What cannot be
  listed is given as the error. -/
  filesIn : String → Bool → m (Except String (List String))

namespace FileAccess

variable {m : Type → Type} [Monad m]

/-- Whether a path leads to a file or a folder. -/
def isThere (files : FileAccess m) (path : String) : m Bool := do
  if (← files.isFile path) then return true
  files.isFolder path

end FileAccess

end ComponentMarkdown.CommandLine
