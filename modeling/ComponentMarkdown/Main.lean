import ComponentMarkdown.CommandLine.Run

namespace ComponentMarkdown.CommandLine

/-- The value of an action, or another value if it fails. -/
def orElseValue {α : Type} (action : IO α) (otherwise : α) : IO α :=
  try action catch _ => pure otherwise

/-- Whether an action can be done. -/
def succeeds (action : IO Unit) : IO Bool := orElseValue (action *> pure true) false

def isSystemFolder (path : String) : IO Bool :=
  orElseValue (do (← IO.FS.realPath path).isDir) false

def isSystemFile (path : String) : IO Bool :=
  orElseValue (do
    let found ← IO.FS.realPath path
    if ← found.isDir then pure false else found.pathExists) false

/-- The paths of the files in a folder, or also of those further down. -/
partial def systemFilesIn (path : String) (deep : Bool) : IO (Except String (List String)) := do
  match ← orElseValue (do return some (← (← IO.FS.realPath path).readDir)) none with
  | none => return .error path
  | some entries =>
    let mut paths := []
    for entry in entries do
      let entryPath := Path.join path entry.fileName
      if ← isSystemFolder entryPath then
        if deep then
          match ← systemFilesIn entryPath deep with
          | .error folder => return .error folder
          | .ok further => paths := further ++ paths
      else if ← isSystemFile entryPath then paths := entryPath :: paths
    return .ok paths

/-- The operations on the files of the system. -/
def systemFiles : FileAccess IO where
  read path := orElseValue (some <$> IO.FS.readFile path) none
  isFile := isSystemFile
  isFolder := isSystemFolder
  makeFolder path := succeeds (IO.FS.createDirAll path)
  write path text := succeeds (IO.FS.writeFile path text)
  filesIn := systemFilesIn

end ComponentMarkdown.CommandLine

/-- Runs the program on the files of the system. -/
def main (args : List String) : IO UInt32 := do
  let outcome ← ComponentMarkdown.CommandLine.run ComponentMarkdown.CommandLine.systemFiles args
  IO.print outcome.output
  for notice in outcome.notices do
    IO.eprintln notice
  return outcome.exit.toUInt32
