import ComponentMarkdown.CommandLine.Arguments
import ComponentMarkdown.CommandLine.FileAccess
import ComponentMarkdown.CommandLine.Path
import ComponentMarkdown.Doc.Wire
import ComponentMarkdown.Highlight.Decorate
import ComponentMarkdown.Json.Printer
import ComponentMarkdown.Markup.Wire
import ComponentMarkdown.Platform
import ComponentMarkdown.RoundTrip
import ComponentMarkdown.Settings.Schema

namespace ComponentMarkdown.CommandLine

instance : Surroundings := .platform

/-- How a run ends: its exit code, what it prints, and the lines of its notices. -/
structure Outcome where
  exit : Nat
  output : String
  notices : List String
deriving DecidableEq, Repr, Inhabited

namespace Outcome

/-- A run that prints something and ends well. -/
def printed (output : String) : Outcome := ⟨0, output, []⟩

/-- A run that fails after some notices. -/
def failed (notices : List String) (message : String) : Outcome :=
  ⟨1, "", notices ++ ["Error: " ++ message]⟩

end Outcome

/-- What goes wrong with a file or folder, by its path. -/
inductive Failure where
  | unreadable (path : String)
  | unparsable (path : String)
  | noDocument (path : String)
  | settingsUnreadable (path : String)
  | settingsUnparsable (path : String)
  | folderNotMade (path : String)
  | folderNotListed (path : String)
  | unwritable (path : String)
  | missing (path : String)
  | alreadyThere (path : String)
deriving DecidableEq, Repr

namespace Failure

def message : Failure → String
  | unreadable path => "Failed to read: " ++ path
  | unparsable path => "Failed to parse: " ++ path
  | noDocument path => "Invalid editor document: " ++ path
  | settingsUnreadable path => "Failed to read config file: " ++ path
  | settingsUnparsable path => "Failed to parse config file: " ++ path
  | folderNotMade path => "Failed to create directory: " ++ path
  | folderNotListed path => "Failed to read directory: " ++ path
  | unwritable path => "Failed to write: " ++ path
  | missing path => "Input path does not exist: " ++ path
  | alreadyThere path => path ++ " already exists (use --force to overwrite)"

end Failure

/-- The name and version of the program. -/
def versionLine : String := "mdc-studio 0.1.0"

/-- How the program is called. -/
def usageLine : String :=
  "Usage: mdc-studio [--config FILE] [--verbose | --quiet] "
    ++ String.intercalate "|" (Command.all.map Command.name) ++ " ..."

namespace Task

/-- The path beside which the settings of a task are looked for. -/
def input? : Task → Option String
  | openDocument input _ _ => some input
  | saveDocument input _ _ _ _ => some input
  | check input _ => some input
  | diff _ updated => some updated
  | init _ _ => none
  | schema => none

end Task

section

variable {m : Type → Type} [Monad m]

/-- Steps that may fail. -/
abbrev Steps (m : Type → Type) := ExceptT Failure m

/-- Fails unless a step could be done. -/
def demand (done : Bool) (failure : Failure) : Steps m Unit :=
  if done then pure () else throw failure

/-- The text of a file. -/
def readText (files : FileAccess m) (path : String) (failure : String → Failure) :
    Steps m String := do
  match ← files.read path with
  | some text => pure text
  | none => throw (failure path)

namespace SettingsFile

/-- The settings in a file. -/
def load (files : FileAccess m) (path : String) : Steps m Settings := do
  match Settings.ofToml? (← readText files path .settingsUnreadable) with
  | some settings => pure settings
  | none => throw (.settingsUnparsable path)

/-- The folder in which settings are looked for: the input itself, the folder that it is named in, or
the working folder. -/
def folder (files : FileAccess m) : Option String → Steps m String
  | none => pure "."
  | some input => do
    if ← files.isFolder input then pure input else pure ((Path.folder? input).getD ".")

/-- The settings of a run: those of the file that is named, or of the file beside the input, or
none. -/
def find (files : FileAccess m) (named input : Option String) : Steps m Settings :=
  match named with
  | some path => load files path
  | none => do
    let path := Path.join (← folder files input) Settings.fileName
    if ← files.isThere path then load files path else pure .empty

end SettingsFile

/-- The JSON text of a value, indented if the settings say so. -/
def jsonText (settings : Settings) (value : Value) : String :=
  if settings.pretty then value.toIndentedJson else value.toJson

/-- A text with a line feed at its end. -/
def withLineFeed (text : String) : String :=
  if text.toList.getLast? = some '\n' then text else text ++ "\n"

/-- Writes a file and prints its path, if the run is not quiet. -/
def save (files : FileAccess m) (quiet : Bool) (path content : String) : Steps m Outcome := do
  demand (← files.write path content) (.unwritable path)
  pure (.printed (if quiet then "" else path ++ "\n"))

/-- Prints a text, or writes it into a file whose folder is made before. -/
def emit (files : FileAccess m) (quiet : Bool) (output : Option String) (content : String) :
    Steps m Outcome :=
  match output with
  | none => pure (.printed (withLineFeed content))
  | some path => do
    match Path.folder? path with
    | none => pure ()
    | some folder => demand (← files.makeFolder folder) (.folderNotMade folder)
    save files quiet path content

/-- The editor document of a page, as JSON. -/
def openedText (settings : Settings) (input : String) (keepShortcodes : Bool) (source : String) :
    Except Failure String :=
  match Tree.parse source with
  | .error _ => .error (.unparsable input)
  | .ok tree =>
    .ok (jsonText settings (Doc.ofTree tree (settings.emoji && !keepShortcodes)).toValue)

/-- The page of an editor document, or its tree as JSON. -/
def savedText (settings : Settings) (input : String) (asTree highlight skipFrontmatter : Bool)
    (document : String) : Except Failure String :=
  match Doc.ofJson document with
  | .error _ => .error (.noDocument input)
  | .ok doc =>
    let tree :=
      if highlight || settings.highlights then
        Highlight.decorateTree Highlight.Tokenizer.plain settings.themeChoice doc.toTree
      else doc.toTree
    .ok (if asTree then jsonText settings tree.toWire else tree.toMarkdown skipFrontmatter)

/-- The pages that a path stands for, in order: itself, or those in the folder. -/
def pages (files : FileAccess m) (input : String) (recursive : Bool) : Steps m (List String) := do
  if ← files.isFile input then pure [input]
  else if ← files.isFolder input then
    match ← files.filesIn input recursive with
    | .error folder => throw (.folderNotListed folder)
    | .ok paths => pure ((paths.filter Path.isMarkdown).mergeSort Path.le)
  else throw (.missing input)

/-- Says what is wrong with a page, if something is. -/
def fault? (files : FileAccess m) (settings : Settings) (path : String) : m (Option String) := do
  match ← files.read path with
  | none => pure (some (path ++ ": " ++ (Failure.unreadable path).message))
  | some source =>
    pure ((roundTripError? settings source).map fun error => path ++ ": " ++ error.message)

/-- What a check of so many pages says about their faults. -/
def checkOutcome (quiet : Bool) (count : Nat) (faults : List String) : Outcome :=
  let failures := toString faults.length
  let notices := faults ++ if quiet then [] else
    ["Checked " ++ toString count ++ " files, " ++ failures ++ " failed"]
  if faults.isEmpty then ⟨0, "", notices⟩
  else .failed notices (failures ++ " files failed the round trip")

/-- Checks that pages survive the editor. -/
def checkPages (files : FileAccess m) (settings : Settings) (quiet : Bool) (input : String)
    (recursive : Bool) : Steps m Outcome := do
  let paths ← pages files input recursive
  if paths.isEmpty then
    pure ⟨0, "", if quiet then [] else ["No .md files found in " ++ input]⟩
  else
    let faults ← (paths.mapM (fault? files settings) : m (List (Option String)))
    pure (checkOutcome quiet paths.length (faults.filterMap id))

/-- Writes a settings file to start with, which replaces another only by force. -/
def writeSettings (files : FileAccess m) (quiet : Bool) (folder : String) (force : Bool) :
    Steps m Outcome := do
  let path := Path.join folder Settings.fileName
  demand (force || !(← files.isThere path)) (.alreadyThere path)
  demand (← files.makeFolder folder) (.folderNotMade folder)
  save files quiet path Settings.sample.toToml

/-- Runs a task under settings. -/
def runTask (files : FileAccess m) (settings : Settings) (quiet : Bool) :
    Task → Steps m Outcome
  | .openDocument input output keepShortcodes => do
    let source ← readText files input .unreadable
    emit files quiet output (← openedText settings input keepShortcodes source)
  | .saveDocument input output asTree highlight skipFrontmatter => do
    let document ← readText files input .unreadable
    emit files quiet output
      (← savedText settings input asTree highlight skipFrontmatter document)
  | .check input recursive => checkPages files settings quiet input recursive
  | .diff before updated => do
    let a ← readText files before .unreadable
    let b ← readText files updated .unreadable
    let spans := wordDiff settings.tokenLimit a b
    pure (.printed (jsonText settings (.arr (spans.map WordDiff.Span.toValue)) ++ "\n"))
  | .init folder force => writeSettings files quiet folder force
  | .schema => pure (.printed (Settings.schema.toIndentedJson ++ "\n"))

/-- Runs an invocation: finds its settings, then does its task. -/
def Invocation.run (files : FileAccess m) (invocation : Invocation) : m Outcome := do
  let steps : Steps m Outcome := do
    let settings ← SettingsFile.find files invocation.settingsPath invocation.task.input?
    runTask files settings invocation.quiet invocation.task
  match ← steps.run with
  | .ok outcome => pure outcome
  | .error failure => pure (.failed [] failure.message)

/-- Runs the program with arguments. -/
def run (files : FileAccess m) (args : List String) : m Outcome :=
  match Invocation.ofArguments args with
  | .ok invocation => invocation.run files
  | .error .version => pure (.printed (versionLine ++ "\n"))
  | .error .help => pure (.printed (usageLine ++ "\n"))
  | .error .misuse => pure ⟨2, "", [usageLine]⟩

end

end ComponentMarkdown.CommandLine
