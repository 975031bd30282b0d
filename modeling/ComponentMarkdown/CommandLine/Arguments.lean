import ComponentMarkdown.Text.Lines

namespace ComponentMarkdown.CommandLine

/-- What a switch is followed by. -/
inductive SwitchValue where
  | none
  | path
  | count
deriving DecidableEq, Repr

inductive Switch where
  | settings
  | verbose
  | quiet
  | output
  | keepShortcodes
  | asTree
  | highlight
  | skipFrontmatter
  | recursive
  | jobs
  | force
  | help
  | version
deriving DecidableEq, Repr

namespace Switch

/-- The name behind two hyphens. -/
def name : Switch → String
  | settings => "config"
  | verbose => "verbose"
  | quiet => "quiet"
  | output => "output"
  | keepShortcodes => "no-emoji"
  | asTree => "ast"
  | highlight => "highlight"
  | skipFrontmatter => "no-frontmatter"
  | recursive => "recursive"
  | jobs => "jobs"
  | force => "force"
  | help => "help"
  | version => "version"

/-- The letter behind one hyphen. -/
def letter? : Switch → Option Char
  | verbose => some 'v'
  | quiet => some 'q'
  | output => some 'o'
  | recursive => some 'r'
  | jobs => some 'j'
  | help => some 'h'
  | version => some 'V'
  | _ => Option.none

def value : Switch → SwitchValue
  | settings => .path
  | output => .path
  | jobs => .count
  | _ => .none

end Switch

/-- The switches that stand before or behind a command. -/
def sharedSwitches : List Switch := [.settings, .verbose, .quiet, .help]

inductive Command where
  | openDocument
  | saveDocument
  | check
  | diff
  | init
  | schema
deriving DecidableEq, Repr

namespace Command

def all : List Command := [.openDocument, .saveDocument, .check, .diff, .init, .schema]

def name : Command → String
  | openDocument => "open"
  | saveDocument => "save"
  | check => "check"
  | diff => "diff"
  | init => "init"
  | schema => "schema"

def ofName? (text : String) : Option Command := all.find? (·.name = text)

/-- The switches of a command. -/
def switches (command : Command) : List Switch :=
  (match command with
    | openDocument => [.output, .keepShortcodes]
    | saveDocument => [.output, .asTree, .highlight, .skipFrontmatter]
    | check => [.recursive, .jobs]
    | init => [.force]
    | _ => []) ++ sharedSwitches

end Command

/-- Why there is nothing to run. -/
inductive Stop where
  | misuse
  | help
  | version
deriving DecidableEq, Repr

/-- The switches and operands in front of a command or behind it. -/
structure Given where
  switches : List (Switch × String)
  operands : List String
deriving DecidableEq, Repr

namespace Given

def nothing : Given := ⟨[], []⟩

def has (given : Given) (switch : Switch) : Bool := given.switches.any (·.1 = switch)

def value? (given : Given) (switch : Switch) : Option String := given.switches.lookup switch

/-- Whether a text is a count: digits, perhaps behind a plus, within sixty-four bits. -/
def isCount (text : String) : Bool :=
  let digits := match text.toList with
    | '+' :: rest => rest
    | rest => rest
  !digits.isEmpty && digits.all Char.isDigit && Nat.ofDigitChars 10 digits 0 < 0x10000000000000000

/-- Whether a switch may have a value. -/
def fits : SwitchValue → String → Bool
  | .none, _ => true
  | .path, text => text ≠ ""
  | .count, text => isCount text

/-- Adds a switch, which may not stand twice. -/
def add (given : Given) (switch : Switch) (value : String) : Except Stop Given :=
  if switch = .help then .error .help
  else if switch = .version then .error .version
  else if given.has switch || !fits switch.value value then .error .misuse
  else .ok { given with switches := given.switches ++ [(switch, value)] }

/-- Adds an operand, which may not be empty. -/
def addOperand (given : Given) (operand : String) : Except Stop Given :=
  if operand = "" then .error .misuse
  else .ok { given with operands := given.operands ++ [operand] }

/-- Adds the switches of an argument of letters. One that has a value takes the letters behind it,
without an equals sign in front, or waits for the next argument. -/
def addLetters (known : List Switch) (given : Given) :
    List Char → Except Stop (Given × Option Switch)
  | [] => .ok (given, none)
  | letter :: rest =>
    match known.find? (·.letter? = some letter) with
    | none => .error .misuse
    | some switch =>
      if switch.value = .none then
        match given.add switch "" with
        | .ok given => addLetters known given rest
        | .error stop => .error stop
      else match rest with
        | [] => .ok (given, some switch)
        | '=' :: value => (given.add switch (String.ofList value)).map (·, none)
        | value => (given.add switch (String.ofList value)).map (·, none)

/-- Adds the switch of an argument with a name. Its value stands behind an equals sign or in the next
argument. -/
def addNamed (known : List Switch) (given : Given) (text : List Char) :
    Except Stop (Given × Option Switch) :=
  let name := text.takeWhile (· ≠ '=')
  match known.find? (·.name.toList = name), text.drop name.length with
  | none, _ => .error .misuse
  | some switch, [] =>
    if switch.value = .none then (given.add switch "").map (·, none) else .ok (given, some switch)
  | some switch, _ :: value =>
    if switch.value = .none then .error .misuse
    else (given.add switch (String.ofList value)).map (·, none)

/-- Whether an argument is an operand or a value, not a switch. A lone hyphen is one. -/
def isOperand (arg : String) : Bool :=
  match arg.toList with
  | '-' :: _ :: _ => false
  | _ => true

/-- Reads arguments as switches and operands, while a switch may be waiting for its value. In front of
a command the first operand ends the reading. Gives back the arguments that are left. -/
def read (known : List Switch) (inFront : Bool) (given : Given) (waiting : Option Switch) :
    List String → Except Stop (Given × List String)
  | [] => if waiting.isSome then .error .misuse else .ok (given, [])
  | arg :: rest =>
    match waiting, arg.toList with
    | some switch, _ =>
      if isOperand arg then
        match given.add switch arg with
        | .ok given => read known inFront given none rest
        | .error stop => .error stop
      else .error .misuse
    | none, ['-', '-'] =>
      if inFront then .error .misuse
      else (rest.foldlM addOperand given).map (·, [])
    | none, '-' :: '-' :: text =>
      match addNamed known given text with
      | .ok (given, waiting) => read known inFront given waiting rest
      | .error stop => .error stop
    | none, '-' :: letter :: letters =>
      match addLetters known given (letter :: letters) with
      | .ok (given, waiting) => read known inFront given waiting rest
      | .error stop => .error stop
    | none, _ =>
      if inFront then .ok (given, arg :: rest)
      else match given.addOperand arg with
        | .ok given => read known inFront given none rest
        | .error stop => .error stop

/-- Quiet and verbose exclude each other. -/
def isConsistent (given : Given) : Bool := !(given.has .quiet && given.has .verbose)

end Given

/-- What the program has to do. -/
inductive Task where
  | openDocument (input : String) (output : Option String) (keepShortcodes : Bool)
  | saveDocument (input : String) (output : Option String) (asTree highlight skipFrontmatter : Bool)
  | check (input : String) (recursive : Bool)
  | diff (before updated : String)
  | init (folder : String) (force : Bool)
  | schema
deriving DecidableEq, Repr

/-- The task of a command, if it has the operands that it needs. The number of jobs does not change
what a check says. -/
def Task.ofGiven? (given : Given) : Command → Option Task
  | .openDocument => match given.operands with
    | [input] => some (.openDocument input (given.value? .output) (given.has .keepShortcodes))
    | _ => none
  | .saveDocument => match given.operands with
    | [input] => some (.saveDocument input (given.value? .output) (given.has .asTree)
        (given.has .highlight) (given.has .skipFrontmatter))
    | _ => none
  | .check => match given.operands with
    | [input] => some (.check input (given.has .recursive))
    | _ => none
  | .diff => match given.operands with
    | [before, updated] => some (.diff before updated)
    | _ => none
  | .init => match given.operands with
    | [] => some (.init "." (given.has .force))
    | [folder] => some (.init folder (given.has .force))
    | _ => none
  | .schema => match given.operands with
    | [] => some .schema
    | _ => none

/-- A task with what holds for every task. -/
structure Invocation where
  task : Task
  settingsPath : Option String
  quiet : Bool
deriving DecidableEq, Repr

namespace Invocation

/-- The command that is asked about by the word for help, if it is asked about one. -/
def helpStop : List String → Stop
  | [] => .help
  | [topic] => if topic = "help" ∨ (Command.ofName? topic).isSome then .help else .misuse
  | _ => .misuse

/-- Reads the arguments of the program. -/
def ofArguments (args : List String) : Except Stop Invocation := do
  let (outer, rest) ← Given.read (.version :: sharedSwitches) true .nothing none args
  match rest with
  | [] => .error .misuse
  | word :: rest =>
    if word = "help" then .error (helpStop rest)
    else match Command.ofName? word with
      | none => .error .misuse
      | some command =>
        let (inner, _) ← Given.read command.switches false .nothing none rest
        match Task.ofGiven? inner command with
        | none => .error .misuse
        | some task =>
          if outer.isConsistent && inner.isConsistent then
            return ⟨task, (inner.value? .settings).or (outer.value? .settings),
              inner.has .quiet || outer.has .quiet⟩
          else .error .misuse

end Invocation

end ComponentMarkdown.CommandLine
