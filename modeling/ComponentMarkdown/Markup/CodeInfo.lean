import ComponentMarkdown.Markup.CodeFence
import ComponentMarkdown.Text.Blank

namespace ComponentMarkdown.CodeFence

/-- The characters that end the language. -/
def endsLanguage (c : Char) : Bool := Text.isBlank c || c = '[' || c = '\x7b'

/-- The file name in brackets at the start of a text, and what follows it. -/
def filename? (s : List Char) : Option (List Char × List Char) :=
  match s with
  | '[' :: rest =>
    match rest.dropWhile (· ≠ ']') with
    | _ :: after => some (rest.takeWhile (· ≠ ']'), Text.trimStart after)
    | [] => none
  | _ => none

/-- The parts of an info string. A part that was not written is none; a file name may be empty. -/
def Info.read (text : List Char) : Info :=
  let text := Text.trim text
  if text.isEmpty then ⟨none, none, none⟩
  else
    let (language, rest) :=
      if text.head? = some '[' then (none, text)
      else
        (some (text.takeWhile (fun c => !endsLanguage c)),
          Text.trimStart (text.dropWhile (fun c => !endsLanguage c)))
    let (filename, rest) := match filename? rest with
      | some (name, after) => (some name, after)
      | none => (none, rest)
    ⟨language.map String.ofList, filename.map String.ofList,
      if rest.isEmpty then none else some (String.ofList rest)⟩

end ComponentMarkdown.CodeFence
