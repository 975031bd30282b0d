import ComponentMarkdown.Highlight.Theme
import ComponentMarkdown.Text.Lines

namespace ComponentMarkdown.Highlight

/-- A piece of a line with its colour under a theme. -/
structure Token where
  text : List Char
  color : Theme → String

/-- A line of code, and whether a line feed ends it. -/
structure Line where
  tokens : List Token
  ended : Bool

namespace Line

/-- The code of a line. -/
def code (line : Line) : List Char :=
  line.tokens.flatMap Token.text ++ if line.ended then ['\n'] else []

end Line

/-- A way to cut code in a language into lines of tokens, which can fail. It has to keep the code: its tokens and
line feeds, one after the other, are the code again. -/
structure Tokenizer where
  lines? (language : String) (code : List Char) : Option (List Line)
  code_lines {language : String} {code : List Char} {lines : List Line} :
    lines? language code = some lines → lines.flatMap Line.code = code

namespace Tokenizer

/-- A line as one token, of which an empty line has none. -/
def plainLine (text : List Char) (ended : Bool) : Line :=
  ⟨if text.isEmpty then [] else [⟨text, Theme.foreground⟩], ended⟩

/-- The lines of parts that line feeds stood between. An empty last part is no line. -/
def plainLines : List (List Char) → List Line
  | [] => []
  | [[]] => []
  | [last] => [plainLine last false]
  | part :: rest => plainLine part true :: plainLines rest

theorem code_plainLine (text : List Char) (ended : Bool) :
    (plainLine text ended).code = text ++ if ended then ['\n'] else [] := by
  unfold Line.code plainLine
  cases text <;> simp

theorem code_plainLines (parts : List (List Char)) :
    (plainLines parts).flatMap Line.code = Text.join ['\n'] parts := by
  fun_induction plainLines parts with
  | case1 => rfl
  | case2 => rfl
  | case3 last => simp [code_plainLine, Text.join]
  | case4 part rest _ more ih =>
    cases rest with
    | nil => exact absurd rfl more
    | cons next rest => simp [code_plainLine, Text.join, ih]

/-- The tokenizer that knows no language. -/
def plain : Tokenizer where
  lines? _ code := some (plainLines (Text.splitOn '\n' code))
  code_lines := by
    rintro _ code _ ⟨⟩
    rw [code_plainLines, Text.join_splitOn]

end Tokenizer

end ComponentMarkdown.Highlight
