namespace ComponentMarkdown.Text

/-- The parts of a text between the occurrences of a separator. There is one more than there are separators, so
joining with the separator gives the text back. -/
def splitOn (separator : Char) : List Char → List (List Char)
  | [] => [[]]
  | c :: rest =>
    if c = separator then [] :: splitOn separator rest
    else
      match splitOn separator rest with
      | [] => [[c]]
      | part :: parts => (c :: part) :: parts

/-- Puts a separator between the parts of a list. -/
def join (separator : List Char) : List (List Char) → List Char
  | [] => []
  | [part] => part
  | part :: rest => part ++ separator ++ join separator rest

theorem splitOn_ne_nil (separator : Char) (s : List Char) : splitOn separator s ≠ [] := by
  cases s with
  | nil => simp [splitOn]
  | cons c rest =>
    unfold splitOn
    split
    · simp
    · split <;> simp

theorem join_splitOn (separator : Char) (s : List Char) :
    join [separator] (splitOn separator s) = s := by
  induction s with
  | nil => rfl
  | cons c rest ih =>
    unfold splitOn
    split
    · rename_i eq
      cases found : splitOn separator rest with
      | nil => exact absurd found (splitOn_ne_nil separator rest)
      | cons part parts =>
        rw [found] at ih
        simp [join, ih, eq]
    · split
      · rename_i found
        exact absurd found (splitOn_ne_nil separator rest)
      · rename_i part parts found
        rw [found] at ih
        cases parts with
        | nil => simpa [join] using ih
        | cons next parts => simpa [join] using ih

/-- A line without the carriage return at its end, if there is one. -/
def dropReturn (line : List Char) : List Char :=
  if line.getLast? = some '\r' then line.dropLast else line

/-- The lines of parts that line feeds stood between: a carriage return in front of a line feed
belongs to the line end, and an empty last part is no line. -/
def linesOfParts : List (List Char) → List (List Char)
  | [] => []
  | [[]] => []
  | [last] => [last]
  | line :: rest => dropReturn line :: linesOfParts rest

/-- The lines of a text. -/
def lines (s : List Char) : List (List Char) := linesOfParts (splitOn '\n' s)

/-- Replaces every occurrence of a character by a text. -/
def replaceChar (c : Char) (replacement : List Char) (s : List Char) : List Char :=
  s.flatMap (fun d => if d = c then replacement else [d])

/-- The text after a given beginning, if it begins so. -/
def after? : List Char → List Char → Option (List Char)
  | [], s => some s
  | _ :: _, [] => none
  | a :: start, c :: rest => if a = c then after? start rest else none

/-- Whether a text begins with another. -/
def startsWith (start s : List Char) : Bool := (after? start s).isSome

end ComponentMarkdown.Text
