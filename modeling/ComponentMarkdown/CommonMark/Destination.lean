import ComponentMarkdown.CommonMark.Entity

namespace ComponentMarkdown.CommonMark.Destination

/-- How deep parentheses may nest in a destination. -/
def maxNesting : Nat := 32

/-- A destination behind `<`, up to `>` on the same line. -/
def pointed? : List Char → Option (List Char × List Char)
  | [] => none
  | ['\\'] => none
  | '\\' :: c :: rest =>
    if Text.isAsciiPunctuation c then
      (pointed? rest).map fun (text, after) => ('\\' :: c :: text, after)
    else (pointed? (c :: rest)).map fun (text, after) => ('\\' :: text, after)
  | c :: rest =>
    if c = '>' then some ([], rest)
    else if c = '<' ∨ c = '\n' ∨ c = '\r' then none
    else (pointed? rest).map fun (text, after) => (c :: text, after)

/-- A destination without marks around it: it ends at a blank or at a parenthesis that closes none of
its own. -/
def bare? (depth : Nat) : List Char → Option (List Char × List Char)
  | [] => if depth = 0 then some ([], []) else none
  | '\\' :: c :: rest =>
    if Text.isAsciiPunctuation c then
      (bare? depth rest).map fun (text, after) => ('\\' :: c :: text, after)
    else (bare? depth (c :: rest)).map fun (text, after) => ('\\' :: text, after)
  | c :: rest =>
    if c.toNat ≤ 32 ∨ (c = ')' ∧ depth = 0) then
      if depth = 0 then some ([], c :: rest) else none
    else if c = '(' ∧ maxNesting < depth then none
    else
      let depth := if c = '(' then depth + 1 else if c = ')' then depth - 1 else depth
      (bare? depth rest).map fun (text, after) => (c :: text, after)

/-- A destination as it was written. -/
def read? (s : List Char) : Option (List Char × List Char) :=
  match s with
  | '<' :: rest => pointed? rest
  | s => bare? 0 s

end ComponentMarkdown.CommonMark.Destination
