namespace ComponentMarkdown.Text

/-- A set of characters: the code points from the first to the second number of each pair. -/
abbrev CharRanges := List (Nat × Nat)

namespace CharRanges

/-- A digit of a hexadecimal number in lower case. -/
def hexValue (c : Char) : Nat := if c.toNat < 58 then c.toNat - 48 else c.toNat - 87

/-- Reads the ranges of a text. `first` is the number before a dash, `current` the number that is
being read. -/
def parseFrom (first : Option Nat) (current : Nat) : List Char → CharRanges
  | [] => [(first.getD current, current)]
  | '-' :: rest => parseFrom (some current) 0 rest
  | ' ' :: rest => (first.getD current, current) :: parseFrom none 0 rest
  | c :: rest => parseFrom first (current * 16 + hexValue c) rest

/-- The ranges of the lines of a table, which are written in hexadecimal, `a-b` or `a`, with blanks between them. -/
def parse (lines : List String) : CharRanges :=
  lines.flatMap fun line => parseFrom none 0 line.toList

def contains (ranges : CharRanges) (c : Char) : Bool :=
  ranges.any fun (low, high) => low ≤ c.toNat && c.toNat ≤ high

end CharRanges

end ComponentMarkdown.Text
