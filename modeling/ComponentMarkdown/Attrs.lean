import ComponentMarkdown.Value

namespace ComponentMarkdown

/-- An ordered map from attribute names to values. -/
abbrev Attrs := List (String × Value)

namespace Attrs

def keys (attrs : Attrs) : List String := attrs.map Prod.fst

def get? (attrs : Attrs) (key : String) : Option Value := attrs.lookup key

def contains (attrs : Attrs) (key : String) : Bool := (attrs.get? key).isSome

/-- The value of a key, if it is a string. -/
def getString? (attrs : Attrs) (key : String) : Option String :=
  (attrs.get? key).bind Value.asString?

/-- Sets a key: an existing key keeps its place, a new one goes to the end. -/
def insert : Attrs → String → Value → Attrs
  | [], key, value => [(key, value)]
  | (k, v) :: rest, key, value =>
    if k = key then (k, value) :: rest else (k, v) :: insert rest key value

/-- Removes a key. The last entry moves into the place of the removed one. -/
def erase (attrs : Attrs) (key : String) : Attrs :=
  match attrs.span (fun entry => entry.1 ≠ key) with
  | (_, []) => attrs
  | (before, _ :: after) =>
    match after.getLast? with
    | none => before
    | some last => before ++ last :: after.dropLast

/-- Sets the keys of `more` one after the other. -/
def insertAll (attrs more : Attrs) : Attrs :=
  more.foldl (fun acc entry => acc.insert entry.1 entry.2) attrs

/-- The map of a list of fields in which a key may be repeated: the first place and the last value
count. -/
def ofFields (fields : Attrs) : Attrs := insertAll [] fields

/-- Whether every key occurs once. Maps that are built by `insert` and `erase` from the empty map
have this property. -/
def Distinct (attrs : Attrs) : Prop := attrs.keys.Nodup

/-- Equality as maps: the same keys with equal values, in any order. -/
def same (attrs other : Attrs) : Bool := (Value.obj attrs).same (.obj other)

end Attrs

end ComponentMarkdown
