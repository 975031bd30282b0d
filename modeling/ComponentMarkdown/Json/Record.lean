import ComponentMarkdown.Json.Written

namespace ComponentMarkdown.Json

/-- The fields of a record, and the one that holds records. A record is an object in which every known field is
written at most once, or an array of the values of its fields in order. -/
structure RecordShape where
  fields : List String
  nested : Option String
deriving DecidableEq, Repr, Inhabited

mutual

/-- The value of a written record, without the fields that the shape does not know. -/
def Written.record? (shape : RecordShape) : Written → Option Value
  | .obj fields => (Written.recordFields? shape [] fields).map .obj
  | .arr items => (Written.recordItems? shape shape.fields items).map .arr
  | _ => none

/-- The known fields of a written object. `seen` holds those in front. -/
def Written.recordFields? (shape : RecordShape) (seen : List String) :
    List (List StringUnit × Written) → Option (List (String × Value))
  | [] => some []
  | (units, item) :: rest => do
    let key ← string? units
    if key ∉ shape.fields then Written.recordFields? shape seen rest
    else if key ∈ seen then none
    else
      let value ← if shape.nested = some key then item.nested? shape else item.value?
      let entries ← Written.recordFields? shape (key :: seen) rest
      return (key, value) :: entries

/-- The values of an array's items, one for each name. -/
def Written.recordItems? (shape : RecordShape) : List String → List Written → Option (List Value)
  | _, [] => some []
  | [], _ :: _ => none
  | name :: names, item :: rest => do
    let value ← if shape.nested = some name then item.nested? shape else item.value?
    let values ← Written.recordItems? shape names rest
    return value :: values

/-- The value of a written list of records. -/
def Written.nested? (shape : RecordShape) : Written → Option Value
  | .arr items => (Written.records? shape items).map .arr
  | _ => none

/-- The values of written records. -/
def Written.records? (shape : RecordShape) : List Written → Option (List Value)
  | [] => some []
  | item :: rest => do
    let value ← item.record? shape
    let values ← Written.records? shape rest
    return value :: values

end

end ComponentMarkdown.Json
