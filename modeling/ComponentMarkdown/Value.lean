import ComponentMarkdown.Decimal.Shortest

namespace ComponentMarkdown

/-- An integer or a finite double. The integers `1` and the double `1.0` are different numbers. -/
inductive Number where
  | int (value : Int)
  | float (value : Double)
deriving DecidableEq, Repr, Inhabited

/-- A dynamic value: what attributes, frontmatter and both wire formats are made of. An object keeps its fields in
the order in which they were first written. -/
inductive Value where
  | null
  | bool (value : Bool)
  | num (value : Number)
  | str (value : String)
  | arr (items : List Value)
  | obj (fields : List (String × Value))
deriving Repr, Inhabited

namespace Number

/-- The number as an unsigned integer, if it was written as one. -/
def asNat? : Number → Option Nat
  | .int value => if 0 ≤ value then some value.toNat else none
  | .float _ => none

/-- Equality of numbers: integers and doubles are never equal, and the two zeros among the doubles
are. -/
def same : Number → Number → Bool
  | .int a, .int b => a = b
  | .float a, .float b => a.numEq b
  | _, _ => false

end Number

namespace Value

/-- The short name of a value's kind. -/
def kind : Value → String
  | .null => "null"
  | .bool _ => "boolean"
  | .num _ => "number"
  | .str _ => "string"
  | .arr _ => "array"
  | .obj _ => "object"

def isNull : Value → Bool
  | .null => true
  | _ => false

def asString? : Value → Option String
  | .str value => some value
  | _ => none

def asBool? : Value → Option Bool
  | .bool value => some value
  | _ => none

def asNat? : Value → Option Nat
  | .num value => value.asNat?
  | _ => none

def asObject? : Value → Option (List (String × Value))
  | .obj fields => some fields
  | _ => none

def asArray? : Value → Option (List Value)
  | .arr items => some items
  | _ => none

end Value

mutual

/-- Equality of values: arrays by position, objects as maps. -/
def Value.same : Value → Value → Bool
  | .null, .null => true
  | .bool a, .bool b => a == b
  | .num a, .num b => a.same b
  | .str a, .str b => a == b
  | .arr a, .arr b => Value.sameItems a b
  | .obj a, .obj b => a.length == b.length && Value.sameFields a b
  | _, _ => false

/-- Whether two arrays agree position by position. -/
def Value.sameItems : List Value → List Value → Bool
  | [], [] => true
  | v :: rest, w :: rest' => v.same w && Value.sameItems rest rest'
  | _, _ => false

/-- Whether every field of the first object has an equal field in the second. -/
def Value.sameFields : List (String × Value) → List (String × Value) → Bool
  | [], _ => true
  | (key, v) :: rest, fields =>
    (match fields.lookup key with
      | some w => v.same w
      | none => false)
      && Value.sameFields rest fields

end

end ComponentMarkdown
