import ComponentMarkdown.Attrs

namespace ComponentMarkdown

/-- The formatting that a mark applies. -/
inductive MarkKind where
  | bold
  | italic
  | strike
  | code
  | link
deriving DecidableEq, Repr, Inhabited

namespace MarkKind

/-- The tag of the element that applies the mark in markup. -/
def tag : MarkKind → String
  | bold => "strong"
  | italic => "em"
  | strike => "del"
  | code => "code"
  | link => "a"

def ofTag? : String → Option MarkKind
  | "strong" => some bold
  | "em" => some italic
  | "del" => some strike
  | "code" => some code
  | "a" => some link
  | _ => none

/-- The name of the mark in the wire format. -/
def name : MarkKind → String
  | bold => "bold"
  | italic => "italic"
  | strike => "strike"
  | code => "code"
  | link => "link"

def ofName? : String → Option MarkKind
  | "bold" => some bold
  | "italic" => some italic
  | "strike" => some strike
  | "code" => some code
  | "link" => some link
  | _ => none

@[simp]
theorem ofTag?_tag (kind : MarkKind) : ofTag? kind.tag = some kind := by cases kind <;> rfl

@[simp]
theorem ofName?_name (kind : MarkKind) : ofName? kind.name = some kind := by cases kind <;> rfl

end MarkKind

/-- A mark with its attributes: formatting of text in the editor. A piece of text carries a list of marks, the
innermost first. In markup every mark is an element of its own, named by the mark's tag. -/
structure Mark where
  kind : MarkKind
  attrs : Attrs
deriving Repr, Inhabited

namespace Mark

/-- Equality of marks: the order of attributes does not count. -/
def same (a b : Mark) : Bool := a.kind = b.kind && a.attrs.same b.attrs

/-- Equality of mark lists, mark by mark. -/
def sameList : List Mark → List Mark → Bool
  | [], [] => true
  | a :: rest, b :: rest' => a.same b && sameList rest rest'
  | _, _ => false

/-- Equality of marks that may be missing. -/
def sameOption : Option Mark → Option Mark → Bool
  | none, none => true
  | some a, some b => a.same b
  | _, _ => false

/-- The marks of what stands inside an element with a mark: the mark of the element is inside those
that apply to the element. -/
def compose (outer : List Mark) (mark : Mark) : List Mark := mark :: outer

end Mark

end ComponentMarkdown
