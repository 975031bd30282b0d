import ComponentMarkdown.Doc.Mark

namespace ComponentMarkdown

/-- A piece of a list with the key of its first item. -/
structure Run (κ α : Type) where
  key : κ
  items : List α
deriving Repr, Inhabited

namespace Run

/-- The maximal runs of a list. -/
def ofList {κ α : Type} (same : κ → κ → Bool) (key : α → κ) : List α → List (Run κ α)
  | [] => []
  | x :: rest =>
    match ofList same key rest with
    | [] => [⟨key x, [x]⟩]
    | run :: runs =>
      if same (key x) run.key then ⟨key x, x :: run.items⟩ :: runs
      else ⟨key x, [x]⟩ :: run :: runs

/-- The items of runs, in order. -/
def flatten {κ α : Type} (runs : List (Run κ α)) : List α := runs.flatMap items

/-- The runs of items with equal mark lists. -/
def bySignature {α : Type} (marks : α → List Mark) : List α → List (Run (List Mark) α) :=
  ofList Mark.sameList marks

/-- The runs of items with equal outermost marks. Items without marks have none. -/
def byOuterMark {α : Type} (marks : α → List Mark) : List α → List (Run (Option Mark) α) :=
  ofList Mark.sameOption (fun x => (marks x).getLast?)

end Run

end ComponentMarkdown
