import ComponentMarkdown.Markup.Component

namespace ComponentMarkdown

/-- How far a document has been read when its tokens are taken from left to right: its own body, and the open
components, the innermost first. -/
structure Progress where
  body : Body
  stack : List OpenComponent

namespace Progress

def start : Progress := ⟨.empty, []⟩

/-- Changes the innermost body. -/
def modify (progress : Progress) (f : Body → Body) : Progress :=
  match progress.stack with
  | [] => { progress with body := f progress.body }
  | component :: outer => { progress with stack := component.modify f :: outer }

variable (blocks : List Char → List Node)

/-- Reads a token. Outside components a closing line and a slot mark are text. -/
def step (progress : Progress) (token : Token) : Except ParseError Progress :=
  match token.kind, progress.stack with
  | .componentOpen _ name block, stack =>
    (OpenComponent.start name token.line block).map fun opened => { progress with stack := opened :: stack }
  | .componentClose _, component :: outer =>
    .ok (modify { progress with stack := outer } (·.addNode blocks (component.close blocks)))
  | .slot name, component :: outer => .ok { progress with stack := component.startSlot blocks name :: outer }
  | _, _ => .ok (progress.modify (·.addLine token.raw))

/-- The nodes of a document that has been read to its end. -/
def finish (progress : Progress) : Except ParseError (List Node) :=
  match progress.stack with
  | [] => .ok (progress.body.finish blocks)
  | component :: _ => .error (.unclosedComponent component.name component.line)

/-- The nodes of a document of which some tokens are left. -/
def scan (progress : Progress) (tokens : List Token) : Except ParseError (List Node) :=
  tokens.foldlM (step blocks) progress >>= finish blocks

theorem scan_cons (progress : Progress) (token : Token) (rest : List Token) :
    scan blocks progress (token :: rest) = progress.step blocks token >>= fun next => scan blocks next rest := by
  rw [scan, List.foldlM_cons, bind_assoc]
  rfl

/-- The innermost component is read to its end by itself: it joins what is around it, and the scan goes on behind
the line that closes it. -/
theorem scan_readRest (body : Body) (component : OpenComponent) (outer : List OpenComponent) (tokens : List Token) :
    scan blocks ⟨body, component :: outer⟩ tokens =
      component.readRest blocks tokens >>= fun (node, ⟨left, _⟩) =>
        scan blocks (modify ⟨body, outer⟩ (·.addNode blocks node)) left := by
  induction component, tokens using OpenComponent.readRest.induct blocks generalizing body outer with
  | case1 component =>
    rw [OpenComponent.readRest]
    rfl
  | case2 component token rest text ih =>
    rw [OpenComponent.readRest, scan_cons]
    simp only [step, text, bind_assoc, pure_bind]
    exact ih body outer
  | case3 component token rest depth name block opens child behind =>
    rw [OpenComponent.readRest, scan_cons]
    simp only [step, opens, bind_assoc, pure_bind]
    cases OpenComponent.start name token.line block with
    | error cause => rfl
    | ok opened =>
      -- The component that opens is read to its end first, with this one around it.
      refine (child opened body (component :: outer)).trans (bind_congr fun node => ?_)
      exact behind node.1 node.2.1 node.2.2 body outer
  | case4 component token rest name slot ih =>
    rw [OpenComponent.readRest, scan_cons]
    simp only [step, slot, bind_assoc, pure_bind]
    exact ih body outer
  | case5 component token rest depth closes =>
    rw [OpenComponent.readRest, scan_cons]
    simp only [step, closes]
    rfl

/-- Reading a document by descent and from left to right is the same. -/
theorem readRest_eq_scan (body : Body) (tokens : List Token) :
    body.readRest blocks tokens = scan blocks ⟨body, []⟩ tokens := by
  induction body, tokens using Body.readRest.induct blocks with
  | case1 body =>
    rw [Body.readRest]
    rfl
  | case2 body token rest depth name block opens behind =>
    rw [Body.readRest, scan_cons]
    simp only [step, opens]
    cases OpenComponent.start name token.line block with
    | error cause => rfl
    | ok opened =>
      refine ((scan_readRest blocks body opened [] rest).trans (bind_congr fun node => ?_)).symm
      exact (behind node.1 node.2.1 node.2.2).symm
  | case3 body token rest other ih =>
    rw [scan_cons]
    have line : step blocks ⟨body, []⟩ token = .ok ⟨body.addLine token.raw, []⟩ := by
      cases kind : token.kind with
      | componentOpen depth name block => exact (other depth name block kind).elim
      | markdown | componentClose depth | slot name =>
        simp only [step, kind]
        rfl
    have read : body.readRest blocks (token :: rest) = (body.addLine token.raw).readRest blocks rest := by
      cases kind : token.kind with
      | componentOpen depth name block => exact (other depth name block kind).elim
      | markdown | componentClose depth | slot name => rw [Body.readRest, kind]
    rw [line, read]
    exact ih

end Progress

end ComponentMarkdown
