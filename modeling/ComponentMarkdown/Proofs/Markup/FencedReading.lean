import ComponentMarkdown.Proofs.Markup.Scan
import ComponentMarkdown.Proofs.Markup.Fenced

namespace ComponentMarkdown

namespace Node

/-- A slot with more content behind its own. -/
def withMore (more : List Node) : Node → Node
  | element tag attrs children => element tag attrs (children ++ more)
  | node => node

/-- A component or a slot in front of other content. The components behind a slot belong to the slot. -/
def inFront (node : Node) (more : List Node) : List Node :=
  match node.slotName? with
  | none => node :: more
  | some _ => node.withMore (more.takeWhile isBare) :: more.dropWhile isBare

/-- The content of a component, with what stands behind a slot in the slot. -/
def slotted (nodes : List Node) : List Node := nodes.foldr inFront []

mutual

/-- A component as it is read back from what it is written as. -/
def settled : Node → Node
  | .element tag attrs children =>
    match (Node.element tag attrs []).slotName? with
    | some _ => .element tag attrs (allSettled children)
    | none => .element tag (AttributeBlock.gathered attrs) (slotted (allSettled children))
  | node => node

def allSettled : List Node → List Node
  | [] => []
  | node :: rest => node.settled :: allSettled rest

end

theorem allSettled_eq_map (nodes : List Node) : allSettled nodes = nodes.map settled := by
  induction nodes with
  | nil => rw [allSettled, List.map_nil]
  | cons node rest ih => rw [allSettled, List.map_cons, ih]

theorem settled_component {tag : String} (meaning : TagKind.ofTag tag = .component) (attrs : Attrs)
    (children : List Node) : (element tag attrs children).settled =
      element tag (AttributeBlock.gathered attrs) (slotted (children.map settled)) := by
  rw [settled, slotName?_of_component meaning, allSettled_eq_map]

theorem settled_slot {name : String} (named : Token.isName name.toList = true) (children : List Node) :
    (element "template" [("v-slot:" ++ name, .str "")] children).settled =
    slotTemplate name (children.map settled) := by
  rw [settled, slotName?_slot named, allSettled_eq_map, slotTemplate]

theorem slotName?_settled {node : Node} (fenced : node.IsFenced) : node.settled.slotName? = node.slotName? := by
  cases fenced with
  | component named meaning =>
    rw [settled_component meaning, slotName?_of_component meaning, slotName?_of_component meaning]
  | slot named =>
    rw [settled_slot named, slotTemplate, slotName?_slot named, slotName?_slot named]

end Node

variable {blocks : List Char → List Node}

namespace Body

theorem finish_of_lines {body : Body} (closed : body.lines = []) : body.finish blocks = body.nodes := by
  rw [finish, closed]

theorem addNode_of_lines {body : Body} (closed : body.lines = []) (node : Node) :
    body.addNode blocks node = ⟨body.nodes ++ [node], []⟩ := by
  rw [addNode, finish_of_lines closed]

/-- An empty line leaves nothing, as an empty text has no nodes. -/
theorem addNode_addLine (empty : blocks [] = []) {body : Body} (closed : body.lines = []) (node : Node) :
    (body.addLine "").addNode blocks node = body.addNode blocks node := by
  obtain ⟨nodes, lines⟩ := body
  obtain rfl : lines = [] := closed
  have blank : Text.join ['\n'] ["".toList] = [] := rfl
  simp only [addNode, addLine, finish, List.nil_append, List.map_cons, List.map_nil, blank, empty,
    List.append_nil]

end Body

namespace Node

def content : Node → List Node
  | element _ _ children => children
  | _ => []

/-- A slot that is read back is made of its name and its content. -/
theorem withMore_settled {node : Node} (fenced : node.IsFenced) {name : String} (fills : node.slotName? = some name)
    (more : List Node) : node.settled.withMore more = slotTemplate name (node.settled.content ++ more) := by
  cases fenced with
  | component named meaning =>
    rw [slotName?_of_component meaning] at fills
    cases fills
  | slot named =>
    rw [slotName?_slot named] at fills
    cases fills
    rw [settled_slot named]
    rfl

theorem slotName?_withMore (node : Node) (more : List Node) : (node.withMore more).slotName? = node.slotName? := by
  cases node <;> rfl

end Node

namespace OpenComponent

/-- A component after another component or slot was read in it. -/
def feed (blocks : List Char → List Node) (component : OpenComponent) (node : Node) : OpenComponent :=
  match node.slotName? with
  | some name => { component.endSlot blocks with slot := some (name, ⟨node.settled.content, []⟩) }
  | none => component.modify (·.addNode blocks node.settled)

/-- The content of a component in which more components and slots follow. -/
def contentWith (component : OpenComponent) (more : List Node) : List Node :=
  component.children.nodes ++
    match component.slot with
    | none => more
    | some (name, body) => .slotTemplate name (body.nodes ++ more.takeWhile Node.isBare) ::
        more.dropWhile Node.isBare

/-- Whether no line waits to be read in a component. -/
def IsClosed (component : OpenComponent) : Prop :=
  component.children.lines = [] ∧ ∀ name body, component.slot = some (name, body) → body.lines = []

section Closed

variable {component : OpenComponent} (closed : component.IsClosed)

include closed

theorem endSlot_of_isClosed : component.endSlot blocks =
    { component with children := ⟨component.contentWith [], []⟩, slot := none } := by
  obtain ⟨title, line, attrs, ⟨nodes, lines⟩, slot⟩ := component
  obtain rfl : lines = [] := closed.1
  cases slot with
  | none => simp only [endSlot, contentWith, List.append_nil]
  | some slot =>
    obtain ⟨other, body⟩ := slot
    have lines := closed.2 other body rfl
    simp only [endSlot, contentWith, Body.finish_of_lines lines, Body.addNode_of_lines, List.takeWhile_nil,
      List.dropWhile_nil, List.append_nil]

theorem close_of_isClosed :
    component.close blocks = .element component.name component.attrs (component.contentWith []) := by
  rw [close, endSlot_of_isClosed closed]
  rfl

theorem feed_slot {node : Node} {name : String} (fills : node.slotName? = some name) : component.feed blocks node =
    { component with
      children := ⟨component.contentWith [], []⟩
      slot := some (name, ⟨node.settled.content, []⟩) } := by
  rw [feed, fills, endSlot_of_isClosed closed]

theorem feed_bare {node : Node} (bare : node.slotName? = none) : component.feed blocks node =
    match component.slot with
    | none => { component with children := ⟨component.children.nodes ++ [node.settled], []⟩ }
    | some (name, body) => { component with slot := some (name, ⟨body.nodes ++ [node.settled], []⟩) } := by
  obtain ⟨title, line, attrs, children, slot⟩ := component
  cases slot with
  | none => simp only [feed, bare, modify, Body.addNode_of_lines closed.1]
  | some slot => simp only [feed, bare, modify, Body.addNode_of_lines (closed.2 slot.1 slot.2 rfl)]

theorem feed_isClosed (node : Node) : (component.feed blocks node).IsClosed := by
  cases fills : node.slotName? with
  | none =>
    rw [feed_bare closed fills]
    cases component.slot with
    | none => exact ⟨rfl, by simp⟩
    | some body => exact ⟨closed.1, by rintro _ _ ⟨⟩; rfl⟩
  | some name =>
    rw [feed_slot closed fills]
    exact ⟨rfl, by rintro _ _ ⟨⟩; rfl⟩

/-- What is read goes in front of what follows. -/
theorem contentWith_feed {node : Node} (fenced : node.IsFenced) (more : List Node) :
    (component.feed blocks node).contentWith more = component.contentWith (node.settled.inFront more) := by
  have same := Node.slotName?_settled fenced
  cases fills : node.slotName? with
  | none =>
    rw [fills] at same
    rw [feed_bare closed fills, contentWith, contentWith, Node.inFront, same]
    cases component.slot with
    | none => simp only [List.append_assoc, List.singleton_append]
    | some slot =>
      rw [List.takeWhile_cons_of_pos (Node.isBare_iff.2 same), List.dropWhile_cons_of_pos (Node.isBare_iff.2 same)]
      simp only [List.append_assoc, List.singleton_append]
  | some name =>
    rw [fills] at same
    have whole := Node.withMore_settled fenced fills
    rw [feed_slot closed fills, contentWith, Node.inFront, same, contentWith, contentWith]
    cases component.slot with
    | none => simp only [whole, List.append_nil]
    | some slot =>
      have slot' : (node.settled.withMore (more.takeWhile Node.isBare)).isBare = false :=
        Node.isBare_of_slot ((Node.slotName?_withMore _ _).trans same)
      rw [List.takeWhile_cons_of_neg (by simp [slot']), List.dropWhile_cons_of_neg (by simp [slot']), whole]
      simp only [List.takeWhile_nil, List.dropWhile_nil, List.append_nil, List.append_assoc, List.singleton_append]

end Closed

theorem feed_kept (component : OpenComponent) (node : Node) :
    (component.feed blocks node).name = component.name ∧ (component.feed blocks node).attrs = component.attrs := by
  obtain ⟨title, line, attrs, children, slot⟩ := component
  cases fills : node.slotName? <;> cases slot <;> simp only [feed, fills, endSlot, modify, and_self]

/-- A component in which components and slots were read one after the other. -/
theorem close_feed {nodes : List Node} (fenced : ∀ node ∈ nodes, node.IsFenced) {component : OpenComponent}
    (closed : component.IsClosed) : (nodes.foldl (feed blocks) component).close blocks =
      .element component.name component.attrs (component.contentWith (Node.slotted (nodes.map Node.settled))) := by
  -- A slot takes in what follows, so the content is compared with all that follows from the start.
  induction nodes generalizing component with
  | nil => exact close_of_isClosed closed
  | cons node rest ih =>
    obtain ⟨here, below⟩ := List.forall_mem_cons.1 fenced
    obtain ⟨name, attrs⟩ := component.feed_kept node
    rw [List.foldl_cons, ih below (feed_isClosed closed node), name, attrs, contentWith_feed closed here]
    rfl

/-- Components that are read in a slot join its content. -/
theorem foldl_feed_slot {children : List Node} (bare : ∀ child ∈ children, child.slotName? = none)
    (component : OpenComponent) (name : String) (nodes : List Node) :
    children.foldl (feed blocks) { component with slot := some (name, ⟨nodes, []⟩) } =
      { component with slot := some (name, ⟨nodes ++ children.map Node.settled, []⟩) } := by
  induction children generalizing nodes with
  | nil => rw [List.foldl_nil, List.map_nil, List.append_nil]
  | cons child rest ih =>
    obtain ⟨here, below⟩ := List.forall_mem_cons.1 bare
    have next : feed blocks { component with slot := some (name, ⟨nodes, []⟩) } child =
        { component with slot := some (name, ⟨nodes ++ [child.settled], []⟩) } := by
      rw [feed, here]
      rfl
    rw [List.foldl_cons, next, ih below, List.map_cons, List.append_assoc, List.singleton_append]

end OpenComponent

namespace Progress

theorem step_open {name : String} {line : Nat} {block : Option String} {attrs : Attrs}
    (read : OpenComponent.openAttrs name line block = .ok attrs) (progress : Progress) (depth : Nat)
    (raw : String) : step blocks progress ⟨.componentOpen depth name block, raw, line⟩ =
      .ok ⟨progress.body, ⟨name, line, attrs, .empty, none⟩ :: progress.stack⟩ := by
  simp only [step, OpenComponent.start, read]
  rfl

theorem step_close (body : Body) (component : OpenComponent) (outer : List OpenComponent) (depth : Nat)
    (raw : String) (line : Nat) : step blocks ⟨body, component :: outer⟩ ⟨.componentClose depth, raw, line⟩ =
      .ok (modify ⟨body, outer⟩ (·.addNode blocks (component.close blocks))) := rfl

theorem openAttrs_written {attrs : Attrs} (readable : AttributeBlock.isReadable attrs = true) (name : String)
    (number : Nat) :
    OpenComponent.openAttrs name number (if AttributeBlock.write attrs [] = [] then none
      else some (String.ofList (AttributeBlock.write attrs []))) = .ok (AttributeBlock.gathered attrs) := by
  obtain ⟨distinct, plain, _, _⟩ := AttributeBlock.isReadable_iff.1 readable
  have restored : ∀ entry ∈ attrs,
    AttributeBlock.Restored entry := fun entry member => .of_isPlain (plain entry member)
  by_cases empty : attrs = []
  · subst empty
    rfl
  · have some := (AttributeBlock.write_eq_nil_iff restored).not.2 empty
    rw [if_neg some, OpenComponent.openAttrs, String.toList_ofList,
      AttributeBlock.read_write restored distinct empty]

/-- Wherever they stand, lines take a document from one state to another. -/
def Reads (blocks : List Char → List Node) (lines : List (List Char)) (progress after : Progress) : Prop :=
  ∀ number more, (Token.ofLines none number (lines ++ more)).foldlM (step blocks) progress =
    (Token.ofLines none (number + lines.length) more).foldlM (step blocks) after

namespace Reads

variable {progress between after : Progress}

theorem nil (progress : Progress) : Reads blocks [] progress progress := fun _ _ => rfl

theorem append {lines others : List (List Char)} (first : Reads blocks lines progress between)
    (second : Reads blocks others between after) : Reads blocks (lines ++ others) progress after := by
  intro number more
  rw [List.append_assoc, first, second, List.length_append, Nat.add_assoc]

/-- A line that opens no code fence. -/
theorem single {line : List Char} (plain : Token.opensFence? line = none)
    (read : ∀ number, step blocks progress ⟨Token.classify line, String.ofList line, number⟩ = .ok after) :
    Reads blocks [line] progress after := by
  intro number more
  rw [List.singleton_append, Token.ofLines_cons plain, List.foldlM_cons, read]
  rfl

theorem blank (progress : Progress) : Reads blocks [[]] progress (progress.modify (·.addLine "")) :=
  single Token.opensFence?_nil fun number => by rw [Token.classify_nil]; cases progress.stack <;> rfl

theorem slot {name : String} (named : Token.isName name.toList = true) (body : Body) (component : OpenComponent)
    (outer : List OpenComponent) :
    Reads blocks ['#' :: name.toList] ⟨body, component :: outer⟩
    ⟨body, component.startSlot blocks name :: outer⟩ := by
  refine single (Token.opensFence?_cons _ (by decide) (by decide) (by decide)) fun number => ?_
  rw [Token.classify_slot named, String.ofList_toList]
  rfl

/-- The lines of a component, given what the lines between the first and the last do inside it. -/
theorem component {tag : String} (named : Token.isName tag.toList = true) {attrs : Attrs}
    (readable : AttributeBlock.isReadable attrs = true) (depth : Nat) {lines : List (List Char)}
    {inner : Nat → OpenComponent}
    (inside : ∀ number, Reads blocks lines
      ⟨progress.body, ⟨tag, number, AttributeBlock.gathered attrs, .empty, none⟩ :: progress.stack⟩
      ⟨progress.body, inner number :: progress.stack⟩) {node : Node}
        (result : ∀ number, (inner number).close blocks = node) :
    Reads blocks ((List.replicate (depth + 2) ':' ++ (tag.toList ++ AttributeBlock.write attrs []))
      :: (lines ++ [List.replicate (depth + 2) ':'])) progress (progress.modify (·.addNode blocks node)) := by
  intro number more
  have colons : ∀ rest, Token.opensFence? (List.replicate (depth + 2) ':' ++ rest) = none := by
    intro rest
    rw [List.replicate_succ, List.cons_append]
    exact Token.opensFence?_cons _ (by decide) (by decide) (by decide)
  have opened := @step_open blocks _ _ _ _ (openAttrs_written readable tag number) progress (depth + 2)
    (String.ofList (List.replicate (depth + 2) ':' ++ (tag.toList ++ AttributeBlock.write attrs [])))
  have closed : Reads blocks [List.replicate (depth + 2) ':'] ⟨progress.body, inner number :: progress.stack⟩
      (progress.modify (·.addNode blocks node)) := by
    refine single (by simpa using colons []) fun line => ?_
    rw [Token.classify_close, step_close, result]
  have rest := ((inside number).append closed) (number + 1) more
  rw [List.cons_append, Token.ofLines_cons (colons _), List.foldlM_cons,
    Token.classify_open depth named (AttributeBlock.write_braced attrs), String.ofList_toList, opened]
  rw [List.length_cons, ← Nat.add_assoc, Nat.add_right_comm, ← rest]
  rfl

end Reads

/-- The body that is being collected. -/
def innermost (progress : Progress) : Body :=
  match progress.stack with
  | [] => progress.body
  | component :: _ =>
    match component.slot with
    | some (_, body) => body
    | none => component.children

theorem modify_congr {progress : Progress} {f g : Body → Body}
    (same : f progress.innermost = g progress.innermost) : progress.modify f = progress.modify g := by
  obtain ⟨body, stack⟩ := progress
  cases stack with
  | nil => exact congrArg (Progress.mk · []) same
  | cons component outer =>
    obtain ⟨name, line, attrs, children, slot⟩ := component
    cases slot with
    | none => exact congrArg (fun body' => Progress.mk body (⟨name, line, attrs, body', none⟩ :: outer)) same
    | some slot =>
      exact congrArg
        (fun body' => Progress.mk body (⟨name, line, attrs, children, some (slot.1, body')⟩ :: outer)) same

theorem modify_modify (progress : Progress) (f g : Body → Body) :
    (progress.modify f).modify g = progress.modify fun body => g (f body) := by
  obtain ⟨body, stack⟩ := progress
  cases stack with
  | nil => rfl
  | cons component outer =>
    obtain ⟨name, line, attrs, children, slot⟩ := component
    cases slot <;> rfl

theorem innermost_modify (progress : Progress) (f : Body → Body) :
    (progress.modify f).innermost = f progress.innermost := by
  obtain ⟨body, stack⟩ := progress
  cases stack with
  | nil => rfl
  | cons component outer =>
    obtain ⟨name, line, attrs, children, slot⟩ := component
    cases slot <;> rfl

/-- A document after another component, or a slot of the innermost component, was read. -/
def feed (blocks : List Char → List Node) (progress : Progress) (node : Node) : Progress :=
  match node.slotName?, progress.stack with
  | some _, component :: outer => { progress with stack := component.feed blocks node :: outer }
  | _, _ => progress.modify (·.addNode blocks node.settled)

theorem feed_bare {node : Node} (bare : node.slotName? = none) (progress : Progress) :
    progress.feed blocks node = progress.modify (·.addNode blocks node.settled) := by
  rw [feed, bare]

theorem feed_cons (body : Body) (component : OpenComponent) (outer : List OpenComponent) (node : Node) :
    feed blocks ⟨body, component :: outer⟩ node = ⟨body, component.feed blocks node :: outer⟩ := by
  cases fills : node.slotName? with
  | some name => simp only [feed, fills]
  | none => simp only [feed, fills, OpenComponent.feed, modify]

theorem foldl_feed_cons (nodes : List Node) (body : Body) (component : OpenComponent) (outer : List OpenComponent) :
    nodes.foldl (feed blocks) ⟨body, component :: outer⟩ =
      ⟨body, nodes.foldl (OpenComponent.feed blocks) component :: outer⟩ := by
  induction nodes generalizing component with
  | nil => rfl
  | cons node rest ih => rw [List.foldl_cons, List.foldl_cons, feed_cons, ih]

/-- Whether a node may stand where a document is read: slots stand in components only. -/
def Takes (progress : Progress) (node : Node) : Prop := node.slotName? = none ∨ progress.stack ≠ []

theorem takes_feed {progress : Progress} {node other : Node} (takes : progress.Takes node) :
    (progress.feed blocks other).Takes node := by
  refine takes.imp_right fun inside => ?_
  obtain ⟨body, stack⟩ := progress
  obtain ⟨component, outer, rfl⟩ := List.exists_cons_of_ne_nil inside
  rw [feed_cons]
  simp

/-- The lines of siblings are read one after the other. -/
theorem reads_all (empty : blocks [] = []) {nodes : List Node} (depth : Nat)
    (each : ∀ node ∈ nodes, ∀ progress : Progress, progress.Takes node →
      Reads blocks (node.fencedLines depth) progress (progress.feed blocks node))
    (progress : Progress) (takes : ∀ node ∈ nodes, progress.Takes node) (behindBare : Bool)
    (closed : behindBare = true → progress.innermost.lines = []) :
    Reads blocks (Node.allFencedLines depth behindBare nodes) progress (nodes.foldl (feed blocks) progress) := by
  induction nodes generalizing progress behindBare with
  | nil => exact .nil progress
  | cons node rest ih =>
    obtain ⟨here, below⟩ := List.forall_mem_cons.1 each
    obtain ⟨takesHere, takesBelow⟩ := List.forall_mem_cons.1 takes
    rw [Node.allFencedLines, List.foldl_cons]
    have later := ih below (progress.feed blocks node) (fun other member => takes_feed (takesBelow other member))
      node.isBare (by
        intro bare
        rw [feed_bare (Node.isBare_iff.1 bare), innermost_modify]
        rfl)
    -- An empty line between two components waits as markdown and is gone when the second one closes.
    by_cases gap : behindBare = true ∧ node.slotName? = none
    · obtain ⟨behind, bare⟩ := gap
      have blank := @Reads.blank blocks progress
      have first := here _ (Or.inl bare : (progress.modify (·.addLine "")).Takes node)
      have same : (progress.modify (·.addLine "")).feed blocks node = progress.feed blocks node := by
        rw [feed_bare bare, feed_bare bare, modify_modify]
        exact modify_congr (Body.addNode_addLine empty (closed behind) _)
      rw [same] at first
      rw [behind, Node.isBare_iff.2 bare]
      rw [Node.isBare_iff.2 bare] at later
      exact blank.append (first.append later)
    · have none : (if (behindBare && node.isBare) = true then [[]] else ([] : List (List Char))) = [] := by
        rw [if_neg]
        rwa [Bool.and_eq_true, Node.isBare_iff]
      rw [none, List.nil_append]
      exact (here progress takesHere).append later

/-- The lines of a component or a slot are read as it is settled. -/
theorem reads_fenced (empty : blocks [] = []) {node : Node} (fenced : node.IsFenced) (depth : Nat)
    (progress : Progress)
    (takes : progress.Takes node) : Reads blocks (node.fencedLines depth) progress (progress.feed blocks node) := by
  -- The state around a node is arbitrary, so what is inside it is read in the state that it opens.
  induction fenced generalizing depth progress with
  | @component tag attrs children named meaning readable below ih =>
    have bare := Node.slotName?_of_component meaning attrs children
    rw [Node.fencedLines_component meaning, feed_bare bare, Node.settled_component meaning]
    have content : ∀ number, Reads blocks (Node.allFencedLines (depth + 1) false children)
        ⟨progress.body, ⟨tag, number, AttributeBlock.gathered attrs, .empty, none⟩ :: progress.stack⟩
        ⟨progress.body,
          children.foldl (OpenComponent.feed blocks) ⟨tag, number, AttributeBlock.gathered attrs, .empty, none⟩ ::
          progress.stack⟩ := by
      intro number
      rw [← foldl_feed_cons]
      exact reads_all empty (depth + 1) (fun child member => ih child member (depth + 1)) _
        (fun _ _ => Or.inr (by simp)) false (by simp)
    refine Reads.component named readable depth content fun number => ?_
    rw [OpenComponent.close_feed below ⟨rfl, by simp⟩]
    rfl
  | @slot name children named below bare ih =>
    have fills := Node.slotName?_slot named children
    have inside := takes.resolve_left (by rw [fills]; simp)
    obtain ⟨body, stack⟩ := progress
    obtain ⟨component, outer, rfl⟩ := List.exists_cons_of_ne_nil inside
    rw [Node.fencedLines_slot named, feed_cons]
    have content := reads_all empty depth (fun child member => ih child member depth)
      ⟨body, component.startSlot blocks name :: outer⟩ (fun _ _ => Or.inr (by simp)) false (by simp)
    have filled :
        (component.startSlot blocks name) = { component.endSlot blocks with slot := some (name, ⟨[], []⟩) } := rfl
    have result :
        children.foldl (OpenComponent.feed blocks) (component.startSlot blocks name) = component.feed blocks
          (.element "template" [("v-slot:" ++ name, .str "")] children) := by
      rw [filled, OpenComponent.foldl_feed_slot bare, OpenComponent.feed, fills, Node.settled_slot named]
      rfl
    rw [foldl_feed_cons, result] at content
    exact (Reads.slot named body component outer).append content

end Progress

end ComponentMarkdown
