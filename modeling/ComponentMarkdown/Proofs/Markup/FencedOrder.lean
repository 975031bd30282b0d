import ComponentMarkdown.Proofs.Markup.FencedReading
import ComponentMarkdown.Proofs.Markup.Tree

namespace ComponentMarkdown

namespace Node

/-- Whether the components among siblings stand in front of the slots. -/
def isBareFirst (nodes : List Node) : Bool := ((nodes.map isBare).dropWhile id).all not

mutual

/-- Whether the components stand in front of the slots at every depth. -/
def isOrdered : Node → Bool
  | .element _ _ children => isBareFirst children && allOrdered children
  | _ => true

def allOrdered : List Node → Bool
  | [] => true
  | node :: rest => node.isOrdered && allOrdered rest

end

theorem allOrdered_eq_true {nodes : List Node} :
    allOrdered nodes = true ↔ ∀ node ∈ nodes, node.isOrdered = true := by
  induction nodes with
  | nil => simp [allOrdered]
  | cons node rest ih => rw [allOrdered, Bool.and_eq_true, ih, List.forall_mem_cons]

theorem isOrdered_element {tag : String} {attrs : Attrs} {children : List Node} :
    (element tag attrs children).isOrdered = true ↔
      isBareFirst children = true ∧ ∀ child ∈ children, child.isOrdered = true := by
  rw [isOrdered, Bool.and_eq_true, allOrdered_eq_true]

section Order

variable {nodes : List Node}

theorem isBareFirst_iff : isBareFirst nodes = true ↔
    ∀ node ∈ nodes.dropWhile isBare, node.isBare = false := by
  have behind : (nodes.map isBare).dropWhile id = (nodes.dropWhile isBare).map isBare := List.dropWhile_map
  simp only [isBareFirst, behind, List.all_map, List.all_eq_true, Function.comp_apply, Bool.not_eq_true']

theorem isBareFirst_map {f : Node → Node} (same : ∀ node ∈ nodes, (f node).isBare = node.isBare) :
    isBareFirst (nodes.map f) = isBareFirst nodes := by
  have kept : (nodes.map f).map isBare = nodes.map isBare := by
    rw [List.map_map]
    exact List.map_congr_left same
  rw [isBareFirst, kept, isBareFirst]

theorem withMore_nil (node : Node) : node.withMore [] = node := by
  cases node with
  | element => rw [withMore, List.append_nil]
  | text | comment => rfl

/-- Content stays as it is when no component stands behind a slot. -/
theorem slotted_of_isBareFirst (ordered : isBareFirst nodes = true) : slotted nodes = nodes := by
  rw [isBareFirst_iff] at ordered
  induction nodes with
  | nil => rfl
  | cons node rest ih =>
    rw [slotted, List.foldr_cons, ← slotted, inFront]
    cases fills : node.slotName? with
    | none =>
      rw [List.dropWhile_cons_of_pos (isBare_iff.2 fills)] at ordered
      rw [ih ordered]
    | some name =>
      rw [List.dropWhile_cons_of_neg (by simp [isBare_of_slot fills])] at ordered
      have slots := (List.forall_mem_cons.1 ordered).2
      have front : rest.takeWhile isBare = [] ∧ rest.dropWhile isBare = rest := by
        cases rest with
        | nil => exact ⟨rfl, rfl⟩
        | cons other more =>
          have slot := slots other List.mem_cons_self
          exact ⟨List.takeWhile_cons_of_neg (by simp [slot]), List.dropWhile_cons_of_neg (by simp [slot])⟩
      rw [ih (by rwa [front.2])]
      simp only [front, withMore_nil]

theorem isBareFirst_slotted (nodes : List Node) : isBareFirst (slotted nodes) = true := by
  rw [isBareFirst_iff]
  induction nodes with
  | nil => simp [slotted]
  | cons node rest ih =>
    rw [slotted, List.foldr_cons, ← slotted, inFront]
    cases fills : node.slotName? with
    | none => rwa [List.dropWhile_cons_of_pos (isBare_iff.2 fills)]
    | some name =>
      have slot : (node.withMore ((slotted rest).takeWhile isBare)).isBare = false :=
        isBare_of_slot ((slotName?_withMore _ _).trans fills)
      rw [List.dropWhile_cons_of_neg (by simp [slot])]
      exact List.forall_mem_cons.2 ⟨slot, ih⟩

/-- Only the components in front of the first slot stand beside the slots. -/
theorem filter_slotted (nodes : List Node) :
    (slotted nodes).filter isBare = nodes.takeWhile isBare := by
  induction nodes with
  | nil => rfl
  | cons node rest ih =>
    have ordered := isBareFirst_iff.1 (isBareFirst_slotted rest)
    rw [slotted, List.foldr_cons, ← slotted, inFront]
    cases fills : node.slotName? with
    | none =>
      have bare := isBare_iff.2 fills
      rw [List.takeWhile_cons_of_pos bare, List.filter_cons_of_pos bare, ih]
    | some name =>
      have slot := isBare_of_slot fills
      have slot' := isBare_of_slot ((slotName?_withMore node ((slotted rest).takeWhile isBare)).trans fills)
      simp only
      rw [List.takeWhile_cons_of_neg (by simp [slot]),
        List.filter_cons_of_neg (by simp [slot']), List.filter_eq_nil_iff]
      exact fun other member => by simp [ordered other member]

theorem isBareFirst_of_bare (bare : ∀ node ∈ nodes, node.slotName? = none) : isBareFirst nodes = true := by
  have none : nodes.dropWhile isBare = [] :=
    List.dropWhile_eq_nil_iff.2 fun node member => isBare_iff.2 (bare node member)
  rw [isBareFirst_iff, none]
  exact List.forall_mem_nil _

theorem isBareFirst_of_length
    (all : (nodes.takeWhile isBare).length = (nodes.filter isBare).length) :
    isBareFirst nodes = true := by
  have apart : nodes.filter isBare = nodes.takeWhile isBare ++
      (nodes.dropWhile isBare).filter isBare := by
    conv_lhs => rw [← @List.takeWhile_append_dropWhile _ isBare nodes]
    rw [List.filter_append, List.filter_eq_self.2]
    exact fun node member => List.mem_takeWhile_imp member
  rw [apart, List.length_append] at all
  have none := List.eq_nil_of_length_eq_zero (by omega :
    ((nodes.dropWhile isBare).filter isBare).length = 0)
  rw [List.filter_eq_nil_iff] at none
  exact isBareFirst_iff.2 fun node member => by simpa using none node member

end Order

theorem isBare_settled {node : Node} (fenced : node.IsFenced) : node.settled.isBare = node.isBare :=
  congrArg Option.isNone (slotName?_settled fenced)

/-- Ordered components are settled but for their attributes. -/
theorem alike_settled {node : Node} (fenced : node.IsFenced) (ordered : node.isOrdered = true) :
    node.Alike node.settled := by
  induction fenced with
  | @component tag attrs children named meaning readable below ih =>
    obtain ⟨first, deeper⟩ := isOrdered_element.1 ordered
    obtain ⟨_, _, tidy, _⟩ := AttributeBlock.isReadable_iff.1 readable
    have kept := isBareFirst_map fun child member => isBare_settled (below child member)
    rw [settled_component meaning, slotted_of_isBareFirst (kept.trans first)]
    refine Alike.element (AttributeBlock.gathered_perm tidy).symm
      (List.forall₂_map_right_iff.2 (List.forall₂_same.2 ?_))
    exact fun child member => ih child member (deeper child member)
  | @slot name children named below bare ih =>
    obtain ⟨_, deeper⟩ := isOrdered_element.1 ordered
    rw [settled_slot named]
    refine Alike.element (List.Perm.refl _) (List.forall₂_map_right_iff.2 (List.forall₂_same.2 ?_))
    exact fun child member => ih child member (deeper child member)

/-- A component without attributes around such components and named slots in any order, or a named slot
around such components. -/
inductive IsOutline : Node → Prop
  | component {tag : String} {children : List Node} (named : Token.isName tag.toList = true)
      (meaning : TagKind.ofTag tag = .component) (below : ∀ child ∈ children, IsOutline child) :
      IsOutline (.element tag [] children)
  | slot {name : String} {children : List Node} (named : Token.isName name.toList = true)
      (below : ∀ child ∈ children, IsOutline child) (bare : ∀ child ∈ children, child.slotName? = none) :
      IsOutline (slotTemplate name children)

theorem IsOutline.fenced {node : Node} (outline : node.IsOutline) : node.IsFenced := by
  induction outline with
  | component named meaning below ih => exact .component named meaning (by decide) ih
  | slot named below bare ih => exact .slot named ih bare

/-- Siblings with the components in front of the slots. -/
def bareFirst (nodes : List Node) : List Node := nodes.filter isBare ++ nodes.filter (!·.isBare)

mutual

/-- A node with the components in front of the slots at every depth. Two nodes are the same so if they
have the same components and the same slots, each with the same content. -/
def regrouped : Node → Node
  | .element tag attrs children => .element tag attrs (bareFirst (allRegrouped children))
  | node => node

def allRegrouped : List Node → List Node
  | [] => []
  | node :: rest => node.regrouped :: allRegrouped rest

end

theorem allRegrouped_eq_map (nodes : List Node) : allRegrouped nodes = nodes.map regrouped := by
  induction nodes with
  | nil => rw [allRegrouped, List.map_nil]
  | cons node rest ih => rw [allRegrouped, List.map_cons, ih]

theorem regrouped_element (tag : String) (attrs : Attrs) (children : List Node) :
    (element tag attrs children).regrouped = element tag attrs (bareFirst (children.map regrouped)) := by
  rw [regrouped, allRegrouped_eq_map]

theorem isBare_regrouped (node : Node) : node.regrouped.isBare = node.isBare := by
  cases node with
  | element tag attrs children => rw [regrouped]; rfl
  | text | comment => simp only [regrouped]

theorem filter_map_of_isBare {nodes : List Node} {f : Node → Node}
    (same : ∀ node ∈ nodes, (f node).isBare = node.isBare)
    (p : Bool → Bool) : (nodes.map f).filter (p ·.isBare) = (nodes.filter (p ·.isBare)).map f := by
  rw [List.filter_map]
  exact congrArg _ (List.filter_congr fun node member => congrArg p (same node member))

theorem filter_isBare_map {nodes : List Node} {f : Node → Node}
    (same : ∀ node ∈ nodes, (f node).isBare = node.isBare) :
    (nodes.map f).filter isBare = (nodes.filter isBare).map f := filter_map_of_isBare same id

theorem bareFirst_inj {nodes others : List Node} : bareFirst nodes = bareFirst others ↔
    nodes.filter isBare = others.filter isBare ∧ nodes.filter (!·.isBare) = others.filter (!·.isBare) := by
  constructor
  · intro same
    have bares := congrArg (List.filter isBare) same
    have slots := congrArg (List.filter (!·.isBare)) same
    simpa [bareFirst, List.filter_filter] using And.intro bares slots
  · rintro ⟨bares, slots⟩
    rw [bareFirst, bares, slots, bareFirst]

section Children

variable {children : List Node}

theorem bareFirst_map_inj {f g : Node → Node} (left : ∀ child ∈ children, (f child).isBare = child.isBare)
    (right : ∀ child ∈ children, (g child).isBare = child.isBare) :
    bareFirst (children.map f) = bareFirst (children.map g) ↔ ∀ child ∈ children, f child = g child := by
  rw [bareFirst_inj, filter_isBare_map left, filter_isBare_map right, filter_map_of_isBare left,
    filter_map_of_isBare right, List.map_inj_left, List.map_inj_left]
  constructor
  · rintro ⟨bares, slots⟩ child member
    cases bare : child.isBare with
    | true => exact bares child (List.mem_filter.2 ⟨member, bare⟩)
    | false => exact slots child (List.mem_filter.2 ⟨member, by rw [bare]; rfl⟩)
  · intro all
    exact ⟨fun child member => all child (List.mem_filter.1 member).1,
      fun child member => all child (List.mem_filter.1 member).1⟩

variable (fenced : ∀ child ∈ children, child.IsFenced)

include fenced

/-- A component that stands behind a slot does not stand beside the slots any more. -/
theorem isBareFirst_of_bareFirst_slotted (same :
    bareFirst ((slotted (children.map settled)).map regrouped) = bareFirst (children.map regrouped)) :
    isBareFirst children = true := by
  -- The components beside the slots are counted: those behind the first slot are missing after settling.
  obtain ⟨bares, _⟩ := bareFirst_inj.1 same
  have settled : ∀ child ∈ children, child.settled.isBare = child.isBare :=
    fun child member => isBare_settled (fenced child member)
  have regrouped : ∀ nodes : List Node,
      ((nodes.map Node.regrouped).filter isBare).length = (nodes.filter isBare).length := by
    intro nodes
    rw [filter_isBare_map fun node _ => isBare_regrouped node, List.length_map]
  have lengths := congrArg List.length bares
  rw [regrouped, regrouped, filter_slotted] at lengths
  have all : (children.filter isBare).length = ((children.map Node.settled).filter isBare).length := by
    rw [filter_isBare_map settled, List.length_map]
  rw [← isBareFirst_map settled]
  exact isBareFirst_of_length (lengths.trans all)

/-- Settling content keeps the components beside the slots and the content of the slots if and only if the
components stand in front of the slots. -/
theorem bareFirst_slotted_iff :
    bareFirst ((slotted (children.map settled)).map regrouped) = bareFirst (children.map regrouped) ↔
    isBareFirst children = true ∧ ∀ child ∈ children, child.settled.regrouped = child.regrouped := by
  have settled := isBareFirst_map fun child member => isBare_settled (fenced child member)
  have both : isBareFirst children = true → ((slotted (children.map Node.settled)).map regrouped =
      children.map fun child => child.settled.regrouped) := by
    intro first
    rw [slotted_of_isBareFirst (settled.trans first), List.map_map]
    rfl
  have inj := @bareFirst_map_inj children (fun child => child.settled.regrouped) regrouped
    (fun child member => (isBare_regrouped _).trans (isBare_settled (fenced child member)))
    fun child _ => isBare_regrouped child
  constructor
  · intro same
    have first := isBareFirst_of_bareFirst_slotted fenced same
    rw [both first, inj] at same
    exact ⟨first, same⟩
  · rintro ⟨first, same⟩
    rw [both first]
    exact inj.2 same

end Children

/-- Settling keeps the components beside the slots and the content of the slots if and only if the
components stand in front of the slots at every depth. -/
theorem regrouped_settled_iff {node : Node} (outline : node.IsOutline) :
    node.settled.regrouped = node.regrouped ↔ node.isOrdered = true := by
  induction outline with
  | @component tag children named meaning below ih =>
    have none : AttributeBlock.gathered [] = [] := rfl
    rw [settled_component meaning, regrouped_element, regrouped_element, none, isOrdered_element, element.injEq]
    simp only [true_and, bareFirst_slotted_iff fun child member => (below child member).fenced]
    exact and_congr_right fun _ => forall₂_congr ih
  | @slot name children named below bare ih =>
    have fenced : ∀ child ∈ children, child.IsFenced := fun child member => (below child member).fenced
    -- A slot holds components only, so nothing moves in it.
    have first := isBareFirst_of_bare bare
    have settled := isBareFirst_map fun child member => isBare_settled (fenced child member)
    have kept := slotted_of_isBareFirst (settled.trans first)
    have iff := bareFirst_slotted_iff fenced
    rw [kept] at iff
    rw [slotTemplate, settled_slot named, slotTemplate, regrouped_element, regrouped_element, isOrdered_element,
      element.injEq]
    simp only [true_and, iff]
    exact and_congr_right fun _ => forall₂_congr ih

end Node

end ComponentMarkdown
