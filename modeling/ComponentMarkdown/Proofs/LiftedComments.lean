import ComponentMarkdown.Platform
import ComponentMarkdown.Proofs.FormattedText

namespace ComponentMarkdown

namespace Node

/-- The tags of formatting that is read as a mark whatever stands in it. -/
def emphasisTags : List String := ["strong", "em", "del"]

mutual

/-- Whether a node is a text that is not empty, a comment, or formatting around such nodes, of which no two
neighbours would be read as one. -/
def isAnnotatedText : Node → Bool
  | .text content => content ≠ ""
  | .comment _ => true
  | .element tag attrs children =>
    tag ∈ emphasisTags && attrs.wellFormed && !children.isEmpty && areAnnotatedText children

def areAnnotatedText : List Node → Bool
  | [] => true
  | node :: rest => node.isAnnotatedText && !rest.head?.any (runsInto node) && areAnnotatedText rest

end

def isComment : Node → Bool
  | .comment _ => true
  | _ => false

mutual

/-- Whether no comment stands in a node. -/
def isCommentFree : Node → Bool
  | .text _ => true
  | .comment _ => false
  | .element _ _ children => areCommentFree children

def areCommentFree : List Node → Bool
  | [] => true
  | node :: rest => node.isCommentFree && areCommentFree rest

end

/-- Formatting around nodes, if there are any. -/
def formatting (tag : String) (attrs : Attrs) (run : List Node) : List Node :=
  if run.isEmpty then [] else [.element tag attrs run]

/-- Formatting around what stands between the comments of a list, with the nodes `run` in front of it. -/
def formattingBetween (tag : String) (attrs : Attrs) (run : List Node) : List Node → List Node
  | [] => formatting tag attrs run
  | .comment content :: rest => formatting tag attrs run ++ .comment content :: formattingBetween tag attrs [] rest
  | node :: rest => formattingBetween tag attrs (run ++ [node]) rest

mutual

/-- The nodes that annotated text comes back as: comments are lifted out of the formatting around them. -/
def lifted : Node → List Node
  | .element tag attrs children => formattingBetween tag attrs [] (allLifted children)
  | node => [node]

def allLifted : List Node → List Node
  | [] => []
  | node :: rest => node.lifted ++ allLifted rest

end

/-- Whether two nodes are the same text, or elements with the same tag and attributes. -/
def SameOutside : Node → Node → Prop
  | .text content, .text content' => content = content'
  | .element tag attrs _, .element tag' attrs' _ => tag = tag' ∧ attrs = attrs'
  | _, _ => False

theorem isComment_cases (node : Node) : (∃ content, node = comment content) ∨ node.isComment = false := by
  cases node with
  | comment content => exact Or.inl ⟨content, rfl⟩
  | text | element => exact Or.inr rfl

section Between

variable {tag : String} {attrs : Attrs} {run nodes : List Node}

theorem mem_formatting {node : Node} (member : node ∈ formatting tag attrs run) :
    run ≠ [] ∧ node = element tag attrs run := by
  rw [formatting] at member
  split at member
  · cases member
  · rename_i some
    exact ⟨by simpa using some, List.mem_singleton.1 member⟩

theorem formattingBetween_comment (content : String) : formattingBetween tag attrs run (comment content :: nodes) =
    formatting tag attrs run ++ comment content :: formattingBetween tag attrs [] nodes := by
  rw [formattingBetween]

theorem formattingBetween_cons {node : Node} (plain : node.isComment = false) :
    formattingBetween tag attrs run (node :: nodes) = formattingBetween tag attrs (run ++ [node]) nodes := by
  cases node with
  | comment => cases plain
  | text | element => rw [formattingBetween]; simp

theorem formattingBetween_ne_nil (some : run ++ nodes ≠ []) : formattingBetween tag attrs run nodes ≠ [] := by
  induction nodes generalizing run with
  | nil =>
    rw [List.append_nil] at some
    simp [formattingBetween, formatting, some]
  | cons node rest ih =>
    rcases node.isComment_cases with ⟨content, rfl⟩ | plain
    · rw [formattingBetween_comment]
      simp
    · rw [formattingBetween_cons plain]
      exact ih (by simp)

theorem formattingBetween_of_plain (plain : ∀ node ∈ nodes, node.isComment = false) :
    formattingBetween tag attrs run nodes = formatting tag attrs (run ++ nodes) := by
  induction nodes generalizing run with
  | nil => rw [formattingBetween, List.append_nil]
  | cons node rest ih =>
    obtain ⟨here, below⟩ := List.forall_mem_cons.1 plain
    rw [formattingBetween_cons here, ih below, List.append_assoc, List.singleton_append]

/-- Formatting that is cut at comments holds nodes that stand between two of them. -/
theorem mem_formattingBetween (plain : ∀ node ∈ run, node.isComment = false) {node : Node}
    (member : node ∈ formattingBetween tag attrs run nodes) : (∃ content, node = comment content) ∨
    ∃ inner, node = element tag attrs inner ∧ inner ≠ [] ∧ (∀ child ∈ inner, child.isComment = false) ∧
      inner <:+: run ++ nodes := by
  induction nodes generalizing run with
  | nil =>
    rw [formattingBetween] at member
    obtain ⟨some, rfl⟩ := mem_formatting member
    exact Or.inr ⟨run, rfl, some, plain, (List.prefix_append run []).isInfix⟩
  | cons first rest ih =>
    rcases first.isComment_cases with ⟨content, rfl⟩ | here
    · rw [formattingBetween_comment, List.mem_append, List.mem_cons] at member
      rcases member with inside | rfl | later
      · obtain ⟨some, rfl⟩ := mem_formatting inside
        exact Or.inr ⟨run, rfl, some, plain, (List.prefix_append run _).isInfix⟩
      · exact Or.inl ⟨content, rfl⟩
      · refine (ih (List.forall_mem_nil _) later).imp_right ?_
        rintro ⟨inner, same, some, plain, part⟩
        have behind : rest <:+: run ++ comment content :: rest :=
          ((List.suffix_cons _ rest).trans (List.suffix_append run _)).isInfix
        exact ⟨inner, same, some, plain, part.trans behind⟩
    · rw [formattingBetween_cons here] at member
      have longer := ih (List.forall_mem_append.2 ⟨plain, List.forall_mem_singleton.2 here⟩) member
      rwa [List.append_assoc, List.singleton_append] at longer

/-- Formatting is followed by a comment or by nothing. -/
theorem formattingBetween_isChain :
    (formattingBetween tag attrs run nodes).IsChain fun x y => runsInto x y = false := by
  have comment : ∀ content next, runsInto (comment content) next = false := by
    intro content next
    cases next <;> rfl
  induction nodes generalizing run with
  | nil =>
    rw [formattingBetween, formatting]
    split
    · exact .nil
    · exact .singleton _
  | cons first rest ih =>
    rcases first.isComment_cases with ⟨content, rfl⟩ | here
    · rw [formattingBetween_comment]
      have behind : (Node.comment content :: formattingBetween tag attrs [] rest).IsChain
          fun x y => runsInto x y = false :=
        List.isChain_cons.2 ⟨fun next _ => comment content next, ih⟩
      rw [formatting]
      split
      · exact behind
      · exact .cons_cons rfl behind
    · rw [formattingBetween_cons here]
      exact ih

end Between

theorem areAnnotatedText_iff {nodes : List Node} : areAnnotatedText nodes = true ↔
    (∀ node ∈ nodes, node.isAnnotatedText = true) ∧ nodes.IsChain fun x y => runsInto x y = false := by
  induction nodes with
  | nil => simp [areAnnotatedText]
  | cons node rest ih =>
    rw [areAnnotatedText, Bool.and_eq_true, Bool.and_eq_true, ih, List.forall_mem_cons, List.isChain_cons,
      Bool.not_eq_true', Option.any_eq_false]
    simp only [Option.mem_def]
    tauto

theorem areAnnotatedText_tail {node : Node} {rest : List Node}
    (annotated : areAnnotatedText (node :: rest) = true) : areAnnotatedText rest = true := by
  rw [areAnnotatedText, Bool.and_eq_true] at annotated
  exact annotated.2

theorem areCanonicalInline_iff [Surroundings] {formatted : Bool} {nodes : List Node} :
    areCanonicalInline formatted nodes = true ↔
    (∀ node ∈ nodes, isCanonicalInline formatted node = true) ∧ nodes.IsChain fun x y => runsInto x y = false := by
  induction nodes with
  | nil => simp [areCanonicalInline]
  | cons node rest ih =>
    rw [areCanonicalInline_cons, ih, List.forall_mem_cons, List.isChain_cons]
    tauto

theorem isAnnotatedText_element_iff {tag : String} {attrs : Attrs} {children : List Node} :
    (element tag attrs children).isAnnotatedText = true ↔ tag ∈ emphasisTags ∧ attrs.wellFormed = true ∧
      children ≠ [] ∧ areAnnotatedText children = true := by
  rw [isAnnotatedText, Bool.and_eq_true, Bool.and_eq_true, Bool.and_eq_true, decide_eq_true_eq,
    and_assoc, and_assoc, Bool.not_eq_true', List.isEmpty_eq_false_iff]

section Emphasis

variable {tag : String} (emphasis : tag ∈ emphasisTags)

include emphasis

theorem mark?_of_emphasis [Surroundings] : ∃ kind : MarkKind, kind ≠ .code ∧
    ∀ attrs children, (element tag attrs children).mark? = some ⟨kind, attrs⟩ := by
  simp only [emphasisTags, List.mem_cons, List.not_mem_nil, or_false] at emphasis
  rcases emphasis with rfl | rfl | rfl
  · exact ⟨.bold, by simp, fun _ _ => rfl⟩
  · exact ⟨.italic, by simp, fun _ _ => rfl⟩
  · exact ⟨.strike, by simp, fun _ _ => rfl⟩

theorem isCanonicalInline_emphasis [Surroundings] {formatted : Bool} {attrs : Attrs} {children : List Node}
    (valid : attrs.wellFormed = true) (some : children ≠ []) (below : areCanonicalInline true children = true) :
    isCanonicalInline formatted (element tag attrs children) = true := by
  have nonempty : children.isEmpty = false := by simpa using some
  simp only [emphasisTags, List.mem_cons, List.not_mem_nil, or_false] at emphasis
  rcases emphasis with rfl | rfl | rfl <;> rw [isCanonicalInline, valid, Bool.true_and]
  all_goals
    change (!children.isEmpty && areCanonicalInline true children) = true
    rw [nonempty, below]
    rfl

end Emphasis

theorem isCanonicalInline_formatted [Surroundings] {node : Node} (plain : node.isComment = false)
    (canonical : isCanonicalInline false node = true) : isCanonicalInline true node = true := by
  cases node with
  | comment => cases plain
  | text content => exact canonical
  | element tag attrs children =>
    rw [isCanonicalInline] at canonical ⊢
    exact canonical

theorem allLifted_eq (nodes : List Node) : allLifted nodes = nodes.flatMap lifted := by
  induction nodes with
  | nil => rw [allLifted, List.flatMap_nil]
  | cons node rest ih => rw [allLifted, ih, List.flatMap_cons]

theorem lifted_text (content : String) : (text content).lifted = [text content] := by
  rw [lifted]
  simp

theorem lifted_comment (content : String) : (comment content).lifted = [comment content] := by
  rw [lifted]
  simp

theorem lifted_element (tag : String) (attrs : Attrs) (children : List Node) :
    (element tag attrs children).lifted = formattingBetween tag attrs [] (allLifted children) := by
  rw [lifted]

theorem lifted_ne_nil {node : Node} (annotated : node.isAnnotatedText = true) : node.lifted ≠ [] := by
  induction node using induction with
  | text => rw [lifted_text]; simp
  | comment => rw [lifted_comment]; simp
  | element tag attrs children ih =>
    obtain ⟨_, _, some, below⟩ := isAnnotatedText_element_iff.1 annotated
    obtain ⟨child, rest, rfl⟩ := List.exists_cons_of_ne_nil some
    have first := ih child List.mem_cons_self ((areAnnotatedText_iff.1 below).1 child List.mem_cons_self)
    rw [lifted_element]
    exact formattingBetween_ne_nil (by simp [allLifted, first])

theorem sameOutside_of_mem_lifted {piece node : Node} (member : piece ∈ node.lifted) :
    (∃ content, piece = comment content) ∨ piece.SameOutside node := by
  cases node with
  | text content =>
    rw [lifted_text, List.mem_singleton] at member
    rw [member]
    exact Or.inr rfl
  | comment content =>
    rw [lifted_comment, List.mem_singleton] at member
    exact Or.inl ⟨content, member⟩
  | element tag attrs children =>
    rw [lifted_element] at member
    refine (mem_formattingBetween (List.forall_mem_nil _) member).imp_right ?_
    rintro ⟨inner, rfl, _⟩
    exact ⟨rfl, rfl⟩

theorem runsInto_of_sameOutside [Surroundings] {node next piece other : Node} (left : piece.SameOutside node)
    (right : other.SameOutside next) (annotated : node.isAnnotatedText = true)
    (annotated' : next.isAnnotatedText = true) (into : runsInto piece other = true) :
    runsInto node next = true := by
  cases piece with
  | comment => cases left
  | text content =>
    cases node with
    | comment | element => cases left
    | text =>
      cases other with
      | comment | element => cases into
      | text =>
        cases next with
        | comment | element => cases right
        | text => rfl
  | element tag attrs inner =>
    cases node with
    | comment | text => cases left
    | element =>
      cases other with
      | comment | text => cases into
      | element =>
        cases next with
        | comment | text => cases right
        | element =>
          obtain ⟨rfl, rfl⟩ := left
          obtain ⟨rfl, rfl⟩ := right
          obtain ⟨_, _, marked⟩ := mark?_of_emphasis (isAnnotatedText_element_iff.1 annotated).1
          obtain ⟨_, _, marked'⟩ := mark?_of_emphasis (isAnnotatedText_element_iff.1 annotated').1
          rw [runsInto, dissolves_eq, dissolves_eq, marked, marked'] at into ⊢
          exact into

/-- The first node that is lifted is one of the first node. -/
theorem mem_lifted_of_head {nodes : List Node} (annotated : areAnnotatedText nodes = true) {piece : Node}
    (first : piece ∈ (allLifted nodes).head?) : ∃ node rest, nodes = node :: rest ∧ piece ∈ node.lifted := by
  cases nodes with
  | nil => simp [allLifted] at first
  | cons node rest =>
    have some := lifted_ne_nil ((areAnnotatedText_iff.1 annotated).1 node List.mem_cons_self)
    rw [allLifted, List.head?_append_of_ne_nil _ some] at first
    exact ⟨node, rest, rfl, List.mem_of_mem_head? first⟩

theorem areCanonicalInline_allLifted [Surroundings] {nodes : List Node}
    (each : ∀ node ∈ nodes, node.isAnnotatedText = true → areCanonicalInline false node.lifted = true)
    (annotated : areAnnotatedText nodes = true) : areCanonicalInline false (allLifted nodes) = true := by
  have apart : ∀ content other,
      runsInto (comment content) other = false ∧ runsInto other (comment content) = false := by
    intro content other
    cases other <;> exact ⟨rfl, rfl⟩
  induction nodes with
  | nil => rfl
  | cons node rest ih =>
    obtain ⟨here, later⟩ := List.forall_mem_cons.1 each
    have annotated' := areAnnotatedText_tail annotated
    obtain ⟨valid, chain⟩ := areAnnotatedText_iff.1 annotated
    have first := areCanonicalInline_iff.1 (here (valid node List.mem_cons_self))
    have behind := areCanonicalInline_iff.1 (ih later annotated')
    rw [areCanonicalInline_iff, allLifted]
    refine ⟨List.forall_mem_append.2 ⟨first.1, behind.1⟩, List.isChain_append.2 ⟨first.2, behind.2, ?_⟩⟩
    intro piece last other next
    obtain ⟨follower, more, rfl, inside⟩ := mem_lifted_of_head annotated' next
    have apart' := (List.isChain_cons_cons.1 chain).1
    rcases sameOutside_of_mem_lifted (List.mem_of_getLast? last) with ⟨content, rfl⟩ | left
    · exact (apart content other).1
    rcases sameOutside_of_mem_lifted inside with ⟨content, rfl⟩ | right
    · exact (apart content piece).2
    by_contra into
    rw [Bool.not_eq_false] at into
    rw [runsInto_of_sameOutside left right (valid node (by simp)) (valid follower (by simp)) into] at apart'
    cases apart'

/-- With its comments lifted, annotated text is canonical. -/
theorem areCanonicalInline_lifted [Surroundings] {node : Node} (annotated : node.isAnnotatedText = true) :
    areCanonicalInline false node.lifted = true := by
  induction node using induction with
  | text content =>
    rw [isAnnotatedText, decide_eq_true_eq] at annotated
    rw [lifted_text]
    simp [areCanonicalInline, isCanonicalInline, annotated]
  | comment content =>
    rw [lifted_comment]
    rfl
  | element tag attrs children ih =>
    obtain ⟨emphasis, valid, _, below⟩ := isAnnotatedText_element_iff.1 annotated
    obtain ⟨inside, chain⟩ := areCanonicalInline_iff.1 (areCanonicalInline_allLifted ih below)
    rw [lifted_element, areCanonicalInline_iff]
    refine ⟨fun piece member => ?_, formattingBetween_isChain⟩
    rcases mem_formattingBetween (List.forall_mem_nil _) member
      with ⟨content, rfl⟩ | ⟨inner, rfl, some, plain, part⟩
    · rfl
    · refine isCanonicalInline_emphasis emphasis valid some (areCanonicalInline_iff.2 ⟨fun child within => ?_, ?_⟩)
      · exact isCanonicalInline_formatted (plain child within) (inside child (part.subset within))
      · exact chain.infix part

section Uninterrupted

theorem isInterrupted_of_noText {space : Node} (noText : space.isText = false) (left right : Node) :
    isInterrupted left space right = false := by
  by_contra interrupted
  rw [Bool.not_eq_false, isInterrupted_iff] at interrupted
  obtain ⟨_, _, _, _, _, _, _, _, rfl, _⟩ := interrupted
  cases noText

/-- Nodes that are no texts, in front of others. Only the last of them can be interrupted. -/
theorem isUninterrupted_append {front rest : List Node} (noText : ∀ node ∈ front, node.isText = false)
    (last : ∀ node ∈ front.getLast?, ∀ space right more, rest = space :: right :: more →
      isInterrupted node space right = false) (behind : isUninterrupted rest = true) :
    isUninterrupted (front ++ rest) = true := by
  induction front with
  | nil => exact behind
  | cons node more ih =>
    obtain ⟨_, others⟩ := List.forall_mem_cons.1 noText
    by_cases only : more = []
    · subst only
      exact isUninterrupted_cons.2 ⟨last node rfl, behind⟩
    · rw [List.cons_append]
      refine isUninterrupted_cons.2 ⟨fun space right below same => ?_, ih others ?_⟩
      · obtain ⟨next, after, rfl⟩ := List.exists_cons_of_ne_nil only
        rw [List.cons_append] at same
        rw [← (List.cons.inj same).1]
        exact isInterrupted_of_noText (others next List.mem_cons_self) node right
      · rwa [List.getLast?_cons_of_ne_nil only] at last

theorem text_of_mem_lifted {content : String} {node : Node} (member : text content ∈ node.lifted) :
    node = text content := by
  rcases sameOutside_of_mem_lifted member with ⟨_, other⟩ | same
  · cases other
  · cases node with
    | comment | element => cases same
    | text =>
      cases same
      rfl

theorem element_of_mem_lifted {tag : String} {attrs : Attrs} {inner : List Node} {node : Node}
    (member : element tag attrs inner ∈ node.lifted) : ∃ children, node = element tag attrs children := by
  rcases sameOutside_of_mem_lifted member with ⟨_, other⟩ | same
  · cases other
  · cases node with
    | comment | text => cases same
    | element =>
      obtain ⟨rfl, rfl⟩ := same
      exact ⟨_, rfl⟩

/-- Where a single blank interrupts formatting, it did so before comments were lifted. -/
theorem isUninterrupted_allLifted {nodes : List Node} (annotated : areAnnotatedText nodes = true)
    (kept : isUninterrupted nodes = true) : isUninterrupted (allLifted nodes) = true := by
  induction nodes with
  | nil => rfl
  | cons node rest ih =>
    have annotated' := areAnnotatedText_tail annotated
    obtain ⟨apart, below⟩ := isUninterrupted_cons.1 kept
    have behind := ih annotated' below
    rw [allLifted]
    cases node with
    | text content =>
      rw [lifted_text]
      exact isUninterrupted_cons.2 ⟨fun _ _ _ _ => rfl, behind⟩
    | comment content =>
      rw [lifted_comment]
      exact isUninterrupted_cons.2 ⟨fun _ _ _ _ => rfl, behind⟩
    | element tag attrs children =>
      refine isUninterrupted_append (fun piece member => ?_) (fun piece last space right more same => ?_) behind
      · cases piece with
        | comment | element => rfl
        | text content => cases text_of_mem_lifted member
      · by_contra interrupted
        rw [Bool.not_eq_false, isInterrupted_iff] at interrupted
        obtain ⟨tag', attrs', inner, attrs'', inner', joinable, equal, rfl, rfl, rfl⟩ := interrupted
        obtain ⟨children', whole⟩ := element_of_mem_lifted (List.mem_of_getLast? last)
        cases whole
        obtain ⟨blank, others, rfl, first⟩ := mem_lifted_of_head annotated' (by rw [same]; rfl)
        obtain rfl := text_of_mem_lifted first
        rw [allLifted, lifted_text, List.singleton_append] at same
        obtain ⟨next, after, rfl, second⟩ := mem_lifted_of_head (areAnnotatedText_tail annotated')
          (by rw [(List.cons.inj same).2]; rfl)
        obtain ⟨children'', rfl⟩ := element_of_mem_lifted second
        have there := isInterrupted_iff.2
          ⟨tag, attrs, children, attrs'', children'', joinable, equal, rfl, rfl, rfl⟩
        rw [apart _ _ _ rfl] at there
        cases there

end Uninterrupted

end Node

namespace Reading

variable {emoji : Bool}

theorem inlines_append (marks : List Mark) (items more : List Reading) : inlines marks (items ++ more) = do
    let docs ← inlines marks items
    let others ← inlines marks more
    return docs ++ others := by
  induction items with
  | nil => simp only [List.nil_append, inlines, pure_bind, bind_pure]
  | cons item rest ih => simp only [List.cons_append, inlines, ih, bind_assoc, pure_bind, List.append_assoc]

theorem inlines_singleton (marks : List Mark) (item : Reading) : inlines marks [item] = item.inline marks := by
  simp only [inlines, pure_bind, List.append_nil, bind_pure]

theorem inlines_comment [Surroundings] (marks : List Mark) (content : String) (rest : List Reading) :
    inlines marks ((Node.comment content).reading emoji :: rest) = do
      return .comment content :: (← inlines marks rest) := by
  rw [inlines, Node.reading]
  simp only [pure_bind, List.singleton_append]

/-- Formatting is read as a mark on what stands in it, also if it is cut at comments. -/
theorem inlines_formattingBetween [Surroundings] {tag : String} {attrs : Attrs} {mark : Mark}
    (noCode : mark.kind ≠ .code)
    (marked : ∀ children, (Node.element tag attrs children).mark? = some mark) (marks : List Mark)
    (run nodes : List Node) :
    inlines marks ((Node.formattingBetween tag attrs run nodes).map (Node.reading emoji)) =
      inlines (mark :: marks) ((run ++ nodes).map (Node.reading emoji)) := by
  have piece : ∀ run, inlines marks ((Node.formatting tag attrs run).map (Node.reading emoji)) =
      inlines (mark :: marks) (run.map (Node.reading emoji)) := by
    intro run
    rw [Node.formatting]
    split
    · rename_i none
      rw [List.isEmpty_iff.1 none]
      rfl
    · rw [List.map_singleton, inlines_singleton, Node.inline_of_marked (marked run) noCode]
  induction nodes generalizing run with
  | nil => rw [Node.formattingBetween, piece, List.append_nil]
  | cons node rest ih =>
    rcases node.isComment_cases with ⟨content, rfl⟩ | plain
    · rw [Node.formattingBetween_comment, List.map_append, List.map_cons, inlines_append, piece, inlines_comment,
        ih [], List.nil_append, List.map_append, List.map_cons, inlines_append, inlines_comment]
    · rw [Node.formattingBetween_cons plain, ih, List.append_assoc, List.singleton_append]

theorem inlines_allLifted [Surroundings] {nodes : List Node} {marks : List Mark}
    (each : ∀ node ∈ nodes,
    inlines marks (node.lifted.map (Node.reading emoji)) = (node.reading emoji).inline marks) :
    inlines marks ((Node.allLifted nodes).map (Node.reading emoji)) =
      inlines marks (nodes.map (Node.reading emoji)) := by
  induction nodes with
  | nil => rfl
  | cons node rest ih =>
    obtain ⟨here, below⟩ := List.forall_mem_cons.1 each
    rw [Node.allLifted, List.map_append, inlines_append, here, ih below, List.map_cons, inlines]

/-- A comment is read as one without marks, so it does not matter which formatting it stands in. -/
theorem inlines_lifted [Surroundings] {node : Node} (annotated : node.isAnnotatedText = true) (marks : List Mark) :
    inlines marks (node.lifted.map (Node.reading emoji)) = (node.reading emoji).inline marks := by
  induction node using Node.induction generalizing marks with
  | text content => rw [Node.lifted_text, List.map_singleton, inlines_singleton]
  | comment content => rw [Node.lifted_comment, List.map_singleton, inlines_singleton]
  | element tag attrs children ih =>
    obtain ⟨emphasis, _, _, below⟩ := Node.isAnnotatedText_element_iff.1 annotated
    have valid := (Node.areAnnotatedText_iff.1 below).1
    obtain ⟨kind, noCode, marked⟩ := Node.mark?_of_emphasis emphasis
    rw [Node.lifted_element, inlines_formattingBetween noCode (marked attrs), List.nil_append,
      inlines_allLifted fun child member => ih child member (valid child member) _,
      Node.inline_of_marked (marked attrs children) noCode]

end Reading

namespace Node

theorem areCommentFree_iff {nodes : List Node} :
    areCommentFree nodes = true ↔ ∀ node ∈ nodes, node.isCommentFree = true := by
  induction nodes with
  | nil => simp [areCommentFree]
  | cons node rest ih => rw [areCommentFree, Bool.and_eq_true, ih, List.forall_mem_cons]

theorem isComment_eq_false {node : Node} (free : node.isCommentFree = true) : node.isComment = false := by
  cases node with
  | comment =>
    rw [isCommentFree] at free
    cases free
  | text | element => rfl

/-- No comment stands in formatting. -/
def CommentsApart (nodes : List Node) : Prop := ∀ node ∈ nodes, node.isComment = true ∨ node.isCommentFree = true

theorem commentsApart_lifted (node : Node) : CommentsApart node.lifted := by
  induction node using induction with
  | text content =>
    rw [lifted_text]
    exact List.forall_mem_singleton.2 (Or.inr (by rw [isCommentFree]))
  | comment content =>
    rw [lifted_comment]
    exact List.forall_mem_singleton.2 (Or.inl rfl)
  | element tag attrs children ih =>
    rw [lifted_element]
    intro piece member
    rcases mem_formattingBetween (List.forall_mem_nil _) member with ⟨content, rfl⟩ | ⟨inner, rfl, _, plain, part⟩
    · exact Or.inl rfl
    · refine Or.inr ?_
      rw [isCommentFree, areCommentFree_iff]
      intro child inside
      have within : child ∈ allLifted children := part.subset inside
      rw [allLifted_eq, List.mem_flatMap] at within
      obtain ⟨source, listed, from_⟩ := within
      exact (ih source listed child from_).resolve_left (by simp [plain child inside])

theorem allLifted_of_forall {nodes : List Node} (each : ∀ node ∈ nodes, node.lifted = [node]) :
    allLifted nodes = nodes := by
  induction nodes with
  | nil => rw [allLifted]
  | cons node rest ih =>
    obtain ⟨here, below⟩ := List.forall_mem_cons.1 each
    rw [allLifted, here, ih below, List.singleton_append]

theorem lifted_of_isCommentFree {node : Node} (annotated : node.isAnnotatedText = true)
    (free : node.isCommentFree = true) : node.lifted = [node] := by
  induction node using induction with
  | text content => exact lifted_text content
  | comment content => exact lifted_comment content
  | element tag attrs children ih =>
    obtain ⟨_, _, some, below⟩ := isAnnotatedText_element_iff.1 annotated
    have valid := (areAnnotatedText_iff.1 below).1
    have nonempty : children.isEmpty = false := by simpa using some
    rw [isCommentFree, areCommentFree_iff] at free
    have kept : allLifted children = children :=
      allLifted_of_forall fun child member => ih child member (valid child member) (free child member)
    have plain : ∀ child ∈ children, child.isComment = false :=
      fun child member => isComment_eq_false (free child member)
    rw [lifted_element, kept, formattingBetween_of_plain plain, List.nil_append, formatting, nonempty]
    rfl

theorem allLifted_of_commentsApart {nodes : List Node} (annotated : areAnnotatedText nodes = true)
    (apart : CommentsApart nodes) : allLifted nodes = nodes := by
  refine allLifted_of_forall fun node member => ?_
  rcases node.isComment_cases with ⟨content, rfl⟩ | plain
  · exact lifted_comment content
  · refine lifted_of_isCommentFree ((areAnnotatedText_iff.1 annotated).1 node member) ?_
    exact (apart node member).resolve_left (by simp [plain])

theorem isCommentFree_alike {node other : Node} (alike : node.Alike other) :
    node.isCommentFree = other.isCommentFree := by
  induction node using induction generalizing other with
  | text content => rw [alike_text_iff.1 alike]
  | comment content => rw [alike_comment_iff.1 alike]
  | element tag attrs children ih =>
    obtain ⟨attrs', children', rfl, _, below⟩ := alike_element_iff.1 alike
    rw [isCommentFree, isCommentFree]
    clear alike
    induction below with
    | nil => rfl
    | cons first _ more =>
      obtain ⟨here, later⟩ := List.forall_mem_cons.1 ih
      rw [areCommentFree, areCommentFree, here first, more later]

theorem isComment_alike {node other : Node} (alike : node.Alike other) : node.isComment = other.isComment := by
  cases node with
  | text content => rw [alike_text_iff.1 alike]
  | comment content => rw [alike_comment_iff.1 alike]
  | element =>
    obtain ⟨_, _, rfl, _, _⟩ := alike_element_iff.1 alike
    rfl

theorem commentsApart_alike {nodes others : List Node} (alike : List.Forall₂ Alike nodes others) :
    CommentsApart nodes ↔ CommentsApart others := by
  induction alike with
  | nil => exact Iff.rfl
  | cons first _ ih =>
    rw [CommentsApart, CommentsApart, List.forall_mem_cons, List.forall_mem_cons, isComment_alike first,
      isCommentFree_alike first]
    exact and_congr_right fun _ => ih

end Node

namespace Tree

variable {tree : Tree} {attrs : Attrs} {nodes : List Node} (single : tree.nodes = [.element "p" attrs nodes])
  (annotated : Node.areAnnotatedText nodes = true) (kept : Node.isUninterrupted nodes = true)

include single annotated kept

/-- The paragraph comes back with its comments lifted out of formatting. -/
theorem throughEditor_lifted [Surroundings] (emoji : Bool) :
    ∃ content, (tree.throughEditor emoji).nodes = [.element "p" [] content] ∧
    List.Forall₂ Node.Alike content (Node.allLifted nodes) := by
  have canonical : Node.isCanonicalLine (Node.allLifted nodes) = true := by
    rw [Node.isCanonicalLine, Node.isUninterrupted_allLifted annotated kept, Bool.and_true]
    exact Node.areCanonicalInline_allLifted (fun _ _ => Node.areCanonicalInline_lifted) annotated
  obtain ⟨docs, content, read, written, alike⟩ := Node.lineRestores emoji canonical
  have same : Reading.line (nodes.map (Node.reading emoji)) = pure docs := by
    rw [← read, Reading.line, Reading.line, Reading.inlines_allLifted fun node member =>
      Reading.inlines_lifted ((Node.areAnnotatedText_iff.1 annotated).1 node member) []]
  refine ⟨content, ?_, alike⟩
  rw [throughEditor, Doc.ofTree_paragraph_eq single emoji, same, Slugged.run_pure, Doc.toTree_nodes,
    Doc.blocks_frontmatterNode, Doc.blocks_paragraph written, Slugged.run_pure]

/-- Annotated text comes back from the editor with every comment lifted out of the formatting around it, so it comes
back as it was if and only if no comment stands in formatting. A paragraph has no attributes in the editor. -/
theorem throughEditor_annotated [Surroundings] (emoji : Bool) :
    Node.AllAlike (tree.throughEditor emoji).nodes [.element "p" [] (Node.allLifted nodes)] ∧
      (Node.AllAlike (tree.throughEditor emoji).nodes tree.nodes ↔ attrs = [] ∧ Node.CommentsApart nodes) := by
  obtain ⟨content, back, alike⟩ := throughEditor_lifted single annotated kept emoji
  rw [back, single, Node.allAlike_iff, Node.allAlike_iff]
  have apart : Node.CommentsApart content := by
    rw [Node.commentsApart_alike alike, Node.CommentsApart, Node.allLifted_eq]
    intro piece member
    obtain ⟨node, _, inside⟩ := List.mem_flatMap.1 member
    exact Node.commentsApart_lifted node piece inside
  refine ⟨.cons (.element (.refl _) alike) .nil, fun same => ?_, ?_⟩
  · cases same with
    | cons first _ =>
      obtain ⟨_, _, whole, perm, below⟩ := Node.alike_element_iff.1 first
      cases whole
      exact ⟨List.nil_perm.1 perm, (Node.commentsApart_alike below).1 apart⟩
  · rintro ⟨rfl, apart⟩
    rw [Node.allLifted_of_commentsApart annotated apart] at alike
    exact .cons (.element (.refl _) alike) .nil

omit single annotated kept

/-- A comment in formatting in formatting. -/
theorem throughEditor_annotated_page :
    letI : Surroundings := .platform
    let line : List Node := [.element "em" [] [.text "a",
      .element "strong" [("class", .str "x")] [.comment "b", .text ":tada:"]]]
    let page : Tree := .ofNodes [.element "p" [] line]
    Node.AllAlike (page.throughEditor true).nodes [.element "p" [] (Node.allLifted line)] ∧
      (Node.AllAlike (page.throughEditor true).nodes page.nodes ↔ [] = ([] : Attrs) ∧ Node.CommentsApart line) :=
  @throughEditor_annotated (.ofNodes [.element "p" [] [.element "em" [] [.text "a",
    .element "strong" [("class", .str "x")] [.comment "b", .text ":tada:"]]]]) [] _ rfl (by decide) (by decide)
    .platform true

/-- A comment cuts the formatting around it in two. -/
theorem throughEditor_annotated_cut :
    letI : Surroundings := .platform
    let line : List Node := [.element "strong" [] [.text "a", .comment "c", .text "b"]]
    let page : Tree := .ofNodes [.element "p" [] line]
    Node.areAnnotatedText line = true ∧ Node.isUninterrupted line = true ∧
      (page.throughEditor false).nodes = [.element "p" [] [.element "strong" [] [.text "a"], .comment "c",
        .element "strong" [] [.text "b"]]] ∧
      ¬ Node.AllAlike (page.throughEditor false).nodes page.nodes := by
  let _ : Surroundings := .platform
  intro line page
  have cut : (page.throughEditor false).nodes = [.element "p" [] [.element "strong" [] [.text "a"], .comment "c",
      .element "strong" [] [.text "b"]]] :=
    rfl
  refine ⟨by decide, by decide, cut, ?_⟩
  rw [cut]
  simp [page, line, Node.AllAlike, Node.Alike, Tree.ofNodes]

end Tree

end ComponentMarkdown
