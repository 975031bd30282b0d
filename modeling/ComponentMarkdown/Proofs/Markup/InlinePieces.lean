import ComponentMarkdown.Markup.Markdown
import ComponentMarkdown.Proofs.Markup.InlineReading

namespace ComponentMarkdown

namespace Inline

section Pieces

/-- Whether a piece is one that a sibling is laid out in: texts are laid out in their characters. -/
def Piece.isLaid : Piece → Bool
  | .char _ => true
  | .node n => !n.isText

theorem pieces_cons_text (content : String) (rest : List Node) :
    pieces (.text content :: rest) = textPieces content.toList ++ pieces rest := rfl

theorem pieces_cons_node {node : Node} (noText : node.isText = false) (rest : List Node) :
    pieces (node :: rest) = .node node :: pieces rest := by
  cases node with
  | text content => cases noText
  | element | comment => rfl

theorem isLaid_of_mem_pieces {siblings : List Node} {piece : Piece} (member : piece ∈ pieces siblings) :
    piece.isLaid = true := by
  induction siblings with
  | nil => cases member
  | cons node rest ih =>
    cases noText : node.isText with
    | true =>
      cases node with
      | text content =>
        rw [pieces_cons_text, textPieces] at member
        rcases List.mem_append.1 member with here | later
        · obtain ⟨c, _, rfl⟩ := List.mem_map.1 here
          rfl
        · exact ih later
      | element | comment => cases noText
    | false =>
      rw [pieces_cons_node noText] at member
      rcases List.mem_cons.1 member with rfl | later
      · simp [Piece.isLaid, noText]
      · exact ih later

/-- The text that is open, if there is one. -/
def openText (text : List Char) : List Node := if text.isEmpty then [] else [.text (String.ofList text)]

theorem nodesFrom_nil (text : List Char) : nodesFrom text [] = openText text := rfl

theorem nodesFrom_char (text : List Char) (c : Char) (rest : List Piece) :
    nodesFrom text (.char c :: rest) = nodesFrom (text ++ [c]) rest := rfl

theorem nodesFrom_node (text : List Char) (node : Node) (rest : List Piece) :
    nodesFrom text (.node node :: rest) = openText text ++ node :: nodesFrom [] rest := rfl

theorem nodesFrom_text (text s : List Char) (rest : List Piece) :
    nodesFrom text (textPieces s ++ rest) = nodesFrom (text ++ s) rest := by
  induction s generalizing text with
  | nil => rw [List.append_nil]; rfl
  | cons c more ih =>
    have next :
        nodesFrom text (textPieces (c :: more) ++ rest) = nodesFrom (text ++ [c]) (textPieces more ++ rest) := rfl
    rw [next, ih, List.append_assoc, List.singleton_append]

theorem nodesFrom_append_node (text : List Char) (front : List Piece) (node : Node) :
    nodesFrom text (front ++ [.node node]) = nodesFrom text front ++ [node] := by
  induction front generalizing text with
  | nil => rfl
  | cons piece rest ih =>
    cases piece with
    | char c => exact ih (text ++ [c])
    | node other => rw [List.cons_append, nodesFrom_node, nodesFrom_node, ih, List.append_assoc, List.cons_append]

theorem nodes_append_node (front : List Piece) (node : Node) :
    nodes (front ++ [.node node]) = nodes front ++ [node] :=
  nodesFrom_append_node [] front node

theorem pieces_openText (text : List Char) (rest : List Node) :
    pieces (openText text ++ rest) = textPieces text ++ pieces rest := by
  cases text with
  | nil => rfl
  | cons c more =>
    have open_ : openText (c :: more) = [.text (String.ofList (c :: more))] := rfl
    rw [open_, List.singleton_append, pieces_cons_text, String.toList_ofList]

/-- Siblings that were made of pieces are laid out in the same pieces. -/
theorem pieces_nodes {front : List Piece} (laid : ∀ piece ∈ front, piece.isLaid = true) :
    pieces (nodes front) = front := by
  have from_ : ∀ text, pieces (nodesFrom text front) = textPieces text ++ front := by
    induction front with
    | nil =>
      intro text
      rw [nodesFrom_nil, ← List.append_nil (openText text), pieces_openText]
      rfl
    | cons piece rest ih =>
      obtain ⟨here, below⟩ := List.forall_mem_cons.1 laid
      intro text
      cases piece with
      | char c =>
        rw [nodesFrom_char, ih below, textPieces_append, List.append_assoc]
        rfl
      | node node =>
        have noText : node.isText = false := by simpa [Piece.isLaid] using here
        rw [nodesFrom_node, pieces_openText, pieces_cons_node noText, ih below]
        rfl
  exact from_ []

/-- A text is joined to the one that is open. -/
theorem appendTo_text {done : List Node} (last : ∀ node ∈ done.getLast?, node.isText = false) (text : List Char)
    (content : String) :
    Node.appendTo (done ++ openText text) (.text content) = done ++ openText (text ++ content.toList) := by
  by_cases empty : content = ""
  · subst empty
    rw [String.toList_empty, List.append_nil]
    rfl
  · have some : content.isEmpty = false := by simpa using empty
    have some' : content.toList ≠ [] := by simpa using empty
    rw [Node.appendTo, some]
    cases text with
    | nil =>
      have closed : done ++ openText [] = done := List.append_nil done
      have opened : openText content.toList = [.text content] := by
        rw [openText, if_neg (by simpa using some'), String.ofList_toList]
      rw [closed, List.nil_append, opened]
      cases found : done.getLast? with
      | none => rfl
      | some node =>
        cases node with
        | text before => cases last _ found
        | element | comment => rfl
    | cons c more =>
      have opened : ∀ s, openText (c :: s) = [.text (String.ofList (c :: s))] := fun _ => rfl
      rw [List.cons_append, opened, opened, List.getLast?_concat, List.dropLast_concat, ← List.cons_append,
        String.ofList_append, String.ofList_toList]
      rfl

theorem appendTo_closed {done : List Node} (last : ∀ node ∈ done.getLast?, node.isText = false) (text : List Char) :
    Node.appendTo done (.text (String.ofList text)) = done ++ openText text := by
  have joined := appendTo_text last [] (String.ofList text)
  have closed : done ++ openText [] = done := List.append_nil done
  rwa [closed, List.nil_append, String.toList_ofList] at joined

/-- What siblings are when they are laid out and put together again. -/
theorem nodes_pieces (siblings : List Node) : nodes (pieces siblings) = Node.joinTexts siblings := by
  have apart : ∀ (siblings done : List Node) (text : List Char), (∀ node ∈ done.getLast?, node.isText = false) →
      siblings.foldl Node.appendTo (done ++ openText text) = done ++ nodesFrom text (pieces siblings) := by
    intro siblings
    induction siblings with
    | nil => exact fun done text _ => rfl
    | cons node rest ih =>
      intro done text last
      rw [List.foldl_cons]
      cases noText : node.isText with
      | false =>
        have append :
            Node.appendTo (done ++ openText text) node = (done ++ openText text ++ [node]) ++ openText [] := by
          rw [openText, openText, List.isEmpty_nil, if_pos rfl, List.append_nil]
          cases node with
          | text content => cases noText
          | element | comment => rfl
        rw [append, ih _ [] (by simpa using noText), pieces_cons_node noText, nodesFrom_node]
        simp only [List.append_assoc, List.singleton_append]
      | true =>
        cases node with
        | element | comment => cases noText
        | text content =>
          rw [appendTo_text last, ih done _ last, pieces_cons_text, nodesFrom_text]
  exact (apart siblings [] [] (by simp)).symm

end Pieces

section Trailing

/-- Attributes behind an element are text, and what stands in front of what is behind them is no element. -/
theorem trailing?_cut {before : Option Piece} {rest : List Piece} {attrs : Attrs} {n : Nat}
    (found : trailing? before rest = some (attrs, n)) : ∃ block after, rest = textPieces block ++ after ∧ 0 < n ∧
      n = block.length ∧ rest.take n = textPieces block ∧ rest.drop n = after ∧
        rest[n - 1]?.any Piece.isElement = false := by
  obtain ⟨_, _, here⟩ := trailing?_eq_some found
  obtain ⟨positive, _⟩ := attributes?_bounds here
  obtain ⟨block, after, rfl, _, _, rfl⟩ := attributes?_eq_some_iff.1 here
  refine ⟨block, after, rfl, positive, rfl, ?_, ?_, ?_⟩
  · rw [← length_textPieces block, List.take_left]
  · rw [← length_textPieces block, List.drop_left]
  · have inside : block.length - 1 < (textPieces block).length := by
      rw [length_textPieces]
      omega
    rw [List.getElem?_append_left inside, textPieces, List.getElem?_map]
    cases block[block.length - 1]? <;> rfl

/-- Attributes are added to the element in front of them. -/
theorem mergeLast_nodes {front : List Piece} (element : front.getLast?.any Piece.isElement = true) (added : Attrs) :
    ∃ init tag attrs children, front = init ++ [.node (.element tag attrs children)] ∧
      mergeLast added (nodes front) = nodes init ++ [.element tag (mergeAttrs attrs added) children] := by
  rcases List.eq_nil_or_concat front with rfl | ⟨init, piece, rfl⟩
  · cases element
  · rw [List.concat_eq_append, List.getLast?_concat] at element
    rw [List.concat_eq_append]
    cases piece with
    | char c => cases element
    | node node =>
      cases node with
      | text | comment => cases element
      | element tag attrs children =>
        exact ⟨init, tag, attrs, children, rfl, by simp [nodes_append_node, mergeLast]⟩

end Trailing

section Plain

/-- Whether no construct starts at a piece. -/
def Piece.isPlain (piece : Piece) : Bool := piece.toChar ∉ ['\x7b', ':', '[']

theorem attributes?_of_plain {rest : List Piece} (plain : ∀ piece ∈ rest, piece.isPlain = true) :
    attributes? rest = none := by
  refine attributes?_of_head fun start => ?_
  cases rest with
  | nil => cases start
  | cons piece rest =>
    have here := plain piece List.mem_cons_self
    have brace : piece.toChar = '\x7b' := Option.some.inj start
    rw [Piece.isPlain, brace] at here
    exact absurd here (by decide)

/-- Pieces at which nothing starts are read as they stand. -/
theorem read_of_plain {rest : List Piece} (plain : ∀ piece ∈ rest, piece.isPlain = true) (front : List Piece)
    (before : Option Piece) : read front before rest = nodes (front ++ rest) := by
  induction rest generalizing front before with
  | nil => rw [read_nil, List.append_nil]
  | cons piece rest ih =>
    have free : trailing? before (piece :: rest) = none := by
      rw [trailing?, attributes?_of_plain plain, ite_self]
    obtain ⟨here, below⟩ := List.forall_mem_cons.1 plain
    rw [read_plain free (construct?_of_head (by simpa [Piece.isPlain] using here)), ih below, List.append_assoc,
      List.singleton_append]

theorem isPlain_of_mem_pieces {siblings : List Node}
    (plain : ∀ content, Node.text content ∈ siblings → ∀ c ∈ content.toList, c ∉ ['\x7b', ':', '['])
    {piece : Piece} (member : piece ∈ pieces siblings) : piece.isPlain = true := by
  induction siblings with
  | nil => cases member
  | cons node rest ih =>
    have below := ih fun content inside => plain content (List.mem_cons_of_mem _ inside)
    cases noText : node.isText with
    | true =>
      cases node with
      | text content =>
        rw [pieces_cons_text, textPieces] at member
        rcases List.mem_append.1 member with here | later
        · obtain ⟨c, inside, rfl⟩ := List.mem_map.1 here
          exact decide_eq_true (plain content List.mem_cons_self c inside)
        · exact below later
      | element | comment => cases noText
    | false =>
      rw [pieces_cons_node noText] at member
      rcases List.mem_cons.1 member with rfl | later
      · exact (by decide : decide ('\ufffc' ∉ ['\x7b', ':', '[']) = true)
      · exact below later

/-- Siblings without a character that starts a construct are only joined. -/
theorem apply_of_plain {siblings : List Node}
    (plain : ∀ content, Node.text content ∈ siblings → ∀ c ∈ content.toList, c ∉ ['\x7b', ':', '[']) :
    apply siblings = Node.joinTexts siblings := by
  rw [apply_eq, read_of_plain fun piece member => isPlain_of_mem_pieces plain member, List.nil_append, nodes_pieces]

theorem joinTexts_of_noText {siblings : List Node} (noText : siblings.any Node.isText = false) :
    Node.joinTexts siblings = siblings := by
  have append : ∀ done, siblings.foldl Node.appendTo done = done ++ siblings := by
    induction siblings with
    | nil => exact fun done => (List.append_nil done).symm
    | cons node rest ih =>
      rw [List.any_cons, Bool.or_eq_false_iff] at noText
      intro done
      cases node with
      | text content => cases noText.1
      | element | comment => exact (ih noText.2 _).trans (List.append_assoc done [_] rest)
  exact append []

end Plain

end Inline

end ComponentMarkdown
