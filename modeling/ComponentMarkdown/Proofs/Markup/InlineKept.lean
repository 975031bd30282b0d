import ComponentMarkdown.Proofs.Attrs
import ComponentMarkdown.Proofs.Markup.InlineOffsets

namespace ComponentMarkdown

namespace Inline

section Attributes

/-- Adding attributes leaves those with other keys as they were. -/
theorem get?_mergeAttrs {added : Attrs} {key : String} (other : key ∉ added.keys) (attrs : Attrs) :
    (mergeAttrs attrs added).get? key = attrs.get? key := by
  induction added generalizing attrs with
  | nil => rfl
  | cons entry rest ih =>
    obtain ⟨name, value⟩ := entry
    rw [Attrs.keys, List.map_cons, List.mem_cons, not_or] at other
    have step :
        ∃ value', mergeAttrs attrs ((name, value) :: rest) = mergeAttrs (attrs.insert name value') rest := by
      rw [mergeAttrs, List.foldl_cons]
      dsimp only
      split
      · exact ⟨_, rfl⟩
      · exact ⟨_, rfl⟩
    obtain ⟨value', step⟩ := step
    rw [step, ih other.2, Attrs.get?_insert, if_neg other.1]

/-- Attributes are found whatever stands behind them. -/
theorem attributes?_append {rest : List Piece} {attrs : Attrs} {size : Nat}
    (found : attributes? rest = some (attrs, size))
    (more : List Piece) : attributes? (rest ++ more) = some (attrs, size) := by
  obtain ⟨block, back, rfl, cut, read, rfl⟩ := attributes?_eq_some_iff.1 found
  rw [List.append_assoc]
  exact attributes?_eq_some_iff.2 ⟨block, back ++ more, rfl, (AttributeBlock.split?_eq_append cut).2.2 _, read, rfl⟩

end Attributes

section Keeps

/-- What becomes of a sibling in front of pieces: it stays as it is, or it is an element and has the attributes at
their start added to its own, those with other keys as they were. -/
inductive Survives : Node → List Piece → Node → Prop
  | unchanged (node : Node) (behind : List Piece) : Survives node behind node
  | gained {tag : String} {attrs added : Attrs} {children : List Node} {behind : List Piece} {size : Nat}
      (block : attributes? behind = some (added, size))
      (others : ∀ key, key ∉ added.keys → (mergeAttrs attrs added).get? key = attrs.get? key) :
      Survives (.element tag attrs children) behind (.element tag (mergeAttrs attrs added) children)

/-- Siblings, each in front of pieces, stand in a list in document order: at its top, or in an element that was made
around them. -/
inductive Keeps : List (Node × List Piece) → List Node → Prop
  | nil : Keeps [] []
  | text {kept : List (Node × List Piece)} {out : List Node} (content : String) (rest : Keeps kept out) :
      Keeps kept (.text content :: out)
  | node {kept : List (Node × List Piece)} {out : List Node} {node node' : Node} {behind : List Piece}
      (here : Survives node behind node') (rest : Keeps kept out) : Keeps ((node, behind) :: kept) (node' :: out)
  | made {inside kept : List (Node × List Piece)} {children out : List Node} (tag : String) (attrs : Attrs)
      (below : Keeps inside children) (rest : Keeps kept out) :
        Keeps (inside ++ kept) (.element tag attrs children :: out)

theorem Survives.append {node node' : Node} {behind : List Piece} (survives : Survives node behind node')
    (more : List Piece) : Survives node (behind ++ more) node' := by
  cases survives with
  | unchanged => exact .unchanged node _
  | gained block others => exact .gained (attributes?_append block more) others

variable {kept kept' : List (Node × List Piece)} {out out' : List Node}

theorem Keeps.append (first : Keeps kept out) (second : Keeps kept' out') :
    Keeps (kept ++ kept') (out ++ out') := by
  induction first with
  | nil => exact second
  | text content _ ih => exact .text content ih
  | node here _ ih => exact .node here ih
  | made tag attrs below _ _ ih =>
    rw [List.append_assoc]
    exact .made tag attrs below ih

theorem Keeps.more (keeps : Keeps kept out) (more : List Piece) :
    Keeps (kept.map fun entry => (entry.1, entry.2 ++ more)) out := by
  induction keeps with
  | nil => exact .nil
  | text content _ ih => exact .text content ih
  | node here _ ih => exact .node (here.append more) ih
  | made tag attrs _ _ below ih =>
    rw [List.map_append]
    exact .made tag attrs below ih

theorem keeps_openText (text : List Char) (keeps : Keeps kept out) : Keeps kept (openText text ++ out) := by
  rw [openText]
  split
  · exact keeps
  · exact .text _ keeps

end Keeps

section Standing

/-- The nodes among pieces, each with the pieces behind it, in front of more pieces. -/
def standing (tail : List Piece) : List Piece → List (Node × List Piece)
  | [] => []
  | .char _ :: rest => standing tail rest
  | .node node :: rest => (node, rest ++ tail) :: standing tail rest

theorem standing_append (tail front rest : List Piece) :
    standing tail (front ++ rest) = standing (rest ++ tail) front ++ standing tail rest := by
  induction front with
  | nil => rfl
  | cons piece front ih =>
    cases piece with
    | char c => exact ih
    | node node => rw [List.cons_append, standing, standing, ih, List.append_assoc, List.cons_append]

theorem standing_text (tail : List Piece) (s : List Char) : standing tail (textPieces s) = [] := by
  induction s with
  | nil => rfl
  | cons c rest ih => exact ih

theorem standing_more (tail more front : List Piece) :
    standing (tail ++ more) front = (standing tail front).map fun entry => (entry.1, entry.2 ++ more) := by
  induction front with
  | nil => rfl
  | cons piece rest ih =>
    cases piece with
    | char c => exact ih
    | node node => rw [standing, standing, List.map_cons, ih, List.append_assoc]

/-- Pieces that nothing is read of keep their nodes. -/
theorem keeps_nodesFrom (tail front : List Piece) (text : List Char) :
    Keeps (standing tail front) (nodesFrom text front) := by
  induction front generalizing text with
  | nil =>
    rw [nodesFrom_nil, ← List.append_nil (openText text)]
    exact keeps_openText text .nil
  | cons piece rest ih =>
    cases piece with
    | char c => exact ih (text ++ [c])
    | node node => exact keeps_openText text (.node (.unchanged node _) (ih []))

/-- The nodes around an element and the text behind it. -/
theorem standing_element (init after : List Piece) (node : Node) (block : List Char) :
    standing [] (init ++ .node node :: (textPieces block ++ after)) =
      standing (.node node :: (textPieces block ++ after)) init ++
        ((node, textPieces block ++ after) :: standing [] after) := by
  rw [standing_append, List.append_nil, standing, List.append_nil, standing_append,
    standing_text, List.nil_append]

/-- The nodes in front of a construct, in its label and behind it. -/
theorem standing_frames (front label after : List Piece) (opening closing : List Char) :
    standing [] (front ++ (textPieces opening ++ (label ++ (textPieces closing ++ after)))) =
      standing (textPieces opening ++ (label ++ (textPieces closing ++ after))) front ++
        (standing (textPieces closing ++ after) label ++ standing [] after) := by
  rw [standing_append, List.append_nil, standing_append, standing_text, List.nil_append,
    standing_append, standing_append, standing_text, List.nil_append, List.append_nil]

/-- What is read of pieces keeps the nodes among them. An element that attributes follow is the last of the pieces
in front. -/
theorem keeps_read (front : List Piece) (before : Option Piece) {rest : List Piece}
    (last : before.any Piece.isElement = true → front.getLast? = before) :
    Keeps (standing [] (front ++ rest)) (read front before rest) := by
  induction length : rest.length using Nat.strongRecOn generalizing front before rest with
  | ind n ih =>
    cases rest with
    | nil =>
      rw [List.append_nil, read_nil]
      exact keeps_nodesFrom [] front []
    | cons piece rest =>
      cases free : trailing? before (piece :: rest) with
      | some found =>
        obtain ⟨attrs, size⟩ := found
        obtain ⟨element, _, here⟩ := trailing?_eq_some free
        obtain ⟨block, after, whole, positive, rfl, _, dropped, fresh⟩ := trailing?_cut free
        obtain ⟨init, tag, own, children, rfl, merged⟩ := mergeLast_nodes (by rwa [last element]) attrs
        have shorter : after.length < n := by
          have length' := congrArg List.length whole
          simp only [List.length_append, length_textPieces] at length'
          omega
        have behind := ih after.length shorter [] (piece :: rest)[block.length - 1]?
          (fun element => absurd element (by rw [fresh]; exact Bool.false_ne_true)) rfl
        rw [read_trailing free, merged, dropped, List.append_assoc, List.singleton_append, List.append_assoc,
          List.singleton_append]
        rw [whole] at here behind ⊢
        rw [standing_element]
        exact (keeps_nodesFrom _ init []).append
          (.node (.gained here fun key other => get?_mergeAttrs other own) behind)
      | none =>
        cases here : construct? before (piece :: rest) with
        | some found =>
          obtain ⟨opening, closing, after, frames⟩ := construct?_frames here
          obtain ⟨c, _, read⟩ := read_frames front free here frames
          have bounds := frames.bounds
          have shorter : after.length < n := length ▸ frames.shorter
          have inside := (ih found.label.length (by omega) [] none nofun rfl).more (textPieces closing ++ after)
          have behind := ih after.length shorter [] (some (.char c)) nofun rfl
          rw [List.nil_append, ← standing_more, List.nil_append] at inside
          rw [read, frames.whole, standing_frames]
          exact (keeps_nodesFrom _ front []).append (.made _ _ inside behind)
        | none =>
          rw [read_plain free here, ← List.singleton_append, ← List.append_assoc]
          exact ih rest.length (by rw [← length]; exact Nat.lt_succ_self _) _ _ (fun _ => List.getLast?_concat) rfl

/-- The siblings that are no text, each in front of the pieces of those behind it. -/
def withBehind : List Node → List (Node × List Piece)
  | [] => []
  | node :: rest => if node.isText then withBehind rest else (node, pieces rest) :: withBehind rest

theorem standing_pieces (siblings : List Node) : standing [] (pieces siblings) = withBehind siblings := by
  induction siblings with
  | nil => rfl
  | cons node rest ih =>
    rw [withBehind]
    cases noText : node.isText with
    | false =>
      rw [pieces_cons_node noText, standing, List.append_nil, ih]
      rfl
    | true =>
      cases node with
      | element | comment => cases noText
      | text content =>
        rw [pieces_cons_text, standing_append, standing_text, List.nil_append, ih]
        rfl

end Standing

/-- Reading the component syntax ends without a cut outside the text or inside a character, keeps every sibling
that is no text, and only joins siblings in whose texts no construct can start. -/
theorem apply_keeps (siblings : List Node) :
    Flat.read? siblings = some (apply siblings) ∧ Keeps (withBehind siblings) (apply siblings) ∧
      ((∀ content, Node.text content ∈ siblings → ∀ c ∈ content.toList, c ∉ ['\x7b', ':', '[']) →
        apply siblings = Node.joinTexts siblings) := by
  refine ⟨Flat.read?_eq siblings, ?_, apply_of_plain⟩
  have keeps : Keeps (standing [] ([] ++ pieces siblings)) (apply siblings) := keeps_read [] none nofun
  rwa [List.nil_append, standing_pieces] at keeps

/-- A node that is no text moves into a label, and texts in which nothing starts are only joined. -/
theorem apply_keeps_joined :
    Flat.read? [.text "\ufffcé :badge[", .element "em" [("a", .bool true)] [], .text "] [\x7b\x7b \x7d\x7d"] =
      some [.text "\ufffcé ", .element "badge" [] [.element "em" [("a", .bool true)] []],
        .text " [\x7b\x7b \x7d\x7d"] ∧
    apply [.text "n", .text "", .text "\ufffc\x5d", .element "hr" [] []] =
    [.text "n\ufffc\x5d", .element "hr" [] []] := by
  have moved : apply [.text "\ufffcé :badge[", .element "em" [("a", .bool true)] [], .text "] [\x7b\x7b \x7d\x7d"] =
      [.text "\ufffcé ", .element "badge" [] [.element "em" [("a", .bool true)] []],
        .text " [\x7b\x7b \x7d\x7d"] := by rfl
  exact ⟨moved ▸ (apply_keeps _).1, (apply_keeps _).2.2 (by simp)⟩

end Inline

end ComponentMarkdown
