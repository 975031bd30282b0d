import ComponentMarkdown.Proofs.Doc.Line
import ComponentMarkdown.Proofs.Doc.Reading

namespace ComponentMarkdown

/-- A text with its marks, the innermost first. -/
abbrev StyledText := String × List Mark

/-- A character of a line with its marks, the innermost first. -/
abbrev StyledChar := Char × List Mark

namespace StyledChar

/-- The characters of a text. -/
def ofText (text : StyledText) : List StyledChar := text.1.toList.map fun c => (c, text.2)

/-- The characters of texts in a row. -/
def ofTexts (texts : List StyledText) : List StyledChar := texts.flatMap ofText

/-- The character inside further marks. -/
def under (outer : List Mark) (c : StyledChar) : StyledChar := (c.1, c.2 ++ outer)

/-- Equal characters with equal marks, all of whose attributes are maps. -/
structure Same (a b : StyledChar) : Prop where
  char : a.1 = b.1
  marks : Mark.sameList a.2 b.2 = true
  valid : a.2.all Mark.wellFormed = true
  valid' : b.2.all Mark.wellFormed = true

theorem Same.refl {c : StyledChar} (valid : c.2.all Mark.wellFormed = true) : Same c c :=
  ⟨rfl, Mark.sameList_refl (List.all_eq_true.1 valid), valid, valid⟩

theorem Same.trans (a b c : StyledChar) (left : Same a b) (right : Same b c) : Same a c :=
  ⟨left.char.trans right.char, Mark.sameList_trans left.marks right.marks, left.valid, right.valid'⟩

/-- Equality of lines, character by character. -/
abbrev AllSame : List StyledChar → List StyledChar → Prop := List.Forall₂ Same

theorem AllSame.refl {line : List StyledChar} (valid : ∀ c ∈ line, c.2.all Mark.wellFormed = true) :
    AllSame line line := List.forall₂_same.2 fun c member => .refl (valid c member)

theorem AllSame.trans {a b c : List StyledChar} (left : AllSame a b) (right : AllSame b c) : AllSame a c :=
  forall₂_trans Same.trans left right

theorem AllSame.valid {a b : List StyledChar} (same : AllSame a b) : ∀ c ∈ a, c.2.all Mark.wellFormed = true := by
  induction same with
  | nil => simp
  | cons first _ ih => exact List.forall_mem_cons.2 ⟨first.valid, ih⟩

theorem ofText_same {content : String} {marks marks' : List Mark} (same : Mark.sameList marks marks' = true)
    (valid : marks.all Mark.wellFormed = true) (valid' : marks'.all Mark.wellFormed = true) :
    AllSame (ofText (content, marks)) (ofText (content, marks')) := by
  simp only [ofText]
  induction content.toList with
  | nil => exact .nil
  | cons c rest ih => exact .cons ⟨rfl, same, valid, valid'⟩ ih

theorem valid_of_ofTexts {texts : List StyledText} (some : ∀ text ∈ texts, text.1 ≠ "")
    (valid : ∀ c ∈ ofTexts texts, c.2.all Mark.wellFormed = true) :
    ∀ text ∈ texts, text.2.all Mark.wellFormed = true := by
  intro text member
  obtain ⟨c, first⟩ := List.exists_mem_of_ne_nil text.1.toList fun empty =>
    some text member (String.toList_eq_nil_iff.1 empty)
  exact valid (c, text.2) (List.mem_flatMap.2 ⟨text, member, List.mem_map.2 ⟨c, first, rfl⟩⟩)

theorem ofText_append (content next : String) (marks : List Mark) :
    ofText (content ++ next, marks) = ofText (content, marks) ++ ofText (next, marks) := by
  simp only [ofText, String.toList_append, List.map_append]

theorem ofText_under (content : String) (marks outer : List Mark) :
    (ofText (content, marks)).map (under outer) = ofText (content, marks ++ outer) := by
  simp only [ofText, List.map_map]
  rfl

end StyledChar

namespace StyledText

/-- Two texts with equal marks as one. -/
def joined? (x y : StyledText) : Option StyledText :=
  if Mark.sameList x.2 y.2 then some (x.1 ++ y.1, x.2) else none

theorem joined?_eq_some {x y z : StyledText} (merged : joined? x y = some z) :
    Mark.sameList x.2 y.2 = true ∧ z = (x.1 ++ y.1, x.2) := by
  rw [joined?] at merged
  split at merged
  · rename_i same
    exact ⟨same, (Option.some.inj merged).symm⟩
  · cases merged

/-- Joining texts changes no character, up to the order of attributes. -/
theorem joined_same {texts : List StyledText} (valid : ∀ text ∈ texts, text.2.all Mark.wellFormed = true) :
    StyledChar.AllSame (StyledChar.ofTexts (mergeNeighbours joined? texts)) (StyledChar.ofTexts texts) := by
  have self : ∀ text : StyledText, text.2.all Mark.wellFormed = true →
      StyledChar.AllSame (StyledChar.ofText text) (StyledChar.ofText text) := fun text valid =>
    StyledChar.ofText_same (Mark.sameList_refl (List.all_eq_true.1 valid)) valid valid
  refine forall₂_flatMap_mergeNeighbours ?_ StyledChar.Same.trans self ?_ valid
  · rintro x y z valid - merged
    obtain ⟨_, rfl⟩ := joined?_eq_some merged
    exact valid
  · intro x y z valid valid' merged
    obtain ⟨same, rfl⟩ := joined?_eq_some merged
    rw [StyledChar.ofText_append]
    exact List.rel_append (self x valid) (StyledChar.ofText_same same valid valid')

end StyledText

mutual

/-- The characters of a node in a line with the marks under which they are read. -/
def Node.styled [Surroundings] (marks : List Mark) : Node → List StyledChar
  | .text content => StyledChar.ofText (content, marks)
  | .comment _ => []
  | .element tag attrs children =>
    match Node.mark? (.element tag attrs children) with
    | none => []
    | some mark =>
      if mark.kind = .code then StyledChar.ofText (Node.textOf children, ⟨.code, attrs.field "language"⟩ :: marks)
      else Node.styledAll (mark :: marks) children

def Node.styledAll [Surroundings] (marks : List Mark) : List Node → List StyledChar
  | [] => []
  | node :: rest => node.styled marks ++ Node.styledAll marks rest

/-- Whether a node is read as text only. -/
def Node.isFormattedText [Surroundings] : Node → Bool
  | .text _ => true
  | .comment _ => false
  | .element tag attrs children =>
    match Node.mark? (.element tag attrs children) with
    | none => false
    | some mark => mark.kind = .code || Node.areFormattedText children

def Node.areFormattedText [Surroundings] : List Node → Bool
  | [] => true
  | node :: rest => node.isFormattedText && Node.areFormattedText rest

end

namespace Node

theorem styledAll_cons [Surroundings] (marks : List Mark) (node : Node) (rest : List Node) :
    styledAll marks (node :: rest) = node.styled marks ++ styledAll marks rest := by rw [styledAll]

theorem styledAll_eq_flatMap [Surroundings] (marks : List Mark) (nodes : List Node) :
    styledAll marks nodes = nodes.flatMap (styled marks) := by
  induction nodes with
  | nil => rw [styledAll, List.flatMap_nil]
  | cons node rest ih => rw [styledAll, ih, List.flatMap_cons]

theorem areFormattedText_iff [Surroundings] {nodes : List Node} :
    areFormattedText nodes = true ↔ ∀ node ∈ nodes, node.isFormattedText = true := by
  induction nodes with
  | nil => simp [areFormattedText]
  | cons node rest ih => rw [areFormattedText, Bool.and_eq_true, ih, List.forall_mem_cons]

theorem areMarkedText_iff {nodes : List Node} :
    areMarkedText nodes = true ↔ ∀ node ∈ nodes, node.isMarkedText = true := by
  induction nodes with
  | nil => simp [areMarkedText]
  | cons node rest ih => rw [areMarkedText, Bool.and_eq_true, ih, List.forall_mem_cons]

/-- Text in formatting other than links is read as text only. -/
theorem isFormattedText_of_isMarkedText [Surroundings] {node : Node} (text : node.isMarkedText = true) :
    node.isFormattedText = true := by
  induction node using Node.induction with
  | text content => rw [isFormattedText]
  | comment content =>
    rw [isMarkedText] at text
    cases text
  | element tag attrs children ih =>
    rw [isMarkedText] at text
    rw [isFormattedText, mark?]
    cases meaning : MarkKind.ofTag? tag with
    | none =>
      rw [meaning] at text
      cases text
    | some kind =>
      rw [meaning] at text
      cases kind with
      | link => cases text
      | code => rfl
      | bold | italic | strike =>
        rw [areMarkedText_iff] at text
        simpa [areFormattedText_iff] using fun child member => ih child member (text child member)

/-- What a node is read as under marks is what it is read as on its own, with the marks outside. -/
theorem styled_under [Surroundings] (node : Node) (marks outer : List Mark) :
    node.styled (marks ++ outer) = (node.styled marks).map (StyledChar.under outer) := by
  induction node using induction generalizing marks with
  | text content => rw [styled, styled, StyledChar.ofText_under]
  | comment => rw [styled, styled, List.map_nil]
  | element tag attrs children ih =>
    have inside : ∀ marks, styledAll (marks ++ outer) children =
        (styledAll marks children).map (StyledChar.under outer) := by
      intro marks
      rw [styledAll_eq_flatMap, styledAll_eq_flatMap, List.map_flatMap]
      exact List.flatMap_congr fun child member => ih child member marks
    rw [styled, styled]
    cases mark? (element tag attrs children) with
    | none => rfl
    | some mark =>
      by_cases code : mark.kind = .code
      · simp only [code, if_true, StyledChar.ofText_under, List.cons_append]
      · simp only [code, if_false]
        exact inside (mark :: marks)

theorem styledAll_under [Surroundings] (nodes : List Node) (marks outer : List Mark) :
    styledAll (marks ++ outer) nodes = (styledAll marks nodes).map (StyledChar.under outer) := by
  rw [styledAll_eq_flatMap, styledAll_eq_flatMap, List.map_flatMap]
  exact List.flatMap_congr fun node _ => styled_under node marks outer

theorem styledAll_append [Surroundings] (marks : List Mark) (nodes more : List Node) :
    styledAll marks (nodes ++ more) = styledAll marks nodes ++ styledAll marks more := by
  simp only [styledAll_eq_flatMap, List.flatMap_append]

/-- Gluing texts changes no character. -/
theorem styledAll_glueTexts [Surroundings] (marks : List Mark) (nodes : List Node) :
    styledAll marks (glueTexts nodes) = styledAll marks nodes := by
  rw [styledAll_eq_flatMap, styledAll_eq_flatMap]
  refine flatMap_glueTexts (fun content next => ?_) nodes
  rw [styled, styled, styled, StyledChar.ofText_append]

end Node

/-- A text of the document. -/
def DocNode.ofText (text : StyledText) : DocNode := .text text.1 text.2

namespace Node

/-- Texts that say something and have the characters of a line. -/
def Makes (texts : List StyledText) (line : List StyledChar) : Prop :=
  (∀ text ∈ texts, text.1 ≠ "") ∧ StyledChar.ofTexts texts = line

theorem inlines_formatted [Surroundings] {nodes : List Node} {marks : List Mark}
    (each : ∀ node ∈ nodes, ∃ texts, (node.reading false).inline marks = pure (texts.map DocNode.ofText) ∧
      Makes texts (node.styled marks)) :
    ∃ texts, Reading.inlines marks (nodes.map (reading false)) = pure (texts.map DocNode.ofText) ∧
      Makes texts (styledAll marks nodes) := by
  induction nodes with
  | nil => exact ⟨[], rfl, by simp, by rw [styledAll]; rfl⟩
  | cons node rest ih =>
    obtain ⟨here, below⟩ := List.forall_mem_cons.1 each
    obtain ⟨texts, read, some, same⟩ := here
    obtain ⟨texts', read', some', same'⟩ := ih below
    refine ⟨texts ++ texts', ?_, List.forall_mem_append.2 ⟨some, some'⟩, ?_⟩
    · rw [List.map_cons, Reading.inlines, read, read', pure_bind, pure_bind, List.map_append]
    · rw [StyledChar.ofTexts, List.flatMap_append, styledAll, ← same, ← same']
      rfl

/-- Formatted text is read as texts with its characters. -/
theorem inline_formatted [Surroundings] (node : Node) (formatted : node.isFormattedText = true)
    (marks : List Mark) : ∃ texts, (node.reading false).inline marks = pure (texts.map DocNode.ofText) ∧
      Makes texts (node.styled marks) := by
  induction node using induction generalizing marks with
  | text content =>
    rw [reading, styled]
    by_cases empty : content = ""
    · subst empty
      exact ⟨[], rfl, by simp, rfl⟩
    · refine ⟨[(content, marks)], ?_, by simpa using empty, List.append_nil _⟩
      simp only [Reading.textNodes, empty, if_false]
      rfl
  | comment =>
    rw [isFormattedText] at formatted
    cases formatted
  | element tag attrs children ih =>
    rw [isFormattedText] at formatted
    rw [styled]
    cases marked : (element tag attrs children).mark? with
    | none =>
      rw [marked] at formatted
      cases formatted
    | some mark =>
      rw [marked] at formatted
      by_cases code : mark.kind = .code
      · rw [inline_of_code marked code]
        simp only [code, if_true]
        by_cases empty : textOf children = ""
        · exact ⟨[], by rw [if_pos empty]; rfl, by simp, by rw [empty]; rfl⟩
        · exact ⟨[(textOf children, _)], by rw [if_neg empty]; rfl, by simpa using empty, List.append_nil _⟩
      · simp only [code, decide_false, Bool.false_or] at formatted
        rw [areFormattedText_iff] at formatted
        simp only [code, if_false]
        rw [inline_of_marked marked code]
        exact inlines_formatted fun child member => ih child member (formatted child member) _

end Node

namespace DocNode

/-- Joining texts changes no character, up to the order of attributes. -/
theorem joinTexts_ofText {texts : List StyledText} (valid : ∀ text ∈ texts, text.2.all Mark.wellFormed = true) :
    ∃ joined, Reading.joinTexts (texts.map ofText) = joined.map ofText ∧
      StyledChar.AllSame (StyledChar.ofTexts joined) (StyledChar.ofTexts texts) := by
  have rule : ∀ x y : StyledText, joined? (ofText x) (ofText y) = (StyledText.joined? x y).map ofText := by
    intro x y
    rw [ofText, ofText, joined?, StyledText.joined?]
    split <;> rfl
  rw [joinTexts_eq, mergeNeighbours_map rule]
  exact ⟨_, rfl, StyledText.joined_same valid⟩

end DocNode

/-- A line of formatted text is read as texts with its characters. -/
theorem Reading.line_formatted [Surroundings] {nodes : List Node} (formatted : Node.areFormattedText nodes = true)
    (valid : ∀ c ∈ Node.styledAll [] nodes, c.2.all Mark.wellFormed = true) :
    ∃ texts, line (nodes.map (Node.reading false)) = pure (texts.map DocNode.ofText) ∧
      StyledChar.AllSame (StyledChar.ofTexts texts) (Node.styledAll [] nodes) := by
  rw [Node.areFormattedText_iff] at formatted
  obtain ⟨texts, read, some, same⟩ :=
    Node.inlines_formatted fun node member => Node.inline_formatted node (formatted node member) []
  rw [← same] at valid ⊢
  obtain ⟨joined, join, equal⟩ := DocNode.joinTexts_ofText (StyledChar.valid_of_ofTexts some valid)
  refine ⟨joined, ?_, equal⟩
  rw [line, read, pure_bind, join]

end ComponentMarkdown
