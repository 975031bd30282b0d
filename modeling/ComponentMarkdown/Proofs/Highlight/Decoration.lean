import ComponentMarkdown.Highlight.Decorate
import ComponentMarkdown.Proofs.Attrs
import ComponentMarkdown.Proofs.Markup.Text
import ComponentMarkdown.Proofs.Text

namespace ComponentMarkdown

namespace Node

/-- The source that a code block carries. -/
def source? : Node → Option String
  | element _ attrs _ => attrs.getString? "code"
  | _ => none

/-- The code blocks in a node, in document order. -/
def codeBlocks (node : Node) : List Node := node.inOrder.filter (·.tag? = some "pre")

theorem codeBlocks_text (content : String) : (text content).codeBlocks = [] := by
  rw [codeBlocks, inOrder_text]
  rfl

theorem codeBlocks_comment (content : String) : (comment content).codeBlocks = [] := by
  rw [codeBlocks, inOrder_comment]
  rfl

theorem codeBlocks_block (attrs : Attrs) (children : List Node) :
    (element "pre" attrs children).codeBlocks = element "pre" attrs children :: children.flatMap codeBlocks := by
  rw [codeBlocks, inOrder_element, List.filter_cons_of_pos (by simp [tag?]), List.filter_flatMap]
  rfl

theorem codeBlocks_around {tag : String} (noBlock : tag ≠ "pre") (attrs : Attrs) (children : List Node) :
    (element tag attrs children).codeBlocks = children.flatMap codeBlocks := by
  rw [codeBlocks, inOrder_element, List.filter_cons_of_neg (by simpa [tag?] using noBlock), List.filter_flatMap]
  rfl

end Node

namespace Highlight

open Node (textOf textOf_cons textOf_nil textOf_append)

section Text

/-- Joining neighbours with one style keeps the text. -/
theorem flatMap_styled (palette : Palette) (tokens : List Token) :
    (styled palette tokens).flatMap StyledText.text = tokens.flatMap Token.text := by
  induction tokens with
  | nil => rfl
  | cons token rest ih =>
    rw [styled, List.flatMap_cons, ← ih]
    split
    · rename_i empty
      rw [List.isEmpty_iff.1 empty, List.nil_append]
    · cases styled palette rest with
      | nil => rfl
      | cons next more =>
        simp only
        split
        · simp only [List.flatMap_cons, List.append_assoc]
        · simp only [List.flatMap_cons]

theorem textContent_toNode (piece : StyledText) : piece.toNode.textContent = String.ofList piece.text := by
  rw [StyledText.toNode, Node.textContent_element (by decide), textOf_cons, textOf_nil, Node.textContent_text,
    String.append_empty]

theorem textOf_tokenNodes (palette : Palette) (line : Line) :
    textOf (tokenNodes palette line) = String.ofList (line.tokens.flatMap Token.text) := by
  rw [tokenNodes, ← flatMap_styled palette]
  induction styled palette line.tokens with
  | nil => rw [List.map_nil, textOf_nil, List.flatMap_nil, String.ofList_nil]
  | cons piece rest ih =>
    rw [List.map_cons, textOf_cons, textContent_toNode, ih, List.flatMap_cons, String.ofList_append]

theorem textOf_lineEnd (line : Line) :
    textOf (lineEnd line) = String.ofList (if line.ended then ['\n'] else []) := by
  rw [lineEnd]
  split
  · rw [textOf_cons, textOf_nil, Node.textContent_text, String.append_empty]
  · rw [textOf_nil, String.ofList_nil]

/-- Writers whose nodes for a line have its text. -/
theorem textOf_flatMap_lines {nodes : Line → List Node}
    (each : ∀ line, textOf (nodes line) = String.ofList line.code)
    (lines : List Line) : textOf (lines.flatMap nodes) = String.ofList (lines.flatMap Line.code) := by
  induction lines with
  | nil => rw [List.flatMap_nil, textOf_nil, List.flatMap_nil, String.ofList_nil]
  | cons line rest ih => rw [List.flatMap_cons, textOf_append, each, ih, List.flatMap_cons, String.ofList_append]

theorem textOf_blockNodes (palette : Palette) (lines : List Line) :
    textOf (blockNodes palette lines) = String.ofList (lines.flatMap Line.code) := by
  refine textOf_flatMap_lines (fun line => ?_) lines
  rw [textOf_cons, Node.textContent_element (by decide), textOf_tokenNodes, textOf_lineEnd, ← String.ofList_append,
    Line.code]

theorem textOf_inlineNodes (palette : Palette) (lines : List Line) :
    textOf (inlineNodes palette lines) = String.ofList (lines.flatMap Line.code) := by
  refine textOf_flatMap_lines (fun line => ?_) lines
  rw [textOf_append, textOf_tokenNodes, textOf_lineEnd, ← String.ofList_append, Line.code]

variable {tokenizer : Tokenizer} {palette : Option Palette} {write : Palette → List Line → List Node}
  {language : Option String} {code : String} {nodes : List Node}

/-- Code in colours is written from lines that are the code. -/
theorem exists_lines_of_coloured (found : coloured? tokenizer palette write language code = some nodes) :
    ∃ palette lines, nodes = write palette lines ∧ lines.flatMap Line.code = code.toList := by
  simp only [coloured?, Option.bind_eq_bind, Option.bind_eq_some_iff, Option.pure_def, Option.some.injEq] at found
  obtain ⟨palette, _, language, _, lines, cut, rfl⟩ := found
  exact ⟨palette, lines, rfl, tokenizer.code_lines cut⟩

theorem textOf_coloured
    (keeps : ∀ palette lines, textOf (write palette lines) = String.ofList (lines.flatMap Line.code))
    (found : coloured? tokenizer palette write language code = some nodes) : textOf nodes = code := by
  obtain ⟨palette, lines, rfl, same⟩ := exists_lines_of_coloured found
  rw [keeps, same, String.ofList_toList]

end Text

/-- What is left of one attribute without decoration. -/
def strippedEntry : String × Value → Attrs
  | ("style", _) => []
  | ("class", .str names) => classWithout names
  | entry => [entry]

theorem stripped_eq (attrs : Attrs) : stripped attrs = attrs.flatMap strippedEntry := rfl

theorem stripped_append (attrs more : Attrs) : stripped (attrs ++ more) = stripped attrs ++ stripped more := by
  rw [stripped_eq, List.flatMap_append, stripped_eq, stripped_eq]

theorem strippedEntry_eq_self {key : String} {value : Value} (noStyle : key ≠ "style")
    (noClass : ∀ names, value = .str names → key ≠ "class") : strippedEntry (key, value) = [(key, value)] := by
  rw [strippedEntry]
  · rintro value ⟨⟩
    exact noStyle rfl
  · rintro names ⟨⟩
    exact noClass names rfl rfl

/-- The words of a class without the class of decorated code, as a class. -/
theorem classWithout_eq (names : String) :
    classWithout names = [] ∨ ∃ kept, classWithout names = [("class", .str kept)] ∧
      classWithout kept = [("class", .str kept)] := by
  by_cases none : ((Text.words names.toList).filter (· ≠ decoratedClass.toList)).isEmpty = true
  · exact Or.inl (by simp only [classWithout, none, if_true])
  · right
    have solid : ∀ word ∈ (Text.words names.toList).filter (· ≠ decoratedClass.toList),
        word ≠ [] ∧ ∀ c ∈ word, Text.isBlank c = false := fun word member =>
          Text.mem_words (List.mem_of_mem_filter member)
    refine ⟨String.ofList (Text.join [' '] ((Text.words names.toList).filter (· ≠ decoratedClass.toList))), ?_, ?_⟩
    · simp only [classWithout, none, Bool.false_eq_true, if_false]
    · simp only [classWithout, String.toList_ofList, Text.words_join solid, List.filter_filter, Bool.and_self, none,
        Bool.false_eq_true, if_false]

/-- The class of decorated code behind other classes is taken off again. -/
theorem classWithout_decorated (names : String) :
    classWithout (names ++ " " ++ decoratedClass) = classWithout names := by
  have chars : (names ++ " " ++ decoratedClass).toList = names.toList ++ ' ' :: decoratedClass.toList := by
    rw [String.toList_append, String.toList_append, List.append_assoc]
    rfl
  have single : Text.words decoratedClass.toList = [decoratedClass.toList] := rfl
  rw [classWithout, chars, Text.words_append_blank (by decide), single, List.filter_append,
    List.filter_singleton]
  simp only [ne_eq, not_true_eq_false, decide_false, cond_false, List.append_nil]
  rfl

/-- Attributes without decoration. -/
def IsBare (attrs : Attrs) : Prop := ∀ entry ∈ attrs, strippedEntry entry = [entry]

theorem stripped_of_isBare {attrs : Attrs} (bare : IsBare attrs) : stripped attrs = attrs := by
  rw [stripped_eq]
  induction attrs with
  | nil => rfl
  | cons entry rest ih =>
    obtain ⟨here, below⟩ := List.forall_mem_cons.1 bare
    rw [List.flatMap_cons, here, ih below, List.singleton_append]

theorem isBare_stripped (attrs : Attrs) : IsBare (stripped attrs) := by
  intro entry member
  rw [stripped_eq] at member
  obtain ⟨origin, _, inside⟩ := List.mem_flatMap.1 member
  unfold strippedEntry at inside
  split at inside
  · cases inside
  · rename_i names _
    rcases classWithout_eq names with none | ⟨kept, same, again⟩
    · rw [none] at inside
      cases inside
    · rw [same, List.mem_singleton] at inside
      rw [inside]
      exact again
  · rename_i noStyle noClass
    rw [List.mem_singleton] at inside
    obtain ⟨key, value⟩ := origin
    rw [inside]
    refine strippedEntry_eq_self (fun same => noStyle value (by rw [same])) fun names string same => ?_
    exact noClass names (by rw [same, string])

/-- What is left of an attribute has its key. -/
theorem strippedEntry_keys (entry : String × Value) : ((strippedEntry entry).map Prod.fst).Sublist [entry.1] := by
  unfold strippedEntry
  split
  · exact List.nil_sublist _
  · rename_i names
    rcases classWithout_eq names with none | ⟨kept, same, _⟩
    · rw [none]
      exact List.nil_sublist _
    · rw [same]
      exact List.Sublist.refl _
  · exact List.Sublist.refl _

theorem stripped_distinct {attrs : Attrs} (distinct : attrs.Distinct) : (stripped attrs).Distinct := by
  have fewer : (stripped attrs).keys.Sublist attrs.keys := by
    rw [stripped_eq]
    clear distinct
    induction attrs with
    | nil => exact List.Sublist.refl _
    | cons entry rest ih =>
      rw [List.flatMap_cons, Attrs.keys, List.map_append, Attrs.keys, List.map_cons]
      exact (strippedEntry_keys entry).append ih
  exact distinct.sublist fewer

theorem get?_stripped (attrs : Attrs) {key : String} (noStyle : key ≠ "style") (noClass : key ≠ "class") :
    (stripped attrs).get? key = attrs.get? key := by
  rw [stripped_eq]
  induction attrs with
  | nil => rfl
  | cons entry rest ih =>
    obtain ⟨k, v⟩ := entry
    rw [List.flatMap_cons, Attrs.get?_append, ih, Attrs.get?_cons]
    by_cases same : key = k
    · subst same
      rw [strippedEntry_eq_self noStyle fun _ _ => noClass, Attrs.get?_cons, if_pos rfl, if_pos rfl]
      rfl
    · have missing : Attrs.get? (strippedEntry (k, v)) key = none := by
        refine Attrs.get?_eq_none_iff.2 fun inside => same ?_
        exact List.mem_singleton.1 ((strippedEntry_keys (k, v)).subset inside)
      rw [missing, if_neg same]
      rfl

theorem get?_withClass (attrs : Attrs) {key : String} (noClass : key ≠ "class") :
    (withClass attrs).get? key = attrs.get? key := by
  rw [withClass, Attrs.get?_insert, if_neg noClass]

theorem withClass_of_string {attrs : Attrs} {names : String} (string : attrs.getString? "class" = some names) :
    withClass attrs = attrs.insert "class" (.str (names ++ " " ++ decoratedClass)) := by
  rw [withClass, string]

theorem withClass_of_other {attrs : Attrs} (other : attrs.getString? "class" = none) :
    withClass attrs = attrs.insert "class" (.str decoratedClass) := by
  rw [withClass, other]

/-- Decorating attributes once more changes at most the place of the class. -/
theorem withClass_again {attrs : Attrs} (bare : IsBare attrs) (distinct : attrs.Distinct) :
    (withClass (stripped (withClass attrs))).Perm (withClass attrs) := by
  have plain : classWithout decoratedClass = [] := by decide
  cases found : attrs.get? "class" with
  | none =>
    have text : attrs.getString? "class" = none := by rw [Attrs.getString?, found, Option.bind_none]
    have added : withClass attrs = attrs ++ [("class", .str decoratedClass)] := by
      rw [withClass_of_other text, Attrs.insert_of_get?_none found]
    have back : stripped (withClass attrs) = attrs := by
      rw [added, stripped_append, stripped_of_isBare bare, stripped_eq, List.flatMap_singleton,
        strippedEntry, plain, List.append_nil]
    rw [back]
  | some value =>
    obtain ⟨before, after, rfl, missing⟩ := Attrs.exists_split found
    obtain ⟨bareBefore, bareRest⟩ := List.forall_mem_append.1 bare
    obtain ⟨bareClass, bareAfter⟩ := List.forall_mem_cons.1 bareRest
    have off : ∀ names, stripped (before ++ ("class", .str names) :: after) =
        before ++ (classWithout names ++ after) := by
      intro names
      rw [stripped_append, stripped_of_isBare bareBefore, stripped_eq, List.flatMap_cons, ← stripped_eq,
        stripped_of_isBare bareAfter, strippedEntry]
    by_cases text : ∃ names, value = .str names
    · obtain ⟨names, rfl⟩ := text
      have string : Attrs.getString? (before ++ ("class", .str names) :: after) "class" = some names := by
        rw [Attrs.getString?, found]
        rfl
      have back : stripped (withClass (before ++ ("class", .str names) :: after)) =
          before ++ ("class", .str names) :: after := by
        rw [strippedEntry] at bareClass
        rw [withClass_of_string string, Attrs.insert_split missing, off, classWithout_decorated, bareClass,
          List.singleton_append]
      rw [back]
    · have other : Attrs.getString? (before ++ ("class", value) :: after) "class" = none := by
        rw [Attrs.getString?, found]
        cases value with
        | str names => exact absurd ⟨names, rfl⟩ text
        | _ => rfl
      have behind : Attrs.get? after "class" = none := (Attrs.distinct_cons_iff.1 distinct.append_right).1
      have free : Attrs.get? (before ++ after) "class" = none := by
        rw [Attrs.get?_append, missing, behind]
        rfl
      have otherAgain : Attrs.getString? (before ++ after) "class" = none := by
        rw [Attrs.getString?, free, Option.bind_none]
      rw [withClass_of_other other, Attrs.insert_split missing, off, plain, List.nil_append,
        withClass_of_other otherAgain,
        Attrs.insert_of_get?_none free, List.append_assoc]
      exact List.Perm.append_left before List.perm_append_comm

section Flat

theorem codeBlocks_tokenNodes (palette : Palette) (line : Line) :
    (tokenNodes palette line).flatMap Node.codeBlocks = [] := by
  refine List.flatMap_eq_nil_iff.2 fun node member => ?_
  obtain ⟨piece, _, rfl⟩ := List.mem_map.1 member
  rw [StyledText.toNode, Node.codeBlocks_around (by decide), List.flatMap_singleton, Node.codeBlocks_text]

theorem codeBlocks_lineEnd (line : Line) : (lineEnd line).flatMap Node.codeBlocks = [] := by
  rw [lineEnd]
  split
  · rw [List.flatMap_singleton, Node.codeBlocks_text]
  · rfl

theorem codeBlocks_blockNodes (palette : Palette) (lines : List Line) :
    (blockNodes palette lines).flatMap Node.codeBlocks = [] := by
  rw [blockNodes, List.flatMap_assoc]
  refine List.flatMap_eq_nil_iff.2 fun line _ => ?_
  rw [List.flatMap_cons, Node.codeBlocks_around (by decide), codeBlocks_tokenNodes,
    codeBlocks_lineEnd, List.append_nil]

theorem codeBlocks_inlineNodes (palette : Palette) (lines : List Line) :
    (inlineNodes palette lines).flatMap Node.codeBlocks = [] := by
  rw [inlineNodes, List.flatMap_assoc]
  refine List.flatMap_eq_nil_iff.2 fun line _ => ?_
  rw [List.flatMap_append, codeBlocks_tokenNodes, codeBlocks_lineEnd, List.append_nil]

end Flat

section Source

theorem get?_withSource (attrs : Attrs) (code key : String) : (withSource attrs code).get? key =
    if key = "code" then some ((attrs.get? "code").getD (.str code)) else attrs.get? key := by
  rw [withSource, Attrs.contains]
  cases found : attrs.get? "code" with
  | none =>
    rw [if_neg (by simp), Attrs.get?_insert]
    rfl
  | some value =>
    rw [if_pos (by simp)]
    split
    · rename_i same
      rw [same, found]
      rfl
    · rfl

theorem withSource_of_contains {attrs : Attrs} (there : attrs.contains "code" = true) (code : String) :
    withSource attrs code = attrs := by rw [withSource, if_pos there]

theorem contains_withSource (attrs : Attrs) (code : String) : (withSource attrs code).contains "code" = true := by
  rw [Attrs.contains, get?_withSource, if_pos rfl, Option.isSome_some]

theorem isBare_withSource {attrs : Attrs} (bare : IsBare attrs) (code : String) :
    IsBare (withSource attrs code) := by
  rw [withSource, Attrs.contains]
  cases found : attrs.get? "code" with
  | none =>
    rw [if_neg (by simp), Attrs.insert_of_get?_none found]
    exact List.forall_mem_append.2
      ⟨bare, List.forall_mem_singleton.2 (strippedEntry_eq_self (by decide) fun _ _ => by decide)⟩
  | some value =>
    rw [if_pos (by simp)]
    exact bare

theorem withSource_distinct {attrs : Attrs} (distinct : attrs.Distinct) (code : String) :
    (withSource attrs code).Distinct := by
  rw [withSource]
  split
  · exact distinct
  · exact distinct.insert "code" (.str code)

theorem get?_keptAttrs (attrs : Attrs) (content : String) :
    (keptAttrs attrs content).get? "code" = some ((attrs.get? "code").getD (.str (sourceOf attrs content))) ∧
      (keptAttrs attrs content).get? "language" = attrs.get? "language" := by
  rw [keptAttrs, get?_withSource, get?_withSource, if_pos rfl, if_neg (by decide),
    get?_stripped attrs (by decide) (by decide), get?_stripped attrs (by decide) (by decide)]
  exact ⟨rfl, rfl⟩

/-- The source is found again. -/
theorem sourceOf_again {attrs other : Attrs} {content : String}
    (found : other.get? "code" = (keptAttrs attrs content).get? "code") :
    sourceOf other (sourceOf attrs content) = sourceOf attrs content := by
  rw [(get?_keptAttrs attrs content).1] at found
  rw [sourceOf, Attrs.getString?, found, Option.bind_some]
  cases here : attrs.get? "code" with
  | none => rfl
  | some value =>
    rw [Option.getD_some, sourceOf, Attrs.getString?, here, Option.bind_some]
    cases value.asString? <;> rfl

end Source

section Equations

variable {tokenizer : Tokenizer} {palette : Option Palette} {attrs : Attrs}

theorem textOf_innerCode (children : List Node) : textOf [innerCode children] = textOf children := by
  rw [textOf_cons, textOf_nil, innerCode, Node.textContent_element (by decide), String.append_empty]

theorem decoratedBlock_of_some {content : String} {nodes : List Node}
    (found : coloured? tokenizer palette blockNodes (languageOf? attrs) (sourceOf attrs content) = some nodes) :
    decoratedBlock tokenizer palette attrs content =
      .element "pre" (withClass (keptAttrs attrs content)) [innerCode nodes] := by
  simp only [decoratedBlock, found]

theorem decoratedBlock_of_none {content : String}
    (plain : coloured? tokenizer palette blockNodes (languageOf? attrs) (sourceOf attrs content) = none) :
    decoratedBlock tokenizer palette attrs content =
      .element "pre" (keptAttrs attrs content) [innerCode [.text (sourceOf attrs content)]] := by
  simp only [decoratedBlock, plain]

theorem decoratedSpan_of_some {content : String} {nodes : List Node}
    (found :
      coloured? tokenizer palette inlineNodes (some ((attrs.getString? "language").getD "")) content = some nodes) :
    decoratedSpan tokenizer palette attrs content = .element "code" (withClass (stripped attrs)) nodes := by
  simp only [decoratedSpan, found]

theorem decoratedSpan_of_none {content : String}
    (plain : coloured? tokenizer palette inlineNodes (some ((attrs.getString? "language").getD "")) content =
    none) : decoratedSpan tokenizer palette attrs content = .element "code" (stripped attrs) [.text content] := by
  simp only [decoratedSpan, plain]

theorem decoratedList_eq_map (nodes : List Node) :
    decoratedList tokenizer palette nodes = nodes.map (decorated tokenizer palette) := by
  induction nodes with
  | nil => rw [decoratedList, List.map_nil]
  | cons node rest ih => rw [decoratedList, List.map_cons, ih]

theorem decorated_text (content : String) : decorated tokenizer palette (.text content) = .text content := by
  rw [decorated]
  simp

theorem decorated_comment (content : String) :
    decorated tokenizer palette (.comment content) = .comment content := by
  rw [decorated]
  simp

theorem decorated_block (attrs : Attrs) (children : List Node) :
    decorated tokenizer palette (.element "pre" attrs children) =
      decoratedBlock tokenizer palette attrs (textOf children) := by
  rw [decorated, if_pos rfl]

theorem decorated_span (named : attrs.contains "language" = true) (children : List Node) :
    decorated tokenizer palette (.element "code" attrs children) =
      decoratedSpan tokenizer palette attrs (textOf children) := by
  rw [decorated, if_neg (by decide), if_pos ⟨rfl, named⟩]

theorem decorated_around {tag : String} (noBlock : tag ≠ "pre")
    (noSpan : ¬ (tag = "code" ∧ attrs.contains "language" = true))
    (children : List Node) : decorated tokenizer palette (.element tag attrs children) =
      .element tag attrs (children.map (decorated tokenizer palette)) := by
  rw [decorated, if_neg noBlock, if_neg noSpan, decoratedList_eq_map]

end Equations

section Spec

variable {tokenizer : Tokenizer} {palette : Option Palette} (attrs : Attrs) (content : String)

/-- A decorated code block has its source as its text, no code block in it, and all attributes but the class that
it is meant to keep. -/
theorem decoratedBlock_spec : ∃ other nodes, decoratedBlock tokenizer palette attrs content =
      .element "pre" other [innerCode nodes] ∧ textOf nodes = sourceOf attrs content ∧
      nodes.flatMap Node.codeBlocks = [] ∧
      ∀ key, key ≠ "class" → other.get? key = (keptAttrs attrs content).get? key := by
  cases found : coloured? tokenizer palette blockNodes (languageOf? attrs) (sourceOf attrs content) with
  | some nodes =>
    have text := textOf_coloured textOf_blockNodes found
    obtain ⟨_, lines, rfl, _⟩ := exists_lines_of_coloured found
    exact ⟨_, _, decoratedBlock_of_some found, text, codeBlocks_blockNodes _ _,
      fun key noClass => get?_withClass _ noClass⟩
  | none =>
    refine ⟨_, _, decoratedBlock_of_none found, ?_, ?_, fun _ _ => rfl⟩
    · rw [textOf_cons, textOf_nil, Node.textContent_text, String.append_empty]
    · rw [List.flatMap_singleton, Node.codeBlocks_text]

/-- Decorated code inside a line has its text, no code block in it, and all attributes but the class and the
style. -/
theorem decoratedSpan_spec : ∃ other nodes,
      decoratedSpan tokenizer palette attrs content = .element "code" other nodes ∧
      textOf nodes = content ∧ nodes.flatMap Node.codeBlocks = [] ∧
      ∀ key, key ≠ "class" → other.get? key = (stripped attrs).get? key := by
  cases found : coloured? tokenizer palette inlineNodes (some ((attrs.getString? "language").getD "")) content with
  | some nodes =>
    have text := textOf_coloured textOf_inlineNodes found
    obtain ⟨_, lines, rfl, _⟩ := exists_lines_of_coloured found
    exact ⟨_, _, decoratedSpan_of_some found, text, codeBlocks_inlineNodes _ _,
      fun key noClass => get?_withClass _ noClass⟩
  | none =>
    refine ⟨_, _, decoratedSpan_of_none found, ?_, ?_, fun _ _ => rfl⟩
    · rw [textOf_cons, textOf_nil, Node.textContent_text, String.append_empty]
    · rw [List.flatMap_singleton, Node.codeBlocks_text]

/-- Induction along the cases of decoration: a code block and code inside a line that names its language are written
anew, and of anything else the children are decorated. -/
theorem decorated_induction (tokenizer : Tokenizer) (palette : Option Palette) {P : Node → Prop}
    (text : ∀ content, P (.text content)) (comment : ∀ content, P (.comment content))
    (block : ∀ attrs children other nodes,
      decorated tokenizer palette (.element "pre" attrs children) = .element "pre" other [innerCode nodes] →
      textOf nodes = sourceOf attrs (textOf children) → nodes.flatMap Node.codeBlocks = [] →
      (∀ key, key ≠ "class" → other.get? key = (keptAttrs attrs (textOf children)).get? key) →
      P (.element "pre" attrs children))
    (span : ∀ attrs children other nodes, attrs.contains "language" = true →
      decorated tokenizer palette (.element "code" attrs children) = .element "code" other nodes →
      textOf nodes = textOf children → nodes.flatMap Node.codeBlocks = [] →
      (∀ key, key ≠ "class" → other.get? key = (stripped attrs).get? key) → P (.element "code" attrs children))
    (around : ∀ tag attrs children, tag ≠ "pre" → ¬ (tag = "code" ∧ attrs.contains "language" = true) →
      decorated tokenizer palette (.element tag attrs children) =
        .element tag attrs (children.map (decorated tokenizer palette)) →
      (∀ child ∈ children, P child) → P (.element tag attrs children))
    (node : Node) : P node := by
  induction node using Node.induction with
  | text content => exact text content
  | comment content => exact comment content
  | element tag attrs children ih =>
    by_cases noBlock : tag = "pre"
    · subst noBlock
      obtain ⟨other, nodes, same, facts⟩ := @decoratedBlock_spec tokenizer palette attrs (textOf children)
      exact block attrs children other nodes (by rw [decorated_block, same]) facts.1 facts.2.1 facts.2.2
    · by_cases noSpan : tag = "code" ∧ attrs.contains "language" = true
      · obtain ⟨rfl, named⟩ := noSpan
        obtain ⟨other, nodes, same, facts⟩ := @decoratedSpan_spec tokenizer palette attrs (textOf children)
        exact span attrs children other nodes named (by rw [decorated_span named, same]) facts.1 facts.2.1 facts.2.2
      · exact around tag attrs children noBlock noSpan (decorated_around noBlock noSpan children) ih

end Spec

section Tree

variable (tokenizer : Tokenizer) (choice : ThemeChoice)

theorem decorateTree_nodes (tree : Tree) : (decorateTree tokenizer choice tree).nodes =
    (contentOf tree).map (decorated tokenizer choice.palette?) ++ sheetOf choice := by
  rw [decorateTree, decoratedList_eq_map]

theorem sheetOf_cases : sheetOf choice = [] ∨ ∃ css, sheetOf choice = [.element "style" [] [.text css]] := by
  rw [sheetOf]
  split
  · rw [styleSheet]
    split
    · exact Or.inl rfl
    · exact Or.inr ⟨_, rfl⟩
  · exact Or.inl rfl

theorem tag?_decorated (palette : Option Palette) (node : Node) :
    (decorated tokenizer palette node).tag? = node.tag? := by
  induction node using decorated_induction tokenizer palette with
  | text content => rw [decorated_text]
  | comment content => rw [decorated_comment]
  | block attrs children other nodes same => rw [same]; rfl
  | span attrs children other nodes named same => rw [same]; rfl
  | around tag attrs children noBlock noSpan same ih => rw [same]; rfl

/-- The style sheet that is added is what is taken away before the next time. -/
theorem contentOf_decorateTree (tree : Tree) : contentOf (decorateTree tokenizer choice tree) =
    (contentOf tree).map (decorated tokenizer choice.palette?) := by
  have shown : ∀ node ∈ (contentOf tree).map (decorated tokenizer choice.palette?), node.tag? ≠ some "style" := by
    intro node member
    obtain ⟨origin, inside, rfl⟩ := List.mem_map.1 member
    rw [tag?_decorated]
    simpa using (List.mem_filter.1 inside).2
  have sheet : (sheetOf choice).filter (fun node => node.tag? ≠ some "style") = [] := by
    rcases sheetOf_cases choice with none | ⟨css, single⟩
    · rw [none, List.filter_nil]
    · rw [single]
      rfl
  rw [contentOf, decorateTree_nodes, List.filter_append, sheet, List.append_nil, List.filter_eq_self]
  simpa using shown

end Tree

end Highlight

end ComponentMarkdown
