import ComponentMarkdown.Markup.Inline
import ComponentMarkdown.Proofs.Markup.AttributeBlock
import ComponentMarkdown.Proofs.Markup.BlockEnd
import ComponentMarkdown.Proofs.Markup.Token

namespace ComponentMarkdown

namespace AttributeBlock

/-- Whether a character means nothing but itself in a block and in a label. -/
def isOrdinary (c : Char) : Bool := c ∉ ['[', ']', '\x7b', '\x7d', '\x22', '\x27', '\\', '\n']

/-- Whether a text can stand in quotes inside a label. -/
def isQuotable (s : List Char) : Bool := '[' ∉ s && ']' ∉ s && '\\' ∉ s

/-- Whether a key is a name that is written. -/
def isInlineKey (key : String) : Bool := key ≠ "" && key.toList.all Inline.isNameChar && !isInternal key

/-- Whether a value of a key can stand inside a label. An id and a class are written without quotes around them. -/
def isInlineValue (key : String) : Value → Bool
  | .str s =>
    isQuotable s.toList &&
      (key ∉ ["id", "class"] || s.toList.all fun c => c ∉ ['\x7b', '\x7d', '\x22', '\x27'])
  | value => isPlainValue value

/-- Whether attributes are a map that is read back from inside a line of text. -/
def isInline (attrs : Attrs) : Bool :=
  attrs.keys.Nodup && attrs.all fun entry => isInlineKey entry.1 && isInlineValue entry.1 entry.2 && isTidy entry

theorem isInline_iff {attrs : Attrs} : isInline attrs = true ↔ attrs.Distinct ∧
    (∀ entry ∈ attrs, isInlineKey entry.1 = true) ∧ (∀ entry ∈ attrs, isInlineValue entry.1 entry.2 = true) ∧
      ∀ entry ∈ attrs, isTidy entry = true := by
  simp only [isInline, Bool.and_eq_true, decide_eq_true_eq, List.all_eq_true, forall_and, Attrs.Distinct, and_assoc]

section Character

variable {c : Char}

theorem isNameChar_plain (name : Inline.isNameChar c = true) :
    isOrdinary c = true ∧ isKeyChar c = true ∧ c ∉ ['#', '.', ':'] := by
  have other : ∀ d : Char, Inline.isNameChar d = false → c ≠ d := by
    rintro d plain rfl
    rw [name] at plain
    cases plain
  have solid : Text.isBlank c = false := by
    rw [Inline.isNameChar, Bool.or_eq_true, Bool.or_eq_true, decide_eq_true_eq, decide_eq_true_eq, Char.isAlphanum,
      Bool.or_eq_true] at name
    rcases name with ((letter | digit) | rfl) | rfl
    · exact Token.isBlank_of_alpha letter
    · exact (digit_plain digit).1
    · decide
    · decide
  refine ⟨?_, ?_, ?_⟩
  · have apart : ∀ d ∈ ['[', ']', '\x7b', '\x7d', '\x22', '\x27', '\\', '\n'], Inline.isNameChar d = false := by
      simp only [List.mem_cons, List.not_mem_nil, or_false, forall_eq_or_imp, forall_eq]
      decide
    rw [isOrdinary, decide_eq_true_eq]
    exact fun member => other c (apart c member) rfl
  · rw [isKeyChar, solid]
    simpa using other '=' (by decide)
  · have apart : ∀ d ∈ ['#', '.', ':'], Inline.isNameChar d = false := by
      simp only [List.mem_cons, List.not_mem_nil, or_false, forall_eq_or_imp, forall_eq]
      decide
    exact fun member => other c (apart c member) rfl

end Character

theorem isPlainKey_of_isInlineKey {key : String} (name : isInlineKey key = true) : isPlainKey key = true := by
  simp only [isInlineKey, Bool.and_eq_true, decide_eq_true_eq, List.all_eq_true] at name
  obtain ⟨⟨some, chars⟩, written⟩ := name
  obtain ⟨c, rest, same⟩ := List.exists_cons_of_ne_nil (by simpa using some : key.toList ≠ [])
  rw [same] at chars
  have first := (isNameChar_plain (chars c List.mem_cons_self)).2.2
  simp only [List.mem_cons, List.not_mem_nil, or_false, not_or] at first
  have all : (c :: rest).all isKeyChar = true := List.all_eq_true.2 fun d member =>
    (isNameChar_plain (chars d member)).2.1
  rw [isPlainKey, same, isKey, all, written]
  simpa using ⟨⟨first.1, first.2.1⟩, first.2.2⟩

theorem isPlain_of_isInline {entry : String × Value} (key : isInlineKey entry.1 = true)
    (value : isInlineValue entry.1 entry.2 = true) : isPlain entry = true := by
  obtain ⟨name, value_⟩ := entry
  rw [isPlain, isPlainKey_of_isInlineKey key, Bool.true_and]
  cases value_ with
  | str s =>
    simp only [isInlineValue, isQuotable, Bool.and_eq_true] at value
    exact value.1.2
  | _ => exact value

section Patchwork

/-- A property of texts that ordinary characters and quoted texts have, and two texts together that have it
apart. -/
structure Patchwork (P : List Char → Prop) : Prop where
  nil : P []
  append : ∀ {s t}, P s → P t → P (s ++ t)
  ordinary : ∀ {c}, isOrdinary c = true → P [c]
  quoted : ∀ {s : String}, isQuotable s.toList = true → P (quoted s)

variable {P : List Char → Prop} (patchwork : Patchwork P)

include patchwork

theorem Patchwork.plain {s : List Char} (plain : ∀ c ∈ s, isOrdinary c = true) : P s := by
  induction s with
  | nil => exact patchwork.nil
  | cons c rest ih =>
    obtain ⟨here, below⟩ := List.forall_mem_cons.1 plain
    exact patchwork.append (patchwork.ordinary here) (ih below)

theorem Patchwork.join {parts : List (List Char)} (all : ∀ part ∈ parts, P part) : P (Text.join [' '] parts) := by
  induction parts with
  | nil => exact patchwork.nil
  | cons part rest ih =>
    obtain ⟨here, below⟩ := List.forall_mem_cons.1 all
    by_cases last : rest = []
    · rw [last]
      exact here
    · rw [Text.join_cons last]
      exact patchwork.append (patchwork.append here (patchwork.ordinary (by decide))) (ih below)

/-- A text without quotes and braces that can stand in quotes can stand without them, a word at a time. -/
theorem Patchwork.bare {s : List Char} (quotable : isQuotable s = true)
    (bare : ∀ c ∈ s, c ∉ ['\x7b', '\x7d', '\x22', '\x27']) {word : List Char} (part : ∀ c ∈ word, c ∈ s)
    (solid : ∀ c ∈ word, Text.isBlank c = false) : P word := by
  simp only [isQuotable, Bool.and_eq_true, decide_eq_true_eq] at quotable
  refine patchwork.plain fun c member => ?_
  have here := bare c (part c member)
  have inside : ∀ d, d ∉ s → c ≠ d := fun d outside same => outside (same ▸ part c member)
  have feed : c ≠ '\n' := fun same => absurd (solid c member) (by rw [same]; decide)
  simp only [List.mem_cons, List.not_mem_nil, or_false, not_or] at here
  simp [isOrdinary, here, feed, inside _ quotable.1.1, inside _ quotable.1.2, inside _ quotable.2]

theorem Patchwork.spellings {key : String} {value : Value} (name : isInlineKey key = true)
    (spelled : isInlineValue key value = true) : ∀ part ∈ spellings key value, P part := by
  have key_ : P key.toList := by
    simp only [isInlineKey, Bool.and_eq_true, List.all_eq_true] at name
    exact patchwork.plain fun c member => (isNameChar_plain (name.1.2 c member)).1
  have equals : P ['='] := patchwork.ordinary (by decide)
  cases value with
  | null | arr | obj => cases spelled
  | bool value =>
    cases value with
    | true => simpa [AttributeBlock.spellings] using key_
    | false =>
      have written :
          P (key.toList ++ "=false".toList) := patchwork.append key_ (patchwork.plain (by simp [isOrdinary]))
      simpa [AttributeBlock.spellings] using written
  | num value =>
    cases value with
    | float => cases spelled
    | int n =>
      have number : P n.repr.toList := by
        refine patchwork.plain fun c member => (isNameChar_plain ?_).1
        rw [Inline.isNameChar, Char.isAlphanum]
        rcases mem_repr_int member with digit | rfl
        · rw [digit]
          simp
        · decide
      have written :
          P (key.toList ++ (['='] ++ n.repr.toList)) := patchwork.append key_ (patchwork.append equals number)
      simpa [AttributeBlock.spellings, Json.numberText] using written
  | str s =>
    simp only [isInlineValue, Bool.and_eq_true, Bool.or_eq_true, decide_eq_true_eq, List.all_eq_true] at spelled
    obtain ⟨quotable, bare⟩ := spelled
    have own : key ∈ ["id", "class"] → ∀ c ∈ s.toList, c ∉ ['\x7b', '\x7d', '\x22', '\x27'] :=
      fun listed => bare.resolve_left (not_not.2 listed)
    rw [AttributeBlock.spellings]
    split
    · rename_i id
      have solid : ∀ c ∈ s.toList, Text.isBlank c = false := by simpa using id.2.2
      refine List.forall_mem_singleton.2 (patchwork.append (s := ['#']) (patchwork.ordinary (by decide)) ?_)
      exact patchwork.bare quotable (own (by simp [id.1])) (fun _ member => member) solid
    · split
      · rename_i class_
        intro part member
        obtain ⟨word, listed, rfl⟩ := List.mem_map.1 member
        refine patchwork.append (s := ['.']) (patchwork.ordinary (by decide)) ?_
        exact patchwork.bare quotable (own (by simp [class_.1])) (fun c inside => Text.words_subset listed inside)
          (Text.mem_words listed).2
      · have written : P (key.toList ++ (['='] ++ AttributeBlock.quoted s)) :=
          patchwork.append key_ (patchwork.append equals (patchwork.quoted quotable))
        exact List.forall_mem_singleton.2 written

theorem Patchwork.inner {attrs : Attrs} (inline : isInline attrs = true) :
    P (Text.join [' '] (parts attrs [])) := by
  obtain ⟨_, keys, values, _⟩ := isInline_iff.1 inline
  refine patchwork.join ?_
  rw [parts_eq fun entry member => .of_isPlain (isPlain_of_isInline (keys entry member) (values entry member))]
  intro part member
  obtain ⟨entry, listed, inside⟩ := List.mem_flatMap.1 member
  exact patchwork.spellings (keys entry listed) (values entry listed) part inside

end Patchwork

section Block

/-- A text behind which a block is still open, and no quote. -/
def LeavesOpen (part : List Char) : Prop :=
  ∀ depth tail, closing? (depth + 1) none (part ++ tail) = (closing? (depth + 1) none tail).map (behind part)

theorem closing?_escapedText {s : List Char} (noBackslash : '\\' ∉ s) (depth : Nat) (tail : List Char) :
    closing? depth (some '\x22') (Text.replaceChar '\x22' ['\\', '\x22'] s ++ tail) =
      (closing? depth (some '\x22') tail).map (behind (Text.replaceChar '\x22' ['\\', '\x22'] s)) := by
  induction s with
  | nil => exact Option.map_id'.symm
  | cons c rest ih =>
    rw [List.mem_cons, not_or] at noBackslash
    have later := ih noBackslash.2
    rw [Text.replaceChar] at later ⊢
    rw [List.flatMap_cons, List.append_assoc]
    by_cases same : c = '\x22'
    · rw [if_pos same, List.cons_append, List.singleton_append, closing?_escaped, later, Option.map_map]
      exact congrArg (Option.map · _) (funext fun found => behind_behind _ _ _)
    · rw [if_neg same, List.singleton_append, closing?_quoted _ _ _ (Ne.symm noBackslash.1), if_neg same,
        later, Option.map_map]
      exact congrArg (Option.map · _) (funext fun found => behind_behind _ _ _)

theorem patchwork_leavesOpen : Patchwork LeavesOpen where
  nil := fun _ _ => Option.map_id'.symm
  append := by
    intro s t first second depth tail
    rw [List.append_assoc, first, second, Option.map_map]
    exact congrArg (Option.map · _) (funext fun found => behind_behind _ _ _)
  ordinary := by
    intro c ordinary depth tail
    simp only [isOrdinary, List.mem_cons, List.not_mem_nil, or_false, not_or, decide_eq_true_eq] at ordinary
    rw [List.singleton_append, closing?_bare]
    simp [isQuote, ordinary]
  quoted := by
    intro s quotable depth tail
    simp only [isQuotable, Bool.and_eq_true, decide_eq_true_eq] at quotable
    rw [quoted, List.cons_append, List.append_assoc, closing?_bare, if_pos (by decide),
      closing?_escapedText quotable.2,
      List.singleton_append, closing?_quoted _ _ _ (by decide), if_pos rfl, Option.map_map, Option.map_map]
    refine congrArg (Option.map · _) (funext fun found => ?_)
    rw [Function.comp_apply, Function.comp_apply, behind_behind, behind_behind]
    rfl

/-- What is written of attributes where a block stands even if there are none. -/
def block (attrs : Attrs) : List Char := '\x7b' :: (Text.join [' '] (parts attrs []) ++ ['\x7d'])

variable {attrs : Attrs} (inline : isInline attrs = true)

include inline

theorem write_eq_block : (write attrs [] = [] ↔ attrs = []) ∧
    block attrs = if attrs = [] then ['\x7b', '\x7d'] else write attrs [] := by
  obtain ⟨_, keys, values, _⟩ := isInline_iff.1 inline
  have restored : ∀ entry ∈ attrs, Restored entry := fun entry member =>
    .of_isPlain (isPlain_of_isInline (keys entry member) (values entry member))
  refine ⟨write_eq_nil_iff restored, ?_⟩
  split
  · rename_i none
    subst none
    rfl
  · rename_i some
    rw [write, if_neg (by simpa using parts_ne_nil restored some), block]

theorem split?_block (tail : List Char) : split? (block attrs ++ tail) = some (block attrs, tail) := by
  have text : block attrs ++ tail = '\x7b' ::
    (Text.join [' '] (parts attrs []) ++ '\x7d' :: tail) := by simp [block]
  rw [text, split?, patchwork_leavesOpen.inner inline 0, closing?_bare]
  rfl

/-- A block is read as the attributes it was written for. -/
theorem read_block : ∃ back, read (block attrs) = .ok back ∧ back.Perm attrs := by
  obtain ⟨distinct, keys, values, tidy⟩ := isInline_iff.1 inline
  have restored : ∀ entry ∈ attrs, Restored entry := fun entry member =>
    .of_isPlain (isPlain_of_isInline (keys entry member) (values entry member))
  rw [(write_eq_block inline).2]
  split
  · rename_i none
    subst none
    have empty : read ['\x7b', '\x7d'] = .ok [] := by
      have inner : inner? ['\x7b', '\x7d'] = some [] := inner?_braced []
      rw [read, inner]
      simp only [Text.trimStart, List.dropWhile_nil]
      rw [items?]
      rfl
    exact ⟨[], empty, .nil⟩
  · rename_i some
    exact ⟨gathered attrs, read_write restored distinct some, gathered_perm tidy⟩

end Block

end AttributeBlock

end ComponentMarkdown
