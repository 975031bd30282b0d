import ComponentMarkdown.Markup.Writer
import ComponentMarkdown.Proofs.Markup.AttributeBlock
import ComponentMarkdown.Proofs.Markup.InlineReading
import ComponentMarkdown.Proofs.Markup.InlineWriting
import ComponentMarkdown.Proofs.Markup.Tree
import Mathlib.Data.List.Infix

namespace ComponentMarkdown

namespace Inline

section Pair

variable {c : Char}

theorem pair_infix_append {d : Char} (other : d ≠ c) (s t : List Char) :
    [c, c] <:+: s ++ d :: t ↔ [c, c] <:+: s ∨ [c, c] <:+: t := by
  induction s with
  | nil => simp [List.infix_cons_iff, List.cons_prefix_cons, Ne.symm other]
  | cons first rest ih =>
    rw [List.cons_append, List.infix_cons_iff, ih, List.infix_cons_iff, or_assoc]
    refine or_congr_left ?_
    cases rest with
    | nil => simp [List.cons_prefix_cons, Ne.symm other]
    | cons second more => simp [List.cons_prefix_cons]

/-- The parts in front of and behind the first pair of a character. -/
def cutAtPair (c : Char) : List Char → List Char × Option (List Char)
  | [] => ([], none)
  | d :: rest =>
    if [c, c] <+: d :: rest then ([], some rest.tail) else (d :: (cutAtPair c rest).1, (cutAtPair c rest).2)

theorem cutAtPair_append {front : List Char} (free : ¬ [c, c] <:+: front ++ [c]) (rest : List Char) :
    cutAtPair c (front ++ c :: c :: rest) = (front, some rest) := by
  induction front with
  | nil => simp [cutAtPair, List.cons_prefix_cons]
  | cons d front ih =>
    rw [List.cons_append, List.infix_cons_iff, not_or] at free
    have apart : ¬ [c, c] <+: d :: (front ++ c :: c :: rest) := by
      intro start
      refine free.1 (List.prefix_of_prefix_length_le start ?_ (by simp))
      exact ⟨c :: rest, by simp⟩
    rw [List.cons_append, cutAtPair, if_neg apart, ih free.2]

theorem cutAtPair_of_free {s : List Char} (free : ¬ [c, c] <:+: s) : cutAtPair c s = (s, none) := by
  induction s with
  | nil => rfl
  | cons d rest ih =>
    rw [List.infix_cons_iff, not_or] at free
    rw [cutAtPair, if_neg free.1, ih free.2]

theorem exists_first_pair {s : List Char} (pair : [c, c] <:+: s) :
    ∃ front rest, s = front ++ c :: c :: rest ∧ ¬ [c, c] <:+: front ++ [c] := by
  induction s with
  | nil => simp at pair
  | cons d more ih =>
    by_cases start : [c, c] <+: d :: more
    · obtain ⟨rest, same⟩ := start
      refine ⟨[], rest, same.symm, fun inside => ?_⟩
      have short := inside.length_le
      simp at short
    · obtain ⟨front, rest, rfl, free⟩ := ih ((List.infix_cons_iff.1 pair).resolve_left start)
      refine ⟨d :: front, rest, rfl, fun inside => ?_⟩
      rcases List.infix_cons_iff.1 inside with here | later
      · exact start (here.trans ⟨c :: rest, by simp⟩)
      · exact free later

theorem bindingBody?_eq (s : List Char) :
    bindingBody? s = (cutAtPair '\x7d' s).2.map fun _ => (cutAtPair '\x7d' s).1 := by
  fun_induction bindingBody? s with
  | case1 rest => simp [cutAtPair, List.cons_prefix_cons]
  | case2 c rest noPair ih =>
    have apart : ¬ ['\x7d', '\x7d'] <+: c :: rest := by
      rintro ⟨tail, same⟩
      obtain ⟨rfl, rfl⟩ := List.cons.inj same
      exact noPair _ rfl rfl
    rw [cutAtPair, if_neg apart, ih, Option.map_map]
    rfl
  | case3 => rfl

theorem splitDefault_eq (s : List Char) : splitDefault s = cutAtPair '|' s := by
  fun_induction splitDefault s with
  | case1 rest => simp [cutAtPair, List.cons_prefix_cons]
  | case2 c rest noPair value default split ih =>
    have apart : ¬ ['|', '|'] <+: c :: rest := by
      rintro ⟨tail, same⟩
      obtain ⟨rfl, rfl⟩ := List.cons.inj same
      exact noPair _ rfl rfl
    rw [cutAtPair, if_neg apart, ← ih, split]
  | case3 => rfl

/-- The braces behind a text are the first two in a row unless there are two in it, or one at its end. -/
theorem bindingBody?_append_iff {body tail : List Char} :
    bindingBody? (body ++ '\x7d' :: '\x7d' :: tail) = some body ↔ ¬ ['\x7d', '\x7d'] <:+: body ++ ['\x7d'] := by
  rw [bindingBody?_eq]
  constructor
  · intro same pair
    obtain ⟨front, rest, cut, free⟩ := exists_first_pair pair
    have whole : body ++ '\x7d' :: '\x7d' :: tail = front ++ '\x7d' :: '\x7d' :: (rest ++ '\x7d' :: tail) := by
      have more := congrArg (· ++ '\x7d' :: tail) cut
      simpa using more
    rw [whole, cutAtPair_append free] at same
    have length := congrArg List.length cut
    rw [← Option.some.inj same] at length
    simp at length
  · intro free
    rw [cutAtPair_append free]
    rfl

end Pair

section Body

/-- A text that is read as a binding when it stands between double braces. -/
structure IsBody (body : List Char) : Prop where
  closed : ¬ ['\x7d', '\x7d'] <:+: body ++ ['\x7d']
  line : '\n' ∉ body
  some : Text.trim (splitDefault body).1 ≠ []

/-- A binding at the start of a text is a body between double braces. -/
theorem binding?_text {s : List Char} {found : Construct}
    (here : binding? (textPieces ('\x7b' :: '\x7b' :: s)) = some found) :
    ∃ body more, s = body ++ '\x7d' :: '\x7d' :: more ∧ IsBody body ∧
      found = ⟨"binding", bindingAttrs body, [], body.length + 4⟩ ∧
      (textPieces ('\x7b' :: '\x7b' :: s)).drop found.size = textPieces more := by
  obtain ⟨body, tail, whole, ends, line, some, rfl⟩ := binding?_eq_some_iff.1 here
  have cut := congrArg chars whole
  rw [chars_append, chars_textPieces, chars_textPieces] at cut
  have cut : s = body ++ '\x7d' :: '\x7d' :: chars tail := by simpa using cut
  have length : body.length + 4 = (textPieces ('\x7b' :: '\x7b' :: (body ++ ['\x7d', '\x7d']))).length := by simp
  have split : textPieces ('\x7b' :: '\x7b' :: (body ++ '\x7d' :: '\x7d' :: chars tail)) =
      textPieces ('\x7b' :: '\x7b' :: (body ++ ['\x7d', '\x7d'])) ++ textPieces (chars tail) := by simp [textPieces]
  refine ⟨body, chars tail, cut, ⟨bindingBody?_append_iff.1 ends, line, some⟩, rfl, ?_⟩
  rw [cut, split, length, List.drop_left]

/-- A text that starts with two braces is one node when it is a binding from its first to its last character. -/
theorem apply_braces_iff {s : List Char} {node : Node} (noText : node.isText = false) :
    apply [.text (String.ofList ('\x7b' :: '\x7b' :: s))] = [node] ↔
      ∃ body, s = body ++ ['\x7d', '\x7d'] ∧ IsBody body ∧ node = .element "binding" (bindingAttrs body) [] := by
  have start : textPieces ('\x7b' :: '\x7b' :: s) = .char '\x7b' :: textPieces ('\x7b' :: s) := rfl
  have free := @trailing?_of_text none rfl (textPieces ('\x7b' :: '\x7b' :: s))
  have reads : construct? none (textPieces ('\x7b' :: '\x7b' :: s)) =
    binding? (textPieces ('\x7b' :: '\x7b' :: s)) := rfl
  rw [apply_text]
  cases here : binding? (textPieces ('\x7b' :: '\x7b' :: s)) with
  | none =>
    have plain : read [] none (textPieces ('\x7b' :: '\x7b' :: s)) =
        read (textPieces ['\x7b']) (some (.char '\x7b')) (textPieces ('\x7b' :: s)) :=
          read_plain free (reads.trans here)
    obtain ⟨content, more, text⟩ := @read_text_cons (some (.char '\x7b')) rfl ['\x7b'] nofun ('\x7b' :: s)
    rw [plain, text]
    constructor
    · intro one
      obtain ⟨rfl, _⟩ := List.cons.inj one
      cases noText
    · rintro ⟨body, rfl, valid, _⟩
      have ends : bindingBody? (body ++ ['\x7d', '\x7d']) = some body := bindingBody?_append_iff.2 valid.closed
      have found := binding?_eq_some_iff.2 ⟨body, [], (List.append_nil _).symm, ends, valid.line, valid.some, rfl⟩
      rw [found] at here
      cases here
  | some found =>
    obtain ⟨opening, closing, after, frames⟩ := construct?_frames (reads.trans here)
    obtain ⟨c, _, binding⟩ := read_frames [] free (reads.trans here) frames
    obtain ⟨body, more, rfl, valid, rfl, behind⟩ := binding?_text here
    have inside : nodes [] = [] ∧ read [] none [] = [] := ⟨rfl, rfl⟩
    rw [binding, inside.1, inside.2, List.nil_append, List.cons.injEq, ← frames.cut.2, behind]
    constructor
    · rintro ⟨same, nothing⟩
      cases read_text_eq_nil rfl nothing
      exact ⟨body, rfl, valid, same.symm⟩
    · rintro ⟨body', cut, valid', rfl⟩
      have first := (@bindingBody?_append_iff body more).2 valid.closed
      rw [cut, bindingBody?_append_iff.2 valid'.closed] at first
      cases first
      cases List.append_cancel_left cut
      exact ⟨rfl, rfl⟩

end Body

section Default

theorem unquoted?_infix {quote : Char} {s inner : List Char} (found : unquoted? quote s = some inner) :
    inner <:+: s := by
  cases s with
  | nil => cases found
  | cons c rest =>
    rw [unquoted?] at found
    split at found
    · cases found
      exact (List.dropLast_prefix rest).isInfix.trans (List.suffix_cons c rest).isInfix
    · cases found

theorem isWord_of_integer? {s : List Char} {n : Int} (found : AttributeBlock.integer? s = some n) :
    AttributeBlock.isWord n = true := by
  rw [AttributeBlock.isWord, Bool.and_eq_true, decide_eq_true_eq, decide_eq_true_eq]
  have sized : ∀ (negative : Bool) (size : Nat),
      (if negative = true then if size ≤ 0x8000000000000000 then some (-(size : Int)) else none
        else if size < 0x8000000000000000 then some (size : Int) else none) = some n →
      -0x8000000000000000 ≤ n ∧ n < 0x8000000000000000 := by
    intro negative size found
    cases negative with
    | true =>
      obtain ⟨bound, same⟩ := Option.ite_none_right_eq_some.1 found
      cases same
      omega
    | false =>
      obtain ⟨bound, same⟩ := Option.ite_none_right_eq_some.1 found
      cases same
      omega
  unfold AttributeBlock.integer? at found
  dsimp only at found
  split at found
  all_goals exact sized _ _ (Option.ite_none_left_eq_some.1 found).2

/-- A default is a boolean, a part of its text, or an integer. -/
theorem defaultValue_cases (s : List Char) : (∃ b, defaultValue s = .bool b) ∨
    (∃ t, t <:+: s ∧ defaultValue s = .str (String.ofList t)) ∨
      ∃ n, AttributeBlock.isWord n = true ∧ defaultValue s = .num (.int n) := by
  unfold defaultValue
  split
  · rename_i inner found
    exact Or.inr (Or.inl ⟨inner, unquoted?_infix found, rfl⟩)
  · rename_i inner found _
    exact Or.inr (Or.inl ⟨inner, unquoted?_infix found, rfl⟩)
  · rename_i n found _ _
    exact Or.inr (Or.inr ⟨n, isWord_of_integer? found, rfl⟩)
  · split
    · exact Or.inl ⟨true, rfl⟩
    · split
      · exact Or.inl ⟨false, rfl⟩
      · exact Or.inr (Or.inl ⟨s, List.infix_rfl, rfl⟩)

/-- How the default of a binding is written: a string stands in quotes, a number as it is, and anything else not at
all. -/
def defaultText? : Value → Option (List Char)
  | .str s => some ('\x27' :: (s.toList ++ ['\x27']))
  | .num n => some (Json.numberText n)
  | _ => none

/-- Whether a text can stand in a binding. -/
def isInBraces (s : List Char) : Bool := '\n' ∉ s && !decide (['\x7d', '\x7d'] <:+: s)

/-- Whether a default is written so that it is read back. -/
def isRestoredDefault : Value → Bool
  | .str s => isInBraces s.toList
  | .num (.int n) => AttributeBlock.isWord n
  | _ => false

theorem isInBraces_iff {s : List Char} : isInBraces s = true ↔ '\n' ∉ s ∧ ¬ ['\x7d', '\x7d'] <:+: s := by
  rw [isInBraces, Bool.and_eq_true, Bool.not_eq_true', decide_eq_true_eq, decide_eq_false_iff_not]

theorem isInBraces_of_infix {s t : List Char} (part : s <:+: t) (whole : isInBraces t = true) :
    isInBraces s = true := by
  rw [isInBraces_iff] at whole ⊢
  exact ⟨fun member => whole.1 (part.subset member), fun pair => whole.2 (pair.trans part)⟩

theorem isInBraces_append_cons_iff {c : Char} (plain : c ≠ '\n' ∧ c ≠ '\x7d') (s t : List Char) :
    isInBraces (s ++ c :: t) = true ↔ isInBraces s = true ∧ isInBraces t = true := by
  rw [isInBraces_iff, isInBraces_iff, isInBraces_iff, pair_infix_append plain.2]
  simp only [List.mem_append, List.mem_cons, not_or, Ne.symm plain.1, not_false_eq_true, true_and]
  tauto

theorem defaultValue_quoted (s : List Char) :
    defaultValue ('\x27' :: (s ++ ['\x27'])) = .str (String.ofList s) := by
  have inner : unquoted? '\x27' ('\x27' :: (s ++ ['\x27'])) = some s := by simp [unquoted?]
  rw [defaultValue, inner]

theorem defaultValue_repr {n : Int} (small : AttributeBlock.isWord n = true) :
    defaultValue n.repr.toList = .num (.int n) := by
  obtain ⟨c, rest, start, noQuote⟩ := (AttributeBlock.repr_int_plain n).1
  rw [AttributeBlock.isQuote, Bool.or_eq_false_iff, decide_eq_false_iff_not, decide_eq_false_iff_not] at noQuote
  have bare : unquoted? '\x27' n.repr.toList = none ∧ unquoted? '\x22' n.repr.toList = none := by
    rw [start]
    simp [unquoted?, noQuote]
  rw [defaultValue, bare.1, bare.2, AttributeBlock.integer?_repr small]

end Default

section Written

/-- The attributes of a binding. -/
def bindingWith (value : List Char) (default : Option Value) : Attrs :=
  ("value", .str (String.ofList value)) :: (default.map fun value => ("defaultValue", value)).toList

theorem bindingWith_distinct (value : List Char) (default : Option Value) :
    (bindingWith value default).Distinct := by
  cases default with
  | none => exact List.nodup_singleton _
  | some default => exact (by decide : ["value", "defaultValue"].Nodup)

theorem bindingAttrs_eq (body : List Char) : bindingAttrs body =
    bindingWith (Text.trim (splitDefault body).1)
    ((splitDefault body).2.map fun text => defaultValue (Text.trim text)) := by
  rw [bindingAttrs, bindingWith, Option.map_map]
  rfl

/-- What is written between the braces of a binding. -/
def bindingText (value : List Char) (default : Option (List Char)) : List Char :=
  ' ' :: (value ++ (default.elim [] fun text => ' ' :: '|' :: '|' :: ' ' :: text) ++ [' '])

theorem inlineText_binding (attrs : Attrs) (children : List Node) :
    Node.inlineText [.element "binding" attrs children] = '\x7b' :: '\x7b' ::
      (bindingText ((attrs.getString? "value").getD "").toList ((attrs.get? "defaultValue").bind defaultText?) ++
        ['\x7d', '\x7d']) := by
  have written : Node.inlineText [.element "binding" attrs children] = Writer.binding attrs := by
    rw [Node.inlineText, List.map_singleton, Writer.inlines, Writer.inlines, List.append_nil, Node.render]
    rfl
  rw [written, Writer.binding, bindingText]
  cases attrs.get? "defaultValue" with
  | none => simp
  | some default => cases default <;> simp [defaultText?]

variable {value : List Char} {default : Option (List Char)}

/-- What is written is read apart at the bars that were written, when there are none in the value. -/
theorem splitDefault_bindingText (free : ¬ ['|', '|'] <:+: value) : splitDefault (bindingText value default) =
    (' ' :: (value ++ [' ']), default.map fun text => ' ' :: (text ++ [' '])) := by
  have ends : ¬ ['|', '|'] <:+: ' ' :: (value ++ ' ' :: ['|']) := by
    have single : ¬ ['|', '|'] <:+: ['|'] := fun inside => absurd inside.length_le (by decide)
    have value_ :=
      (pair_infix_append (c := '|') (by decide : ' ' ≠ '|') value ['|']).not.2 (not_or.2 ⟨free, single⟩)
    exact (pair_infix_append (by decide : ' ' ≠ '|') [] _).not.2 (not_or.2 ⟨by simp, value_⟩)
  rw [splitDefault_eq]
  cases default with
  | none =>
    have text : bindingText value none = ' ' :: (value ++ [' ']) := by simp [bindingText]
    rw [text, cutAtPair_of_free fun inside => ends (inside.trans ?_)]
    · rfl
    · exact ⟨[], ['|'], by simp⟩
  | some default =>
    have text : bindingText value (some default) =
        (' ' :: (value ++ [' '])) ++ '|' :: '|' :: ' ' :: (default ++ [' ']) := by
      simp [bindingText]
    rw [text, cutAtPair_append (by simpa using ends)]
    rfl

theorem length_of_bars (pair : ['|', '|'] <:+: value) :
    (Text.trim (splitDefault (bindingText value default)).1).length < value.length := by
  obtain ⟨front, rest, rfl, free⟩ := exists_first_pair pair
  have text : ∃ more, bindingText (front ++ '|' :: '|' :: rest) default = (' ' :: front) ++ '|' :: '|' :: more := by
    exact ⟨rest ++ ((default.elim [] fun text => ' ' :: '|' :: '|' :: ' ' :: text) ++ [' ']), by simp [bindingText]⟩
  obtain ⟨more, text⟩ := text
  have ends : ¬ ['|', '|'] <:+: (' ' :: front) ++ ['|'] :=
    (pair_infix_append (by decide : ' ' ≠ '|') [] _).not.2 (not_or.2 ⟨by simp, free⟩)
  rw [text, splitDefault_eq, cutAtPair_append ends]
  have short := (Text.trim_infix (' ' :: front)).length_le
  simp only [List.length_cons, List.length_append] at short ⊢
  omega

theorem isBody_bindingText_iff (free : ¬ ['|', '|'] <:+: value) : IsBody (bindingText value default) ↔
    Text.trim value ≠ [] ∧ isInBraces value = true ∧ ∀ text ∈ default, isInBraces text = true := by
  have braces : IsBody (bindingText value default) ↔
      isInBraces (bindingText value default ++ ['\x7d']) = true ∧
        Text.trim (splitDefault (bindingText value default)).1 ≠ [] := by
    rw [isInBraces_iff]
    constructor
    · rintro ⟨closed, line, some⟩
      exact ⟨⟨by simpa using line, closed⟩, some⟩
    · rintro ⟨⟨line, closed⟩, some⟩
      exact ⟨closed, fun member => line (List.mem_append_left _ member), some⟩
  have blank : Text.isBlank ' ' = true := by decide
  rw [braces, splitDefault_bindingText free, Text.trim_padded blank blank, and_comm]
  refine and_congr_right fun _ => ?_
  have space (s t : List Char) := isInBraces_append_cons_iff (c := ' ') (by decide) s t
  have bar (t : List Char) := isInBraces_append_cons_iff (c := '|') (by decide) [] t
  have last : isInBraces ['\x7d'] = true := by decide
  have none : isInBraces [] = true := by decide
  cases default with
  | none =>
    have text :
        bindingText value Option.none ++ ['\x7d'] = [] ++ ' ' :: (value ++ ' ' :: ['\x7d']) := by simp [bindingText]
    rw [text, space, space]
    simp [last, none]
  | some default =>
    have text : bindingText value (some default) ++ ['\x7d'] =
        [] ++ ' ' ::
          (value ++ ' ' :: ([] ++ '|' :: ([] ++ '|' :: ([] ++ ' ' :: (default ++ ' ' :: ['\x7d']))))) := by
      simp [bindingText]
    rw [text, space, space, bar, bar, space, space]
    simp [last, none]

theorem bindingAttrs_bindingText (free : ¬ ['|', '|'] <:+: value) : bindingAttrs (bindingText value default) =
    bindingWith (Text.trim value) (default.map fun text => defaultValue (Text.trim text)) := by
  have blank : Text.isBlank ' ' = true := by decide
  rw [bindingAttrs_eq, splitDefault_bindingText free, Text.trim_padded blank blank, Option.map_map]
  refine congrArg _ (congrArg (Option.map · default) (funext fun text => ?_))
  exact congrArg defaultValue (Text.trim_padded blank blank text)

end Written

section RoundTrip

/-- Whether a value is written so that it is read back. -/
def isRestoredValue (value : List Char) : Bool :=
  value ≠ [] && Text.trim value = value && isInBraces value && !decide (['|', '|'] <:+: value)

theorem isRestoredValue_iff {value : List Char} : isRestoredValue value = true ↔
    value ≠ [] ∧ Text.trim value = value ∧ isInBraces value = true ∧ ¬ ['|', '|'] <:+: value := by
  simp only [isRestoredValue, Bool.and_eq_true, Bool.not_eq_true', decide_eq_true_eq,
    decide_eq_false_iff_not, and_assoc]

variable {default : Value}

/-- The text of a default is read as this default. -/
theorem defaultValue_defaultText? (restored : isRestoredDefault default = true) :
    ∃ text, defaultText? default = some text ∧ isInBraces text = true ∧
    defaultValue (Text.trim text) = default := by
  cases default with
  | null | bool | arr | obj => cases restored
  | str s =>
    have quote : Text.isBlank '\x27' = false := by decide
    refine ⟨_, rfl, ?_, ?_⟩
    · have inside := (isInBraces_append_cons_iff (c := '\x27') (by decide) s.toList []).2 ⟨restored, by decide⟩
      exact (isInBraces_append_cons_iff (c := '\x27') (by decide) [] _).2 ⟨by decide, inside⟩
    · rw [Text.trim_between quote quote, defaultValue_quoted, String.ofList_toList]
  | num n =>
    cases n with
    | float x => cases restored
    | int n =>
      have solid := (AttributeBlock.repr_int_plain n).2
      refine ⟨_, rfl, isInBraces_iff.2 ⟨AttributeBlock.not_mem_of_solid solid, fun pair => ?_⟩, ?_⟩
      · have brace := AttributeBlock.mem_repr_int (pair.subset (List.mem_cons_self (a := '\x7d')))
        exact absurd brace (by decide)
      · rw [Json.numberText, Text.trim_of_solid solid, defaultValue_repr restored]

/-- A default that is read back is written so. -/
theorem isRestoredDefault_of_text {text : List Char} (written : defaultText? default = some text)
    (inside : isInBraces text = true) (back : defaultValue (Text.trim text) = default) :
    isRestoredDefault default = true := by
  cases default with
  | null | bool | arr | obj => cases written
  | str s =>
    cases written
    exact isInBraces_of_infix ⟨['\x27'], ['\x27'], rfl⟩ inside
  | num n =>
    rcases defaultValue_cases (Text.trim text) with ⟨b, same⟩ | ⟨t, _, same⟩ | ⟨m, small, same⟩
    · rw [back] at same
      cases same
    · rw [back] at same
      cases same
    · rw [back] at same
      cases same
      exact small

/-- A binding and what is left of it when it is written. -/
theorem bindingAttrs_cases {body : List Char} (valid : IsBody body) : ∃ value default,
    bindingAttrs body = bindingWith value default ∧ isRestoredValue value = true ∧
      ∀ d ∈ default, isRestoredDefault d = true ∨ ∃ b, d = .bool b := by
  have whole : isInBraces body = true :=
    isInBraces_iff.2 ⟨valid.line, fun pair => valid.closed (pair.trans (List.prefix_append _ _).isInfix)⟩
  have cut : (splitDefault body).1 <:+: body ∧ (∀ text ∈ (splitDefault body).2, text <:+: body) ∧
      ¬ ['|', '|'] <:+: (splitDefault body).1 := by
    rw [splitDefault_eq]
    by_cases pair : ['|', '|'] <:+: body
    · obtain ⟨front, rest, rfl, free⟩ := exists_first_pair pair
      rw [cutAtPair_append free]
      refine ⟨(List.prefix_append _ _).isInfix, ?_,
        fun inside => free (inside.trans (List.prefix_append _ _).isInfix)⟩
      rintro text ⟨⟩
      exact ⟨front ++ ['|', '|'], [], by simp⟩
    · rw [cutAtPair_of_free pair]
      exact ⟨List.infix_rfl, nofun, pair⟩
  refine ⟨_, _, bindingAttrs_eq body, isRestoredValue_iff.2 ⟨valid.some, Text.trim_trim _, ?_, fun pair => ?_⟩, ?_⟩
  · exact isInBraces_of_infix ((Text.trim_infix _).trans cut.1) whole
  · exact cut.2.2 (pair.trans (Text.trim_infix _))
  · intro d member
    obtain ⟨text, behind, rfl⟩ := Option.map_eq_some_iff.1 member
    rcases defaultValue_cases (Text.trim text) with ⟨b, same⟩ | ⟨t, part, same⟩ | ⟨n, small, same⟩
    · exact Or.inr ⟨b, same⟩
    · have inside := isInBraces_of_infix (part.trans ((Text.trim_infix _).trans (cut.2.1 text behind))) whole
      exact Or.inl (by rw [same]; simpa [isRestoredDefault] using inside)
    · exact Or.inl (by rw [same]; exact small)

theorem get?_bindingWith (value : List Char) (default : Option Value) :
    (bindingWith value default).get? "value" = some (.str (String.ofList value)) ∧
      (bindingWith value default).get? "defaultValue" = default := by
  cases default <;> exact ⟨rfl, rfl⟩

variable {attrs : Attrs} {children : List Node}

theorem apply_inlineText_iff {node : Node} (noText : node.isText = false) :
    apply [.text (String.ofList (Node.inlineText [.element "binding" attrs children]))] = [node] ↔
      IsBody (bindingText ((attrs.getString? "value").getD "").toList
          ((attrs.get? "defaultValue").bind defaultText?)) ∧
        node = .element "binding" (bindingAttrs (bindingText ((attrs.getString? "value").getD "").toList
          ((attrs.get? "defaultValue").bind defaultText?))) [] := by
  rw [inlineText_binding, apply_braces_iff noText]
  constructor
  · rintro ⟨body, cut, valid, rfl⟩
    obtain rfl := List.append_cancel_right cut
    exact ⟨valid, rfl⟩
  · rintro ⟨valid, rfl⟩
    exact ⟨_, rfl, valid, rfl⟩

/-- A value and a default are read back as they were written. -/
theorem apply_inlineText {value : List Char} {default : Option Value} (restored : isRestoredValue value = true)
    (restored' : ∀ d ∈ default, isRestoredDefault d = true)
    (value_ : attrs.get? "value" = some (.str (String.ofList value)))
    (default_ : (attrs.get? "defaultValue").bind defaultText? = default.bind defaultText?) :
    apply [.text (String.ofList (Node.inlineText [.element "binding" attrs children]))] =
      [.element "binding" (bindingWith value default) []] := by
  obtain ⟨some, trimmed, inside, free⟩ := isRestoredValue_iff.1 restored
  have text : ((attrs.getString? "value").getD "").toList = value := by
    rw [Attrs.getString?, value_]
    exact String.toList_ofList
  have texts : (∀ text ∈ default.bind defaultText?, isInBraces text = true) ∧
      (default.bind defaultText?).map (fun text => defaultValue (Text.trim text)) = default := by
    cases default with
    | none => exact ⟨by simp, rfl⟩
    | some default =>
      obtain ⟨text, written, inside, back⟩ := defaultValue_defaultText? (restored' default rfl)
      rw [Option.bind_some, written, Option.map_some, back]
      exact ⟨fun _ same => Option.some.inj same ▸ inside, rfl⟩
  rw [apply_inlineText_iff rfl, text, default_, isBody_bindingText_iff free, bindingAttrs_bindingText free,
    trimmed, texts.2]
  exact ⟨⟨some, inside, texts.1⟩, rfl⟩

/-- A binding comes back when it has nothing but a value and a default that are spelled as they are read. -/
theorem binding_alike_iff :
    Node.AllAlike (apply [.text (String.ofList (Node.inlineText [.element "binding" attrs children]))])
        [.element "binding" attrs children] ↔
      children = [] ∧ ∃ value default, isRestoredValue value = true ∧ (∀ d ∈ default, isRestoredDefault d = true) ∧
        (bindingWith value default).Perm attrs := by
  rw [Node.allAlike_iff]
  constructor
  · intro alike
    obtain ⟨node, rest, like, none, same⟩ := List.forall₂_cons_right_iff.1 alike
    cases none
    cases node with
    | text | comment => simp [Node.Alike] at like
    | element tag back inner =>
      obtain ⟨rfl, perm, below⟩ := like
      obtain ⟨valid, same⟩ := (apply_inlineText_iff rfl).1 same
      cases same
      generalize text_ : ((attrs.getString? "value").getD "").toList = text at valid perm
      generalize texts_ : (attrs.get? "defaultValue").bind defaultText? = texts at valid perm
      rw [bindingAttrs_eq] at perm
      have lookup := Attrs.get?_perm (bindingWith_distinct _ _) perm
      have found := get?_bindingWith (Text.trim (splitDefault (bindingText text texts)).1)
        ((splitDefault (bindingText text texts)).2.map fun text => defaultValue (Text.trim text))
      rw [lookup, lookup] at found
      have whole : text = Text.trim (splitDefault (bindingText text texts)).1 := by
        rw [Attrs.getString?, found.1] at text_
        exact text_.symm.trans String.toList_ofList
      have free : ¬ ['|', '|'] <:+: text := fun pair =>
        absurd (congrArg List.length whole) (Nat.ne_of_gt (length_of_bars pair))
      rw [← bindingAttrs_eq, bindingAttrs_bindingText free] at perm
      rw [splitDefault_bindingText free, Text.trim_padded (by decide) (by decide)] at whole
      rw [← whole] at perm
      obtain ⟨some, inside, insides⟩ := (isBody_bindingText_iff free).1 valid
      rw [← whole] at some
      refine ⟨?_, text, _, isRestoredValue_iff.2 ⟨some, whole.symm, inside, free⟩, fun d member => ?_, perm⟩
      · cases children with
        | nil => rfl
        | cons => cases below
      · have default := Attrs.get?_perm (bindingWith_distinct _ _) perm "defaultValue"
        obtain ⟨written, behind, rfl⟩ := Option.map_eq_some_iff.1 member
        rw [(get?_bindingWith _ _).2, behind, Option.map_some] at default
        rw [← default, Option.bind_some, behind] at texts_
        exact isRestoredDefault_of_text texts_ (insides _ behind) rfl
  · rintro ⟨rfl, value, default, restored, restored', perm⟩
    have lookup := Attrs.get?_perm (bindingWith_distinct value default) perm
    have found := get?_bindingWith value default
    rw [lookup, lookup] at found
    rw [apply_inlineText restored restored' found.1 (by rw [found.2])]
    exact .cons (.element perm .nil) .nil

/-- What becomes of a text that is one binding when the binding is written and read again. A binding that is read of
double braces comes back but for a default that is a boolean, which is not written. -/
theorem apply_written_binding {s : String} (binding : apply [.text s] = [.element "binding" attrs children]) :
    (Node.AllAlike (apply [.text (String.ofList (Node.inlineText [.element "binding" attrs children]))])
        [.element "binding" attrs children] ↔
      children = [] ∧ ∃ value default, isRestoredValue value = true ∧ (∀ d ∈ default, isRestoredDefault d = true) ∧
        (bindingWith value default).Perm attrs) ∧
    (['\x7b', '\x7b'] <+: s.toList →
      apply [.text (String.ofList (Node.inlineText [.element "binding" attrs children]))] =
          [.element "binding" (attrs.filter fun entry => entry.2.asBool?.isNone) children] ∧
        (apply [.text (String.ofList (Node.inlineText [.element "binding" attrs children]))] =
            [.element "binding" attrs children] ↔ (attrs.get? "defaultValue").bind Value.asBool? = none)) := by
  refine ⟨binding_alike_iff, ?_⟩
  rintro ⟨rest, braces⟩
  rw [← String.ofList_toList (s := s), ← braces, List.cons_append, List.singleton_append, apply_braces_iff rfl]
    at binding
  obtain ⟨body, rfl, valid, same⟩ := binding
  cases same
  obtain ⟨value, default, same, restored, defaults⟩ := bindingAttrs_cases valid
  obtain ⟨value_, default_⟩ := get?_bindingWith value default
  rw [same, default_]
  by_cases boolean : ∃ b, default = some (.bool b)
  · obtain ⟨b, rfl⟩ := boolean
    rw [@apply_inlineText _ _ value none restored nofun value_ (by rw [default_]; rfl)]
    exact ⟨rfl, by simp [bindingWith, Value.asBool?]⟩
  · have kept : ∀ d ∈ default, isRestoredDefault d = true := fun d member =>
      (defaults d member).resolve_right fun ⟨b, same⟩ => boolean ⟨b, by rw [Option.mem_def.1 member, same]⟩
    have spoken : default.bind Value.asBool? = none := by
      cases default with
      | none => rfl
      | some d => cases d <;> first | rfl | exact absurd ⟨_, rfl⟩ boolean
    have all :
        (bindingWith value default).filter (fun entry => entry.2.asBool?.isNone) = bindingWith value default := by
      cases default with
      | none => rfl
      | some d =>
        have value_ : (Value.str (String.ofList value)).asBool? = none := rfl
        rw [Option.bind_some] at spoken
        simp [bindingWith, spoken, value_]
    rw [apply_inlineText restored kept value_ (by rw [default_]), all]
    exact ⟨rfl, fun _ => spoken, fun _ => rfl⟩

theorem apply_written_binding_quoted :
    apply [.text "\x7b\x7b user || 'it is' \x7d\x7d"] =
      [.element "binding" [("value", .str "user"), ("defaultValue", .str "it is")] []] ∧
    apply [.text (String.ofList (Node.inlineText
        [.element "binding" [("value", .str "user"), ("defaultValue", .str "it is")] []]))] =
      [.element "binding" [("value", .str "user"), ("defaultValue", .str "it is")] []] :=
  ⟨rfl, ((apply_written_binding (s := "\x7b\x7b user || 'it is' \x7d\x7d") rfl).2 ⟨_, rfl⟩).2.2 rfl⟩

/-- A boolean is read as the default and left out again. -/
theorem written_binding_loses_boolean :
    let binding : Node := .element "binding" [("value", .str "a"), ("defaultValue", .bool true)] []
    apply [.text "\x7b\x7b a || true \x7d\x7d"] = [binding] ∧
      apply [.text (String.ofList (Node.inlineText [binding]))] = [.element "binding" [("value", .str "a")] []] ∧
      ¬ Node.AllAlike (apply [.text (String.ofList (Node.inlineText [binding]))]) [binding] := by
  intro binding
  have back : apply [.text (String.ofList (Node.inlineText [binding]))] =
      [.element "binding" [("value", .str "a")] []] := by
    unfold binding
    rfl
  refine ⟨rfl, back, ?_⟩
  rw [back]
  rintro ⟨⟨_, perm, _⟩, _⟩
  exact absurd perm.length_eq (by decide)

end RoundTrip

end Inline

end ComponentMarkdown
