import ComponentMarkdown.Markup.AttributeBlock
import ComponentMarkdown.Markup.AttributeReader
import ComponentMarkdown.Proofs.Attrs
import ComponentMarkdown.Proofs.Text

namespace ComponentMarkdown

namespace AttributeBlock

theorem repr_nat (n : Nat) : n.repr.toList ≠ [] ∧ (∀ c ∈ n.repr.toList, c.isDigit = true) ∧
    Double.natOfDigits 10 Double.decimalDigit n.repr.toList = n := by
  refine ⟨?_, ?_, ?_⟩
  · rw [Nat.toList_repr, Nat.toDigits_eq_if (by decide)]
    split <;> simp
  · rw [Nat.toList_repr]
    exact fun c member => Nat.isDigit_of_mem_toDigits (by decide) (by decide) member
  · have known := @Nat.ofDigitChars_toDigits 10 n (by decide) (by decide)
    have step : (fun (sofar : Nat) (c : Char) => 10 * sofar + (c.toNat - '0'.toNat)) =
        fun sofar c => sofar * 10 + Double.decimalDigit c := by
      funext sofar c
      rw [Nat.mul_comm]
      rfl
    rw [Nat.ofDigitChars, step] at known
    rw [Nat.toList_repr]
    exact known

theorem repr_int (n : Int) : (0 ≤ n ∧ n.repr.toList = n.toNat.repr.toList) ∨
    (n < 0 ∧ n.repr.toList = '-' :: (-n).toNat.repr.toList) := by
  rw [Int.repr_eq_if]
  by_cases sign : 0 ≤ n
  · rw [if_pos sign]
    exact Or.inl ⟨sign, rfl⟩
  · rw [if_neg sign, String.toList_append]
    exact Or.inr ⟨by omega, rfl⟩

theorem mem_repr_int {n : Int} {c : Char} (member : c ∈ n.repr.toList) : c.isDigit = true ∨ c = '-' := by
  rcases repr_int n with ⟨_, text⟩ | ⟨_, text⟩
  · rw [text] at member
    exact Or.inl ((repr_nat _).2.1 c member)
  · rw [text] at member
    rcases List.mem_cons.1 member with sign | digit
    · exact Or.inr sign
    · exact Or.inl ((repr_nat _).2.1 c digit)

/-- Whether an integer has a place in 64 bits. -/
def isWord (n : Int) : Bool := -0x8000000000000000 ≤ n && n < 0x8000000000000000

/-- An integer is read back from its text. -/
theorem integer?_repr {n : Int} (small : isWord n = true) : integer? n.repr.toList = some n := by
  rw [isWord, Bool.and_eq_true, decide_eq_true_eq, decide_eq_true_eq] at small
  have read : ∀ size : Nat, ¬ (size.repr.toList.isEmpty = true ∨ (!size.repr.toList.all Char.isDigit) = true) := by
    intro size
    obtain ⟨some, digits, _⟩ := repr_nat size
    simp only [List.isEmpty_iff, some, List.all_eq_true.2 digits, Bool.not_true, Bool.false_eq_true, or_self,
      not_false_eq_true]
  rcases repr_int n with ⟨sign, text⟩ | ⟨sign, text⟩
  · obtain ⟨_, digits, value⟩ := repr_nat n.toNat
    have unsigned : ∀ sign : Char, sign.isDigit = false → ∀ rest, n.toNat.repr.toList ≠ sign :: rest := by
      intro sign other rest same
      have digit := digits sign (by rw [same]; exact List.mem_cons_self)
      rw [other] at digit
      cases digit
    rw [text, integer?]
    · simp only [if_neg (read _), Bool.false_eq_true, if_false, value]
      rw [if_pos (by omega)]
      exact congrArg Option.some (by omega)
    · exact unsigned '-' rfl
    · exact unsigned '+' rfl
  · obtain ⟨_, _, value⟩ := repr_nat (-n).toNat
    rw [text, integer?]
    simp only [if_neg (read _), if_true, value]
    rw [if_pos (by omega)]
    exact congrArg Option.some (by omega)

theorem bareValue_repr {n : Int} (small : isWord n = true) : bareValue n.repr.toList = .num (.int n) := by
  have number : ∀ word : List Char, integer? word = none → n.repr.toList ≠ word := by
    rintro word none rfl
    rw [integer?_repr small] at none
    cases none
  rw [bareValue, if_neg (number _ (by decide)), if_neg (number _ (by decide)), integer?_repr small]

/-- A spelling that is read as an item, whatever follows it behind a blank. -/
structure Spells (part : List Char) (item : Item) : Prop where
  solid : ∃ c rest, part = c :: rest ∧ Text.isBlank c = false
  read : ∀ tail, (∀ c ∈ tail.head?, Text.isBlank c = true) → item? (part ++ tail) = .ok (item, tail)

theorem items?_of_item? {s tail : List Char} {item : Item} (some : s ≠ []) (first : item? s = .ok (item, tail)) :
    items? s = (items? (Text.trimStart tail)).map (item :: ·) := by
  rw [items?, if_neg (by simpa using some)]
  split
  · rename_i other
    rw [first] at other
    cases other
  · rename_i other
    rw [first] at other
    cases other
    rfl

theorem trimStart_join {parts : List (List Char)} {items : List Item} (spells : List.Forall₂ Spells parts items) :
    Text.trimStart (Text.join [' '] parts) = Text.join [' '] parts := by
  cases spells with
  | nil => rfl
  | @cons part item parts items first below =>
    obtain ⟨c, rest, rfl, solid⟩ := first.solid
    have front : ∃ tail, Text.join [' '] ((c :: rest) :: parts) = c :: tail := by
      cases parts with
      | nil => exact ⟨rest, rfl⟩
      | cons => exact ⟨_, rfl⟩
    obtain ⟨tail, front⟩ := front
    rw [front, Text.trimStart_of_head solid]

/-- Spellings with blanks between them are read as their items in a row. -/
theorem items?_join {parts : List (List Char)} {items : List Item} (spells : List.Forall₂ Spells parts items) :
    items? (Text.join [' '] parts) = .ok items := by
  induction spells with
  | nil =>
    rw [Text.join, items?]
    rfl
  | @cons part item parts items first below ih =>
    obtain ⟨c, rest, rfl, solid⟩ := first.solid
    by_cases last : parts = []
    · subst last
      cases below
      have read := first.read [] (by simp)
      rw [List.append_nil] at read
      rw [Text.join, items?_of_item? (by simp) read, Text.trimStart, List.dropWhile_nil, items?]
      rfl
    · have blank : Text.isBlank ' ' = true := by decide
      have read := first.read (' ' :: Text.join [' '] parts) (by simpa using blank)
      have ahead : Text.trimStart (' ' :: Text.join [' '] parts) = Text.join [' '] parts := by
        rw [Text.trimStart, List.dropWhile_cons_of_pos blank, ← Text.trimStart, trimStart_join below]
      rw [Text.join_cons last, List.append_assoc, List.singleton_append, items?_of_item? (by simp) read, ahead, ih]
      rfl

theorem bareText_append {s tail : List Char} (solid : ∀ c ∈ s, Text.isBlank c = false)
    (stop : ∀ c ∈ tail.head?, Text.isBlank c = true) : bareText (s ++ tail) = (s, tail) := by
  have all : ∀ c ∈ s, (!Text.isBlank c) = true := fun c member => by rw [solid c member]; rfl
  have none : ∀ c ∈ tail.head?, (!Text.isBlank c) = false := fun c member => by rw [stop c member]; rfl
  rw [bareText, Text.takeWhile_append_stop all none, Text.dropWhile_append_stop all none]

theorem spells_id {name : List Char} (solid : ∀ c ∈ name, Text.isBlank c = false) : Spells ('#' :: name)
    (.id name) := by
  refine ⟨⟨'#', name, rfl, by decide⟩, fun tail stop => ?_⟩
  rw [List.cons_append, item?, bareText_append solid stop]

theorem spells_class {name : List Char} (solid : ∀ c ∈ name, Text.isBlank c = false) :
    Spells ('.' :: name) (.class_ name) := by
  refine ⟨⟨'.', name, rfl, by decide⟩, fun tail stop => ?_⟩
  rw [List.cons_append, item?, bareText_append solid stop]

/-- Whether a text is read as a key: it has characters, no blank and no equals sign among them, and the
first is not the mark of an id or a class. -/
def isKey : List Char → Bool
  | [] => false
  | c :: rest => c ≠ '#' && c ≠ '.' && (c :: rest).all isKeyChar

section Key

variable {key : List Char} (plain : isKey key = true)

include plain

theorem isKey_solid : ∃ c rest, key = c :: rest ∧ Text.isBlank c = false := by
  cases key with
  | nil => cases plain
  | cons c rest =>
    simp only [isKey, List.all_cons, Bool.and_eq_true, isKeyChar, Bool.not_eq_true'] at plain
    exact ⟨c, rest, rfl, plain.2.1.1⟩

/-- What stands behind a key decides what it is the key of. -/
theorem item?_key (tail : List Char) : (∀ c ∈ tail.head?, isKeyChar c = false) → item? (key ++ tail) =
    match tail with
    | '=' :: text => (value? key text).map fun (value, tail) => (.pair key value, tail)
    | tail => .ok (.flag key, tail) := by
  intro ends
  cases key with
  | nil => cases plain
  | cons c rest =>
    rw [isKey, Bool.and_eq_true, Bool.and_eq_true, decide_eq_true_eq, decide_eq_true_eq, List.all_eq_true] at plain
    obtain ⟨⟨noId, noClass⟩, chars⟩ := plain
    rw [List.cons_append, item?]
    · rw [← List.cons_append, Text.takeWhile_append_stop chars ends, Text.dropWhile_append_stop chars ends]
      rfl
    · exact fun other same => noId (List.cons.inj same).1
    · exact fun other same => noClass (List.cons.inj same).1

theorem item?_flag {tail : List Char} (stop : ∀ c ∈ tail.head?, Text.isBlank c = true) :
    item? (key ++ tail) = .ok (.flag key, tail) := by
  rw [item?_key plain tail fun c member => by rw [isKeyChar, stop c member]; rfl]
  split
  · exact absurd (stop '=' rfl) (by decide)
  · rfl

theorem item?_pair (text : List Char) :
    item? (key ++ '=' :: text) = (value? key text).map fun (value, tail) => (.pair key value, tail) :=
  item?_key plain ('=' :: text) (by simp [isKeyChar])

theorem spells_flag : Spells key (.flag key) := ⟨isKey_solid plain, fun _ stop => item?_flag plain stop⟩

theorem spells_pair {text : List Char} {value : WrittenValue}
    (read : ∀ tail, (∀ c ∈ tail.head?, Text.isBlank c = true) → value? key (text ++ tail) = .ok (value, tail)) :
    Spells (key ++ '=' :: text) (.pair key value) := by
  obtain ⟨c, rest, same, solid⟩ := isKey_solid plain
  refine ⟨⟨c, rest ++ '=' :: text, by rw [same]; rfl, solid⟩, fun tail stop => ?_⟩
  rw [List.append_assoc, List.cons_append, item?_pair plain, read tail stop]
  rfl

/-- A bare value is a text without blanks that does not start with a quote. -/
theorem spells_bare {text : List Char} (some : ∃ c rest, text = c :: rest ∧ isQuote c = false)
    (solid : ∀ c ∈ text, Text.isBlank c = false) : Spells (key ++ '=' :: text) (.pair key (.bare text)) := by
  refine spells_pair plain fun tail stop => ?_
  have cut := bareText_append solid stop
  obtain ⟨c, rest, rfl, noQuote⟩ := some
  rw [List.cons_append] at cut ⊢
  rw [value?, noQuote, cut]
  rfl

omit plain in
/-- A text in which every quote is escaped is read back, if it has no backslash of its own. -/
theorem quotedText?_escaped {quote : Char} (other : quote ≠ '\\') {s : List Char} (noBackslash : '\\' ∉ s)
    (tail : List Char) :
    quotedText? quote (Text.replaceChar quote ['\\', quote] s ++ quote :: tail) = some (s, tail) := by
  induction s with
  | nil =>
    rw [Text.replaceChar, List.flatMap_nil, List.nil_append, quotedText?, if_pos rfl]
    · exact fun same => absurd same other
    · exact fun c rest same => absurd same other
  | cons c rest ih =>
    rw [List.mem_cons, not_or] at noBackslash
    have later := ih noBackslash.2
    rw [Text.replaceChar] at later ⊢
    rw [List.flatMap_cons, List.append_assoc]
    by_cases same : c = quote
    · subst same
      simp only [if_true, List.cons_append, List.nil_append]
      rw [quotedText?, later]
      simp
    · rw [if_neg same, List.singleton_append, quotedText?, if_neg same, later]
      · rfl
      · exact fun same => absurd same (Ne.symm noBackslash.1)
      · exact fun d rest same => absurd same (Ne.symm noBackslash.1)

theorem spells_quoted {s : String} (noBackslash : '\\' ∉ s.toList) :
    Spells (key ++ '=' :: quoted s) (.pair key (.quoted s.toList)) := by
  refine spells_pair plain fun tail _ => ?_
  rw [quoted, List.cons_append, List.append_assoc, List.singleton_append, value?,
    quotedText?_escaped (by decide) noBackslash]
  rfl

theorem isKey_bound : isKey (':' :: key) = true := by
  cases key with
  | nil => cases plain
  | cons c rest =>
    rw [isKey, Bool.and_eq_true] at plain
    rw [isKey, List.all_cons, plain.2]
    decide

theorem spells_bound {text : List Char} (noQuote : '\x27' ∉ text) (noBackslash : '\\' ∉ text) :
    Spells (':' :: (key ++ '=' :: '\x27' :: (text ++ ['\x27']))) (.pair (':' :: key) (.quoted text)) := by
  refine spells_pair (isKey_bound plain) fun tail _ => ?_
  have read := quotedText?_escaped (by decide : '\x27' ≠ '\\') noBackslash tail
  rw [Text.replaceChar_of_not_mem noQuote] at read
  rw [List.cons_append, List.append_assoc, List.singleton_append, value?, read]
  rfl

end Key

/-- Whether a key is written as it is and read as a key that is not bound. -/
def isPlainKey (key : String) : Bool := isKey key.toList && key.toList.head? ≠ some ':' && !isInternal key

/-- Whether a value is a boolean, an integer of 64 bits, or a string without backslashes. -/
def isPlainValue : Value → Bool
  | .bool _ => true
  | .num (.int n) => isWord n
  | .str s => '\\' ∉ s.toList
  | _ => false

/-- Whether a value is an array or an object whose JSON text can stand in single quotes as it is. -/
def isBound (value : Value) : Bool :=
  (value.asArray?.isSome || value.asObject?.isSome) && '\x27' ∉ Json.compact value && '\\' ∉ Json.compact value

/-- Whether an attribute is written as class marks. -/
def isClassMarks (entry : String × Value) : Bool :=
  match entry with
  | (key, .str s) => key = "class" && !Text.allBlank s.toList
  | _ => false

def itemsOf (key : String) : Value → List Item
  | .bool true => [.flag key.toList]
  | .bool false => [.pair key.toList (.bare "false".toList)]
  | .num n => [.pair key.toList (.bare (Json.numberText n))]
  | .str s =>
    if key = "id" ∧ s ≠ "" ∧ !s.toList.any Text.isBlank then [.id s.toList]
    else if key = "class" ∧ !Text.allBlank s.toList then (Text.words s.toList).map .class_
    else [.pair key.toList (.quoted s.toList)]
  | .null => []
  | other => [.pair (':' :: key.toList) (.quoted (Json.compact other))]

theorem bound_eq {value : Value} (bound : isBound value = true) (key : String) :
    spellings key value = [':' :: (key.toList ++ '=' :: '\x27' :: (Json.compact value ++ ['\x27']))] ∧
      itemsOf key value = [.pair (':' :: key.toList) (.quoted (Json.compact value))] ∧
      '\x27' ∉ Json.compact value ∧ '\\' ∉ Json.compact value := by
  rw [isBound, Bool.and_eq_true, Bool.and_eq_true, decide_eq_true_eq, decide_eq_true_eq] at bound
  obtain ⟨⟨collection, noQuote⟩, noBackslash⟩ := bound
  cases value with
  | arr items => exact ⟨rfl, rfl, noQuote, noBackslash⟩
  | obj fields => exact ⟨rfl, rfl, noQuote, noBackslash⟩
  | _ => cases collection

theorem digit_plain {c : Char} (digit : c.isDigit = true) : Text.isBlank c = false ∧ isQuote c = false := by
  have range : 48 ≤ c.toNat ∧ c.toNat ≤ 57 := by
    simpa [Char.isDigit, UInt32.le_iff_toNat_le] using digit
  refine ⟨?_, ?_⟩
  · simp only [Text.isBlank, Bool.or_eq_false_iff, Bool.and_eq_false_iff,
      decide_eq_false_iff_not, beq_eq_false_iff_ne]
    omega
  · rw [isQuote, Bool.or_eq_false_iff, decide_eq_false_iff_not, decide_eq_false_iff_not]
    refine ⟨?_, ?_⟩ <;> (rintro rfl; exact absurd range (by decide))

theorem repr_int_plain (n : Int) : (∃ c rest, n.repr.toList = c :: rest ∧ isQuote c = false) ∧
    ∀ c ∈ n.repr.toList, Text.isBlank c = false := by
  rcases repr_int n with ⟨_, text⟩ | ⟨_, text⟩
  · obtain ⟨some, digits, _⟩ := repr_nat n.toNat
    obtain ⟨c, rest, same⟩ := List.exists_cons_of_ne_nil some
    rw [text]
    refine ⟨⟨c, rest, same, (digit_plain (digits c (by rw [same]; exact List.mem_cons_self))).2⟩, ?_⟩
    exact fun c member => (digit_plain (digits c member)).1
  · obtain ⟨_, digits, _⟩ := repr_nat (-n).toNat
    rw [text]
    refine ⟨⟨'-', _, rfl, by decide⟩, List.forall_mem_cons.2 ⟨by decide, ?_⟩⟩
    exact fun c member => (digit_plain (digits c member)).1

/-- The spellings of an attribute are read as its items. -/
theorem spellings_spell {key : String} (plain : isPlainKey key = true) {value : Value}
    (spelled : isPlainValue value = true ∨ isBound value = true) :
    List.Forall₂ Spells (spellings key value) (itemsOf key value) := by
  rw [isPlainKey, Bool.and_eq_true, Bool.and_eq_true] at plain
  have key_ := plain.1.1
  rcases spelled with plain' | bound
  swap
  · obtain ⟨spelling, item, noQuote, noBackslash⟩ := bound_eq bound key
    rw [spelling, item]
    exact .cons (spells_bound key_ noQuote noBackslash) .nil
  cases value with
  | null | arr | obj => cases plain'
  | bool value =>
    cases value with
    | true => exact .cons (spells_flag key_) .nil
    | false =>
      have written : Spells (key.toList ++ '=' :: ['f', 'a', 'l', 's', 'e'])
          (.pair key.toList (.bare ['f', 'a', 'l', 's', 'e'])) :=
        spells_bare key_ ⟨'f', _, rfl, by decide⟩ (by simp [Text.isBlank])
      exact .cons written .nil
  | num value =>
    cases value with
    | float => cases plain'
    | int n =>
      obtain ⟨some, solid⟩ := repr_int_plain n
      exact .cons (spells_bare key_ some solid) .nil
  | str s =>
    simp only [spellings, itemsOf]
    split
    · rename_i id
      refine .cons (spells_id fun c member => ?_) .nil
      have solid := id.2.2
      rw [Bool.not_eq_true', List.any_eq_false] at solid
      simpa using solid c member
    · split
      · rw [List.forall₂_map_left_iff, List.forall₂_map_right_iff, List.forall₂_same]
        exact fun word member => spells_class (Text.mem_words member).2
      · exact .cons (spells_quoted key_ (by simpa [isPlainValue] using plain')) .nil

/-- Whether an attribute is written so that it can be read back. -/
def isPlain (entry : String × Value) : Bool := isPlainKey entry.1 && isPlainValue entry.2

/-- An attribute that is read back as it is: its value is plain, or stands in quotes as JSON text that is the text
of this value only. -/
structure Restored (entry : String × Value) : Prop where
  key : isPlainKey entry.1 = true
  value : isPlainValue entry.2 = true ∨ isBound entry.2 = true ∧ Json.value? entry.2.toJson = some entry.2

theorem Restored.of_isPlain {entry : String × Value} (plain : isPlain entry = true) : Restored entry := by
  rw [isPlain, Bool.and_eq_true] at plain
  exact ⟨plain.1, Or.inl plain.2⟩

theorem Restored.spelled {entry : String × Value} (restored : Restored entry) :
    isPlainValue entry.2 = true ∨ isBound entry.2 = true := restored.value.imp_right And.left

section Block

variable {attrs : Attrs} (restored : ∀ entry ∈ attrs, Restored entry)

include restored

theorem parts_eq : parts attrs [] = attrs.flatMap fun entry => spellings entry.1 entry.2 := by
  refine List.flatMap_congr fun entry member => ?_
  have key := (restored entry member).key
  rw [isPlainKey, Bool.and_eq_true, Bool.not_eq_true'] at key
  simp only [List.not_mem_nil, key.2, Bool.false_eq_true, or_self, if_false]

theorem parts_spell :
    List.Forall₂ Spells (parts attrs []) (attrs.flatMap fun entry => itemsOf entry.1 entry.2) := by
  rw [parts_eq restored]
  induction attrs with
  | nil => exact .nil
  | cons entry rest ih =>
    obtain ⟨here, below⟩ := List.forall_mem_cons.1 restored
    rw [List.flatMap_cons, List.flatMap_cons]
    exact List.rel_append (spellings_spell here.key here.spelled) (ih below)

theorem parts_ne_nil (some : attrs ≠ []) : parts attrs [] ≠ [] := by
  obtain ⟨entry, rest, rfl⟩ := List.exists_cons_of_ne_nil some
  have here := restored entry List.mem_cons_self
  rw [parts_eq restored, List.flatMap_cons]
  refine List.append_ne_nil_of_left_ne_nil ?_ _
  obtain ⟨key, value⟩ := entry
  rcases here.spelled with plain | bound
  swap
  · rw [(bound_eq bound key).1]
    simp
  cases value with
  | null | arr | obj => cases plain
  | bool value => cases value <;> simp [spellings]
  | num value => simp [spellings]
  | str s =>
    simp only [spellings]
    split
    · simp
    · split
      · rename_i words
        have some := Text.words_ne_nil (by simpa using words.2)
        simpa using some
      · simp

end Block

theorem insertWritten_of_plain {key : String} (plain : isPlainKey key = true) (acc : Attrs) (value : WrittenValue) :
    insertWritten acc key.toList value = acc.insert key
      (match value with
        | .quoted text => .str (String.ofList text)
        | .bare text => bareValue text) := by
  rw [isPlainKey, Bool.and_eq_true, Bool.and_eq_true, decide_eq_true_eq] at plain
  have unbound : ∀ name, key.toList ≠ ':' :: name := by
    intro name same
    exact plain.1.2 (by rw [same]; rfl)
  cases value with
  | quoted text => rw [insertWritten, String.ofList_toList]; exact unbound
  | bare text => rw [insertWritten, String.ofList_toList]; exact unbound

/-- An attribute that is not written as class marks is set by its item. -/
theorem foldl_itemsOf {key : String} {value : Value} (restored : Restored (key, value))
    (noMarks : isClassMarks (key, value) = false) (acc : Attrs) :
    (itemsOf key value).foldl insertItem acc = acc.insert key value := by
  obtain ⟨plain, plain' | ⟨bound, read⟩⟩ := restored
  swap
  · obtain ⟨_, item, _⟩ := bound_eq bound key
    have text : Json.value? (String.ofList (Json.compact value)) = some value := read
    rw [item, List.foldl_cons, List.foldl_nil, insertItem, insertWritten, text, String.ofList_toList]
    rfl
  cases value with
  | null | arr | obj => cases plain'
  | bool value =>
    cases value with
    | true => rw [itemsOf, List.foldl_cons, List.foldl_nil, insertItem, String.ofList_toList]
    | false =>
      rw [itemsOf, List.foldl_cons, List.foldl_nil, insertItem, insertWritten_of_plain plain]
      rfl
  | num value =>
    cases value with
    | float => cases plain'
    | int n =>
      rw [itemsOf, List.foldl_cons, List.foldl_nil, insertItem, insertWritten_of_plain plain]
      exact congrArg (acc.insert key) (bareValue_repr plain')
  | str s =>
    rw [itemsOf]
    split
    · rename_i id
      have some : s.toList.isEmpty = false := by simpa using id.2.1
      rw [List.foldl_cons, List.foldl_nil, insertItem, some, id.1, String.ofList_toList]
      rfl
    · split
      · rename_i marks
        rw [isClassMarks, marks.1, marks.2] at noMarks
        cases noMarks
      · rw [List.foldl_cons, List.foldl_nil, insertItem, insertWritten_of_plain plain]
        simp only [String.ofList_toList]

theorem classNames_itemsOf {key : String} {value : Value} (noMarks : isClassMarks (key, value) = false) :
    (itemsOf key value).filterMap className? = [] := by
  cases value with
  | null | arr | obj => rfl
  | num value => rfl
  | bool value => cases value <;> rfl
  | str s =>
    rw [itemsOf]
    split
    · rfl
    · split
      · rename_i marks
        rw [isClassMarks, marks.1, marks.2] at noMarks
        cases noMarks
      · rfl

theorem itemsOf_classMarks {entry : String × Value} (marks : isClassMarks entry = true) :
    ∃ s, entry = ("class", .str s) ∧ Text.allBlank s.toList = false ∧
      itemsOf entry.1 entry.2 = (Text.words s.toList).map .class_ := by
  obtain ⟨key, value⟩ := entry
  cases value with
  | str s =>
    rw [isClassMarks, Bool.and_eq_true, decide_eq_true_eq, Bool.not_eq_true'] at marks
    obtain ⟨rfl, some⟩ := marks
    refine ⟨s, rfl, some, ?_⟩
    rw [itemsOf, if_neg (by simp), if_pos ⟨rfl, by rw [some]; rfl⟩]
  | _ => cases marks

theorem foldl_class (names : List (List Char)) (acc : Attrs) :
    (names.map Item.class_).foldl insertItem acc = acc := by
  induction names with
  | nil => rfl
  | cons name rest ih => rw [List.map_cons, List.foldl_cons, insertItem, ih]

theorem classNames_class {names : List (List Char)} (some : ∀ name ∈ names, name ≠ []) :
    (names.map Item.class_).filterMap className? = names := by
  induction names with
  | nil => rfl
  | cons name rest ih =>
    obtain ⟨here, below⟩ := List.forall_mem_cons.1 some
    rw [List.map_cons, List.filterMap_cons, className?, if_neg (by simpa using here), ih below]

/-- An attribute as it is read back: a class is the words in it. -/
def tidied (entry : String × Value) : String × Value :=
  match entry with
  | (key, .str s) => (key, .str (String.ofList (Text.join [' '] (Text.words s.toList))))
  | entry => entry

/-- The attributes as they are read back: a class that has words goes to the end. -/
def gathered (attrs : Attrs) : Attrs := attrs.filter (!isClassMarks ·) ++ (attrs.filter isClassMarks).map tidied

section Gathered

variable {attrs : Attrs}

theorem isClassMarks_key {entry : String × Value} (marks : isClassMarks entry = true) : entry.1 = "class" := by
  obtain ⟨s, rfl, _⟩ := itemsOf_classMarks marks
  rfl

theorem filter_classMarks (distinct : attrs.Distinct) : attrs.filter isClassMarks = [] ∨
    ∃ s, attrs.filter isClassMarks = [("class", .str s)] ∧ Text.allBlank s.toList = false := by
  have keys : ∀ entry ∈ attrs.filter isClassMarks, isClassMarks entry = true := fun entry member =>
    (List.mem_filter.1 member).2
  have nodup : ((attrs.filter isClassMarks).map Prod.fst).Nodup :=
    List.Nodup.sublist (List.filter_sublist.map Prod.fst) distinct
  cases found : attrs.filter isClassMarks with
  | nil => exact Or.inl rfl
  | cons entry rest =>
    rw [found] at keys nodup
    obtain ⟨here, below⟩ := List.forall_mem_cons.1 keys
    obtain ⟨s, rfl, some, _⟩ := itemsOf_classMarks here
    cases rest with
    | nil => exact Or.inr ⟨s, rfl, some⟩
    -- A second attribute with class marks would have the same key.
    | cons other more =>
      rw [List.map_cons, List.map_cons, isClassMarks_key (below other List.mem_cons_self)] at nodup
      simp at nodup

theorem foldl_items (restored : ∀ entry ∈ attrs, Restored entry) {acc : Attrs}
    (distinct : Attrs.Distinct (acc ++ attrs)) :
    (attrs.flatMap fun entry => itemsOf entry.1 entry.2).foldl insertItem acc =
      acc ++ attrs.filter (!isClassMarks ·) := by
  -- An attribute is appended, since its key is none of those read so far. Class marks are gathered behind the fold.
  induction attrs generalizing acc with
  | nil => rw [List.flatMap_nil, List.foldl_nil, List.filter_nil, List.append_nil]
  | cons entry rest ih =>
    obtain ⟨here, below⟩ := List.forall_mem_cons.1 restored
    rw [List.flatMap_cons, List.foldl_append]
    by_cases marks : isClassMarks entry = true
    · obtain ⟨s, _, _, items⟩ := itemsOf_classMarks marks
      have others : Attrs.Distinct (acc ++ rest) :=
        List.Nodup.sublist ((List.sublist_append_right [entry] rest).append_left acc |>.map Prod.fst) distinct
      rw [items, foldl_class, ih below others, List.filter_cons_of_neg (by simp [marks])]
    · rw [Bool.not_eq_true] at marks
      rw [foldl_itemsOf here marks, Attrs.insert_of_get?_none distinct.get?_eq_none,
        ih below (by rwa [List.append_assoc]), List.filter_cons_of_pos (by simp [marks]), List.append_assoc]
      rfl

theorem classNames_items (attrs : Attrs) :
    (attrs.flatMap fun entry => itemsOf entry.1 entry.2).filterMap className? =
    (attrs.filter isClassMarks).flatMap fun entry => (itemsOf entry.1 entry.2).filterMap className? := by
  induction attrs with
  | nil => rfl
  | cons entry rest ih =>
    rw [List.flatMap_cons, List.filterMap_append, ih]
    by_cases marks : isClassMarks entry = true
    · rw [List.filter_cons_of_pos marks, List.flatMap_cons]
    · rw [Bool.not_eq_true] at marks
      rw [List.filter_cons_of_neg (by simp [marks]), classNames_itemsOf marks, List.nil_append]

theorem ofItems_items (restored : ∀ entry ∈ attrs, Restored entry) (distinct : attrs.Distinct) :
    ofItems (attrs.flatMap fun entry => itemsOf entry.1 entry.2) = gathered attrs := by
  have fold := @foldl_items attrs restored [] distinct
  have apart := distinct.perm (List.filter_append_perm (!isClassMarks ·) attrs).symm
  simp only [Bool.not_not] at apart
  rw [List.nil_append] at fold
  rw [ofItems, fold, classNames_items, gathered]
  rcases filter_classMarks distinct with none | ⟨s, one, some⟩
  · rw [none]
    simp
  · rw [one] at apart ⊢
    have missing := apart.get?_eq_none
    have words : (itemsOf "class" (.str s)).filterMap className? = Text.words s.toList := by
      rw [itemsOf, if_neg (by simp), if_pos ⟨rfl, by rw [some]; rfl⟩]
      exact classNames_class fun word member => (Text.mem_words member).1
    have nonempty : (Text.words s.toList).isEmpty = false := by simpa using Text.words_ne_nil some
    have none : Attrs.getString? (attrs.filter (!isClassMarks ·)) "class" = none := by
      rw [Attrs.getString?, missing]
      rfl
    simp only [List.flatMap_cons, List.flatMap_nil, List.append_nil, words, nonempty, none,
      Bool.false_eq_true, if_false]
    rw [Attrs.insert_of_get?_none missing]
    rfl

theorem inner?_braced (text : List Char) : inner? ('\x7b' :: (text ++ ['\x7d'])) = some text := by
  rw [inner?, Text.trim_between (by decide) (by decide)]
  simp only [List.getLast?_concat, if_true, List.dropLast_concat]

/-- A block is read as the attributes it was written for, with the class at the end. -/
theorem read_write (restored : ∀ entry ∈ attrs, Restored entry) (distinct : attrs.Distinct) (some : attrs ≠ []) :
    read (write attrs []) = .ok (gathered attrs) := by
  have spells := parts_spell restored
  have nonempty : (parts attrs []).isEmpty = false := by simpa using parts_ne_nil restored some
  have block : write attrs [] = '\x7b' :: (Text.join [' '] (parts attrs []) ++ ['\x7d']) := by
    simp only [write, nonempty, Bool.false_eq_true, if_false]
  rw [read, block, inner?_braced]
  simp only [trimStart_join spells, items?_join spells]
  exact congrArg Except.ok (ofItems_items restored distinct)

/-- The attribute that stands for one in what is read back. -/
def readBack (entry : String × Value) : String × Value := if isClassMarks entry then tidied entry else entry

theorem gathered_perm_readBack (attrs : Attrs) : (gathered attrs).Perm (attrs.map readBack) := by
  have apart := (List.filter_append_perm (!isClassMarks ·) attrs).map readBack
  simp only [Bool.not_not] at apart
  have others : (attrs.filter (!isClassMarks ·)).map readBack = attrs.filter (!isClassMarks ·) := by
    refine (List.map_congr_left fun entry member => ?_).trans (List.map_id _)
    have noMarks := (List.mem_filter.1 member).2
    rw [readBack, if_neg (by simpa using noMarks), id]
  have marked : (attrs.filter isClassMarks).map readBack = (attrs.filter isClassMarks).map tidied := by
    refine List.map_congr_left fun entry member => ?_
    rw [readBack, if_pos (List.mem_filter.1 member).2]
  rwa [List.map_append, others, marked] at apart

/-- What is written of a map is read back as this map, but for the blanks between the words of its class. -/
theorem read_write_map (some : attrs ≠ []) (distinct : attrs.Distinct)
    (keys : ∀ entry ∈ attrs, isPlainKey entry.1 = true)
    (values : ∀ entry ∈ attrs, isPlainValue entry.2 = true ∨ isBound entry.2 = true)
    (json : ∀ entry ∈ attrs, isBound entry.2 = true → Json.value? entry.2.toJson = Option.some entry.2) :
    ∃ back, read (write attrs []) = .ok back ∧ back.Perm (attrs.map readBack) := by
  have restored : ∀ entry ∈ attrs, Restored entry := by
    intro entry member
    refine ⟨keys entry member, ?_⟩
    rcases values entry member with plain | bound
    · exact Or.inl plain
    · exact Or.inr ⟨bound, json entry member bound⟩
  exact ⟨gathered attrs, read_write restored distinct some, gathered_perm_readBack attrs⟩

/-- Attributes of every spelling; a word of the class and a key hold the characters of marks. -/
theorem read_write_map_spellings :
    ∃ back, read (write [("id", .str "top"), ("count", .num (.int (-3))), ("class", .str " wide  #dark "),
        ("a.b#c", .bool false), ("open", .bool true), ("note", .str "say \"7\" =\n x"),
        ("items", .arr [.num (.int 1)]), ("rest", .obj [])] []) = .ok back ∧
      back.Perm [("id", .str "top"), ("count", .num (.int (-3))), ("class", .str "wide #dark"),
        ("a.b#c", .bool false), ("open", .bool true), ("note", .str "say \"7\" =\n x"),
        ("items", .arr [.num (.int 1)]), ("rest", .obj [])] := by
  have distinct : List.Nodup ["id", "count", "class", "a.b#c", "open", "note", "items", "rest"] := by decide
  refine read_write_map (by simp) distinct (by decide) (by decide) ?_
  simp only [List.forall_mem_cons]
  exact ⟨nofun, nofun, nofun, nofun, nofun, nofun, fun _ => rfl, fun _ => rfl, nofun⟩

end Gathered

section Line

/-- Whether a class is its words with single blanks between them. -/
def isTidy : String × Value → Bool
  | (key, .str s) => key ≠ "class" || Text.allBlank s.toList || Text.join [' '] (Text.words s.toList) = s.toList
  | _ => true

def isOneLine : Value → Bool
  | .str s => '\n' ∉ s.toList
  | _ => true

/-- Whether attributes are a map that is read back from the line it is written on. -/
def isReadable (attrs : Attrs) : Bool :=
  attrs.keys.Nodup && attrs.all fun entry => isPlain entry && isTidy entry && isOneLine entry.2

theorem isReadable_iff {attrs : Attrs} : isReadable attrs = true ↔ attrs.Distinct ∧
    (∀ entry ∈ attrs, isPlain entry = true) ∧ (∀ entry ∈ attrs, isTidy entry = true) ∧
      ∀ entry ∈ attrs, isOneLine entry.2 = true := by
  simp only [isReadable, Bool.and_eq_true, decide_eq_true_eq, List.all_eq_true, forall_and,
    Attrs.Distinct, and_assoc]

theorem tidied_of_isTidy {entry : String × Value} (tidy : isTidy entry = true) (marks : isClassMarks entry = true) :
    tidied entry = entry := by
  obtain ⟨s, rfl, some, _⟩ := itemsOf_classMarks marks
  simp only [isTidy, some, decide_not, Bool.not_true, decide_true, Bool.false_or, decide_eq_true_eq] at tidy
  rw [tidied, tidy, String.ofList_toList]

theorem gathered_perm {attrs : Attrs} (tidy : ∀ entry ∈ attrs, isTidy entry = true) :
    (gathered attrs).Perm attrs := by
  have same : attrs.map readBack = attrs := by
    refine (List.map_congr_left fun entry member => ?_).trans (List.map_id _)
    rw [readBack, id]
    split
    · rename_i marks
      exact tidied_of_isTidy (tidy entry member) marks
    · rfl
  have perm := gathered_perm_readBack attrs
  rwa [same] at perm

theorem not_mem_of_solid {s : List Char} (solid : ∀ c ∈ s, Text.isBlank c = false) : '\n' ∉ s := by
  intro member
  exact absurd (solid _ member) (by decide)

theorem spellings_oneLine {key : String} (plain : isPlainKey key = true) {value : Value}
    (plain' : isPlainValue value = true)
    (oneLine : isOneLine value = true) : ∀ part ∈ spellings key value, '\n' ∉ part := by
  have key_ : '\n' ∉ key.toList := by
    rw [isPlainKey, Bool.and_eq_true, Bool.and_eq_true] at plain
    have chars := plain.1.1
    cases name : key.toList with
    | nil => simp
    | cons c rest =>
      rw [name, isKey, Bool.and_eq_true, List.all_eq_true] at chars
      refine not_mem_of_solid fun d member => ?_
      have part := chars.2 d member
      rw [isKeyChar, Bool.and_eq_true, Bool.not_eq_true'] at part
      exact part.1
  cases value with
  | null | arr | obj => cases plain'
  | bool value => cases value <;> simp [spellings, key_]
  | num value =>
    cases value with
    | float => cases plain'
    | int n =>
      have number := not_mem_of_solid (repr_int_plain n).2
      simp [spellings, Json.numberText, key_, number]
  | str s =>
    have text : '\n' ∉ s.toList := by simpa [isOneLine] using oneLine
    rw [spellings]
    split
    · simp [text]
    · split
      · intro part member
        obtain ⟨word, listed, rfl⟩ := List.mem_map.1 member
        have word_ := not_mem_of_solid (Text.mem_words listed).2
        simp [word_]
      · have escaped : '\n' ∉ Text.replaceChar '\x22' ['\\', '\x22'] s.toList := by
          rw [Text.replaceChar, List.mem_flatMap]
          rintro ⟨c, member, inside⟩
          split at inside
          · simp at inside
          · rw [List.mem_singleton] at inside
            exact text (inside ▸ member)
        simp [quoted, key_, escaped]

theorem write_oneLine {attrs : Attrs} (readable : isReadable attrs = true) : '\n' ∉ write attrs [] := by
  obtain ⟨_, plain, _, oneLine⟩ := isReadable_iff.1 readable
  have all : ∀ part ∈ parts attrs [], '\n' ∉ part := by
    rw [parts_eq fun entry member => .of_isPlain (plain entry member)]
    intro part member
    obtain ⟨entry, listed, inside⟩ := List.mem_flatMap.1 member
    have here := plain entry listed
    rw [isPlain, Bool.and_eq_true] at here
    exact spellings_oneLine here.1 here.2 (oneLine entry listed) part inside
  rw [write]
  split
  · simp
  · simpa using Text.not_mem_join (by simp) all

theorem write_braced (attrs : Attrs) :
    write attrs [] = [] ∨ ∃ inner, write attrs [] = '\x7b' :: (inner ++ ['\x7d']) := by
  rw [write]
  split
  · exact Or.inl rfl
  · exact Or.inr ⟨_, rfl⟩

theorem write_eq_nil_iff {attrs : Attrs} (restored : ∀ entry ∈ attrs, Restored entry) :
    write attrs [] = [] ↔ attrs = [] := by
  constructor
  · intro empty
    by_contra some
    have parts := parts_ne_nil restored some
    rw [write, if_neg (by simpa using parts)] at empty
    cases empty
  · rintro rfl
    rfl

end Line

end AttributeBlock

end ComponentMarkdown
