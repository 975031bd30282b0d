import ComponentMarkdown.Markup.AttributeReader
import ComponentMarkdown.Proofs.Markup.AttributeBlock
import Mathlib.Algebra.GroupWithZero.Nat

namespace ComponentMarkdown

namespace Text

/-- Whether a character is neither blank nor made by quoting and escaping. -/
def isSubstance (c : Char) : Bool := !isBlank c && c ≠ '\x22' && c ≠ '\\'

/-- How many characters of a text are neither blank nor made by quoting and escaping. -/
def weight (s : List Char) : Nat := s.countP isSubstance

@[simp]
theorem weight_nil : weight [] = 0 := rfl

theorem weight_append (s t : List Char) : weight (s ++ t) = weight s + weight t := List.countP_append

theorem weight_cons (c : Char) (s : List Char) : weight (c :: s) = weight [c] + weight s := weight_append [c] s

theorem weight_backslash (s : List Char) : weight ('\\' :: s) = weight s := List.countP_cons_of_neg (by decide)

theorem weight_quote (s : List Char) : weight ('\x22' :: s) = weight s := List.countP_cons_of_neg (by decide)

theorem weight_le_of_sublist {s t : List Char} (sublist : s.Sublist t) : weight s ≤ weight t := sublist.countP_le

theorem weight_dropWhile_le (p : Char → Bool) (s : List Char) : weight (s.dropWhile p) ≤ weight s :=
  weight_le_of_sublist (List.dropWhile_sublist p)

theorem weight_char_le (c : Char) : weight [c] ≤ 1 := List.countP_le_length

end Text

open Text (weight weight_nil weight_append weight_cons weight_backslash weight_quote weight_le_of_sublist
  weight_dropWhile_le weight_char_le)

namespace Json

/-- What an escape stands for weighs no more than its letter. -/
theorem weight_shortEscape {e c : Char} (escape : shortEscape? e = some c) : weight [c] ≤ weight [e] := by
  by_cases self : e = '\x22' ∨ e = '\\' ∨ e = '/'
  · rw [shortEscape?, if_pos self] at escape
    cases escape
    exact Nat.le_refl _
  · have letter : e = 'b' ∨ e = 'f' ∨ e = 'n' ∨ e = 'r' ∨ e = 't' := by
      by_contra other
      simp only [not_or] at other
      simp [shortEscape?, self, other] at escape
    have one : weight [e] = 1 := by rcases letter with rfl | rfl | rfl | rfl | rfl <;> decide
    rw [one]
    exact weight_char_le c

def StringUnit.weight : StringUnit → Nat
  | .char c => Text.weight [c]
  | .escaped _ => 1

def unitsWeight (units : List StringUnit) : Nat := (units.map StringUnit.weight).sum

theorem unitsWeight_cons (unit : StringUnit) (units : List StringUnit) :
    unitsWeight (unit :: units) = unit.weight + unitsWeight units := by
  rw [unitsWeight, List.map_cons, List.sum_cons]
  rfl

theorem stringBody?_weight {s left : List Char} {units : List StringUnit}
    (read : stringBody? s = some (units, left)) : unitsWeight units + weight left ≤ weight s := by
  fun_induction stringBody? s generalizing units left with
  | case1 => cases read
  | case2 rest =>
    cases read
    rw [weight_cons]
    exact Nat.add_le_add_right (Nat.zero_le _) _
  | case3 a b c d rest ih =>
    simp only [Option.bind_eq_bind, Option.bind_eq_some_iff] at read
    obtain ⟨unit, _, ⟨units', left'⟩, read', same⟩ := read
    simp only [pure, Option.some.injEq, Prod.mk.injEq] at same
    obtain ⟨rfl, rfl⟩ := same
    have letter : weight ('\\' :: 'u' :: a :: b :: c :: d :: rest) = 1 + weight (a :: b :: c :: d :: rest) := by
      rw [weight_cons, weight_cons 'u', ← Nat.add_assoc]
      rfl
    have digits : weight rest ≤ weight (a :: b :: c :: d :: rest) :=
      weight_le_of_sublist (List.suffix_append [a, b, c, d] rest).sublist
    have := ih read'
    rw [unitsWeight_cons, StringUnit.weight]
    omega
  | case4 e rest _ ih =>
    simp only [Option.bind_eq_bind, Option.bind_eq_some_iff] at read
    obtain ⟨c, escape, ⟨units', left'⟩, read', same⟩ := read
    simp only [pure, Option.some.injEq, Prod.mk.injEq] at same
    obtain ⟨rfl, rfl⟩ := same
    have := weight_shortEscape escape
    have := ih read'
    rw [unitsWeight_cons, StringUnit.weight, weight_cons '\\', weight_cons e]
    omega
  | case5 => cases read
  | case6 c rest _ _ _ _ ih =>
    simp only [Option.bind_eq_bind, Option.bind_eq_some_iff] at read
    obtain ⟨⟨units', left'⟩, read', same⟩ := read
    simp only [pure, Option.some.injEq, Prod.mk.injEq] at same
    obtain ⟨rfl, rfl⟩ := same
    have := ih read'
    rw [unitsWeight_cons, StringUnit.weight, weight_cons c rest]
    omega

theorem unitChars?_weight {units : List StringUnit} {chars : List Char} (read : unitChars? units = some chars) :
    weight chars ≤ unitsWeight units := by
  fun_induction unitChars? units generalizing chars with
  | case1 =>
    cases read
    exact Nat.zero_le _
  | case2 c rest ih =>
    obtain ⟨below, read', rfl⟩ := Option.map_eq_some_iff.1 read
    rw [weight_cons, unitsWeight_cons]
    exact Nat.add_le_add_left (ih read') _
  | case3 high low rest _ _ ih =>
    obtain ⟨below, read', rfl⟩ := Option.map_eq_some_iff.1 read
    have := ih read'
    have := weight_char_le (Char.ofNat (0x10000 + (high - 0xD800) * 0x400 + (low - 0xDC00)))
    rw [weight_cons, unitsWeight_cons, unitsWeight_cons, StringUnit.weight, StringUnit.weight]
    omega
  | case4 => cases read
  | case5 => cases read
  | case6 high low rest _ _ ih =>
    obtain ⟨below, read', rfl⟩ := Option.map_eq_some_iff.1 read
    rw [weight_cons, unitsWeight_cons]
    exact Nat.add_le_add (weight_char_le _) (ih read')
  | case7 => cases read
  | case8 unit rest _ _ ih =>
    obtain ⟨below, read', rfl⟩ := Option.map_eq_some_iff.1 read
    rw [weight_cons, unitsWeight_cons]
    exact Nat.add_le_add (weight_char_le _) (ih read')

/-- Only a string literal is read as a string. -/
theorem writtenValue?_weight {fuel : Nat} {s left : List Char} {units : List StringUnit}
    (read : writtenValue? fuel s = some (.str units, left)) : unitsWeight units ≤ weight s := by
  cases fuel with
  | zero => cases read
  | succ fuel =>
    have blanks : weight (skipBlanks s) ≤ weight s := weight_dropWhile_le _ _
    rw [writtenValue?] at read
    split at read
    · cases read
    · cases read
    · cases read
    · rename_i rest ahead
      obtain ⟨⟨units', left'⟩, body, same⟩ := Option.map_eq_some_iff.1 read
      cases same
      have := stringBody?_weight body
      rw [ahead, weight_cons] at blanks
      omega
    · split at read
      · cases read
      · obtain ⟨_, _, same⟩ := Option.map_eq_some_iff.1 read
        cases same
    · split at read
      · cases read
      · obtain ⟨_, _, same⟩ := Option.map_eq_some_iff.1 read
        cases same
    · obtain ⟨_, _, same⟩ := Option.map_eq_some_iff.1 read
      cases same

/-- A string weighs no more than the JSON text that it is read from. -/
theorem value?_weight {s text : String} (read : value? s = some (.str text)) :
    weight text.toList ≤ weight s.toList := by
  obtain ⟨tree, written, meaning⟩ := Option.bind_eq_some_iff.1 read
  simp only [written?, Option.bind_eq_bind, Option.bind_eq_some_iff] at written
  obtain ⟨⟨tree', rest⟩, whole, same⟩ := written
  split at same
  · cases same
    cases tree' with
    | str units =>
      rw [Written.value?] at meaning
      obtain ⟨text', chars, same⟩ := Option.map_eq_some_iff.1 meaning
      obtain ⟨list, decoded, rfl⟩ := Option.map_eq_some_iff.1 chars
      cases same
      rw [String.toList_ofList]
      exact Nat.le_trans (unitChars?_weight decoded) (writtenValue?_weight whole)
    | null | bool | arr | obj | num =>
      rw [Written.value?] at meaning
      simp at meaning
  · cases same

end Json

namespace AttributeBlock

def WrittenValue.weight : WrittenValue → Nat
  | .quoted text | .bare text => Text.weight text

/-- What an item is made of: a name, or a key, and the equals sign and the value behind it. -/
def Item.weight : Item → Nat
  | .id name | .class_ name => Text.weight name
  | .flag key => Text.weight key
  | .pair key value => Text.weight key + 1 + value.weight

theorem quotedText?_weight {quote : Char} {s text tail : List Char}
    (read : quotedText? quote s = some (text, tail)) : weight text + weight tail ≤ weight s := by
  fun_induction quotedText? quote s generalizing text with
  | case1 => cases read
  | case2 => cases read
  | case3 c rest ih =>
    obtain ⟨⟨text', tail'⟩, read', same⟩ := Option.map_eq_some_iff.1 read
    cases same
    have := ih read'
    have escaped : weight (if c = quote ∨ c = '\\' then [c] else ['\\', c]) = weight [c] := by
      split
      · rfl
      · exact weight_backslash [c]
    rw [weight_append, escaped, weight_backslash, weight_cons c rest]
    omega
  | case4 rest =>
    cases read
    rw [weight_nil, Nat.zero_add]
    exact weight_le_of_sublist (List.sublist_cons_self _ _)
  | case5 c rest _ _ _ ih =>
    obtain ⟨⟨text', tail'⟩, read', same⟩ := Option.map_eq_some_iff.1 read
    cases same
    have := ih read'
    rw [weight_cons c text', weight_cons c rest]
    omega

theorem bareText_weight (s : List Char) : weight (bareText s).1 + weight (bareText s).2 = weight s := by
  rw [bareText, ← weight_append, List.takeWhile_append_dropWhile]

theorem value?_weight {key s tail : List Char} {value : WrittenValue} (read : value? key s = .ok (value, tail)) :
    value.weight + weight tail ≤ weight s := by
  unfold value? at read
  split at read
  · rename_i c rest
    split at read
    · split at read
      · rename_i text left found
        cases read
        exact Nat.le_trans (quotedText?_weight found) (weight_le_of_sublist (List.sublist_cons_self c rest))
      · cases read
    · cases read
      exact Nat.le_of_eq (bareText_weight _)
  · cases read
    exact Nat.le_refl _

/-- An item takes its weight off the text. -/
theorem item?_weight {s tail : List Char} {item : Item} (read : item? s = .ok (item, tail)) :
    item.weight + weight tail ≤ weight s := by
  have behind : ∀ c rest, weight (bareText rest).1 + weight (bareText rest).2 ≤ weight (c :: rest) := by
    intro c rest
    rw [bareText_weight]
    exact weight_le_of_sublist (List.sublist_cons_self c rest)
  unfold item? at read
  split at read
  · cases read
    exact behind _ _
  · cases read
    exact behind _ _
  · dsimp only at read
    split at read
    · cases read
    · have cut : weight (s.takeWhile isKeyChar) + weight (s.dropWhile isKeyChar) = weight s := by
        rw [← weight_append, List.takeWhile_append_dropWhile]
      split at read
      · rename_i rest drop
        cases found : value? (s.takeWhile isKeyChar) rest with
        | error cause =>
          rw [found] at read
          cases read
        | ok pair =>
          obtain ⟨value, left⟩ := pair
          rw [found] at read
          cases read
          have inside : value.weight + weight left ≤ weight rest := value?_weight found
          have equals : weight ('=' :: rest) = 1 + weight rest := weight_cons '=' rest
          rw [drop, equals] at cut
          simp only [Item.weight]
          omega
      · cases read
        exact Nat.le_of_eq cut

/-- The items of a text together weigh no more than the text. -/
theorem items?_weight {s : List Char} {items : List Item} (read : items? s = .ok items) :
    (items.map Item.weight).sum ≤ weight s := by
  induction s using items?.induct generalizing items with
  | case1 s empty =>
    rw [items?, if_pos empty] at read
    cases read
    exact Nat.zero_le _
  | case2 s some cause failed =>
    rw [items?, if_neg some] at read
    split at read
    · cases read
    · rename_i found
      rw [failed] at found
      cases found
  | case3 s some item tail first ih =>
    rw [items?_of_item? (by simpa using some) first] at read
    cases below : items? (Text.trimStart tail) with
    | error cause =>
      rw [below] at read
      cases read
    | ok rest =>
      rw [below] at read
      cases read
      have := item?_weight first
      have := ih below
      have : weight (Text.trimStart tail) ≤ weight tail := weight_dropWhile_le _ _
      rw [List.map_cons, List.sum_cons]
      omega

/-- What an attribute takes up in a block, if its value is a string. An id may be written without its key. -/
def entryWeight : String × Value → Nat
  | (key, .str text) => if key = "id" then 0 else weight key.toList + 1 + weight text.toList
  | _ => 0

def attrsWeight (attrs : Attrs) : Nat := (attrs.map entryWeight).sum

def weightAt (attrs : Attrs) (key : String) : Nat :=
    ((attrs.get? key).map fun value => entryWeight (key, value)).getD 0

theorem attrsWeight_cons (entry : String × Value) (attrs : Attrs) :
    attrsWeight (entry :: attrs) = entryWeight entry + attrsWeight attrs := by
  rw [attrsWeight, List.map_cons, List.sum_cons, ← attrsWeight]

/-- What an attribute took up before it is set again is lost. -/
theorem attrsWeight_insert (attrs : Attrs) (key : String) (value : Value) :
    attrsWeight (attrs.insert key value) + weightAt attrs key = attrsWeight attrs + entryWeight (key, value) := by
  induction attrs with
  | nil => rw [Attrs.insert, attrsWeight_cons, Nat.add_comm (entryWeight _)]; rfl
  | cons entry rest ih =>
    obtain ⟨k, v⟩ := entry
    rw [Attrs.insert, weightAt, Attrs.get?_cons]
    split
    · rename_i same
      subst same
      rw [if_pos rfl, attrsWeight_cons, attrsWeight_cons, Option.map_some, Option.getD_some]
      omega
    · rename_i differ
      rw [if_neg (Ne.symm differ), ← weightAt, attrsWeight_cons, attrsWeight_cons]
      omega

theorem entryWeight_le {key : List Char} {value : Value} {size : Nat}
    (string : ∀ text, value = .str text → weight text.toList ≤ size) :
    entryWeight (String.ofList key, value) ≤ weight key + 1 + size := by
  cases value with
  | str text =>
    have := string text rfl
    rw [entryWeight, String.toList_ofList]
    split <;> omega
  | _ => exact Nat.zero_le _

theorem bareValue_str {s : List Char} {text : String} (read : bareValue s = .str text) :
    text = String.ofList s := by
  unfold bareValue at read
  split at read
  · cases read
  · split at read
    · cases read
    · split at read
      · cases read
      · split at read
        · split at read <;> cases read
          rfl
        · cases read
          rfl

theorem insertWritten_weight (attrs : Attrs) (key : List Char) (value : WrittenValue) :
    ∃ name meant, insertWritten attrs key value = attrs.insert name meant ∧
      entryWeight (name, meant) ≤ weight key + 1 + value.weight := by
  have bound : ∀ name text, entryWeight (String.ofList name, (Json.value? (String.ofList text)).getD
      (.str (String.ofList text))) ≤ weight (':' :: name) + 1 + weight text := by
    intro name text
    have named : weight name ≤ weight (':' :: name) := weight_le_of_sublist (List.sublist_cons_self _ _)
    refine Nat.le_trans (entryWeight_le ?_) (Nat.add_le_add_right (Nat.add_le_add_right named 1) _)
    intro string same
    cases read : Json.value? (String.ofList text) with
    | none =>
      rw [read] at same
      cases same
      rw [String.toList_ofList]
    | some json =>
      rw [read, Option.getD_some] at same
      subst same
      have written := Json.value?_weight read
      rwa [String.toList_ofList] at written
  unfold insertWritten
  split
  · exact ⟨_, _, rfl, bound _ _⟩
  · exact ⟨_, _, rfl, bound _ _⟩
  · refine ⟨_, _, rfl, entryWeight_le ?_⟩
    rintro _ ⟨⟩
    rw [String.toList_ofList, WrittenValue.weight]
  · refine ⟨_, _, rfl, entryWeight_le fun string same => ?_⟩
    rw [bareValue_str same, String.toList_ofList, WrittenValue.weight]

theorem insertItem_cases (attrs : Attrs) (item : Item) : insertItem attrs item = attrs ∨
    ∃ key value, insertItem attrs item = attrs.insert key value ∧ entryWeight (key, value) ≤ item.weight := by
  cases item with
  | id name =>
    rw [insertItem]
    split
    · exact Or.inl rfl
    · exact Or.inr ⟨_, _, rfl, Nat.zero_le _⟩
  | class_ name => exact Or.inl rfl
  | flag key => exact Or.inr ⟨_, _, rfl, Nat.zero_le _⟩
  | pair key value => exact Or.inr (insertWritten_weight attrs key value)

theorem foldl_insertItem_weight (items : List Item) (attrs : Attrs) :
    attrsWeight (items.foldl insertItem attrs) ≤ attrsWeight attrs + (items.map Item.weight).sum := by
  induction items generalizing attrs with
  | nil => exact Nat.le_refl _
  | cons item rest ih =>
    have later := ih (insertItem attrs item)
    rw [List.foldl_cons, List.map_cons, List.sum_cons]
    rcases insertItem_cases attrs item with same | ⟨key, value, same, size⟩
    · rw [same] at later ⊢
      omega
    · have change := attrsWeight_insert attrs key value
      rw [same] at later ⊢
      omega

/-- Items that set an attribute again weigh what the old value took up on top of what comes out. -/
theorem foldl_insertItem_lost {items : List Item} {attrs : Attrs} {key : String} {value : Value}
    (found : attrs.get? key = some value) (changed : (items.foldl insertItem attrs).get? key ≠ some value) :
    attrsWeight (items.foldl insertItem attrs) + entryWeight (key, value) ≤
      attrsWeight attrs + (items.map Item.weight).sum := by
  induction items generalizing attrs with
  | nil => exact absurd found changed
  | cons item rest ih =>
    rw [List.foldl_cons] at changed ⊢
    rw [List.map_cons, List.sum_cons]
    rcases insertItem_cases attrs item with same | ⟨key', value', same, size⟩
    · rw [same] at changed ⊢
      have := ih found changed
      omega
    · have change := attrsWeight_insert attrs key' value'
      rw [same] at changed ⊢
      by_cases here : key = key'
      · subst here
        have later := foldl_insertItem_weight rest (attrs.insert key value')
        rw [weightAt, found, Option.map_some, Option.getD_some] at change
        omega
      · have kept : (attrs.insert key' value').get? key = some value := by
          rw [Attrs.get?_insert, if_neg here, found]
        have := ih kept changed
        omega

theorem attrsWeight_append (attrs more : Attrs) :
    attrsWeight (attrs ++ more) = attrsWeight attrs + attrsWeight more := by
  rw [attrsWeight, List.map_append, List.sum_append]
  rfl

/-- An attribute that was set to another value is not made right by items that weigh less than what is missing. -/
theorem not_perm_of_altered {acc rest : Attrs} {key : String} {value other : Value} {items : List Item}
    (distinct : Attrs.Distinct (acc ++ (key, value) :: rest)) (altered : other ≠ value)
    (size : (items.map Item.weight).sum < attrsWeight ((key, value) :: rest)) :
    ¬ (items.foldl insertItem (acc.insert key other)).Perm (acc ++ (key, value) :: rest) := by
  intro back
  have missing : acc.get? key = none := distinct.get?_eq_none
  have set : (acc.insert key other).get? key = some other := by rw [Attrs.get?_insert, if_pos rfl]
  have behind : (items.foldl insertItem (acc.insert key other)).get? key = some value := by
    rw [← Attrs.get?_perm distinct back.symm, Attrs.get?_append, missing, Attrs.get?_cons, if_pos rfl]
    rfl
  have changed : (items.foldl insertItem (acc.insert key other)).get? key ≠ some other := by
    rw [behind]
    exact fun same => altered (Option.some.inj same).symm
  have lost := foldl_insertItem_lost set changed
  have total : attrsWeight (items.foldl insertItem (acc.insert key other)) =
      attrsWeight (acc ++ (key, value) :: rest) := (back.map entryWeight).sum_nat
  rw [total, Attrs.insert_of_get?_none missing, attrsWeight_append, attrsWeight_append,
    attrsWeight_cons (key, other)] at lost
  simp only [attrsWeight, List.map_nil, List.sum_nil] at lost size
  omega

end AttributeBlock

end ComponentMarkdown
