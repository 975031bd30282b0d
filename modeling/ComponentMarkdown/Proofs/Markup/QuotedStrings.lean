import ComponentMarkdown.Proofs.Markup.AttributeWeight

namespace ComponentMarkdown

open Text (weight weight_append weight_cons weight_quote)

namespace AttributeBlock

/-- Whether every backslash of a text stands before a character that is no quote and no backslash. -/
def isKeptInQuotes : List Char → Bool
  | [] => true
  | ['\\'] => false
  | '\\' :: c :: rest => c ≠ '\x22' && c ≠ '\\' && isKeptInQuotes rest
  | _ :: rest => isKeptInQuotes rest

/-- A text in quotes without the quote in front, and what follows it. -/
def quotedBefore (s tail : List Char) : List Char := Text.replaceChar '\x22' ['\\', '\x22'] s ++ '\x22' :: tail

section Quoted

variable {c : Char} (s tail : List Char)

theorem quotedText?_nil : quotedText? '\x22' (quotedBefore [] tail) = some ([], tail) := by
  rw [quotedBefore, Text.replaceChar, List.flatMap_nil, List.nil_append, quotedText?, if_pos rfl]
  · exact fun same => absurd same (by decide)
  · exact fun c rest same => absurd same (by decide)

theorem quotedText?_cons (plain : c ≠ '\\') : quotedText? '\x22' (quotedBefore (c :: s) tail) =
    (quotedText? '\x22' (quotedBefore s tail)).map fun (text, left) => (c :: text, left) := by
  rw [quotedBefore, Text.replaceChar, List.flatMap_cons, ← Text.replaceChar, List.append_assoc, ← quotedBefore]
  by_cases quote : c = '\x22'
  · subst quote
    rw [if_pos rfl, List.cons_append, List.singleton_append, quotedText?]
    rfl
  · rw [if_neg quote, List.singleton_append, quotedText?, if_neg quote]
    · exact fun same => absurd same plain
    · exact fun c rest same => absurd same plain

/-- A backslash at the end makes the closing quote one of the text. -/
theorem quotedText?_lastBackslash : quotedText? '\x22' (quotedBefore ['\\'] tail) =
    (quotedText? '\x22' tail).map fun (text, left) => ('\x22' :: text, left) := rfl

/-- A backslash before a quote takes the backslash of the quote, which closes the text. -/
theorem quotedText?_backslashQuote :
    quotedText? '\x22' (quotedBefore ('\\' :: '\x22' :: s) tail) = some (['\\'], quotedBefore s tail) := by
  rw [quotedBefore, Text.replaceChar, List.flatMap_cons, List.flatMap_cons, ← Text.replaceChar]
  simp [quotedText?, quotedBefore]

theorem quotedText?_twoBackslashes : quotedText? '\x22' (quotedBefore ('\\' :: '\\' :: s) tail) =
    (quotedText? '\x22' (quotedBefore s tail)).map fun (text, left) => ('\\' :: text, left) := by
  rw [quotedBefore, Text.replaceChar, List.flatMap_cons, List.flatMap_cons, ← Text.replaceChar]
  simp [quotedText?, quotedBefore]

theorem quotedText?_backslash (noQuote : c ≠ '\x22') (other : c ≠ '\\') :
    quotedText? '\x22' (quotedBefore ('\\' :: c :: s) tail) =
      (quotedText? '\x22' (quotedBefore s tail)).map fun (text, left) => ('\\' :: c :: text, left) := by
  rw [quotedBefore, Text.replaceChar, List.flatMap_cons, List.flatMap_cons, ← Text.replaceChar]
  simp [quotedText?, quotedBefore, noQuote, other]

theorem ne_backslash {rest : List Char} (last : c = '\\' → rest = [] → False)
    (more : ∀ d below, c = '\\' → rest = d :: below → False) : c ≠ '\\' := by
  intro same
  cases rest with
  | nil => exact last same rfl
  | cons d below => exact more d below same rfl

theorem quotedText?_kept {s : List Char} (kept : isKeptInQuotes s = true) :
    quotedText? '\x22' (quotedBefore s tail) = some (s, tail) := by
  fun_induction isKeptInQuotes s with
  | case1 => exact quotedText?_nil tail
  | case2 => cases kept
  | case3 c rest ih =>
    simp only [Bool.and_eq_true, decide_eq_true_eq] at kept
    obtain ⟨⟨noQuote, other⟩, below⟩ := kept
    rw [quotedText?_backslash rest tail noQuote other, ih below]
    rfl
  | case4 c rest last more ih =>
    have plain := ne_backslash last more
    rw [quotedText?_cons rest tail plain, ih kept]
    rfl

/-- Reading makes no run of backslashes at the front longer. -/
theorem quotedText?_front {s text left : List Char}
    (read : quotedText? '\x22' (quotedBefore s tail) = some (text, left)) :
    (text.takeWhile (· = '\\')).length ≤ (s.takeWhile (· = '\\')).length := by
  induction s using isKeptInQuotes.induct generalizing text with
  | case1 =>
    rw [quotedText?_nil] at read
    cases read
    exact Nat.le_refl _
  | case2 =>
    rw [quotedText?_lastBackslash] at read
    obtain ⟨_, _, same⟩ := Option.map_eq_some_iff.1 read
    cases same
    exact Nat.zero_le _
  | case3 c rest ih =>
    by_cases quote : c = '\x22'
    · subst quote
      rw [quotedText?_backslashQuote] at read
      cases read
      exact Nat.le_refl _
    · by_cases second : c = '\\'
      · subst second
        rw [quotedText?_twoBackslashes] at read
        obtain ⟨_, read', same⟩ := Option.map_eq_some_iff.1 read
        cases same
        have := ih read'
        simp only [List.takeWhile_cons, decide_true, if_true, List.length_cons]
        omega
      · rw [quotedText?_backslash rest tail quote second] at read
        obtain ⟨_, _, same⟩ := Option.map_eq_some_iff.1 read
        cases same
        simp [second]
  | case4 c rest last more _ =>
    have plain := ne_backslash last more
    rw [quotedText?_cons rest tail plain] at read
    obtain ⟨_, _, same⟩ := Option.map_eq_some_iff.1 read
    cases same
    simp [plain]

theorem quotedText?_not_kept {s text left : List Char} (altered : isKeptInQuotes s = false)
    (read : quotedText? '\x22' (quotedBefore s tail) = some (text, left)) : text ≠ s := by
  fun_induction isKeptInQuotes s generalizing text with
  | case1 => cases altered
  | case2 =>
    rw [quotedText?_lastBackslash] at read
    obtain ⟨_, _, same⟩ := Option.map_eq_some_iff.1 read
    cases same
    simp
  | case3 c rest ih =>
    by_cases quote : c = '\x22'
    · subst quote
      rw [quotedText?_backslashQuote] at read
      cases read
      simp
    · by_cases second : c = '\\'
      -- One of the two backslashes is lost, and the rest does not give it back.
      · subst second
        rw [quotedText?_twoBackslashes] at read
        obtain ⟨_, read', same⟩ := Option.map_eq_some_iff.1 read
        cases same
        intro equal
        have front := quotedText?_front tail read'
        rw [(List.cons.inj equal).2] at front
        simp only [List.takeWhile_cons, decide_true, if_true, List.length_cons] at front
        omega
      · rw [quotedText?_backslash rest tail quote second] at read
        obtain ⟨_, read', same⟩ := Option.map_eq_some_iff.1 read
        cases same
        have below : isKeptInQuotes rest = false := by simpa [quote, second] using altered
        simpa using ih below read'
  | case4 c rest last more ih =>
    have plain := ne_backslash last more
    rw [quotedText?_cons rest tail plain] at read
    obtain ⟨_, read', same⟩ := Option.map_eq_some_iff.1 read
    cases same
    simpa using ih altered read'

end Quoted

section Strings

/-- A list of keys and texts as attributes. -/
def strings (texts : List (String × String)) : Attrs := texts.map fun entry => (entry.1, .str entry.2)

/-- How a key and a text are written. -/
def spelling (entry : String × String) : List Char := entry.1.toList ++ '=' :: quoted entry.2

/-- Whether a key has no spelling of its own, so that a text stands in quotes behind it. -/
def isQuotedKey (key : String) : Bool := isPlainKey key && key ≠ "id" && key ≠ "class"

variable {texts : List (String × String)} (keys : ∀ entry ∈ texts, isQuotedKey entry.1 = true)

theorem isQuotedKey_iff {key : String} :
    isQuotedKey key = true ↔ isPlainKey key = true ∧ key ≠ "id" ∧ key ≠ "class" := by
  simp only [isQuotedKey, Bool.and_eq_true, decide_eq_true_eq, and_assoc]

theorem weight_spelling (entry : String × String) :
    weight (spelling entry) = weight entry.1.toList + 1 + weight entry.2.toList := by
  have escaped : ∀ s : List Char, weight (Text.replaceChar '\x22' ['\\', '\x22'] s) = weight s := by
    intro s
    induction s with
    | nil => rfl
    | cons c rest ih =>
      rw [Text.replaceChar, List.flatMap_cons, ← Text.replaceChar, weight_append, ih, weight_cons c rest]
      split
      · rename_i same
        subst same
        rfl
      · rfl
  have equals : weight ['='] = 1 := by decide
  have quote : weight ['\x22'] = 0 := by decide
  rw [spelling, quoted, weight_append, weight_cons, weight_quote, weight_append, escaped, equals, quote]
  omega

theorem weight_join (parts : List (List Char)) : weight (Text.join [' '] parts) = (parts.map weight).sum := by
  induction parts with
  | nil => rfl
  | cons part rest ih =>
    by_cases last : rest = []
    · subst last
      rw [Text.join, List.map_singleton, List.sum_singleton]
    · have blank : weight [' '] = 0 := by decide
      rw [Text.join_cons last, weight_append, weight_append, blank, ih, List.map_cons, List.sum_cons, Nat.add_zero]

include keys

theorem parts_strings : parts (strings texts) [] = texts.map spelling := by
  rw [parts, strings, List.flatMap_map, ← List.flatMap_pure_eq_map]
  refine List.flatMap_congr fun entry member => ?_
  obtain ⟨plain, noId, noClass⟩ := isQuotedKey_iff.1 (keys entry member)
  rw [isPlainKey, Bool.and_eq_true, Bool.not_eq_true'] at plain
  simp only [List.not_mem_nil, plain.2, Bool.false_eq_true, or_self, if_false, spellings, noId, noClass, false_and]
  rfl

theorem attrsWeight_strings : attrsWeight (strings texts) = weight (Text.join [' '] (texts.map spelling)) := by
  rw [weight_join, List.map_map, attrsWeight, strings, List.map_map]
  refine congrArg List.sum (List.map_congr_left fun entry member => ?_)
  have noId := (isQuotedKey_iff.1 (keys entry member)).2.1
  rw [Function.comp_apply, Function.comp_apply, weight_spelling, entryWeight, if_neg noId]

theorem trimStart_join_spelling :
    Text.trimStart (Text.join [' '] (texts.map spelling)) = Text.join [' '] (texts.map spelling) := by
  cases texts with
  | nil => rfl
  | cons entry rest =>
    obtain ⟨plain, _⟩ := isQuotedKey_iff.1 (keys entry List.mem_cons_self)
    rw [isPlainKey, Bool.and_eq_true, Bool.and_eq_true] at plain
    obtain ⟨c, more, same, solid⟩ := isKey_solid plain.1.1
    rw [List.map_cons, Text.join_cons_eq_flatMap, spelling, same]
    exact Text.trimStart_of_head solid

/-- What stands behind a spelling: the others, each behind a blank. -/
theorem trimStart_spellings : Text.trimStart ((texts.map spelling).flatMap ([' '] ++ ·)) =
    Text.join [' '] (texts.map spelling) := by
  have ahead := trimStart_join_spelling keys
  cases texts with
  | nil => rfl
  | cons entry rest =>
    rw [List.map_cons, Text.join_cons_eq_flatMap] at ahead ⊢
    rwa [List.flatMap_cons, List.append_assoc, List.singleton_append, Text.trimStart,
      List.dropWhile_cons_of_pos (by decide), ← Text.trimStart]

theorem read_strings (some : texts ≠ []) : read (write (strings texts) []) =
    (items? (Text.join [' '] (texts.map spelling))).map ofItems := by
  have nonempty : (parts (strings texts) []).isEmpty = false := by
    rw [parts_strings keys]
    simpa using some
  rw [read, write]
  simp only [nonempty, Bool.false_eq_true, if_false]
  rw [inner?_braced, parts_strings keys]
  simp only [trimStart_join_spelling keys]

omit keys in
theorem item?_spelling {entry : String × String} (quotedKey : isQuotedKey entry.1 = true) (tail : List Char) :
    item? (spelling entry ++ tail) =
      match quotedText? '\x22' (quotedBefore entry.2.toList tail) with
      | some (text, left) => .ok (.pair entry.1.toList (.quoted text), left)
      | none => .error (.unterminatedQuote entry.1) := by
  have plain := (isQuotedKey_iff.1 quotedKey).1
  rw [isPlainKey, Bool.and_eq_true, Bool.and_eq_true] at plain
  rw [spelling, List.append_assoc, List.cons_append, item?_pair plain.1.1, quoted, List.cons_append, value?]
  rw [List.append_assoc, List.singleton_append, ← quotedBefore, String.ofList_toList]
  simp only [isQuote]
  cases quotedText? '\x22' (quotedBefore entry.2.toList tail) <;> rfl

omit keys in
theorem join_spelling_cons (entry : String × String) (rest : List (String × String)) :
    Text.join [' '] ((entry :: rest).map spelling) = spelling entry ++
    (rest.map spelling).flatMap ([' '] ++ ·) := by
  rw [List.map_cons, Text.join_cons_eq_flatMap]

omit keys in
theorem spelling_ne_nil (entry : String × String) (tail : List Char) : spelling entry ++ tail ≠ [] := by
  simp [spelling]

theorem items?_kept (kept : ∀ entry ∈ texts, isKeptInQuotes entry.2.toList = true) :
    items? (Text.join [' '] (texts.map spelling)) =
      .ok (texts.map fun entry => .pair entry.1.toList (.quoted entry.2.toList)) := by
  induction texts with
  | nil =>
    rw [List.map_nil, Text.join, items?]
    rfl
  | cons entry rest ih =>
    obtain ⟨quotedKey, keys'⟩ := List.forall_mem_cons.1 keys
    obtain ⟨here, below⟩ := List.forall_mem_cons.1 kept
    have first := item?_spelling quotedKey ((rest.map spelling).flatMap ([' '] ++ ·))
    rw [quotedText?_kept _ here] at first
    rw [join_spelling_cons, items?_of_item? (spelling_ne_nil _ _) first, trimStart_spellings keys', ih keys' below]
    rfl

theorem foldl_strings {acc : Attrs} (distinct : Attrs.Distinct (acc ++ strings texts)) :
    (texts.map fun entry => Item.pair entry.1.toList (.quoted entry.2.toList)).foldl insertItem acc =
      acc ++ strings texts := by
  induction texts generalizing acc with
  | nil => exact (List.append_nil acc).symm
  | cons entry rest ih =>
    obtain ⟨quotedKey, keys'⟩ := List.forall_mem_cons.1 keys
    have next : acc.insert entry.1 (.str entry.2) = acc ++ [(entry.1, .str entry.2)] :=
      Attrs.insert_of_get?_none distinct.get?_eq_none _
    rw [List.map_cons, List.foldl_cons, insertItem, insertWritten_of_plain (isQuotedKey_iff.1 quotedKey).1]
    simp only [String.ofList_toList]
    rw [next, ih keys' (by rwa [List.append_assoc]), List.append_assoc]
    rfl

/-- The attributes are read back if the reader does not take a backslash for an escape. -/
theorem read_write_strings (some : texts ≠ []) (distinct : (texts.map Prod.fst).Nodup)
    (kept : ∀ entry ∈ texts, isKeptInQuotes entry.2.toList = true) :
    read (write (strings texts) []) = .ok (strings texts) := by
  have distinct' : Attrs.Distinct ([] ++ strings texts) := by
    rw [List.nil_append, Attrs.Distinct, Attrs.keys, strings, List.map_map]
    exact distinct
  have noClass :
      (texts.map fun entry => Item.pair entry.1.toList (.quoted entry.2.toList)).filterMap className? = [] := by
    rw [List.filterMap_map]
    exact List.filterMap_eq_nil_iff.2 fun _ _ => rfl
  rw [read_strings keys some, items?_kept keys kept, Except.map, ofItems, foldl_strings keys distinct', noClass]
  rfl

omit keys in
theorem items?_of_error {s : List Char} {cause : AttributeError} (some : s ≠ []) (first : item? s = .error cause) :
    items? s = .error cause := by
  rw [items?, if_neg (by simpa using some)]
  split
  · rename_i other
    rw [first] at other
    cases other
    rfl
  · rename_i other
    rw [first] at other
    cases other

/-- Only texts that are kept give back what was written. -/
theorem isKeptInQuotes_of_items? {acc : Attrs} (distinct : Attrs.Distinct (acc ++ strings texts))
    {items : List Item} (read : items? (Text.join [' '] (texts.map spelling)) = .ok items)
    (back : (items.foldl insertItem acc).Perm (acc ++ strings texts)) :
    ∀ entry ∈ texts, isKeptInQuotes entry.2.toList = true := by
  -- The attributes in `acc` are those in front. The items of the others have to make up the rest of the result.
  induction texts generalizing acc items with
  | nil => exact fun _ member => absurd member (by simp)
  | cons entry rest ih =>
    obtain ⟨quotedKey, keys'⟩ := List.forall_mem_cons.1 keys
    have first := item?_spelling quotedKey ((rest.map spelling).flatMap ([' '] ++ ·))
    have size := items?_weight read
    have whole := attrsWeight_strings keys
    rw [join_spelling_cons] at read size whole
    cases found : quotedText? '\x22' (quotedBefore entry.2.toList ((rest.map spelling).flatMap ([' '] ++ ·))) with
    | none =>
      rw [found] at first
      rw [items?_of_error (spelling_ne_nil _ _) first] at read
      cases read
    | some pair =>
      obtain ⟨text, left⟩ := pair
      rw [found] at first
      rw [items?_of_item? (spelling_ne_nil _ _) first] at read
      cases below : items? (Text.trimStart left) with
      | error cause =>
        rw [below] at read
        cases read
      | ok items' =>
        rw [below] at read
        cases read
        have missing : acc.get? entry.1 = none := distinct.get?_eq_none
        have set : insertItem acc (.pair entry.1.toList (.quoted text)) =
            acc.insert entry.1 (.str (String.ofList text)) :=
          insertWritten_of_plain (isQuotedKey_iff.1 quotedKey).1 acc _
        rw [List.foldl_cons, set] at back
        by_cases kept : isKeptInQuotes entry.2.toList = true
        · rw [quotedText?_kept _ kept] at found
          cases found
          rw [String.ofList_toList, Attrs.insert_of_get?_none missing] at back
          rw [trimStart_spellings keys'] at below
          have append : acc ++ strings (entry :: rest) = (acc ++ [(entry.1, .str entry.2)]) ++ strings rest := by
            rw [List.append_assoc]
            rfl
          rw [append] at distinct back
          exact List.forall_mem_cons.2 ⟨kept, ih keys' distinct below back⟩
        · rw [Bool.not_eq_true] at kept
          have altered : Value.str (String.ofList text) ≠ .str entry.2 := by
            intro same
            refine quotedText?_not_kept _ kept found ?_
            rw [← Value.str.inj same, String.toList_ofList]
          have lighter : (items'.map Item.weight).sum < attrsWeight (strings (entry :: rest)) := by
            rw [List.map_cons, List.sum_cons, Item.weight] at size
            omega
          exact absurd back (not_perm_of_altered distinct altered lighter)

omit keys in
/-- Items with class marks make a class. -/
theorem ofItems_cases (items : List Item) :
    ofItems items = items.foldl insertItem [] ∨ "class" ∈ (ofItems items).keys := by
  rw [ofItems]
  dsimp only
  split
  · exact Or.inl rfl
  · refine Or.inr (by_contra fun missing => ?_)
    rw [← Attrs.get?_eq_none_iff, Attrs.get?_insert, if_pos rfl] at missing
    cases missing

/-- The attributes of a block of strings come back if and only if every string is kept in quotes. -/
theorem read_write_strings_iff (some : texts ≠ []) (distinct : (texts.map Prod.fst).Nodup) :
    (∃ back, read (write (strings texts) []) = .ok back ∧ back.Perm (strings texts)) ↔
      ∀ entry ∈ texts, isKeptInQuotes entry.2.toList = true := by
  constructor
  · rintro ⟨back, written, perm⟩
    rw [read_strings keys some] at written
    cases found : items? (Text.join [' '] (texts.map spelling)) with
    | error cause =>
      rw [found] at written
      cases written
    | ok items =>
      rw [found] at written
      cases written
      rcases ofItems_cases items with same | inside
      · have distinct' : Attrs.Distinct ([] ++ strings texts) := by
          rw [List.nil_append, Attrs.Distinct, Attrs.keys, strings, List.map_map]
          exact distinct
        rw [same] at perm
        exact isKeptInQuotes_of_items? keys distinct' found perm
      · have member : "class" ∈ (strings texts).keys := (perm.map Prod.fst).mem_iff.1 inside
        rw [Attrs.keys, strings, List.map_map, List.mem_map] at member
        obtain ⟨entry, listed, name⟩ := member
        exact absurd name (isQuotedKey_iff.1 (keys entry listed)).2.2
  · exact fun kept => ⟨_, read_write_strings keys some distinct kept, List.Perm.refl _⟩

end Strings

/-- Quotes are kept, and backslashes in front of letters. -/
theorem read_write_strings_iff_path :
    (∃ back, read (write (strings [("title", "say \"hi\""), ("path", "C:\\dir")]) []) = .ok back ∧
      back.Perm (strings [("title", "say \"hi\""), ("path", "C:\\dir")])) ↔
    ∀ entry ∈ [("title", "say \"hi\""), ("path", "C:\\dir")], isKeptInQuotes (Prod.snd entry).toList = true :=
  read_write_strings_iff (by decide) (by decide) (by decide)

/-- A backslash at the end takes the closing quote for one of the text, and the next attribute with it. -/
theorem read_write_strings_backslash :
    read (write (strings [("a", "\\"), ("b", "x")]) []) = .ok [("a", .str "\" b="), ("x\"", .bool true)] ∧
      ¬ ∃ back, read (write (strings [("a", "\\"), ("b", "x")]) []) = .ok back ∧
        back.Perm (strings [("a", "\\"), ("b", "x")]) := by
  have lost : read (write (strings [("a", "\\"), ("b", "x")]) []) =
    .ok [("a", .str "\" b="), ("x\"", .bool true)] := by
    with_unfolding_all rfl
  refine ⟨lost, ?_⟩
  rintro ⟨back, read, perm⟩
  rw [lost] at read
  cases read
  have altered := perm.mem_iff.1 (List.mem_cons_self)
  simp [strings] at altered

end AttributeBlock

end ComponentMarkdown
