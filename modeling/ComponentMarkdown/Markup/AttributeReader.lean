import ComponentMarkdown.Decimal.Reader
import ComponentMarkdown.Json.Reader
import ComponentMarkdown.Text.Blank
import ComponentMarkdown.Text.Lines

namespace ComponentMarkdown

/-- Why a text is no attribute block. -/
inductive AttributeError where
  | missingBraces
  | unterminatedQuote (key : String)
  | missingName
deriving DecidableEq, Repr, Inhabited

namespace AttributeError

def message : AttributeError → String
  | missingBraces => "Attribute block must be wrapped in braces"
  | unterminatedQuote key => "Unterminated quoted value for \x60" ++ key ++ "\x60"
  | missingName => "Missing attribute name before \x60=\x60"

end AttributeError

namespace AttributeBlock

/-- A value as it was written. -/
inductive WrittenValue where
  | quoted (text : List Char)
  | bare (text : List Char)
deriving DecidableEq, Repr, Inhabited

/-- An item of an attribute block. -/
inductive Item where
  | id (name : List Char)
  | class_ (name : List Char)
  | flag (key : List Char)
  | pair (key : List Char) (value : WrittenValue)
deriving DecidableEq, Repr, Inhabited

def isQuote (c : Char) : Bool := c = '\x22' || c = '\x27'

/-- The characters up to the closing quote, and what follows it. Behind a backslash a quote or a
backslash stands for itself; before any other character the backslash counts too. -/
def quotedText? (quote : Char) : List Char → Option (List Char × List Char)
  | [] => none
  | ['\\'] => none
  | '\\' :: c :: rest =>
    (quotedText? quote rest).map fun (text, tail) =>
      ((if c = quote ∨ c = '\\' then [c] else ['\\', c]) ++ text, tail)
  | c :: rest =>
    if c = quote then some ([], rest)
    else (quotedText? quote rest).map fun (text, tail) => (c :: text, tail)

/-- The characters up to the next blank, and what follows. -/
def bareText (s : List Char) : List Char × List Char :=
  (s.takeWhile (fun c => !Text.isBlank c), s.dropWhile (fun c => !Text.isBlank c))

/-- The value of a key, and what follows it. -/
def value? (key : List Char) (s : List Char) :
    Except AttributeError (WrittenValue × List Char) :=
  match s with
  | c :: rest =>
    if isQuote c then
      match quotedText? c rest with
      | some (text, tail) => .ok (.quoted text, tail)
      | none => .error (.unterminatedQuote (String.ofList key))
    else .ok (.bare (bareText s).1, (bareText s).2)
  | [] => .ok (.bare [], [])

def isKeyChar (c : Char) : Bool := !Text.isBlank c && c != '='

/-- The first item of a text that does not start with a blank, and what follows it. -/
def item? (s : List Char) : Except AttributeError (Item × List Char) :=
  match s with
  | '#' :: rest => .ok (.id (bareText rest).1, (bareText rest).2)
  | '.' :: rest => .ok (.class_ (bareText rest).1, (bareText rest).2)
  | s =>
    let key := s.takeWhile isKeyChar
    if key.isEmpty then .error .missingName
    else
      match s.dropWhile isKeyChar with
      | '=' :: rest => (value? key rest).map fun (value, tail) => (.pair key value, tail)
      | tail => .ok (.flag key, tail)

theorem length_dropWhile_le {p : Char → Bool} (s : List Char) :
    (s.dropWhile p).length ≤ s.length :=
  (List.dropWhile_sublist p).length_le

theorem quotedText?_length {quote : Char} {s text tail : List Char}
    (h : quotedText? quote s = some (text, tail)) : tail.length < s.length := by
  fun_induction quotedText? quote s generalizing text with
  | case1 => simp at h
  | case2 => simp at h
  | case3 c rest ih =>
    obtain ⟨⟨t, l⟩, found, eq⟩ := Option.map_eq_some_iff.1 h
    obtain ⟨-, rfl⟩ := Prod.mk.inj eq
    have := ih found
    simp only [List.length_cons]
    omega
  | case4 rest =>
    obtain ⟨-, rfl⟩ := Prod.mk.inj (Option.some.inj h)
    simp
  | case5 c rest _ _ _ ih =>
    obtain ⟨⟨t, l⟩, found, eq⟩ := Option.map_eq_some_iff.1 h
    obtain ⟨-, rfl⟩ := Prod.mk.inj eq
    have := ih found
    simp only [List.length_cons]
    omega

theorem value?_length {key s tail : List Char} {value : WrittenValue}
    (h : value? key s = .ok (value, tail)) : tail.length ≤ s.length := by
  unfold value? at h
  split at h
  · rename_i c rest
    split at h
    · split at h
      · rename_i text left found
        obtain ⟨-, rfl⟩ := Prod.mk.inj (Except.ok.inj h)
        have := quotedText?_length found
        simp only [List.length_cons]
        omega
      · exact absurd h (by simp)
    · obtain ⟨-, rfl⟩ := Prod.mk.inj (Except.ok.inj h)
      exact length_dropWhile_le _
  · obtain ⟨-, rfl⟩ := Prod.mk.inj (Except.ok.inj h)
    simp

/-- Every item takes at least one character. -/
theorem item?_length {s tail : List Char} {item : Item} (h : item? s = .ok (item, tail)) :
    tail.length < s.length := by
  unfold item? at h
  split at h
  · obtain ⟨-, rfl⟩ := Prod.mk.inj (Except.ok.inj h)
    exact Nat.lt_succ_of_le (length_dropWhile_le _)
  · obtain ⟨-, rfl⟩ := Prod.mk.inj (Except.ok.inj h)
    exact Nat.lt_succ_of_le (length_dropWhile_le _)
  · dsimp only at h
    split at h
    · exact absurd h (by simp)
    · rename_i nonempty
      have cut : (s.takeWhile isKeyChar).length + (s.dropWhile isKeyChar).length = s.length := by
        rw [← List.length_append, List.takeWhile_append_dropWhile]
      have some_ : 0 < (s.takeWhile isKeyChar).length := by
        cases hk : s.takeWhile isKeyChar with
        | nil => simp [hk] at nonempty
        | cons => simp
      split at h
      · rename_i rest drop
        cases hv : value? (s.takeWhile isKeyChar) rest with
        | error e => simp [hv, Except.map] at h
        | ok found =>
          obtain ⟨value, left⟩ := found
          simp only [hv, Except.map, Except.ok.injEq, Prod.mk.injEq] at h
          have := value?_length hv
          rw [drop, List.length_cons] at cut
          rw [← h.2]
          omega
      · obtain ⟨-, rfl⟩ := Prod.mk.inj (Except.ok.inj h)
        omega

/-- The items of a text that does not start with a blank. -/
def items? (s : List Char) : Except AttributeError (List Item) :=
  if s.isEmpty then .ok []
  else
    match _h : item? s with
    | .error e => .error e
    | .ok (item, tail) => (items? (Text.trimStart tail)).map (item :: ·)
termination_by s.length
decreasing_by exact Nat.lt_of_le_of_lt (length_dropWhile_le _) (item?_length _h)

/-- The integer of a text of digits with an optional sign, within the signed 64 bit range. -/
def integer? (s : List Char) : Option Int :=
  let (negative, digits) := match s with
    | '-' :: digits => (true, digits)
    | '+' :: digits => (false, digits)
    | digits => (false, digits)
  if digits.isEmpty ∨ !digits.all Char.isDigit then none
  else
    let size := Double.natOfDigits 10 Double.decimalDigit digits
    if negative then (if size ≤ 0x8000000000000000 then some (-(size : Int)) else none)
    else if size < 0x8000000000000000 then some (size : Int) else none

/-- What a bare value stands for. -/
def bareValue (s : List Char) : Value :=
  if s = "true".toList then .bool true
  else if s = "false".toList then .bool false
  else
    match integer? s with
    | some n => .num (.int n)
    | none =>
      match Double.parse? s with
      | some x =>
        if x.isFinite && s.all (fun c => c.isDigit || c = '.' || c = '-') then .num (.float x)
        else .str (String.ofList s)
      | none => .str (String.ofList s)

/-- Sets a key to a written value. The text behind a bound key is JSON, or else a string. -/
def insertWritten (attrs : Attrs) (key : List Char) (value : WrittenValue) : Attrs :=
  match key, value with
  | ':' :: name, .quoted text | ':' :: name, .bare text =>
    let s := String.ofList text
    attrs.insert (String.ofList name) ((Json.value? s).getD (.str s))
  | key, .quoted text => attrs.insert (String.ofList key) (.str (String.ofList text))
  | key, .bare text => attrs.insert (String.ofList key) (bareValue text)

/-- Sets what an item other than a class says. -/
def insertItem (attrs : Attrs) : Item → Attrs
  | .id name => if name.isEmpty then attrs else attrs.insert "id" (.str (String.ofList name))
  | .class_ _ => attrs
  | .flag key => attrs.insert (String.ofList key) (.bool true)
  | .pair key value => insertWritten attrs key value

def className? : Item → Option (List Char)
  | .class_ name => if name.isEmpty then none else some name
  | _ => none

/-- The map of a list of items. The class marks are added to a `class` that is a string, and replace
any other. -/
def ofItems (items : List Item) : Attrs :=
  let attrs := items.foldl insertItem []
  let classes := items.filterMap className?
  if classes.isEmpty then attrs
  else
    let all := match attrs.getString? "class" with
      | some existing => existing.toList :: classes
      | none => classes
    attrs.insert "class" (.str (String.ofList (Text.join [' '] all)))

/-- The text between the braces of a block. -/
def inner? (block : List Char) : Option (List Char) :=
  match Text.trim block with
  | '\x7b' :: rest => if rest.getLast? = some '\x7d' then some rest.dropLast else none
  | _ => none

/-- The map that an attribute block stands for. -/
def read (block : List Char) : Except AttributeError Attrs :=
  match inner? block with
  | none => .error .missingBraces
  | some inner => (items? (Text.trimStart inner)).map ofItems

/-- The text up to the brace that closes the block, and what follows it. `depth` counts the open
braces and `quote` is the quote that is open. A line feed outside quotes ends the search. -/
def closing? (depth : Nat) (quote : Option Char) : List Char → Option (List Char × List Char)
  | [] => none
  | ['\\'] => none
  | '\\' :: c :: rest =>
    match quote with
    | some _ => (closing? depth quote rest).map fun (text, tail) => ('\\' :: c :: text, tail)
    | none => (closing? depth none (c :: rest)).map fun (text, tail) => ('\\' :: text, tail)
  | c :: rest =>
    let onward := fun (depth : Nat) (quote : Option Char) =>
      (closing? depth quote rest).map fun (text, tail) => (c :: text, tail)
    match quote with
    | some q => onward depth (if c = q then none else some q)
    | none =>
      if isQuote c then onward depth (some c)
      else if c = '\x7b' then onward (depth + 1) none
      else if c = '\x7d' then
        if depth ≤ 1 then some (['\x7d'], rest) else onward (depth - 1) none
      else if c = '\n' then none
      else onward depth none

/-- The attribute block at the start of a text, and what follows it. Braces in quotes do not count. -/
def split? (s : List Char) : Option (List Char × List Char) :=
  match s with
  | '\x7b' :: rest => (closing? 1 none rest).map fun (text, tail) => ('\x7b' :: text, tail)
  | _ => none

/-- The number of bytes of the attribute block at the start of a text. -/
def end? (s : String) : Option Nat :=
  (split? s.toList).map fun (block, _) => (String.ofList block).utf8ByteSize

end AttributeBlock

end ComponentMarkdown
