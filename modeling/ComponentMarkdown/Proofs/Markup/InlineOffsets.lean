import ComponentMarkdown.Proofs.Markup.InlinePieces
import Mathlib.Data.String.Basic

namespace ComponentMarkdown

namespace Inline

section Cut

/-- A text cut behind a number of bytes, if they end between two characters. -/
def cutAt? (n : Nat) : List Char → Option (List Char × List Char)
  | [] => if n = 0 then some ([], []) else none
  | c :: rest =>
    if n = 0 then some ([], c :: rest)
    else if c.utf8Size ≤ n then (cutAt? (n - c.utf8Size) rest).map fun (front, back) => (c :: front, back)
    else none

/-- The text from a byte offset on. -/
def from? (start : Nat) (s : List Char) : Option (List Char) := (cutAt? start s).map Prod.snd

/-- The text in front of a byte offset. -/
def upTo? (stop : Nat) (s : List Char) : Option (List Char) := (cutAt? stop s).map Prod.fst

/-- The text between two byte offsets. -/
def slice? (start stop : Nat) (s : List Char) : Option (List Char) :=
  if start ≤ stop then (from? start s).bind (upTo? (stop - start)) else none

/-- A cut is one between two characters. -/
theorem cutAt?_eq_some_iff {n : Nat} {s front back : List Char} :
    cutAt? n s = some (front, back) ↔ s = front ++ back ∧ n = String.utf8Len front := by
  induction s generalizing n front with
  | nil =>
    rw [cutAt?]
    constructor
    · intro found
      obtain ⟨rfl, same⟩ := Option.ite_none_right_eq_some.1 found
      cases same
      exact ⟨rfl, rfl⟩
    · rintro ⟨nothing, rfl⟩
      obtain ⟨rfl, rfl⟩ := List.append_eq_nil_iff.1 nothing.symm
      rfl
  | cons c rest ih =>
    rw [cutAt?]
    by_cases none : n = 0
    · subst none
      rw [if_pos rfl]
      constructor
      · intro found
        cases found
        exact ⟨rfl, rfl⟩
      · rintro ⟨whole, empty⟩
        cases front with
        | nil => rw [List.nil_append] at whole; rw [whole]
        | cons d more =>
          rw [String.utf8Len_cons] at empty
          have positive := d.utf8Size_pos
          omega
    · rw [if_neg none]
      constructor
      · intro found
        obtain ⟨enough, found⟩ := Option.ite_none_right_eq_some.1 found
        obtain ⟨⟨inner, left⟩, later, same⟩ := Option.map_eq_some_iff.1 found
        cases same
        obtain ⟨rfl, length⟩ := ih.1 later
        exact ⟨rfl, by rw [String.utf8Len_cons]; omega⟩
      · rintro ⟨whole, rfl⟩
        cases front with
        | nil => exact absurd rfl none
        | cons d more =>
          obtain ⟨rfl, rfl⟩ := List.cons.inj whole
          have later := ih.2 ⟨rfl, rfl⟩
          rw [String.utf8Len_cons, if_pos (Nat.le_add_left _ _), Nat.add_sub_cancel, later]
          rfl

variable (front middle back : List Char)

theorem from?_append : from? (String.utf8Len front) (front ++ back) = some back := by
  rw [from?, cutAt?_eq_some_iff.2 ⟨rfl, rfl⟩]
  rfl

theorem upTo?_append : upTo? (String.utf8Len front) (front ++ back) = some front := by
  rw [upTo?, cutAt?_eq_some_iff.2 ⟨rfl, rfl⟩]
  rfl

theorem slice?_append : slice? (String.utf8Len front) (String.utf8Len front + String.utf8Len middle)
    (front ++ (middle ++ back)) = some middle := by
  rw [slice?, if_pos (Nat.le_add_right _ _), from?_append, Option.bind_some, Nat.add_sub_cancel_left, upTo?_append]

end Cut

section Flat

/-- Siblings laid out in one text, with the nodes that are no text under the offsets of the characters that stand
for them. -/
structure Flat where
  text : List Char
  objects : List (Nat × Node)

/-- A construct that was found at an offset: its tag, its attributes, the range of its label, and its bytes. -/
structure Pending where
  tag : String
  attrs : Attrs
  label : Option (Nat × Nat)
  size : Nat

def isWithin (start stop : Nat) (entry : Nat × Node) : Bool := start ≤ entry.1 && entry.1 < stop

namespace Flat

/-- Lays out one more sibling. -/
def place (flat : Flat) : Node → Flat
  | .text content => { flat with text := flat.text ++ content.toList }
  | node => ⟨flat.text ++ ['\ufffc'], flat.objects ++ [(String.utf8Len flat.text, node)]⟩

def ofSiblings (siblings : List Node) : Flat := siblings.foldl place ⟨[], []⟩

def hasObjects (flat : Flat) (start stop : Nat) : Bool := flat.objects.any (isWithin start stop)

/-- Whether the character in front of an offset stands for an element. -/
def isElementBefore (flat : Flat) (pos : Nat) : Bool :=
  3 ≤ pos && (flat.objects.lookup (pos - 3)).any fun node => (Piece.node node).isElement

/-- Takes the nodes from an offset to another. -/
def drainFrom? (text : List Char) (stop start : Nat) (out : List Node) : List (Nat × Node) → Option (List Node)
  | [] => (slice? start stop text).map fun s => Node.appendTo out (.text (String.ofList s))
  | (offset, node) :: rest =>
    (slice? start offset text).bind fun s =>
      drainFrom? text stop (offset + 3) (Node.appendTo out (.text (String.ofList s)) ++ [node]) rest

/-- Moves the nodes of a range behind others. -/
def drain? (flat : Flat) (start stop : Nat) (out : List Node) : Option (Flat × List Node) :=
  (drainFrom? flat.text stop start out (flat.objects.filter (isWithin start stop))).map fun out =>
    ({ flat with objects := flat.objects.filter (!isWithin start stop ·) }, out)

/-- The attributes at an offset, with their bytes. -/
def attributesAt? (flat : Flat) (pos : Nat) (s : List Char) : Option (Option (Attrs × Nat)) :=
  match AttributeBlock.end? (String.ofList s) with
  | none => some none
  | some size =>
    if flat.hasObjects pos (pos + size) then some none
    else (upTo? size s).map fun block => (AttributeBlock.read block).toOption.map fun attrs => (attrs, size)

/-- The bytes of the label at the start of a text, with its brackets. -/
def labelBytes? (s : List Char) : Option Nat := (labelEnd? 0 s).map fun n => String.utf8Len (s.take n)

/-- The binding at an offset. -/
def bindingAt? (flat : Flat) (pos : Nat) (s : List Char) : Option (Option Pending) := do
  let inner ← from? 2 s
  match bindingBody? inner with
  | none => some none
  | some found =>
    let body ← slice? 2 (2 + String.utf8Len found) s
    let size := 2 + String.utf8Len found + 2
    if '\n' ∈ body ∨ Text.trim (splitDefault body).1 = [] ∨ flat.hasObjects pos (pos + size) then some none
    else some (some ⟨"binding", bindingAttrs body, none, size⟩)

/-- The component at an offset. -/
def componentAt? (flat : Flat) (pos : Nat) (s : List Char) : Option (Option Pending) := do
  let inner ← from? 1 s
  let nameSize := 1 + String.utf8Len (inner.takeWhile isNameChar)
  let name ← slice? 1 nameSize s
  if !name.head?.any Char.isAlpha then some none
  else
    let behind ← from? nameSize s
    let labelled := if behind.head? = some '[' then labelBytes? behind else none
    let labelSize := labelled.getD 0
    let left ← from? (nameSize + labelSize) s
    let attrs ← flat.attributesAt? (pos + nameSize + labelSize) left
    if labelled.isNone ∧ attrs.isNone then some none
    else
      some (some
        { tag := String.ofList name
          attrs := (attrs.map Prod.fst).getD []
          label := labelled.map fun size => (pos + nameSize + 1, pos + nameSize + size - 1)
          size := nameSize + labelSize + (attrs.map Prod.snd).getD 0 })

/-- The span at an offset. -/
def spanAt? (flat : Flat) (pos : Nat) (s : List Char) : Option (Option Pending) :=
  match labelBytes? s with
  | none => some none
  | some size => do
    let left ← from? size s
    let attrs ← flat.attributesAt? (pos + size) left
    some (attrs.map fun (attrs, more) => ⟨"span", attrs, some (pos + 1, pos + size - 1), size + more⟩)

/-- The construct at an offset, with the text from there on. -/
def constructAt? (flat : Flat) (pos : Nat) (s : List Char) : Option (Option Pending) :=
  match s with
  | '\x7b' :: '\x7b' :: _ => flat.bindingAt? pos s
  | ':' :: _ => do
    let front ← upTo? pos flat.text
    if front.getLast?.any Text.isAlphanumeric then some none else flat.componentAt? pos s
  | '[' :: _ => flat.spanAt? pos s
  | _ => some none

/-- The attributes at an offset that belong to the element in front of it. -/
def trailingAt? (flat : Flat) (pos : Nat) (s : List Char) : Option (Option (Attrs × Nat)) :=
  if s.take 2 = ['\x7b', '\x7b'] ∨ !flat.isElementBefore pos then some none else flat.attributesAt? pos s

/-- Moves the nodes of a label out, if there is one. -/
def drainLabel? (flat : Flat) : Option (Nat × Nat) → Option (Flat × List Node)
  | none => some (flat, [])
  | some (first, last) => flat.drain? first last []

/-- Scans the text from an offset on, with `out` the nodes that are done and `start` the offset behind the last
construct. The first argument bounds the number of steps. -/
def scan? : Nat → Flat → List Node → Nat → Nat → Option (List Node)
  | 0, _, _, _, _ => none
  | fuel + 1, flat, out, start, pos =>
    if String.utf8Len flat.text ≤ pos then (flat.drain? start (String.utf8Len flat.text) out).map Prod.snd
    else do
      let s ← from? pos flat.text
      match ← flat.trailingAt? pos s with
      | some (attrs, size) =>
        let (flat, out) ← flat.drain? start pos out
        scan? fuel flat (mergeLast attrs out) (pos + size) (pos + size)
      | none =>
        match ← flat.constructAt? pos s with
        | some found =>
          let (flat, out) ← flat.drain? start pos out
          let (flat, inside) ← flat.drainLabel? found.label
          let children ← (if inside.any Node.isText then scan? fuel (ofSiblings inside) [] 0 0 else some inside)
          scan? fuel flat (out ++ [.element found.tag found.attrs children]) (pos + found.size) (pos + found.size)
        | none => scan? fuel flat out start (pos + s.head?.elim 1 Char.utf8Size)

/-- Reads the component syntax in a sibling list, at most one step for each character. -/
def read? (siblings : List Node) : Option (List Node) :=
  if siblings.any Node.isText then scan? ((ofSiblings siblings).text.length + 1) (ofSiblings siblings) [] 0 0
  else some siblings

end Flat

end Flat

section Objects

/-- The bytes of the characters of pieces. -/
def bytes (front : List Piece) : Nat := String.utf8Len (chars front)

theorem bytes_append (front rest : List Piece) : bytes (front ++ rest) = bytes front + bytes rest := by
  rw [bytes, chars_append, String.utf8Len_append, bytes, bytes]

theorem bytes_cons (piece : Piece) (rest : List Piece) :
    bytes (piece :: rest) = piece.toChar.utf8Size + bytes rest := by
  rw [bytes, chars, List.map_cons, String.utf8Len_cons, Nat.add_comm]
  rfl

theorem bytes_textPieces (s : List Char) :
    bytes (textPieces s) = String.utf8Len s := by rw [bytes, chars_textPieces]

theorem bytes_take_add (rest : List Piece) (n m : Nat) :
    bytes (rest.take (n + m)) = bytes (rest.take n) + bytes ((rest.drop n).take m) := by
  rw [List.take_add, bytes_append]

/-- The nodes among pieces under their offsets, behind a number of bytes. -/
def objectsFrom (offset : Nat) : List Piece → List (Nat × Node)
  | [] => []
  | .char c :: rest => objectsFrom (offset + c.utf8Size) rest
  | .node node :: rest => (offset, node) :: objectsFrom (offset + 3) rest

theorem objectsFrom_append (offset : Nat) (front rest : List Piece) :
    objectsFrom offset (front ++ rest) = objectsFrom offset front ++ objectsFrom (offset + bytes front) rest := by
  induction front generalizing offset with
  | nil => rfl
  | cons piece front ih =>
    have next : offset + piece.toChar.utf8Size + bytes front =
      offset + bytes (piece :: front) := by rw [bytes_cons, Nat.add_assoc]
    cases piece with
    | char c => exact (ih _).trans (congrArg (fun offset => _ ++ objectsFrom offset rest) next)
    | node node => exact congrArg _ ((ih _).trans (congrArg (fun offset => _ ++ objectsFrom offset rest) next))

theorem objectsFrom_textPieces (offset : Nat) (s : List Char) : objectsFrom offset (textPieces s) = [] := by
  induction s generalizing offset with
  | nil => rfl
  | cons c rest ih => exact ih _

theorem objectsFrom_bounds {offset : Nat} {front : List Piece} {entry : Nat × Node}
    (member : entry ∈ objectsFrom offset front) : offset ≤ entry.1 ∧ entry.1 + 3 ≤ offset + bytes front := by
  induction front generalizing offset with
  | nil => cases member
  | cons piece front ih =>
    rw [bytes_cons]
    cases piece with
    | char c =>
      have bounds := ih member
      have char : (Piece.char c).toChar = c := rfl
      rw [char]
      omega
    | node node =>
      have object : (Piece.node node).toChar.utf8Size = 3 := (by decide : '\ufffc'.utf8Size = 3)
      rw [object]
      rcases List.mem_cons.1 member with rfl | later
      · dsimp only
        omega
      · have bounds := ih later
        omega

theorem isEmpty_objectsFrom (offset : Nat) (front : List Piece) :
    (objectsFrom offset front).isEmpty = !front.any Piece.isNode := by
  induction front generalizing offset with
  | nil => rfl
  | cons piece front ih =>
    cases piece with
    | char c => exact ih _
    | node node => rfl

section Within

variable {offset start stop : Nat} {front : List Piece}

theorem filter_within (lower : start ≤ offset) (upper : offset + bytes front ≤ stop) :
    (objectsFrom offset front).filter (isWithin start stop) = objectsFrom offset front ∧
      (objectsFrom offset front).filter (!isWithin start stop ·) = [] := by
  have all : ∀ entry ∈ objectsFrom offset front, isWithin start stop entry = true := by
    intro entry member
    have bounds := objectsFrom_bounds member
    rw [isWithin, Bool.and_eq_true, decide_eq_true_eq, decide_eq_true_eq]
    omega
  refine ⟨List.filter_eq_self.2 all, List.filter_eq_nil_iff.2 fun entry member => ?_⟩
  rw [all entry member]
  exact Bool.false_ne_true

theorem filter_outside (outside : offset + bytes front ≤ start ∨ stop ≤ offset) :
    (objectsFrom offset front).filter (isWithin start stop) = [] ∧
      (objectsFrom offset front).filter (!isWithin start stop ·) = objectsFrom offset front := by
  have none : ∀ entry ∈ objectsFrom offset front, isWithin start stop entry = false := by
    intro entry member
    have bounds := objectsFrom_bounds member
    rw [isWithin, Bool.and_eq_false_iff, decide_eq_false_iff_not, decide_eq_false_iff_not]
    omega
  refine ⟨List.filter_eq_nil_iff.2 fun entry member => ?_, List.filter_eq_self.2 fun entry member => ?_⟩
  · rw [none entry member]
    exact Bool.false_ne_true
  · rw [none entry member]
    rfl

end Within

/-- A text with nodes aside shows pieces: those that are done, and those that are left with their nodes. -/
structure Flat.Shows (flat : Flat) (done left : List Piece) : Prop where
  text : flat.text = chars (done ++ left)
  objects : flat.objects = objectsFrom (bytes done) left

variable {flat : Flat} {done front middle rest : List Piece}

/-- Text has no nodes, so it is done as soon as it is passed. -/
theorem Flat.Shows.skip {s : List Char} (shows : flat.Shows done (textPieces s ++ rest)) :
    flat.Shows (done ++ textPieces s) rest := by
  refine ⟨by rw [shows.text, List.append_assoc], ?_⟩
  rw [shows.objects, objectsFrom_append, objectsFrom_textPieces, List.nil_append, bytes_append]

theorem Flat.Shows.hasObjects (shows : flat.Shows done (front ++ (middle ++ rest))) :
    flat.hasObjects (bytes (done ++ front)) (bytes (done ++ front) + bytes middle) = middle.any Piece.isNode := by
  rw [Flat.hasObjects, shows.objects, objectsFrom_append, objectsFrom_append, List.any_append, List.any_append]
  have any_ : ∀ objects : List (Nat × Node),
    objects.any (isWithin (bytes (done ++ front)) (bytes (done ++ front) + bytes middle)) =
      !(objects.filter (isWithin (bytes (done ++ front)) (bytes (done ++ front) + bytes middle))).isEmpty := by
    intro objects
    rw [Bool.eq_iff_iff]
    simp
  rw [any_, any_, any_, bytes_append, (filter_outside (Or.inl (Nat.le_refl _))).1,
    (filter_within (Nat.le_refl _) (Nat.le_refl _)).1,
      (filter_outside (Or.inr (Nat.le_refl _))).1, isEmpty_objectsFrom]
  simp

/-- The character in front of an offset stands for an element when the piece in front is one. -/
theorem Flat.Shows.isElementBefore {before : Option Piece} (shows : flat.Shows done (front ++ rest))
    (last : (done ++ front).getLast? = before) (fresh : front = [] → before.any Piece.isElement = false) :
    flat.isElementBefore (bytes (done ++ front)) = before.any Piece.isElement := by
  have missing : ∀ {key offset : Nat} {part : List Piece}, (key + 3 > offset + bytes part ∨ key < offset) →
      (objectsFrom offset part).lookup key = none := by
    intro key offset part outside
    refine List.lookup_eq_none_iff.2 fun entry member => bne_iff_ne.2 fun same => ?_
    have bounds := objectsFrom_bounds member
    omega
  rw [Flat.isElementBefore, shows.objects, objectsFrom_append, List.lookup_append, ← bytes_append]
  rcases List.eq_nil_or_concat front with rfl | ⟨init, piece, rfl⟩
  · have nothing : objectsFrom (bytes done) [] = [] := rfl
    rw [fresh rfl, List.append_nil, nothing, List.lookup_nil, Option.none_or]
    by_cases room : 3 ≤ bytes done
    · rw [missing (Or.inr (by omega))]
      exact Bool.and_false _
    · simp [room]
  · rw [List.concat_eq_append, ← List.append_assoc, List.getLast?_concat] at last
    have positive := piece.toChar.utf8Size_pos
    have width : bytes [piece] = piece.toChar.utf8Size := (bytes_cons piece []).trans (Nat.add_zero _)
    have front_ : bytes (done ++ init) = bytes done + bytes init := bytes_append done init
    rw [List.concat_eq_append, ← List.append_assoc, bytes_append (done ++ init),
      objectsFrom_append, List.lookup_append, ← front_]
    have init_ : (objectsFrom (bytes done) init).lookup (bytes (done ++ init) + bytes [piece] - 3) = none :=
      missing (Or.inl (by omega))
    have rest_ : 3 ≤ bytes (done ++ init) + bytes [piece] →
        (objectsFrom (bytes (done ++ init) + bytes [piece]) rest).lookup
          (bytes (done ++ init) + bytes [piece] - 3) = none := fun room => missing (Or.inr (by omega))
    subst last
    cases piece with
    | char c =>
      have none : objectsFrom (bytes (done ++ init)) [.char c] = [] := rfl
      rw [none, init_, List.lookup_nil, Option.or_none, Option.none_or]
      by_cases room : 3 ≤ bytes (done ++ init) + bytes [.char c]
      · rw [rest_ room]
        exact Bool.and_false _
      · simp [room, Piece.isElement]
    | node node =>
      have one : objectsFrom (bytes (done ++ init)) [.node node] = [(bytes (done ++ init), node)] := rfl
      have object : (Piece.node node).toChar.utf8Size = 3 := (by decide : '\ufffc'.utf8Size = 3)
      have found : List.lookup (bytes (done ++ init) + 3 - 3) [(bytes (done ++ init), node)] = some node := by
        rw [Nat.add_sub_cancel, List.lookup_cons_self]
      rw [one, init_, width, object, found, Option.none_or, Option.some_or]
      simp

end Objects

section Drain

theorem drainFrom?_eq {front : List Piece} (laid : ∀ piece ∈ front, piece.isLaid = true) {out : List Node}
    (last : ∀ node ∈ out.getLast?, node.isText = false) (done text tail : List Char) :
    Flat.drainFrom? (done ++ (text ++ (chars front ++ tail)))
    (String.utf8Len done + String.utf8Len text + bytes front)
      (String.utf8Len done) out (objectsFrom (String.utf8Len done + String.utf8Len text) front) =
        some (out ++ nodesFrom text front) := by
  induction front generalizing done text out with
  | nil =>
    have cut := slice?_append done text tail
    rw [objectsFrom, Flat.drainFrom?]
    simp only [chars, List.map_nil, List.nil_append, bytes, String.utf8Len_nil, Nat.add_zero, cut, Option.map_some,
      appendTo_closed last]
    rfl
  | cons piece front ih =>
    obtain ⟨here, below⟩ := List.forall_mem_cons.1 laid
    cases piece with
    | char c =>
      have next := ih below last done (text ++ [c])
      have text_ : text ++ (chars (.char c :: front) ++ tail) = (text ++ [c]) ++ (chars front ++ tail) := by
        simp [chars, Piece.toChar]
      have width : String.utf8Len (text ++ [c]) = String.utf8Len text + c.utf8Size := by
        simp [String.utf8Len_append, String.utf8Len_cons]
      have object : (Piece.char c).toChar = c := rfl
      rw [width, ← Nat.add_assoc] at next
      rw [text_, bytes_cons, object, ← Nat.add_assoc, objectsFrom, nodesFrom_char]
      exact next
    | node node =>
      have noText : node.isText = false := by simpa [Piece.isLaid] using here
      have object : (Piece.node node).toChar = '\ufffc' := rfl
      have width : '\ufffc'.utf8Size = 3 := by decide
      have done_ : String.utf8Len (done ++ text ++ ['\ufffc']) = String.utf8Len done + String.utf8Len text + 3 := by
        simp [String.utf8Len_append, String.utf8Len_cons, width, Nat.add_assoc]
      have last' :
          ∀ other ∈ (out ++ openText text ++ [node]).getLast?, other.isText = false := by simpa using noText
      have next := ih below last' (done ++ text ++ ['\ufffc']) []
      have text_ : done ++ (text ++ (chars (.node node :: front) ++ tail)) =
          done ++ text ++ ['\ufffc'] ++ ([] ++ (chars front ++ tail)) := by
        simp [chars, Piece.toChar]
      have cut := slice?_append done text (chars (.node node :: front) ++ tail)
      rw [String.utf8Len_nil, Nat.add_zero, done_, ← text_] at next
      rw [objectsFrom, Flat.drainFrom?, cut, Option.bind_some, appendTo_closed last, bytes_cons, object, width,
        ← Nat.add_assoc, next, nodesFrom_node]
      simp

/-- The nodes of pieces are moved as they stand in them. -/
theorem Flat.Shows.drain {flat : Flat} {done front rest : List Piece} (shows : flat.Shows done (front ++ rest))
    (laid : ∀ piece ∈ front, piece.isLaid = true) {out : List Node}
    (last : ∀ node ∈ out.getLast?, node.isText = false) :
    ∃ flat' : Flat, flat.drain? (bytes done) (bytes (done ++ front)) out = some (flat', out ++ nodes front) ∧
      flat'.Shows (done ++ front) rest := by
  have objects : flat.objects.filter (isWithin (bytes done) (bytes (done ++ front))) =
    objectsFrom (bytes done) front ∧
      flat.objects.filter (!isWithin (bytes done) (bytes (done ++ front)) ·) =
        objectsFrom (bytes (done ++ front)) rest := by
    rw [shows.objects, objectsFrom_append, List.filter_append, List.filter_append, ← bytes_append,
      (filter_within (Nat.le_refl _) (Nat.le_of_eq (bytes_append done front).symm)).1,
      (filter_within (Nat.le_refl _) (Nat.le_of_eq (bytes_append done front).symm)).2,
      (filter_outside (Or.inr (Nat.le_refl _))).1, (filter_outside (Or.inr (Nat.le_refl _))).2, List.append_nil]
    exact ⟨rfl, rfl⟩
  have moved := drainFrom?_eq laid last (chars done) [] (chars rest)
  have text : chars done ++ ([] ++ (chars front ++ chars rest)) = flat.text := by
    rw [shows.text, chars_append, chars_append, List.nil_append]
  have stop : String.utf8Len (chars done) + String.utf8Len [] + bytes front = bytes (done ++ front) :=
    (bytes_append done front).symm
  rw [text, stop] at moved
  refine ⟨{ flat with objects := objectsFrom (bytes (done ++ front)) rest }, ?_, ⟨?_, rfl⟩⟩
  · rw [Flat.drain?, objects.1, objects.2]
    exact Option.map_eq_some_iff.2 ⟨_, moved, rfl⟩
  · exact shows.text.trans (by rw [List.append_assoc])

end Drain

section Constructs

variable {flat : Flat} {done front rest : List Piece}

/-- Attributes are read at an offset as they are read in front of the pieces. -/
theorem Flat.Shows.attributesAt (shows : flat.Shows done (front ++ rest)) :
    flat.attributesAt? (bytes (done ++ front)) (chars rest) =
      some ((attributes? rest).map fun (attrs, n) => (attrs, bytes (rest.take n))) := by
  rw [Flat.attributesAt?, AttributeBlock.end?, String.toList_ofList, attributes?]
  cases cut : AttributeBlock.split? (chars rest) with
  | none => rfl
  | some found =>
    obtain ⟨block, tail⟩ := found
    obtain ⟨block, back, rfl, rfl, rfl⟩ := exists_of_chars (AttributeBlock.split?_eq_append cut).1
    have size : (String.ofList (chars block)).utf8ByteSize = bytes block := String.utf8ByteSize_ofList _
    have taken : (block ++ back).take (chars block).length = block := by rw [length_chars, List.take_left]
    have text : upTo? (bytes block) (chars (block ++ back)) = some (chars block) := by
      rw [chars_append]
      exact upTo?_append _ _
    simp only [Option.map_some, size, shows.hasObjects, text, Option.bind_eq_bind, Option.bind_some, taken]
    by_cases node : block.any Piece.isNode = true
    · simp [node]
    · rw [if_neg node, if_neg node]
      cases (AttributeBlock.read (chars block)).toOption with
      | none => rfl
      | some attrs => simp [taken]

/-- A construct that was found at an offset is the one that stands at the start of pieces. -/
structure Pending.Stands (pending : Pending) (found : Construct) (pos : Nat) (rest : List Piece)
    (opening closing : List Char) (after : List Piece) : Prop where
  tag : pending.tag = found.tag
  attrs : pending.attrs = found.attrs
  frames : found.Frames rest opening closing after
  label : pending.label = none ∧ found.label = [] ∨
    pending.label = some (pos + String.utf8Len opening, pos + String.utf8Len opening + bytes found.label)
  size : pending.size = bytes (rest.take found.size)

/-- What is found at an offset is what is found at the start of pieces. -/
def Agrees (pos : Nat) (rest : List Piece) (found? : Option Construct)
    (pending? : Option (Option Pending)) : Prop :=
  (found? = none ∧ pending? = some none) ∨ ∃ found pending opening closing after, found? = some found ∧
    pending? = some (some pending) ∧ pending.Stands found pos rest opening closing after

theorem from?_chars (front rest : List Piece) :
    from? (bytes front) (chars (front ++ rest)) = some (chars rest) := by
  rw [chars_append]
  exact from?_append _ _

theorem labelBytes?_eq {inner : List Char} (start : chars rest = '[' :: inner) :
    Flat.labelBytes? (chars rest) = (label? rest).map fun found => bytes (rest.take found.2) := by
  have labelled : label? rest = (labelEnd? 0 (chars rest)).map fun n => ((rest.take (n - 1)).drop 1, n) := by
    rw [label?, start]
    rfl
  rw [Flat.labelBytes?, labelled, Option.map_map]
  exact congrArg (Option.map · _) (funext fun n => (congrArg String.utf8Len List.map_take).symm)

theorem labelBytes?_or_none (rest : List Piece) :
    (if (chars rest).head? = some '[' then Flat.labelBytes? (chars rest) else none) =
      (label? rest).map fun found => bytes (rest.take found.2) := by
  split
  · rename_i bracket
    obtain ⟨inner, opened⟩ := List.head?_eq_some_iff.1 bracket
    exact labelBytes?_eq opened
  · rename_i other
    rw [label?_of_head other]
    rfl

theorem bytes_label (label : List Piece) :
    bytes (textPieces ['['] ++ (label ++ textPieces [']'])) = bytes label + 2 := by
  rw [bytes_append, bytes_append, bytes_textPieces, bytes_textPieces]
  exact Nat.add_comm 1 _

theorem Flat.Shows.spanAt (shows : flat.Shows done (front ++ rest)) {inner : List Char}
    (start : chars rest = '[' :: inner) :
    Agrees (bytes (done ++ front)) rest (span? rest) (flat.spanAt? (bytes (done ++ front)) (chars rest)) := by
  rw [Flat.spanAt?, labelBytes?_eq start]
  cases labelled : label? rest with
  | none => exact Or.inl ⟨by rw [span?, labelled]; rfl, rfl⟩
  | some found =>
    obtain ⟨label, n⟩ := found
    have left : from? (bytes (rest.take n)) (chars rest) = some (chars (rest.drop n)) := by
      have cut := from?_chars (rest.take n) (rest.drop n)
      rwa [List.take_append_drop] at cut
    have shows' : flat.Shows done ((front ++ rest.take n) ++ rest.drop n) := by
      rwa [List.append_assoc, List.take_append_drop]
    have read := shows'.attributesAt
    rw [← List.append_assoc, bytes_append] at read
    simp only [Option.map_some, left, Option.bind_eq_bind, Option.bind_some, read]
    cases block : attributes? (rest.drop n) with
    | none => exact Or.inl ⟨by simp [span?, labelled, block], rfl⟩
    | some found =>
      obtain ⟨attrs, m⟩ := found
      have here : span? rest = some ⟨"span", attrs, label, n + m⟩ := by simp [span?, labelled, block]
      obtain ⟨back, rfl, _, rfl⟩ := label?_eq_some_iff.1 labelled
      rw [drop_label] at block
      obtain ⟨text, after, rfl, _, _, rfl⟩ := attributes?_eq_some_iff.1 block
      refine Or.inr
        ⟨_, _, ['['], ']' :: text, after, here, rfl, rfl, rfl, ⟨?_, by simp, by simp, ?_⟩, Or.inr ?_, ?_⟩
      · simp [textPieces]
      · simp only [List.length_cons, List.length_nil]
        omega
      · have bracket : String.utf8Len ['['] = 1 := by decide
        rw [take_label, bytes_label, bracket]
        exact congrArg some (Prod.ext rfl (by dsimp only; omega))
      · exact (bytes_take_add _ _ _).symm

theorem Flat.Shows.bindingAt (shows : flat.Shows done (front ++ rest)) {inner : List Char}
    (start : chars rest = '\x7b' :: '\x7b' :: inner) :
    Agrees (bytes (done ++ front)) rest (binding? rest) (flat.bindingAt? (bytes (done ++ front)) (chars rest)) := by
  have braces : String.utf8Len ['\x7b', '\x7b'] = 2 := by decide
  have inner_ : from? 2 (chars rest) = some inner := by
    rw [start, ← braces]
    exact from?_append ['\x7b', '\x7b'] inner
  rw [Flat.bindingAt?, inner_]
  cases ends : bindingBody? inner with
  | none => exact Or.inl ⟨by simp [binding?, start, ends], by simp [ends]⟩
  | some body =>
    obtain ⟨block, back, rfl, first, rfl⟩ := exists_braced start ends
    have whole := binding?_braced first ends
    have length : block.length = body.length + 4 := by
      rw [← length_chars, first]
      simp
    have width : bytes block = 2 + String.utf8Len body + 2 := by
      have closing : String.utf8Len ['\x7d', '\x7d'] = 2 := by decide
      have cut :
          '\x7b' :: '\x7b' :: (body ++ ['\x7d', '\x7d']) = ['\x7b', '\x7b'] ++ (body ++ ['\x7d', '\x7d']) := rfl
      rw [bytes, first, cut, String.utf8Len_append, String.utf8Len_append, braces, closing, Nat.add_assoc]
    have text : slice? 2 (2 + String.utf8Len body) (chars (block ++ back)) = some body := by
      rw [start, ← braces]
      exact slice?_append ['\x7b', '\x7b'] body _
    have objects := shows.hasObjects
    rw [width] at objects
    simp only [Option.bind_eq_bind, Option.bind_some, ends, text, objects]
    by_cases bad : '\n' ∈ body ∨ Text.trim (splitDefault body).1 = [] ∨ block.any Piece.isNode = true
    · rw [if_pos bad] at whole ⊢
      exact Or.inl ⟨whole, rfl⟩
    · rw [if_neg bad] at whole ⊢
      obtain ⟨opening, closing, after, frames⟩ := binding?_frames whole
      refine Or.inr ⟨_, _, opening, closing, after, whole, rfl, rfl, rfl, frames, Or.inl ⟨rfl, rfl⟩, ?_⟩
      rw [← length, List.take_left, width]

section Named

variable (name : List Char) (after : List Piece)

theorem bytes_named : bytes (textPieces (':' :: name)) = 1 + String.utf8Len name := by
  have colon : ':'.utf8Size = 1 := by decide
  rw [bytes_textPieces, String.utf8Len_cons, colon, Nat.add_comm]

theorem take_named : (textPieces (':' :: name) ++ after).take (name.length + 1) = textPieces (':' :: name) ∧
    (textPieces (':' :: name) ++ after).drop (name.length + 1) = after := by
  rw [← List.length_cons (a := ':'), ← length_textPieces]
  exact ⟨List.take_left, List.drop_left⟩

theorem from?_named (n : Nat) : from? (1 + String.utf8Len name + bytes (after.take n))
    (chars (textPieces (':' :: name) ++ after)) = some (chars (after.drop n)) := by
  have cut := from?_chars (textPieces (':' :: name) ++ after.take n) (after.drop n)
  rwa [List.append_assoc, List.take_append_drop, bytes_append, bytes_named] at cut

theorem bytes_take_named (n m : Nat) : bytes ((textPieces (':' :: name) ++ after).take (name.length + 1 + n + m)) =
    1 + String.utf8Len name + bytes (after.take n) + bytes ((after.drop n).take m) := by
  have later : (textPieces (':' :: name) ++ after).drop (name.length + 1 + n) = after.drop n := by
    rw [← List.drop_drop, (take_named name after).2]
  rw [bytes_take_add, bytes_take_add, later, (take_named name after).1, (take_named name after).2, bytes_named]

variable {after}

/-- The range of a component's label at an offset. -/
theorem range_label {label : List Piece} {n : Nat} (labelled : label? after = some (label, n)) (pos : Nat) :
    (pos + (1 + String.utf8Len name) + 1, pos + (1 + String.utf8Len name) + bytes (after.take n) - 1) =
      (pos + String.utf8Len (':' :: name ++ ['[']), pos + String.utf8Len (':' :: name ++ ['[']) + bytes label) := by
  obtain ⟨back, rfl, _, rfl⟩ := label?_eq_some_iff.1 labelled
  have bracket : String.utf8Len ['['] = 1 := by decide
  have opening : String.utf8Len (':' :: name ++ ['[']) = 1 + String.utf8Len name + 1 := by
    rw [String.utf8Len_append, ← bytes_textPieces, bytes_named, bracket]
  rw [take_label, bytes_label, opening]
  exact Prod.ext (by dsimp only; omega) (by dsimp only; omega)

end Named

theorem Flat.Shows.componentAt (shows : flat.Shows done (front ++ rest)) {inner : List Char}
    (start : chars rest = ':' :: inner) :
    Agrees (bytes (done ++ front)) rest (component? rest)
    (flat.componentAt? (bytes (done ++ front)) (chars rest)) := by
  have colon : String.utf8Len [':'] = 1 := by decide
  have inner_ : from? 1 (chars rest) = some inner := by
    rw [start, ← colon]
    exact from?_append [':'] inner
  obtain ⟨name, after, rfl, name_, chars_, stop⟩ := exists_named start
  have named : slice? 1 (1 + String.utf8Len name) (chars (textPieces (':' :: name) ++ after)) = some name := by
    rw [chars_append, chars_textPieces, ← colon]
    exact slice?_append [':'] name _
  have after_ : from? (1 + String.utf8Len name) (chars (textPieces (':' :: name) ++ after)) = some (chars after) :=
    from?_named name after 0
  have whole := component?_named chars_ stop
  have framed := named_frames name after
  dsimp only at whole framed
  generalize size_ : ((label? after).map Prod.snd).getD 0 = size at whole framed
  have labelSize : ((label? after).map fun found => bytes (after.take found.2)).getD 0 =
    bytes (after.take size) := by
    rw [← size_]
    cases label? after <;> rfl
  have read : flat.attributesAt? (bytes (done ++ front) + (1 + String.utf8Len name) + bytes (after.take size))
      (chars (after.drop size)) =
        some ((attributes? (after.drop size)).map fun (attrs, n) => (attrs, bytes ((after.drop size).take n))) := by
    have shows' :
        flat.Shows done ((front ++ (textPieces (':' :: name) ++ after.take size)) ++ after.drop size) := by
      rwa [List.append_assoc, List.append_assoc, List.take_append_drop]
    have read := shows'.attributesAt
    rwa [← List.append_assoc, bytes_append (done ++ front), bytes_append (textPieces _),
      bytes_named, ← Nat.add_assoc] at read
  rw [Flat.componentAt?, inner_]
  simp only [Option.bind_eq_bind, Option.bind_some, ← name_, named, after_, labelBytes?_or_none,
    labelSize, from?_named, read, Option.isNone_map, Option.map_map]
  by_cases some : name.head?.any Char.isAlpha = true ∧
    ((label? after).isSome = true ∨ (attributes? (after.drop size)).isSome = true)
  · rw [if_pos some] at whole
    obtain ⟨opening, closing, left, frames, labelled⟩ := framed
    have some' : ¬ ((label? after).isNone = true ∧ (attributes? (after.drop size)).isNone = true) := by
      rw [not_and_or]
      simpa only [← Option.not_isNone, Bool.not_eq_true', Bool.not_eq_true] using some.2
    rw [if_neg (by simp [some.1]), if_neg some']
    refine Or.inr ⟨_, _, opening, closing, left, whole, rfl, rfl, ?_, frames, ?_, ?_⟩
    · cases attributes? (after.drop size) <;> rfl
    · cases label_ : label? after with
      | none => exact Or.inl ⟨rfl, rfl⟩
      | some found =>
        obtain ⟨label, n⟩ := found
        rw [labelled (by rw [label_]; rfl)]
        exact Or.inr (congrArg Option.some (range_label name label_ _))
    · rw [bytes_take_named]
      cases attributes? (after.drop size) <;> rfl
  · rw [if_neg some] at whole
    refine Or.inl ⟨whole, ?_⟩
    split
    · rfl
    · rename_i letter
      rw [Bool.not_eq_true', Bool.not_eq_false] at letter
      have nothing : (label? after).isNone = true ∧ (attributes? (after.drop size)).isNone = true := by
        simpa [not_or, letter] using some
      rw [if_pos nothing]

theorem Flat.constructAt?_other {flat : Flat} {pos : Nat} {s : List Char}
    (noBraces : ∀ tail, s = '\x7b' :: '\x7b' :: tail → False)
    (noColon : ∀ tail, s = ':' :: tail → False) (noBracket : ∀ tail, s = '[' :: tail → False) :
    flat.constructAt? pos s = some none := by
  unfold Flat.constructAt?
  split
  · exact (noBraces _ rfl).elim
  · exact (noColon _ rfl).elim
  · exact (noBracket _ rfl).elim
  · rfl

theorem Flat.Shows.constructAt {before : Option Piece} (shows : flat.Shows done (front ++ rest))
    (last : (done ++ front).getLast? = before) :
    Agrees (bytes (done ++ front)) rest (construct? before rest)
    (flat.constructAt? (bytes (done ++ front)) (chars rest)) := by
  have text : upTo? (bytes (done ++ front)) flat.text = some (chars (done ++ front)) := by
    rw [shows.text, ← List.append_assoc, chars_append]
    exact upTo?_append _ _
  have word : (chars (done ++ front)).getLast?.any Text.isAlphanumeric = before.any fun piece =>
    Text.isAlphanumeric piece.toChar := by
    rw [chars, List.getLast?_map, last, Option.any_map]
  rw [construct?_eq]
  split
  · rename_i start
    have binding := shows.bindingAt start
    rw [start] at binding ⊢
    exact binding
  · rename_i start
    have component := shows.componentAt start
    rw [start] at component ⊢
    have colon : ∀ tail, flat.constructAt? (bytes (done ++ front)) (':' :: tail) =
        if before.any (fun piece => Text.isAlphanumeric piece.toChar) then some none
        else flat.componentAt? (bytes (done ++ front)) (':' :: tail) := by
      intro tail
      rw [← word, Flat.constructAt?, text]
      rfl
    rw [colon]
    split
    · exact Or.inl ⟨rfl, rfl⟩
    · exact component
  · rename_i start
    have span := shows.spanAt start
    rw [start] at span ⊢
    exact span
  · rename_i noBraces noColon noBracket
    exact Or.inl ⟨rfl, flat.constructAt?_other noBraces noColon noBracket⟩

theorem Flat.Shows.trailingAt {before : Option Piece} (shows : flat.Shows done (front ++ rest))
    (last : (done ++ front).getLast? = before) (fresh : front = [] → before.any Piece.isElement = false) :
    flat.trailingAt? (bytes (done ++ front)) (chars rest) =
      some ((trailing? before rest).map fun (attrs, n) => (attrs, bytes (rest.take n))) := by
  have first : chars (rest.take 2) = (chars rest).take 2 := List.map_take
  rw [Flat.trailingAt?, trailing?, first, shows.isElementBefore last fresh]
  split
  · rfl
  · exact shows.attributesAt

end Constructs

section Scan

theorem shows_ofSiblings (siblings : List Node) : (Flat.ofSiblings siblings).Shows [] (pieces siblings) := by
  have placed : ∀ (siblings : List Node) (flat : Flat) (front : List Piece), flat.Shows [] front →
      (siblings.foldl Flat.place flat).Shows [] (front ++ pieces siblings) := by
    intro siblings
    induction siblings with
    | nil => exact fun flat front shows => (List.append_nil front).symm ▸ shows
    | cons node rest ih =>
      intro flat front shows
      have text := shows.text
      have objects := shows.objects
      rw [List.nil_append] at text
      rw [List.foldl_cons]
      cases noText : node.isText with
      | true =>
        cases node with
        | element | comment => cases noText
        | text content =>
          rw [pieces_cons_text, ← List.append_assoc]
          refine ih _ _ ⟨?_, ?_⟩
          · rw [List.nil_append, chars_append, chars_textPieces, ← text]
            rfl
          · rw [objectsFrom_append, objectsFrom_textPieces, List.append_nil, ← objects]
            rfl
      | false =>
        have place :
            flat.place node = ⟨flat.text ++ ['\ufffc'], flat.objects ++ [(String.utf8Len flat.text, node)]⟩ := by
          cases node with
          | text => cases noText
          | element | comment => rfl
        rw [pieces_cons_node noText, List.append_cons, place]
        refine ih _ _ ⟨?_, ?_⟩
        · rw [List.nil_append, chars_append, text]
          rfl
        · rw [objectsFrom_append, ← objects, text]
          have start : bytes [] + bytes front = String.utf8Len (chars front) := Nat.zero_add _
          rw [start]
          rfl
  exact placed siblings ⟨[], []⟩ [] ⟨rfl, rfl⟩

theorem mergeLast_append {attrs : Attrs} {siblings : List Node} (some : siblings ≠ []) (out : List Node) :
    mergeLast attrs (out ++ siblings) = out ++ mergeLast attrs siblings := by
  obtain ⟨init, node, rfl⟩ := (List.eq_nil_or_concat siblings).resolve_left some
  rw [List.concat_eq_append, ← List.append_assoc, mergeLast, mergeLast]
  cases node <;> simp

variable {flat : Flat} {done rest : List Piece}

/-- The label of a construct is taken from its range, and the construct is done. -/
theorem Flat.Shows.label {pending : Pending} {found : Construct} {opening closing : List Char} {after : List Piece}
    (shows : flat.Shows done rest) (stands : pending.Stands found (bytes done) rest opening closing after)
    (laid : ∀ piece ∈ rest, piece.isLaid = true) :
    ∃ flat' : Flat, flat.drainLabel? pending.label = some (flat', nodes found.label) ∧
        flat'.Shows (done ++ rest.take found.size) (rest.drop found.size) := by
  obtain ⟨taken, dropped⟩ := stands.frames.cut
  have whole := stands.frames.whole
  rw [taken, dropped]
  rw [whole] at shows
  have opened := shows.skip
  rcases stands.label with ⟨none, empty⟩ | range
  · rw [none, empty]
    rw [empty] at opened
    have closed := opened.skip
    rw [List.append_assoc] at closed
    exact ⟨flat, rfl, closed⟩
  · have label_ : ∀ piece ∈ found.label, piece.isLaid = true := fun piece member =>
      laid piece (by rw [whole]; simp [member])
    obtain ⟨flat', moved, drained⟩ :=
      opened.drain label_ (nofun : ∀ node ∈ ([] : List Node).getLast?, node.isText = false)
    have closed := drained.skip
    rw [bytes_append (done ++ textPieces opening), bytes_append done, bytes_textPieces] at moved
    rw [List.append_assoc, List.append_assoc] at closed
    rw [range]
    exact ⟨flat', moved, closed⟩

/-- What is read of a label, with or without text in it. -/
theorem children_eq {label : List Piece} (laid : ∀ piece ∈ label, piece.isLaid = true)
    {scanned : Option (List Node)} (text : scanned = some (read [] none label)) :
    (if (nodes label).any Node.isText then scanned else some (nodes label)) = some (read [] none label) := by
  split
  · exact text
  · rename_i noText
    have plain : ∀ piece ∈ label, piece.isPlain = true := by
      rw [← pieces_nodes laid]
      refine fun piece member => isPlain_of_mem_pieces (fun content inside => ?_) member
      exact absurd (List.any_eq_true.2 ⟨_, inside, rfl⟩) noText
    rw [read_of_plain plain, List.nil_append]

/-- The piece at the end of those that were taken. -/
theorem getLast?_append_take {n : Nat} (some : 0 < n) (room : n ≤ rest.length) :
    (done ++ rest.take n).getLast? = rest[n - 1]? := by
  have here : rest[n - 1]? = Option.some rest[n - 1] := List.getElem?_eq_getElem (by omega)
  rw [List.getLast?_append, List.getLast?_take, if_neg (by omega), here]
  rfl

/-- Where a scan is: pieces are done, those in `front` are passed since the last construct, and `before` is the
piece in front of those that are left. The nodes of `done` are gone from the text and no text is open behind
`out`. -/
structure Flat.Scans (flat : Flat) (done front rest : List Piece) (before : Option Piece)
    (out : List Node) : Prop where
  shows : flat.Shows done (front ++ rest)
  laid : ∀ piece ∈ front ++ rest, piece.isLaid = true
  last : (done ++ front).getLast? = before
  fresh : front = [] → before.any Piece.isElement = false
  closed : ∀ node ∈ out.getLast?, node.isText = false

theorem scans_ofSiblings {label : List Piece} (laid : ∀ piece ∈ label, piece.isLaid = true) :
    (Flat.ofSiblings (nodes label)).Scans [] [] label none [] where
  shows := by
    have shows := shows_ofSiblings (nodes label)
    rwa [pieces_nodes laid] at shows
  laid := laid
  last := rfl
  fresh _ := rfl
  closed := nofun

variable {front : List Piece} {piece : Piece} {before : Option Piece} {out : List Node}

theorem Flat.Scans.pass (scans : flat.Scans done front (piece :: rest) before out) :
    flat.Scans done (front ++ [piece]) rest (some piece) out where
  shows := by simpa using scans.shows
  laid := by simpa using scans.laid
  last := by rw [← List.append_assoc, List.getLast?_concat]
  fresh empty := absurd empty (by simp)
  closed := scans.closed

/-- What is open is moved behind the nodes that are done. -/
theorem Flat.Scans.drain (scans : flat.Scans done front rest before out) :
    ∃ flat' : Flat, flat.drain? (bytes done) (bytes (done ++ front)) out = some (flat', out ++ nodes front) ∧
      flat'.Shows (done ++ front) rest :=
  scans.shows.drain (fun piece member => scans.laid piece (List.mem_append_left _ member)) scans.closed

/-- Behind a construct or attributes the scan goes on with nothing open. -/
theorem Flat.Scans.behind {flat' : Flat} {n : Nat} (scans : flat.Scans done front rest before out)
    {out' : List Node}
    (shows : flat'.Shows (done ++ front ++ rest.take n) (rest.drop n)) (bounds : 0 < n ∧ n ≤ rest.length)
    (fresh : rest[n - 1]?.any Piece.isElement = false) (closed : ∀ node ∈ out'.getLast?, node.isText = false) :
    flat'.Scans (done ++ front ++ rest.take n) [] (rest.drop n) rest[n - 1]? out' where
  shows := shows
  laid _ member := scans.laid _ (List.mem_append_right _ (List.mem_of_mem_drop member))
  last := by rw [List.append_nil, getLast?_append_take bounds.1 bounds.2]
  fresh _ := fresh
  closed := closed

/-- Attributes are added to the element in front of them, and the scan goes on behind them. -/
theorem Flat.Scans.trailing {attrs : Attrs} {n : Nat} (scans : flat.Scans done front rest before out)
    (found : trailing? before rest = some (attrs, n)) : ∃ flat' : Flat,
      flat.drain? (bytes done) (bytes (done ++ front)) out = some (flat', out ++ nodes front) ∧
      mergeLast attrs (out ++ nodes front) = out ++ mergeLast attrs (nodes front) ∧
      flat'.Scans (done ++ front ++ rest.take n) [] (rest.drop n) rest[n - 1]?
        (out ++ mergeLast attrs (nodes front)) := by
  obtain ⟨element, _, here⟩ := trailing?_eq_some found
  have some : front ≠ [] := fun none => absurd element (by rw [scans.fresh none]; exact Bool.false_ne_true)
  have ends : front.getLast? = before := by rw [← scans.last, List.getLast?_append_of_ne_nil _ some]
  obtain ⟨block, after, rfl, _, rfl, taken, dropped, fresh⟩ := trailing?_cut found
  obtain ⟨init, tag, own, children, rfl, merged⟩ := mergeLast_nodes (ends ▸ element) attrs
  obtain ⟨flat', moved, drained⟩ := scans.drain
  refine ⟨flat', moved, mergeLast_append (by simp [nodes_append_node]) out, ?_⟩
  refine scans.behind ?_ (attributes?_bounds here) fresh (by rw [merged]; simp [Node.isText])
  rw [taken, dropped]
  exact drained.skip

/-- A construct takes its label, and the scan goes on behind it. -/
theorem Flat.Scans.construct {found : Construct} {pending : Pending} {opening closing : List Char}
    {after : List Piece} (scans : flat.Scans done front rest before out)
    (stands : pending.Stands found (bytes (done ++ front)) rest opening closing after) (children : List Node) :
    ∃ flat' flat'' : Flat, flat.drain? (bytes done) (bytes (done ++ front)) out = some (flat', out ++ nodes front) ∧
      flat'.drainLabel? pending.label = some (flat'', nodes found.label) ∧
      flat''.Scans (done ++ front ++ rest.take found.size) [] (rest.drop found.size) rest[found.size - 1]?
        (out ++ nodes front ++ [.element found.tag found.attrs children]) := by
  obtain ⟨positive, room, _⟩ := stands.frames.bounds
  obtain ⟨c, _, place⟩ := stands.frames.last
  obtain ⟨flat', moved, drained⟩ := scans.drain
  obtain ⟨flat'', labelled, behind⟩ :=
    drained.label stands fun piece member => scans.laid piece (List.mem_append_right _ member)
  refine ⟨flat', flat'', moved, labelled, scans.behind behind ⟨positive, room⟩ ?_ (by simp [Node.isText])⟩
  rw [place]
  rfl

/-- The scan at byte offsets reads what is read piece by piece. -/
theorem Flat.Scans.scan {fuel : Nat} (scans : flat.Scans done front rest before out) (enough : rest.length < fuel) :
    Flat.scan? fuel flat out (bytes done) (bytes (done ++ front)) = some (out ++ read front before rest) := by
  induction fuel generalizing flat done front rest before out with
  | zero => omega
  | succ fuel ih =>
    have length : String.utf8Len flat.text = bytes (done ++ front) + bytes rest := by
      rw [scans.shows.text, ← List.append_assoc, ← bytes, bytes_append]
    rw [Flat.scan?]
    cases rest with
    | nil =>
      obtain ⟨flat', moved, _⟩ := scans.drain
      have stop : String.utf8Len flat.text = bytes (done ++ front) := length
      rw [stop, if_pos (Nat.le_refl _), moved, read_nil]
      rfl
    | cons piece rest =>
      have left : ¬ String.utf8Len flat.text ≤ bytes (done ++ front) := by
        have positive := piece.toChar.utf8Size_pos
        rw [length, bytes_cons]
        omega
      have text : from? (bytes (done ++ front)) flat.text = some (chars (piece :: rest)) := by
        rw [scans.shows.text, ← List.append_assoc]
        exact from?_chars _ _
      -- Behind a construct or attributes fewer pieces are left than there are steps.
      have onward : ∀ {n : Nat} {flat : Flat} {out : List Node}, 0 < n →
          flat.Scans (done ++ front ++ (piece :: rest).take n) [] ((piece :: rest).drop n)
            (piece :: rest)[n - 1]? out →
          Flat.scan? fuel flat out (bytes (done ++ front) + bytes ((piece :: rest).take n))
            (bytes (done ++ front) + bytes ((piece :: rest).take n)) =
              some (out ++ read [] ((piece :: rest)[n - 1]?) ((piece :: rest).drop n)) := by
        intro n flat out positive scans
        have next := ih scans (by rw [List.length_drop, List.length_cons] at *; omega)
        rwa [List.append_nil, bytes_append (done ++ front)] at next
      rw [if_neg left, text, Option.bind_eq_bind, Option.bind_some, scans.shows.trailingAt scans.last scans.fresh]
      cases free : trailing? before (piece :: rest) with
      | some found =>
        obtain ⟨attrs, n⟩ := found
        obtain ⟨flat', moved, merged, behind⟩ := scans.trailing free
        simp only [Option.map_some, Option.bind_eq_bind, Option.bind_some, moved, merged]
        rw [onward (attributes?_bounds (trailing?_eq_some free).2.2).1 behind,
          read_trailing free, List.append_assoc]
      | none =>
        simp only [Option.map_none, Option.bind_eq_bind, Option.bind_some]
        rcases scans.shows.constructAt scans.last with
          ⟨nothing, same⟩ | ⟨found, pending, opening, closing, after, here, same, stands⟩
        · have next := ih scans.pass (by rw [List.length_cons] at enough; omega)
          have width : bytes (done ++ (front ++ [piece])) = bytes (done ++ front) + piece.toChar.utf8Size := by
            rw [← List.append_assoc, bytes_append (done ++ front), bytes_cons]
            rfl
          rw [same, Option.bind_some, read_plain free nothing, ← next, width]
          rfl
        · obtain ⟨positive, room, shorter⟩ := stands.frames.bounds
          have laid : ∀ piece ∈ found.label, piece.isLaid = true := fun piece member =>
            scans.laid piece (List.mem_append_right _ (by rw [stands.frames.whole]; simp [member]))
          obtain ⟨flat', flat'', moved, labelled, behind⟩ := scans.construct stands (read [] none found.label)
          have inside :
              Flat.scan? fuel (Flat.ofSiblings (nodes found.label)) [] 0 0 = some (read [] none found.label) :=
            ih (scans_ofSiblings laid) (Nat.lt_of_lt_of_le shorter (by omega))
          have next := onward positive behind
          rw [← stands.size, ← stands.tag, ← stands.attrs] at next
          simp only [same, Option.bind_some, moved, labelled, children_eq laid inside, next]
          rw [read_construct free here, stands.tag, stands.attrs, List.append_assoc,
            List.append_assoc, List.singleton_append]

end Scan

section Apply

/-- No cut of a text fails, whatever the siblings are, and at byte offsets the component syntax is read as it is
piece by piece. -/
theorem Flat.read?_eq (siblings : List Node) : Flat.read? siblings = some (apply siblings) := by
  rw [Flat.read?]
  split
  · have scans : (Flat.ofSiblings siblings).Scans [] [] (pieces siblings) none [] :=
      ⟨shows_ofSiblings siblings, fun piece => isLaid_of_mem_pieces, rfl, fun _ => rfl, nofun⟩
    have text : (Flat.ofSiblings siblings).text.length = (pieces siblings).length := by
      rw [scans.shows.text]
      exact length_chars _
    have scanned := scans.scan (Nat.lt_succ_self _)
    rw [text, apply_eq]
    exact scanned
  · rename_i noText
    rw [Bool.not_eq_true] at noText
    have plain : ∀ content, Node.text content ∈ siblings → ∀ c ∈ content.toList, c ∉ ['\x7b', ':', '['] := by
      intro content member
      rw [List.any_eq_true.2 ⟨_, member, rfl⟩] at noText
      cases noText
    rw [apply_of_plain plain, joinTexts_of_noText noText]

end Apply

end Inline

end ComponentMarkdown
