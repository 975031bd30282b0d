import ComponentMarkdown.Proofs.Markup.CodeFence

namespace ComponentMarkdown

namespace Token

/-- The fence of three backticks, if it is open. -/
def openIf (isOpen : Bool) : Option Fence := if isOpen then some ⟨'\x60', 3⟩ else none

/-- What lines make of a fence of three backticks that may be open in front of them. -/
def Turns (lines : List (List Char)) (turn : Bool → Bool) : Prop :=
  ∀ isOpen, fenceBehind (openIf isOpen) (lines.map Text.dropReturn) = openIf (turn isOpen)

/-- A line that changes nothing. -/
def Idle (line : List Char) : Prop := Turns [line] id

namespace Turns

variable {lines more : List (List Char)} {turn next : Bool → Bool}

theorem nil : Turns [] id := fun _ => rfl

theorem congr (turns : Turns lines turn) (same : ∀ isOpen, turn isOpen = next isOpen) : Turns lines next :=
  fun isOpen => by rw [turns, same]

theorem append (first : Turns lines turn) (second : Turns more next) :
    Turns (lines ++ more) (fun isOpen => next (turn isOpen)) := by
  intro isOpen
  rw [List.map_append, fenceBehind_append, first, second]

theorem of_idle (idle : ∀ line ∈ lines, Idle line) : Turns lines id := by
  induction lines with
  | nil => exact nil
  | cons line rest ih =>
    obtain ⟨here, below⟩ := List.forall_mem_cons.1 idle
    exact here.append (ih below)

theorem of_idle_map {f : List Char → List Char} (idle : ∀ line ∈ lines, Idle (f line)) : Turns (lines.map f) id :=
  of_idle (List.forall_mem_map.2 idle)

/-- Lines that change nothing can stand in front of others. -/
theorem idle_append_iff (idle : ∀ line ∈ lines, Idle line) : Turns (lines ++ more) turn ↔ Turns more turn := by
  have front := of_idle idle
  refine ⟨fun whole isOpen => ?_, front.append⟩
  have all := whole isOpen
  rwa [List.map_append, fenceBehind_append, front] at all

end Turns

section Idle

variable {line : List Char}

theorem turns_single {turn : Bool → Bool}
    (each : ∀ isOpen, (step (openIf isOpen) (Text.dropReturn line)).2 = openIf (turn isOpen)) :
    Turns [line] turn := each

theorem dropWhile_of_unindented? {rest : List Char} (narrow : unindented? line = some rest) :
    line.dropWhile (· = ' ') = rest := by
  rw [unindented?] at narrow
  split at narrow
  · exact Option.some.inj narrow
  · cases narrow

/-- A line that starts with something else than a fence changes nothing. -/
theorem idle_of_head (head : ∀ c ∈ (line.dropWhile (· = ' ')).head?, c ≠ '\x60' ∧ c ≠ '~') : Idle line := by
  -- The line without a carriage return at its end starts with the same character, or is blank.
  have first : ∀ c ∈ ((Text.dropReturn line).dropWhile (· = ' ')).head?, c ≠ '\x60' ∧ c ≠ '~' := by
    intro c member
    obtain ⟨tail, whole⟩ := Text.dropReturn_prefix line
    refine head c ?_
    rw [← whole, List.dropWhile_append]
    split
    · rename_i empty
      rw [List.isEmpty_iff.1 empty] at member
      cases member
    · rw [List.head?_append, Option.mem_def.1 member]
      rfl
  refine turns_single fun isOpen => ?_
  generalize Text.dropReturn line = line at first
  cases found : unindented? line with
  | none => cases isOpen <;> simp [openIf, step, opensFence?, closesFence, found]
  | some rest =>
    rw [dropWhile_of_unindented? found] at first
    cases rest with
    | nil => cases isOpen <;> simp [openIf, step, opensFence?, closesFence, found]
    | cons c more =>
      obtain ⟨noBacktick, noTilde⟩ := first c rfl
      cases isOpen <;> simp [openIf, step, opensFence?, closesFence, found, noBacktick, noTilde]

/-- A line under four blanks changes nothing. -/
theorem idle_of_deep (deep : List.replicate 4 ' ' <+: line) : Idle line := by
  obtain ⟨rest, rfl⟩ := deep
  refine turns_single fun isOpen => ?_
  rw [Text.dropReturn_append (by decide)]
  have far : unindented? (List.replicate 4 ' ' ++ Text.dropReturn rest) = none := by
    rw [unindented?, List.takeWhile_append_of_pos (by simp), List.length_append, List.length_replicate,
      if_neg (by omega)]
  cases isOpen with
  | false => simp only [openIf, step, opensFence?, far, id, Bool.false_eq_true, if_false]
  | true => simp only [openIf, step, closesFence, far, id, Bool.false_eq_true, if_false, if_true]

/-- Whether a text has none of the characters of fences. -/
def isQuiet (s : List Char) : Bool := '\x60' ∉ s && '~' ∉ s

theorem isQuiet_iff {s : List Char} : isQuiet s = true ↔ '\x60' ∉ s ∧ '~' ∉ s := by
  rw [isQuiet, Bool.and_eq_true, decide_eq_true_eq, decide_eq_true_eq]

theorem isQuiet_append {s t : List Char} (first : isQuiet s = true) (second : isQuiet t = true) :
    isQuiet (s ++ t) = true := by
  rw [isQuiet_iff] at first second ⊢
  simp [first, second]

theorem isQuiet_of_infix {s t : List Char} (part : s <:+: t) (quiet : isQuiet t = true) : isQuiet s = true := by
  rw [isQuiet_iff] at quiet ⊢
  exact ⟨fun member => quiet.1 (part.subset member), fun member => quiet.2 (part.subset member)⟩

theorem isQuiet_of_mem_splitOn {s : List Char} (quiet : isQuiet s = true) (part : line ∈ Text.splitOn '\n' s) :
    isQuiet line = true := isQuiet_of_infix (Text.infix_of_mem_splitOn part) quiet

theorem idle_of_isQuiet (quiet : isQuiet line = true) : Idle line := by
  refine idle_of_head fun c first => ?_
  have member : c ∈ line := (List.dropWhile_suffix _).subset (List.mem_of_head? first)
  obtain ⟨noBacktick, noTilde⟩ := isQuiet_iff.1 quiet
  exact ⟨fun same => noBacktick (same ▸ member), fun same => noTilde (same ▸ member)⟩

end Idle

/-- A carriage return is a blank. -/
theorem allBlank_dropReturn (line : List Char) : Text.allBlank (Text.dropReturn line) = Text.allBlank line := by
  rw [Text.dropReturn]
  split
  · rename_i last
    obtain ⟨front, rfl⟩ := List.getLast?_eq_some_iff.1 last
    have blank : Text.isBlank '\r' = true := by decide
    rw [List.dropLast_concat, Text.allBlank, Text.allBlank, List.all_append, List.all_cons, blank]
    simp
  · rfl

/-- A fence that is seen opens, or closes if nothing stands behind it. -/
theorem turns_fence {width : Nat} (narrow : width ≤ 3) {info : List Char} (quiet : isQuiet info = true) :
    Turns [List.replicate width ' ' ++ (List.replicate 3 '\x60' ++ info)]
      (fun isOpen => !(isOpen && Text.allBlank info)) := by
  refine turns_single fun isOpen => ?_
  have plain : '\x60' ∉ Text.dropReturn info := fun member =>
    (isQuiet_iff.1 quiet).1 ((Text.dropReturn_prefix info).subset member)
  have solid : (List.replicate width ' ' ++ List.replicate 3 '\x60').getLast? ≠ some '\r' := by
    rw [List.getLast?_append, List.getLast?_replicate, if_neg (by decide), Option.some_or]
    decide
  rw [← List.append_assoc, Text.dropReturn_append solid, List.append_assoc]
  cases isOpen with
  | false =>
    have opens := opensFence?_backticks narrow (Nat.le_refl 3) plain
    rw [openIf, if_neg (by decide), step_opening opens]
    rfl
  | true =>
    have closes := closesFence_backticks narrow (by decide : 0 < 3) (Nat.le_refl 3) plain
    rw [allBlank_dropReturn] at closes
    rw [openIf, if_pos rfl, Bool.true_and]
    cases behind : Text.allBlank info with
    | true =>
      rw [behind] at closes
      rw [step_closing closes]
      rfl
    | false =>
      rw [behind] at closes
      rw [step_inside closes]
      rfl

theorem idle_nil : Idle [] := idle_of_isQuiet (by decide)

/-- The separators of blocks. -/
def Separates (separator : List Char) : Prop := separator = ['\n'] ∨ separator = Writer.blankLine

/-- The lines of parts, with a gap in front of each. -/
def gapped (gap parts : List (List Char)) : List (List Char) := parts.flatMap fun part =>
    gap ++ Text.splitOn '\n' part

section Parts

variable {separator : List Char} (separates : Separates separator)

include separates

/-- The lines between parts that are joined are empty. -/
theorem exists_gap : ∃ gap : List (List Char), (∀ line ∈ gap, line = []) ∧ ∀ part parts,
    Text.splitOn '\n' (Text.join separator (part :: parts)) = Text.splitOn '\n' part ++ gapped gap parts := by
  have behind : ∃ gap : List (List Char), (∀ line ∈ gap, line = []) ∧ ∀ part rest,
      Text.splitOn '\n' (part ++ separator ++ rest) = Text.splitOn '\n' part ++
        (gap ++ Text.splitOn '\n' rest) := by
    rcases separates with rfl | rfl
    · refine ⟨[], by simp, fun part rest => ?_⟩
      rw [List.append_assoc, List.singleton_append, Text.splitOn_append_cons, List.nil_append]
    · refine ⟨[[]], by simp, fun part rest => ?_⟩
      have next := @Text.splitOn_append_cons '\n' [] rest
      rw [List.nil_append] at next
      rw [Writer.blankLine, List.append_assoc, List.cons_append, List.singleton_append,
        Text.splitOn_append_cons, next]
      rfl
  obtain ⟨gap, empty, behind⟩ := behind
  refine ⟨gap, empty, fun part parts => ?_⟩
  induction parts generalizing part with
  | nil => rw [Text.join, gapped, List.flatMap_nil, List.append_nil]
  | cons next more ih =>
    rw [Text.join_cons (by simp), behind, ih, gapped, gapped, List.flatMap_cons, List.append_assoc]

/-- What holds of the empty line and of the lines of all parts holds of the lines of the parts together. -/
theorem forall_mem_splitOn_join {parts : List (List Char)} {p : List Char → Prop} (empty : p [])
    (each : ∀ part ∈ parts, ∀ line ∈ Text.splitOn '\n' part, p line) :
    ∀ line ∈ Text.splitOn '\n' (Text.join separator parts), p line := by
  obtain ⟨gap, blank, behind⟩ := exists_gap separates
  cases parts with
  | nil => simpa [Text.join, Text.splitOn] using empty
  | cons part rest =>
    obtain ⟨here, below⟩ := List.forall_mem_cons.1 each
    rw [behind]
    refine List.forall_mem_append.2 ⟨here, fun line member => ?_⟩
    obtain ⟨other, listed, inside⟩ := List.mem_flatMap.1 member
    rcases List.mem_append.1 inside with between | written
    · rwa [blank line between]
    · exact below other listed line written

/-- Parts turn a fence one after the other. -/
theorem Turns.join {α : Type} {items : List α} {part : α → List Char} {turn : Bool → α → Bool}
    (each : ∀ item ∈ items, Turns (Text.splitOn '\n' (part item)) fun isOpen => turn isOpen item) :
    Turns (Text.splitOn '\n' (Text.join separator (items.map part))) (items.foldl turn ·) := by
  obtain ⟨gap, empty, behind⟩ := exists_gap separates
  have idle : ∀ line ∈ gap, Idle line := fun line member => (empty line member).symm ▸ idle_nil
  -- The induction is on the parts behind the first one, each of which has the gap in front of it.
  have later : ∀ more : List α, (∀ item ∈ more, item ∈ items) →
      Turns (gapped gap (more.map part)) (more.foldl turn ·) := by
    intro more inside
    induction more with
    | nil => exact Turns.nil
    | cons item rest ih =>
      obtain ⟨here, below⟩ := List.forall_mem_cons.1 inside
      have first := (Turns.idle_append_iff idle).2 (each item here)
      exact first.append (ih below)
  cases items with
  | nil => exact idle_nil
  | cons item rest =>
    rw [List.map_cons, behind]
    exact (each item List.mem_cons_self).append (later rest fun item member => List.mem_cons_of_mem _ member)

end Parts

end Token

end ComponentMarkdown
