import ComponentMarkdown.Markup.CodeInfo
import ComponentMarkdown.Proofs.Markup.CodeFence
import Mathlib.Data.List.DropRight

namespace ComponentMarkdown.CodeFence

open Text (trim trimStart isBlank)

section Filename

variable {s name after : List Char}

theorem filename?_eq_some_iff : filename? s = some (name, after) ↔
    ∃ behind, s = '[' :: (name ++ ']' :: behind) ∧ ']' ∉ name ∧ after = trimStart behind := by
  constructor
  · intro found
    unfold filename? at found
    split at found
    · rename_i rest
      split at found
      · rename_i close behind stop
        have here := List.head?_dropWhile_not (fun c : Char => decide (c ≠ ']')) rest
        rw [stop] at here
        have same : close = ']' := by simpa using here
        simp only [Option.some.injEq, Prod.mk.injEq] at found
        obtain ⟨rfl, rfl⟩ := found
        subst same
        refine ⟨behind, ?_, fun inside => ?_, rfl⟩
        · rw [← stop, List.takeWhile_append_dropWhile]
        · have differs := List.mem_takeWhile_imp inside
          simp at differs
      · exact absurd found (by simp)
    · exact absurd found (by simp)
  · rintro ⟨behind, rfl, outside, rfl⟩
    have inside : ∀ c ∈ name, decide (c ≠ ']') = true := by
      intro c member
      rw [decide_eq_true_eq]
      rintro rfl
      exact outside member
    have stop : ∀ c ∈ (']' :: behind).head?, decide (c ≠ ']') = false := by simp
    rw [filename?, Text.dropWhile_append_stop inside stop, Text.takeWhile_append_stop inside stop]

theorem trimStart_trimStart (s : List Char) :
    trimStart (trimStart s) = trimStart s := List.dropWhile_idempotent isBlank s

/-- The file name and what follows it, with one blank between them. -/
def respaced (rest : List Char) : List Char :=
  match filename? rest with
  | some (name, after) => '[' :: (name ++ ']' :: if after.isEmpty then [] else ' ' :: after)
  | none => rest

/-- The blanks behind the brackets are no part of what follows them. -/
theorem filename?_respaced (rest : List Char) : filename? (respaced rest) = filename? rest := by
  rw [respaced]
  cases found : filename? rest with
  | none => exact found
  | some parts =>
    obtain ⟨name, after⟩ := parts
    obtain ⟨behind, -, outside, trimmed⟩ := filename?_eq_some_iff.1 found
    refine filename?_eq_some_iff.2 ⟨_, rfl, outside, ?_⟩
    split
    · rename_i none
      rw [List.isEmpty_iff.1 none]
      rfl
    · have blank : trimStart (' ' :: after) = trimStart after := List.dropWhile_cons_of_pos (by decide)
      rw [blank, trimmed, trimStart_trimStart]

theorem head?_respaced (rest : List Char) : (respaced rest).head? = rest.head? := by
  rw [respaced]
  cases found : filename? rest with
  | none => rfl
  | some parts =>
    obtain ⟨behind, rfl, -, -⟩ := filename?_eq_some_iff.1 found
    rfl

theorem trimStart_respaced (s : List Char) : trimStart (respaced (trimStart s)) = respaced (trimStart s) := by
  have same := head?_respaced (trimStart s)
  cases whole : respaced (trimStart s) with
  | nil => rfl
  | cons c rest =>
    have solid := List.head?_dropWhile_not isBlank s
    rw [whole] at same
    rw [← trimStart, ← same] at solid
    exact Text.trimStart_of_head (by simpa using solid)

theorem respaced_of_head? {rest : List Char} (other : rest.head? ≠ some '[') : respaced rest = rest := by
  rw [respaced]
  cases found : filename? rest with
  | none => rfl
  | some parts =>
    obtain ⟨behind, rfl, -, -⟩ := filename?_eq_some_iff.1 found
    exact absurd rfl other

theorem isBlank_of_getLast?_respaced {rest : List Char} (solid : ∀ c ∈ rest.getLast?, isBlank c = false) :
    ∀ c ∈ (respaced rest).getLast?, isBlank c = false := by
  rw [respaced]
  cases found : filename? rest with
  | none => exact solid
  | some parts =>
    obtain ⟨name, after⟩ := parts
    obtain ⟨behind, rfl, -, trimmed⟩ := filename?_eq_some_iff.1 found
    intro c last
    cases after with
    | nil =>
      have bracket :
          ('[' :: (name ++ [']'])).getLast? = some ']' := by rw [← List.cons_append, List.getLast?_concat]
      have same : some ']' = some c := bracket.symm.trans last
      rw [← Option.some.inj same]
      decide
    | cons d more =>
      -- What follows the brackets ends the text, so it ends in the same character.
      have ends : (d :: more) <:+ behind := trimmed ▸ List.dropWhile_suffix _
      obtain ⟨front, rfl⟩ := ends
      refine solid c ?_
      simpa [List.getLast?_cons, List.getLast?_append] using last

end Filename

namespace Info

/-- The parts of an info string in which `rest` follows the language. -/
def behind (language : Option String) (rest : List Char) : Info :=
  match filename? rest with
  | some (name, after) =>
    ⟨language, some (String.ofList name), if after.isEmpty then none else some (String.ofList after)⟩
  | none => ⟨language, none, if rest.isEmpty then none else some (String.ofList rest)⟩

theorem behind_respaced (language : Option String) (rest : List Char) :
    behind language (respaced rest) = behind language rest := by
  rw [behind, filename?_respaced, behind]
  cases found : filename? rest with
  | some parts => rfl
  | none => rw [respaced, found]

theorem read_trim (text : List Char) : read (trim text) = read text := by
  rw [read, read, Text.trim_trim]

/-- A text that is empty or starts with a bracket names no language. -/
theorem read_of_bracket {s : List Char} (trimmed : trim s = s) (bracket : ∀ c ∈ s.head?, c = '[') :
    read s = behind none s := by
  rw [read, trimmed]
  cases s with
  | nil => rfl
  | cons c rest =>
    rw [bracket c rfl, behind]
    simp only [List.isEmpty_cons, Bool.false_eq_true, if_false, List.head?_cons, if_true]
    cases filename? ('[' :: rest) <;> rfl

/-- Any other text starts with its language. -/
theorem read_of_language {language tail : List Char} (trimmed : trim (language ++ tail) = language ++ tail)
    (content : language ++ tail ≠ []) (bracket : (language ++ tail).head? ≠ some '[')
    (name : ∀ c ∈ language, endsLanguage c = false) (stop : ∀ c ∈ tail.head?, endsLanguage c = true) :
    read (language ++ tail) = behind (some (String.ofList language)) (trimStart tail) := by
  have name' : ∀ c ∈ language, (!endsLanguage c) = true := by simpa using name
  have stop' : ∀ c ∈ tail.head?, (!endsLanguage c) = false := by simpa using stop
  have nonempty : (language ++ tail).isEmpty = false := by simpa using content
  rw [read, trimmed, behind]
  simp only [nonempty, Bool.false_eq_true, if_false, bracket, Text.takeWhile_append_stop name' stop',
    Text.dropWhile_append_stop name' stop']
  cases filename? (trimStart tail) <;> rfl

/-- Where the language of an info string ends. -/
theorem exists_language (s : List Char) :
    (∀ c ∈ s.head?, c = '[') ∨
    ∃ language tail, s = language ++ tail ∧ language ++ tail ≠ [] ∧ (language ++ tail).head? ≠ some '[' ∧
      (∀ c ∈ language, endsLanguage c = false) ∧ ∀ c ∈ tail.head?, endsLanguage c = true := by
  by_cases bracket : ∀ c ∈ s.head?, c = '['
  · exact Or.inl bracket
  · right
    have whole := List.takeWhile_append_dropWhile (p := fun c => !endsLanguage c) (l := s)
    refine ⟨_, _, whole.symm, ?_, ?_, ?_, ?_⟩
    · rw [whole]
      intro none
      exact bracket (by simp [none])
    · rw [whole]
      intro first
      exact bracket (by simp [first])
    · intro c member
      have solid := List.mem_takeWhile_imp member
      simpa using solid
    · intro c first
      have ends := List.head?_dropWhile_not (fun c => !endsLanguage c) s
      rw [Option.mem_def.1 first] at ends
      simpa using ends

theorem partOf_ofList (s : List Char) (wrap : List Char → List Char) :
    partOf (some (String.ofList s)) wrap = if s.isEmpty then [] else [wrap s] := by
  rw [partOf, Option.elim_some, String.toList_ofList]
  cases s with
  | nil => rfl
  | cons c rest => exact if_neg (by simp [String.ofList_eq_empty_iff])

theorem join_append_pair (front : Option String) (part next : List Char) :
    Text.join [' '] (partOf front id ++ [part, next]) =
    Text.join [' '] (partOf front id ++ [part ++ ' ' :: next]) := by
  have pair : Text.join [' '] [part, next] = part ++ ' ' :: next := by
    rw [Text.join, Text.join, List.append_assoc, List.singleton_append]
    exact fun none => absurd none (by simp)
  by_cases none : partOf front id = []
  · rw [none, List.nil_append, List.nil_append, pair, Text.join]
  · rw [Text.join_append none (by simp), Text.join_append none (by simp), pair, Text.join]

/-- What follows the language is written as it was, with one blank behind the brackets. -/
theorem write_behind {language : Option String} {rest : List Char}
    (named : (behind language rest).filename ≠ some "") :
    (behind language rest).write =
      Text.join [' '] (partOf language id ++ if rest.isEmpty then [] else [respaced rest]) := by
  have own : ∀ s : List Char, partOf (if s.isEmpty then none else some (String.ofList s)) id =
      if s.isEmpty then [] else [s] := by
    rintro (_ | ⟨c, rest⟩)
    · rfl
    · exact partOf_ofList _ _
  rw [write_eq, behind, respaced]
  rw [behind] at named
  cases found : filename? rest with
  | none =>
    have missing : partOf none (fun s => '[' :: (s ++ [']'])) = [] := rfl
    simp only [own, missing, List.append_nil]
  | some parts =>
    obtain ⟨name, after⟩ := parts
    obtain ⟨behind, rfl, -, -⟩ := filename?_eq_some_iff.1 found
    simp only [found] at named
    have nonempty : name.isEmpty = false := by
      cases name with
      | nil => exact absurd rfl named
      | cons c more => rfl
    simp only [own, partOf_ofList, nonempty, List.isEmpty_cons, Bool.false_eq_true, if_false]
    cases after with
    | nil => rw [List.isEmpty_nil, if_pos rfl, if_pos rfl, List.append_nil]
    | cons c more =>
      rw [List.isEmpty_cons, if_neg Bool.false_ne_true, if_neg Bool.false_ne_true, List.append_assoc,
        List.singleton_append, join_append_pair, List.cons_append, List.append_assoc, List.singleton_append]

theorem read_write_of_bracket {s : List Char} (trimmed : trim s = s) (bracket : ∀ c ∈ s.head?, c = '[')
    (named : (behind none s).filename ≠ some "") : read (behind none s).write = behind none s := by
  have written : (behind none s).write = respaced s := by
    rw [write_behind named]
    cases s <;> rfl
  have front : ∀ c ∈ (respaced s).head?, isBlank c = false := by
    rw [head?_respaced]
    intro c first
    rw [bracket c first]
    decide
  have back : ∀ c ∈ (respaced s).getLast?, isBlank c = false := by
    refine isBlank_of_getLast?_respaced fun c last => ?_
    rw [← trimmed] at last
    exact Text.isBlank_of_getLast?_trim last
  have again := read_of_bracket (Text.trim_of_ends front back) (by rwa [head?_respaced])
  rw [written, again, behind_respaced]

section Language

variable {language tail : List Char} (trimmed : trim (language ++ tail) = language ++ tail)
  (content : language ++ tail ≠ []) (bracket : (language ++ tail).head? ≠ some '[')
  (name : ∀ c ∈ language, endsLanguage c = false) (stop : ∀ c ∈ tail.head?, endsLanguage c = true)

include trimmed bracket name

/-- A language and what followed it are read again with a blank between them. -/
theorem read_spaced (nonempty : language ≠ []) (more : trimStart tail ≠ []) :
    read (language ++ ' ' :: respaced (trimStart tail)) =
      behind (some (String.ofList language)) (trimStart tail) := by
  have head : ∀ rest : List Char, (language ++ rest).head? = language.head? := fun rest => by
    obtain ⟨c, more, rfl⟩ := List.exists_cons_of_ne_nil nonempty
    rfl
  have front : ∀ c ∈ (language ++ ' ' :: respaced (trimStart tail)).head?, isBlank c = false := by
    intro c first
    rw [head, ← head tail, ← trimmed] at first
    exact Text.isBlank_of_head?_trim first
  have back : ∀ c ∈ (language ++ ' ' :: respaced (trimStart tail)).getLast?, isBlank c = false := by
    obtain ⟨d, rest, start⟩ := List.exists_cons_of_ne_nil more
    obtain ⟨blanks, whole⟩ : trimStart tail <:+ tail := List.dropWhile_suffix _
    have filled : respaced (trimStart tail) ≠ [] := by
      intro none
      have same := head?_respaced (trimStart tail)
      rw [none, start] at same
      cases same
    rw [List.append_cons, List.getLast?_append_of_ne_nil _ filled]
    refine isBlank_of_getLast?_respaced fun c last => ?_
    refine Text.isBlank_of_getLast?_trim (s := language ++ tail) ?_
    rw [trimmed, ← whole, ← List.append_assoc, List.getLast?_append_of_ne_nil _ more, last]
  have again := read_of_language (Text.trim_of_ends front back) (by simp) (by rwa [head, ← head tail]) name
    fun c first => by
      rw [← Option.some.inj first]
      decide
  have blank : trimStart (' ' :: respaced (trimStart tail)) = trimStart (respaced (trimStart tail)) :=
    List.dropWhile_cons_of_pos (by decide)
  rw [again, blank, trimStart_respaced, behind_respaced]

include content stop

theorem read_write_of_language
    (named : (behind (some (String.ofList language)) (trimStart tail)).filename ≠ some "") :
    read (behind (some (String.ofList language)) (trimStart tail)).write =
      behind (some (String.ofList language)) (trimStart tail) := by
  rw [write_behind named, partOf_ofList]
  by_cases unnamed : language = []
  · -- The text starts with a brace, which no blank is put in front of.
    subst unnamed
    rw [List.nil_append] at trimmed content bracket
    obtain ⟨c, more, rfl⟩ := List.exists_cons_of_ne_nil content
    have solid : isBlank c = false := Text.isBlank_of_head?_trim (by rw [trimmed]; rfl)
    have again := @read_of_language [] _ trimmed content bracket name stop
    rw [Text.trimStart_of_head solid] at again ⊢
    rw [respaced_of_head? bracket]
    exact again
  · have filled : language.isEmpty = false := by simpa using unnamed
    rw [filled, if_neg Bool.false_ne_true]
    by_cases last : trimStart tail = []
    · have solid : ∀ c ∈ language, isBlank c = false := by
        intro c member
        have plain := name c member
        simp only [endsLanguage, Bool.or_eq_false_iff] at plain
        exact plain.1.1
      have again := @read_of_language language []
      simp only [List.append_nil] at again
      rw [last]
      exact again (Text.trim_of_solid solid) unnamed
        (by rwa [List.head?_append_of_ne_nil _ unnamed] at bracket) name
        (by simp)
    · have filled' : (trimStart tail).isEmpty = false := by simpa using last
      have pair : Text.join [' '] ([language] ++ [respaced (trimStart tail)]) =
          language ++ ' ' :: respaced (trimStart tail) := by
        rw [List.singleton_append, Text.join_cons (by simp), List.append_assoc]
        rfl
      rw [filled', if_neg Bool.false_ne_true, id, pair]
      exact read_spaced trimmed bracket name unnamed last

end Language

/-- The number of characters that the parts take, the brackets included. -/
def size (info : Info) : Nat :=
  (info.language.getD "").length + (info.filename.elim 0 fun name => name.length + 2) + (info.meta?.getD "").length

theorem size_behind_le (language : Option String) (rest : List Char) :
    (behind language rest).size ≤ (language.getD "").length + rest.length := by
  have own : ∀ s : List Char, ((if s.isEmpty then none else some (String.ofList s)).getD "").length = s.length := by
    rintro (_ | ⟨c, more⟩)
    · rfl
    · exact String.length_ofList
  rw [behind]
  cases found : filename? rest with
  | none =>
    simp only [size, own, Option.elim_none]
    omega
  | some parts =>
    obtain ⟨name, after⟩ := parts
    obtain ⟨behind, rfl, -, rfl⟩ := filename?_eq_some_iff.1 found
    have shorter : (trimStart behind).length ≤ behind.length := (List.dropWhile_suffix isBlank).length_le
    simp only [size, own, Option.elim_some, String.length_ofList, List.length_cons, List.length_append]
    omega

theorem size_read_le (text : List Char) : (read text).size ≤ text.length := by
  have trimmed := Text.trim_trim text
  have inside := (Text.trim_infix text).length_le
  rw [← read_trim text]
  generalize trim text = s at *
  rcases exists_language s with bracket | ⟨language, tail, rfl, content, bracket, name, stop⟩
  · have bound := size_behind_le none s
    rw [read_of_bracket trimmed bracket]
    rw [Option.getD_none, String.length_empty] at bound
    omega
  · have bound := size_behind_le (some (String.ofList language)) (trimStart tail)
    have shorter : (trimStart tail).length ≤ tail.length := (List.dropWhile_suffix isBlank).length_le
    rw [read_of_language trimmed content bracket name stop]
    rw [Option.getD_some, String.length_ofList] at bound
    rw [List.length_append] at inside
    omega

theorem length_join_partOf_le (front back : Option String) :
    (Text.join [' '] (partOf front id ++ partOf back id)).length ≤
      (front.getD "").length + (back.getD "").length + 1 := by
  have part : ∀ part : Option String, partOf part id = [] ∨ partOf part id = [(part.getD "").toList] := by
    rintro (_ | s)
    · exact Or.inl rfl
    · rw [partOf, Option.elim_some, Option.getD_some]
      split
      · exact Or.inl rfl
      · exact Or.inr rfl
  rcases part front with first | first <;> rcases part back with second | second <;>
    simp only [first, second, Text.join, List.nil_append, List.append_nil, List.singleton_append, List.length_nil,
      List.length_append, List.length_singleton, String.length_toList] <;> omega

/-- The brackets of an empty file name are longer than a blank, so what is written is shorter than the parts. -/
theorem length_write_lt {info : Info} (unnamed : info.filename = some "") : info.write.length < info.size := by
  have bound := length_join_partOf_le info.language info.meta?
  have missing : partOf (some "") (fun s => '[' :: (s ++ [']'])) = [] := rfl
  rw [write_eq, size, unnamed, missing, List.append_nil, Option.elim_some, String.length_empty]
  omega

/-- The parts of an info string are read again when they were written, unless there is a file name that is empty. -/
theorem read_write_read_iff (text : List Char) :
    read (read text).write = read text ↔ (read text).filename ≠ some "" := by
  refine ⟨fun again unnamed => ?_, fun named => ?_⟩
  · have shorter := length_write_lt unnamed
    have bound := size_read_le (read text).write
    rw [again] at bound
    omega
  · have trimmed := Text.trim_trim text
    rw [← read_trim text] at named ⊢
    generalize trim text = s at *
    rcases exists_language s with bracket | ⟨language, tail, rfl, content, bracket, name, stop⟩
    · rw [read_of_bracket trimmed bracket] at named ⊢
      exact read_write_of_bracket trimmed bracket named
    · rw [read_of_language trimmed content bracket name stop] at named ⊢
      exact read_write_of_language trimmed content bracket name stop named

end Info

end ComponentMarkdown.CodeFence
