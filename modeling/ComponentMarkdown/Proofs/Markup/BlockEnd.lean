import ComponentMarkdown.Markup.AttributeReader
import Mathlib.Data.List.Basic

namespace ComponentMarkdown

namespace AttributeBlock

/-- What was found behind a text, with the text in front. -/
def behind (front : List Char) (found : List Char × List Char) : List Char × List Char :=
    (front ++ found.1, found.2)

theorem behind_behind (front more : List Char) (found : List Char × List Char) :
    behind front (behind more found) = behind (front ++ more) found := by
  rw [behind, behind, behind, List.append_assoc]

section Step

variable (depth : Nat) (quote c : Char) (rest : List Char)

theorem closing?_escaped : closing? depth (some quote) ('\\' :: c :: rest) =
    (closing? depth (some quote) rest).map (behind ['\\', c]) := by
  rw [closing?]
  rfl

theorem closing?_quoted {c : Char} (plain : c ≠ '\\') : closing? depth (some quote) (c :: rest) =
    (closing? depth (if c = quote then none else some quote) rest).map (behind [c]) := by
  rw [closing?]
  · rfl
  · exact fun same => absurd same plain
  · exact fun _ _ same => absurd same plain

theorem closing?_bare : closing? depth none (c :: rest) =
    if isQuote c then (closing? depth (some c) rest).map (behind [c])
    else if c = '\x7b' then (closing? (depth + 1) none rest).map (behind [c])
    else if c = '\x7d' then
      if depth ≤ 1 then some ([c], rest) else (closing? (depth - 1) none rest).map (behind [c])
    else if c = '\n' then none
    else (closing? depth none rest).map (behind [c]) := by
  by_cases plain : c = '\\'
  · subst plain
    cases rest with
    | nil => rfl
    | cons d rest => rw [closing?]; rfl
  · rw [closing?]
    · by_cases brace : c = '\x7d'
      · subst brace
        rfl
      · simp only [if_neg brace]
        rfl
    · exact fun same => absurd same plain
    · exact fun _ _ same => absurd same plain

end Step

/-- A block is cut off at the brace that closes it, whatever stands behind. -/
structure Closes (depth : Nat) (quote : Option Char) (s text tail : List Char) : Prop where
  append : s = text ++ tail
  alone : ∀ more, closing? depth quote (text ++ more) = some (text, more)

theorem closes_of_closing? {depth : Nat} {quote : Option Char} {s text tail : List Char}
    (found : closing? depth quote s = some (text, tail)) : Closes depth quote s text tail := by
  have step : ∀ {depth depth' : Nat} {quote quote' : Option Char} {c : Char} {rest text : List Char},
      (closing? depth' quote' rest).map (behind [c]) = some (text, tail) →
      (∀ {text}, closing? depth' quote' rest = some (text, tail) → Closes depth' quote' rest text tail) →
      (∀ rest, closing? depth quote (c :: rest) = (closing? depth' quote' rest).map (behind [c])) →
      Closes depth quote (c :: rest) text tail := by
    intro depth depth' quote quote' c rest text found ih next
    obtain ⟨⟨inner, left⟩, later, same⟩ := Option.map_eq_some_iff.1 found
    obtain ⟨rfl, rfl⟩ := Prod.mk.inj same
    obtain ⟨rfl, alone⟩ := ih later
    refine ⟨rfl, fun more => ?_⟩
    rw [List.append_assoc, List.singleton_append, next, alone]
    rfl
  fun_induction closing? depth quote s generalizing text with
  | case1 => cases found
  | case2 => cases found
  | case3 depth c rest q ih =>
    obtain ⟨⟨inner, left⟩, later, same⟩ := Option.map_eq_some_iff.1 found
    obtain ⟨rfl, rfl⟩ := Prod.mk.inj same
    obtain ⟨rfl, alone⟩ := ih later
    refine ⟨rfl, fun more => ?_⟩
    rw [List.cons_append, List.cons_append, closing?_escaped, alone]
    rfl
  | case4 depth c rest ih => exact step found ih fun rest => by simp [closing?_bare, isQuote]
  | case5 depth c rest alone pair =>
    rename_i q ih
    have plain : c ≠ '\\' := by
      rintro rfl
      cases rest with
      | nil => exact alone rfl rfl
      | cons d more => exact pair d more rfl rfl
    exact step found (ih _ _) fun rest => closing?_quoted depth q rest plain
  | case6 depth c rest =>
    rename_i quote ih
    exact step found (ih _ _) fun rest => by rw [closing?_bare, if_pos quote]
  | case7 depth rest =>
    rename_i ih
    exact step found (ih _ _) fun rest => by rfl
  | case8 depth rest last =>
    obtain ⟨rfl, rfl⟩ := Prod.mk.inj (Option.some.inj found)
    refine ⟨rfl, fun more => ?_⟩
    rw [List.singleton_append, closing?_bare]
    simp [last, isQuote]
  | case9 depth rest deeper =>
    rename_i ih
    exact step found (ih _ _) fun rest => by simp [closing?_bare, deeper, isQuote]
  | case10 => cases found
  | case11 depth c rest =>
    rename_i noQuote noOpen noClose noFeed ih
    exact step found (ih _ _) fun rest => by
      rw [closing?_bare, if_neg noQuote, if_neg noOpen, if_neg noClose, if_neg noFeed]

theorem split?_eq_append {s block tail : List Char} (found : split? s = some (block, tail)) :
    s = block ++ tail ∧ block ≠ [] ∧ ∀ more, split? (block ++ more) = some (block, more) := by
  unfold split? at found
  split at found
  · rename_i rest
    obtain ⟨⟨text, left⟩, later, same⟩ := Option.map_eq_some_iff.1 found
    obtain ⟨rfl, rfl⟩ := Prod.mk.inj same
    obtain ⟨rfl, alone⟩ := closes_of_closing? later
    refine ⟨rfl, List.cons_ne_nil _ _, fun more => ?_⟩
    rw [List.cons_append, split?, alone]
    rfl
  · cases found

end AttributeBlock

end ComponentMarkdown
