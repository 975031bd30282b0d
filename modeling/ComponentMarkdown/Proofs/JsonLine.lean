import ComponentMarkdown.Json.Printer
import ComponentMarkdown.Proofs.Markup.AttributeBlock
import ComponentMarkdown.Proofs.Value

namespace ComponentMarkdown

namespace Decimal

theorem feed_not_mem_digitChars (n : Nat) : '\n' ∉ digitChars n := fun member =>
  absurd (Nat.isDigit_of_mem_toDigits (by decide) (by decide) member) (by decide)

end Decimal

namespace DoubleFormat

theorem feed_not_mem_exponentText (e : Int) : '\n' ∉ json.exponentText e := by
  have digits := Decimal.feed_not_mem_digitChars e.natAbs
  rw [exponentText]
  split <;> simp [json, digits]

theorem feed_not_mem_decimalText (d : Decimal) : '\n' ∉ json.decimalText d := by
  have digits := Decimal.feed_not_mem_digitChars d.digits
  rw [decimalText]
  generalize Decimal.digitChars d.digits = text at digits
  split
  · simp [digits]
  · split
    · have front : ∀ n, '\n' ∉ text.take n := fun n member => digits (List.mem_of_mem_take member)
      have back : ∀ n, '\n' ∉ text.drop n := fun n member => digits (List.mem_of_mem_drop member)
      simp [front, back]
    · split
      · simp [digits]
      · have exponent := feed_not_mem_exponentText (text.length + d.exponent - 1)
        split
        · simp
        · simp_all
        · simp_all

end DoubleFormat

namespace Json

theorem feed_not_mem_numberText (number : Number) : '\n' ∉ numberText number := by
  cases number with
  | int value => exact AttributeBlock.not_mem_of_solid (AttributeBlock.repr_int_plain value).2
  | float value =>
    have decimal := DoubleFormat.feed_not_mem_decimalText value.shortest
    rw [numberText, DoubleFormat.text]
    split <;> split <;> simp [decimal]

theorem hexDigit_ne_feed {n : Nat} (small : n < 16) : '\n' ≠ hexDigit n := by
  revert n
  decide

theorem feed_not_mem_escape (c : Char) : '\n' ∉ escape c := by
  by_cases feed : c = '\n'
  · subst feed
    decide
  · have control : c.val < 32 → '\n' ∉ ['\\', 'u', '0', '0', hexDigit (c.toNat / 16), hexDigit (c.toNat % 16)] := by
      intro low
      have bound : c.toNat < 32 := low
      simp [hexDigit_ne_feed (by omega : c.toNat / 16 < 16), hexDigit_ne_feed (by omega : c.toNat % 16 < 16)]
    rw [escape, if_neg feed]
    -- A letter stands for each of six characters; the others below the blank are numbers.
    iterate 6
      split
      · decide
    split
    · exact control ‹_›
    · simp [Ne.symm feed]

theorem feed_not_mem_quoted (s : String) : '\n' ∉ quoted s := by
  have inside : '\n' ∉ s.toList.flatMap escape := by
    rw [List.mem_flatMap]
    rintro ⟨c, _, member⟩
    exact feed_not_mem_escape c member
  simp [quoted, inside]

theorem compactItems_eq (items : List Value) : compactItems items = items.map compact := by
  induction items with
  | nil => rw [compactItems, List.map_nil]
  | cons v rest ih => rw [compactItems, ih, List.map_cons]

theorem compactFields_eq (fields : List (String × Value)) :
    compactFields fields = fields.map fun entry => quoted entry.1 ++ ':' :: compact entry.2 := by
  induction fields with
  | nil => rw [compactFields, List.map_nil]
  | cons entry rest ih => rw [compactFields, ih, List.map_cons]

theorem feed_not_mem_compact (v : Value) : '\n' ∉ compact v := by
  induction v using Value.induction with
  | step v items fields =>
    cases v with
    | null => decide
    | bool value => cases value <;> decide
    | num value => exact feed_not_mem_numberText value
    | str value => exact feed_not_mem_quoted value
    | arr values =>
      have inside : '\n' ∉ Text.join [','] (values.map compact) :=
        Text.not_mem_join (by decide) (List.forall_mem_map.2 fun w member => items values rfl w member)
      rw [compact, compactItems_eq]
      simp [inside]
    | obj entries =>
      have inside : '\n' ∉ Text.join [','] (entries.map fun entry => quoted entry.1 ++ ':' :: compact entry.2) :=
        Text.not_mem_join (by decide) <| List.forall_mem_map.2 fun entry member => by
          simp [feed_not_mem_quoted entry.1, fields entries rfl entry member]
      rw [compact, compactFields_eq]
      simp [inside]

end Json

end ComponentMarkdown
