import ComponentMarkdown.Proofs.Value
import Mathlib.Data.List.Nodup
import Mathlib.Data.List.TakeDrop

namespace ComponentMarkdown.Attrs

/-- Whether a map is one: no key occurs twice, in it or in any object in its values. -/
def wellFormed (attrs : Attrs) : Bool := (Value.obj attrs).wellFormed

theorem distinct_of_wellFormed {attrs : Attrs} (valid : attrs.wellFormed = true) : attrs.Distinct :=
  (Value.wellFormed_obj_iff.1 valid).1

theorem wellFormed_iff {attrs : Attrs} :
    attrs.wellFormed = true ↔ attrs.Distinct ∧ ∀ entry ∈ attrs, entry.2.wellFormed = true :=
  Value.wellFormed_obj_iff

theorem get?_of_mem {attrs : Attrs} (distinct : attrs.Distinct) {entry : String × Value} (member : entry ∈ attrs) :
    attrs.get? entry.1 = some entry.2 := Value.lookup_of_mem distinct member

theorem get?_eq_some_iff {attrs : Attrs} (distinct : attrs.Distinct) {key : String} {value : Value} :
    attrs.get? key = some value ↔ (key, value) ∈ attrs :=
  ⟨Value.mem_of_lookup, get?_of_mem distinct⟩

theorem get?_eq_none_iff {attrs : Attrs} {key : String} : attrs.get? key = none ↔ key ∉ attrs.keys := by
  unfold get? keys
  rw [List.lookup_eq_none_iff]
  simp only [List.mem_map, not_exists, not_and]
  refine forall_congr' fun entry => imp_congr_right fun _ => ?_
  rw [bne_iff_ne, ne_comm]

@[simp]
theorem get?_nil (key : String) : Attrs.get? [] key = none := rfl

theorem get?_cons (key key' : String) (value : Value) (attrs : Attrs) :
    Attrs.get? ((key', value) :: attrs) key = if key = key' then some value else attrs.get? key := by
  by_cases same : key = key'
  · simp [get?, same]
  · simp [get?, List.lookup_cons, beq_eq_false_iff_ne.2 same, same]

theorem get?_append (attrs more : Attrs) (key : String) :
    Attrs.get? (attrs ++ more) key = (attrs.get? key).or (more.get? key) := by
  simp only [get?, List.lookup_append]

section Permutation

variable {attrs other : Attrs}

theorem Distinct.perm (distinct : attrs.Distinct) (perm : attrs.Perm other) : other.Distinct :=
  (perm.map Prod.fst).nodup_iff.1 distinct

theorem Distinct.append_right (distinct : Distinct (attrs ++ other)) : other.Distinct := by
  rw [Distinct, keys, List.map_append] at distinct
  exact distinct.of_append_right

theorem Distinct.append_left (distinct : Distinct (attrs ++ other)) : attrs.Distinct := by
  rw [Distinct, keys, List.map_append] at distinct
  exact distinct.of_append_left

theorem get?_perm (distinct : attrs.Distinct) (perm : attrs.Perm other) (key : String) :
    attrs.get? key = other.get? key := by
  refine Option.ext fun value => ?_
  rw [get?_eq_some_iff distinct, get?_eq_some_iff (distinct.perm perm), perm.mem_iff]

theorem wellFormed_perm (valid : attrs.wellFormed = true) (perm : attrs.Perm other) :
    other.wellFormed = true := by
  obtain ⟨distinct, values⟩ := wellFormed_iff.1 valid
  exact wellFormed_iff.2 ⟨distinct.perm perm, fun entry member => values entry (perm.mem_iff.2 member)⟩

theorem same_refl (valid : attrs.wellFormed = true) : attrs.same attrs = true := Value.same_refl _ valid

theorem same_symm (valid : attrs.wellFormed = true) (valid' : other.wellFormed = true)
    (equal : attrs.same other = true) : other.same attrs = true := Value.same_symm valid valid' equal

theorem same_trans {a b c : Attrs} (left : a.same b = true) (right : b.same c = true) : a.same c = true :=
  Value.same_trans left right

theorem same_iff {a b : Attrs} :
    a.same b = true ↔
      a.length = b.length ∧ ∀ entry ∈ a, ∃ w, b.get? entry.1 = some w ∧ entry.2.same w = true :=
  Value.same_obj_iff

theorem same_of_perm (valid : attrs.wellFormed = true) (perm : attrs.Perm other) :
    attrs.same other = true := by
  obtain ⟨distinct, values⟩ := wellFormed_iff.1 valid
  refine same_iff.2 ⟨perm.length_eq, fun entry member => ⟨entry.2, ?_, ?_⟩⟩
  · exact get?_of_mem (distinct.perm perm) (perm.mem_iff.1 member)
  · exact Value.same_refl _ (values entry member)

/-- The order of entries does not count in comparing maps. -/
theorem same_congr {a b a' b' : Attrs} (valid : a.wellFormed = true) (valid' : b.wellFormed = true)
    (perm : a.Perm a') (perm' : b.Perm b') : a.same b = a'.same b' := by
  have here := same_of_perm valid perm
  have there := same_of_perm valid' perm'
  have here' := same_symm valid (wellFormed_perm valid perm) here
  have there' := same_symm valid' (wellFormed_perm valid' perm') there
  exact Bool.eq_iff_iff.2 ⟨fun equal => same_trans here' (same_trans equal there),
    fun equal => same_trans here (same_trans equal there')⟩

end Permutation

section Operations

variable {attrs : Attrs} {key : String}

theorem insert_of_get?_none (missing : attrs.get? key = none) (value : Value) :
    attrs.insert key value = attrs ++ [(key, value)] := by
  rw [get?_eq_none_iff] at missing
  induction attrs with
  | nil => rfl
  | cons entry rest ih =>
    obtain ⟨k, v⟩ := entry
    rw [keys, List.map_cons, List.mem_cons, not_or] at missing
    rw [insert, if_neg (Ne.symm missing.1), ih missing.2, List.cons_append]

theorem Distinct.get?_eq_none {value : Value} {rest : Attrs} (distinct : Distinct (attrs ++ (key, value) :: rest)) :
    attrs.get? key = none := by
  rw [get?_eq_none_iff]
  rw [Distinct, keys, List.map_append, List.map_cons, List.nodup_append] at distinct
  exact fun inside => distinct.2.2 key inside key List.mem_cons_self rfl

theorem insertAll_of_distinct {more : Attrs} (distinct : Distinct (attrs ++ more)) :
    attrs.insertAll more = attrs ++ more := by
  induction more generalizing attrs with
  | nil => simp [insertAll]
  | cons entry rest ih =>
    obtain ⟨k, v⟩ := entry
    have missing := distinct.get?_eq_none
    rw [List.append_cons] at distinct
    have later := ih distinct
    simp only [insertAll] at later
    rw [insertAll, List.foldl_cons, insert_of_get?_none missing, later, ← List.append_cons]

theorem exists_split {value : Value} (found : attrs.get? key = some value) :
    ∃ before after : Attrs, attrs = before ++ (key, value) :: after ∧ before.get? key = none := by
  induction attrs with
  | nil => exact absurd found (by simp [get?])
  | cons entry rest ih =>
    obtain ⟨k, v⟩ := entry
    by_cases same : key = k
    · subst same
      rw [get?, List.lookup_cons_self] at found
      cases found
      exact ⟨[], rest, rfl, rfl⟩
    · rw [get?, List.lookup_cons, beq_eq_false_iff_ne.2 same] at found
      obtain ⟨before, after, split, missing⟩ := ih found
      refine ⟨(k, v) :: before, after, by rw [split, List.cons_append], ?_⟩
      rw [get?, List.lookup_cons, beq_eq_false_iff_ne.2 same]
      exact missing

theorem insert_split {before : Attrs} {value : Value} (missing : before.get? key = none) (after : Attrs)
    (value' : Value) : insert (before ++ (key, value) :: after) key value' = before ++ (key, value') :: after := by
  rw [get?_eq_none_iff] at missing
  induction before with
  | nil => rw [List.nil_append, insert, if_pos rfl, List.nil_append]
  | cons entry rest ih =>
    obtain ⟨k, v⟩ := entry
    rw [keys, List.map_cons, List.mem_cons, not_or] at missing
    rw [List.cons_append, insert, if_neg (Ne.symm missing.1), ih missing.2, List.cons_append]

/-- What is left when a key is removed: the last entry stands in its place. -/
theorem erase_split {before after : Attrs} {value : Value} (missing : before.get? key = none) :
    erase (before ++ (key, value) :: after) key =
      before ++ (after.getLast?.toList ++ after.dropLast) := by
  have others : ∀ entry ∈ before, decide (entry.1 ≠ key) = true := by
    intro entry member
    rw [get?_eq_none_iff] at missing
    exact decide_eq_true fun same => missing (List.mem_map.2 ⟨entry, member, same⟩)
  rw [erase, List.span_eq_takeWhile_dropWhile, List.takeWhile_append_of_pos others,
    List.dropWhile_append_of_pos others]
  simp only [ne_eq, not_true_eq_false, decide_false, Bool.false_eq_true, not_false_eq_true,
    List.takeWhile_cons_of_neg, List.dropWhile_cons_of_neg, List.append_nil]
  cases last : after.getLast? with
  | none => simp only [List.getLast?_eq_none_iff.1 last, Option.toList_none, List.dropLast_nil, List.append_nil]
  | some entry => simp only [Option.toList_some, List.cons_append, List.nil_append]

/-- Removing a key takes one entry with the key out. -/
theorem perm_cons_erase {value : Value} (found : attrs.get? key = some value) :
    attrs.Perm ((key, value) :: attrs.erase key) := by
  obtain ⟨before, after, rfl, missing⟩ := exists_split found
  rw [erase_split missing]
  refine List.perm_middle.trans (List.Perm.cons _ (List.Perm.append_left _ ?_))
  rcases List.eq_nil_or_concat after with rfl | ⟨front, last, rfl⟩
  · exact List.Perm.refl _
  · simp only [List.concat_eq_append, List.getLast?_append, List.getLast?_singleton, Option.some_or,
      Option.toList_some, List.dropLast_concat]
    exact List.perm_append_comm

theorem erase_of_get?_none (missing : attrs.get? key = none) : attrs.erase key = attrs := by
  have others : ∀ entry ∈ attrs, decide (entry.1 ≠ key) = true := by
    intro entry member
    rw [get?_eq_none_iff] at missing
    exact decide_eq_true fun same => missing (List.mem_map.2 ⟨entry, member, same⟩)
  have all : (attrs ++ []).dropWhile (fun entry : String × Value => decide (entry.1 ≠ key)) = [] :=
    List.dropWhile_append_of_pos others
  rw [List.append_nil] at all
  rw [erase, List.span_eq_takeWhile_dropWhile, all]

theorem erase_perm {other : Attrs} (distinct : attrs.Distinct) (perm : attrs.Perm other) (key : String) :
    (attrs.erase key).Perm (other.erase key) := by
  have same := get?_perm distinct perm key
  cases found : attrs.get? key with
  | none => rwa [erase_of_get?_none found, erase_of_get?_none (same ▸ found)]
  | some value =>
    have left := perm_cons_erase found
    have right := perm_cons_erase (same ▸ found : other.get? key = some value)
    exact (left.symm.trans (perm.trans right)).cons_inv

/-- The entry of a key, if there is one. -/
def field (attrs : Attrs) (key : String) : Attrs := ((attrs.get? key).map fun value => (key, value)).toList

theorem get?_field_of_ne {key' : String} (differ : key' ≠ key) : (attrs.field key).get? key' = none := by
  rw [field]
  cases attrs.get? key with
  | none => rfl
  | some value => simp only [Option.map_some, Option.toList_some, get?_cons, if_neg differ, get?_nil]

/-- A map with few keys, listed in the order of the keys. -/
theorem perm_flatMap_field (distinct : attrs.Distinct) {listed : List String} (nodup : listed.Nodup)
    (known : ∀ key ∈ attrs.keys, key ∈ listed) : attrs.Perm (listed.flatMap attrs.field) := by
  have entries : attrs.Nodup := List.Nodup.of_map Prod.fst distinct
  have mapped : listed.flatMap attrs.field =
      listed.filterMap fun key => (attrs.get? key).map fun value => (key, value) :=
    (List.filterMap_eq_flatMap_toList _ _).symm
  rw [mapped]
  refine (List.perm_ext_iff_of_nodup entries ?_).2 fun entry => ?_
  · refine List.Nodup.filterMap ?_ nodup
    intro k k' entry at' at''
    simp only [Option.mem_def, Option.map_eq_some_iff] at at' at''
    obtain ⟨_, _, rfl⟩ := at'
    obtain ⟨_, _, same⟩ := at''
    exact (congrArg Prod.fst same).symm
  · simp only [List.mem_filterMap, Option.map_eq_some_iff]
    constructor
    · intro member
      exact ⟨entry.1, known _ (List.mem_map.2 ⟨entry, member, rfl⟩), entry.2, get?_of_mem distinct member, rfl⟩
    · rintro ⟨key, _, value, found, rfl⟩
      exact (get?_eq_some_iff distinct).1 found

/-- The only entry of a map. -/
theorem field_of_only (distinct : attrs.Distinct) (only : List.all attrs (fun entry => entry.1 = key) = true) :
    attrs.field key = attrs := by
  have perm := perm_flatMap_field distinct (List.nodup_singleton key) (by
    intro key member
    obtain ⟨entry, inside, rfl⟩ := List.mem_map.1 member
    have here := List.all_eq_true.1 only entry inside
    simpa using here)
  simp only [List.flatMap_cons, List.flatMap_nil, List.append_nil] at perm
  rw [field] at perm ⊢
  cases found : attrs.get? key with
  | none =>
    rw [found] at perm
    exact (List.perm_nil.1 perm).symm
  | some value =>
    rw [found] at perm
    exact (List.perm_singleton.1 perm).symm

theorem get?_insert (attrs : Attrs) (key key' : String) (value : Value) :
    (attrs.insert key value).get? key' = if key' = key then some value else attrs.get? key' := by
  induction attrs with
  | nil => rw [insert, get?_cons]
  | cons entry rest ih =>
    obtain ⟨k, v⟩ := entry
    rw [insert]
    split
    · rename_i same
      subst same
      rw [get?_cons, get?_cons]
      split <;> rfl
    · rename_i differ
      rw [get?_cons, get?_cons, ih]
      split
      · rename_i same
        subst same
        rw [if_neg differ]
      · rfl

theorem distinct_cons_iff {value : Value} :
    Distinct ((key, value) :: attrs) ↔ attrs.get? key = none ∧ attrs.Distinct := by
  rw [get?_eq_none_iff]
  exact List.nodup_cons

theorem Distinct.insert (distinct : attrs.Distinct) (key : String) (value : Value) :
    (attrs.insert key value).Distinct := by
  cases found : attrs.get? key with
  | none =>
    rw [insert_of_get?_none found]
    exact (distinct_cons_iff.2 ⟨found, distinct⟩).perm (List.perm_append_singleton _ _).symm
  | some old =>
    obtain ⟨before, after, rfl, missing⟩ := exists_split found
    rw [insert_split missing]
    simpa only [Distinct, keys, List.map_append, List.map_cons] using distinct

theorem get?_erase (distinct : attrs.Distinct) (key key' : String) :
    (attrs.erase key).get? key' = if key' = key then none else attrs.get? key' := by
  cases found : attrs.get? key with
  | none =>
    rw [erase_of_get?_none found]
    split
    · rename_i same
      rw [same, found]
    · rfl
  | some value =>
    have perm := perm_cons_erase found
    rw [get?_perm distinct perm, get?_cons]
    split
    · rename_i same
      rw [same, (distinct_cons_iff.1 (distinct.perm perm)).1]
    · rfl

theorem get?_erase_of_ne {key' : String} (distinct : attrs.Distinct) (differ : key' ≠ key) :
    (attrs.erase key).get? key' = attrs.get? key' := by
  rw [get?_erase distinct, if_neg differ]

theorem get?_erase_self (distinct : attrs.Distinct) (key : String) : (attrs.erase key).get? key = none := by
  rw [get?_erase distinct, if_pos rfl]

theorem Distinct.erase (distinct : attrs.Distinct) (key : String) : (attrs.erase key).Distinct := by
  cases found : attrs.get? key with
  | none => rwa [erase_of_get?_none found]
  | some value => exact (distinct_cons_iff.1 (distinct.perm (perm_cons_erase found))).2

theorem get?_filter (attrs : Attrs) (distinct : attrs.Distinct) (keep : Value → Bool) (key : String) :
    Attrs.get? (attrs.filter fun entry => keep entry.2) key = (attrs.get? key).filter keep := by
  induction attrs with
  | nil => rfl
  | cons entry rest ih =>
    obtain ⟨k, v⟩ := entry
    obtain ⟨missing, below⟩ := distinct_cons_iff.1 distinct
    rw [get?_cons, List.filter_cons]
    by_cases same : key = k
    · subst same
      rw [if_pos rfl, Option.filter_some]
      split
      · rw [get?_cons, if_pos rfl]
      · rw [ih below, missing, Option.filter_none]
    · rw [if_neg same]
      split
      · rw [get?_cons, if_neg same, ih below]
      · exact ih below

theorem wellFormed_cons_iff {value : Value} :
    wellFormed ((key, value) :: attrs) = true ↔
      attrs.get? key = none ∧ value.wellFormed = true ∧ attrs.wellFormed = true := by
  rw [wellFormed_iff, distinct_cons_iff, List.forall_mem_cons, wellFormed_iff]
  constructor
  · rintro ⟨⟨missing, distinct⟩, valid, values⟩
    exact ⟨missing, valid, distinct, values⟩
  · rintro ⟨missing, valid, distinct, values⟩
    exact ⟨⟨missing, distinct⟩, valid, values⟩

theorem wellFormed_insert (valid : attrs.wellFormed = true) {value : Value} (valid' : value.wellFormed = true)
    (key : String) : (attrs.insert key value).wellFormed = true := by
  induction attrs with
  | nil => exact wellFormed_cons_iff.2 ⟨rfl, valid', valid⟩
  | cons entry rest ih =>
    obtain ⟨k, v⟩ := entry
    obtain ⟨missing, first, below⟩ := wellFormed_cons_iff.1 valid
    rw [insert]
    split
    · exact wellFormed_cons_iff.2 ⟨missing, valid', below⟩
    · rename_i differ
      refine wellFormed_cons_iff.2 ⟨?_, first, ih below⟩
      rw [get?_insert, if_neg differ, missing]

theorem wellFormed_erase (valid : attrs.wellFormed = true) (key : String) :
    (attrs.erase key).wellFormed = true := by
  cases found : attrs.get? key with
  | none => rwa [erase_of_get?_none found]
  | some value => exact (wellFormed_cons_iff.1 (wellFormed_perm valid (perm_cons_erase found))).2.2

theorem wellFormed_filter (valid : attrs.wellFormed = true) (keep : String × Value → Bool) :
    wellFormed (attrs.filter keep) = true := by
  obtain ⟨distinct, values⟩ := wellFormed_iff.1 valid
  refine wellFormed_iff.2 ⟨?_, fun entry member => values entry (List.mem_of_mem_filter member)⟩
  exact List.Nodup.sublist (List.filter_sublist.map Prod.fst) distinct

/-- Equality as maps is equality under every key. -/
theorem same_iff_get? {a b : Attrs} (valid : a.wellFormed = true) (valid' : b.wellFormed = true) :
    a.same b = true ↔ ∀ key, Option.Rel (fun v w => v.same w = true) (a.get? key) (b.get? key) := by
  have distinct := distinct_of_wellFormed valid
  have distinct' := distinct_of_wellFormed valid'
  constructor
  · intro equal key
    obtain ⟨length, found⟩ := same_iff.1 equal
    have keys := Value.keys_perm distinct length fun entry member => (found entry member).imp fun _ h => h.1
    cases here : a.get? key with
    | none =>
      rw [get?_eq_none_iff] at here
      rw [get?_eq_none_iff.2 fun inside => here (keys.mem_iff.2 inside)]
      exact .none
    | some value =>
      obtain ⟨w, there, equal⟩ := found _ ((get?_eq_some_iff distinct).1 here)
      rw [there]
      exact .some equal
  · intro equal
    have keys : ∀ key, key ∈ a.keys ↔ key ∈ b.keys := by
      intro key
      have both := equal key
      rw [← not_iff_not, ← get?_eq_none_iff, ← get?_eq_none_iff]
      generalize a.get? key = here at both ⊢
      generalize b.get? key = there at both ⊢
      cases both <;> simp
    have perm := (List.perm_ext_iff_of_nodup distinct distinct').2 keys
    refine same_iff.2 ⟨by simpa [Attrs.keys] using perm.length_eq, fun entry member => ?_⟩
    have both := equal entry.1
    rw [get?_of_mem distinct member] at both
    cases there : b.get? entry.1 with
    | none =>
      rw [there] at both
      cases both
    | some w =>
      rw [there] at both
      cases both with
      | some equal => exact ⟨w, rfl, equal⟩

end Operations

end ComponentMarkdown.Attrs
