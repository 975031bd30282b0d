import ComponentMarkdown.Attrs
import Mathlib.Data.List.Forall2
import Mathlib.Data.List.Perm.Subperm

namespace ComponentMarkdown

namespace Double

theorem not_isNaN_of_isFinite {x : Double} (finite : x.isFinite = true) : x.isNaN = false := by
  simp only [isFinite, decide_eq_true_eq] at finite
  simp [isNaN, finite]

theorem numEq_iff {x y : Double} :
    x.numEq y = true ↔
      x.isNaN = false ∧ y.isNaN = false ∧ (x.bits = y.bits ∨ x.isZero = true ∧ y.isZero = true) := by
  simp only [numEq, Bool.and_eq_true, Bool.not_eq_true', Bool.or_eq_true, decide_eq_true_eq, and_assoc]

theorem numEq_refl {x : Double} (finite : x.isFinite = true) : x.numEq x = true :=
  numEq_iff.2 ⟨not_isNaN_of_isFinite finite, not_isNaN_of_isFinite finite, Or.inl rfl⟩

theorem numEq_symm {x y : Double} (equal : x.numEq y = true) : y.numEq x = true := by
  obtain ⟨left, right, bits⟩ := numEq_iff.1 equal
  exact numEq_iff.2 ⟨right, left, bits.imp Eq.symm And.symm⟩

theorem numEq_trans {x y z : Double} (equal : x.numEq y = true) (equal' : y.numEq z = true) :
    x.numEq z = true := by
  obtain ⟨left, _, bits⟩ := numEq_iff.1 equal
  obtain ⟨_, right, bits'⟩ := numEq_iff.1 equal'
  refine numEq_iff.2 ⟨left, right, ?_⟩
  rcases x with ⟨bx⟩
  rcases y with ⟨bY⟩
  rcases z with ⟨bz⟩
  rcases bits with rfl | ⟨zero, zero'⟩
  · exact bits'
  · rcases bits' with rfl | ⟨_, zero''⟩
    · exact Or.inr ⟨zero, zero'⟩
    · exact Or.inr ⟨zero, zero''⟩

end Double

mutual

/-- Whether no object in a value has a key twice and every double is a number. -/
def Value.wellFormed : Value → Bool
  | .num (.float x) => x.isFinite
  | .arr items => Value.itemsWellFormed items
  | .obj fields => decide (fields.map Prod.fst).Nodup && Value.fieldsWellFormed fields
  | _ => true

def Value.itemsWellFormed : List Value → Bool
  | [] => true
  | v :: rest => v.wellFormed && Value.itemsWellFormed rest

def Value.fieldsWellFormed : List (String × Value) → Bool
  | [] => true
  | (_, v) :: rest => v.wellFormed && Value.fieldsWellFormed rest

end

namespace Value

theorem sizeOf_item_lt {items : List Value} {v : Value} (member : v ∈ items) :
    sizeOf v < sizeOf (arr items) := by
  have smaller := List.sizeOf_lt_of_mem member
  simp only [arr.sizeOf_spec]
  omega

theorem sizeOf_field_lt {fields : List (String × Value)} {entry : String × Value} (member : entry ∈ fields) :
    sizeOf entry.2 < sizeOf (obj fields) := by
  have smaller := List.sizeOf_lt_of_mem member
  obtain ⟨key, v⟩ := entry
  simp only [Prod.mk.sizeOf_spec, obj.sizeOf_spec] at smaller ⊢
  omega

/-- What holds of a value as soon as it holds of its items and fields holds of every value. -/
theorem induction {P : Value → Prop}
    (step : ∀ v, (∀ items, v = arr items → ∀ w ∈ items, P w) →
      (∀ fields, v = obj fields → ∀ entry ∈ fields, P entry.2) → P v) (v : Value) : P v := by
  induction size : sizeOf v using Nat.strongRecOn generalizing v with
  | ind n ih =>
    refine step v ?_ ?_
    · rintro items rfl w member
      exact ih _ (by rw [← size]; exact sizeOf_item_lt member) w rfl
    · rintro fields rfl entry member
      exact ih _ (by rw [← size]; exact sizeOf_field_lt member) entry.2 rfl

theorem wellFormed_arr_iff {items : List Value} :
    (arr items).wellFormed = true ↔ ∀ v ∈ items, v.wellFormed = true := by
  rw [wellFormed]
  induction items with
  | nil => simp [itemsWellFormed]
  | cons v rest ih => rw [itemsWellFormed, Bool.and_eq_true, ih, List.forall_mem_cons]

theorem wellFormed_obj_iff {fields : List (String × Value)} :
    (obj fields).wellFormed = true ↔
      (fields.map Prod.fst).Nodup ∧ ∀ entry ∈ fields, entry.2.wellFormed = true := by
  have values : fieldsWellFormed fields = true ↔ ∀ entry ∈ fields, entry.2.wellFormed = true := by
    induction fields with
    | nil => simp [fieldsWellFormed]
    | cons entry rest ih => rw [fieldsWellFormed, Bool.and_eq_true, ih, List.forall_mem_cons]
  rw [wellFormed, Bool.and_eq_true, decide_eq_true_eq, values]

theorem sameItems_iff {a b : List Value} :
    sameItems a b = true ↔ List.Forall₂ (fun v w => v.same w = true) a b := by
  induction a generalizing b with
  | nil => cases b <;> simp [sameItems]
  | cons v rest ih =>
    cases b with
    | nil => simp [sameItems]
    | cons w rest' => rw [sameItems, Bool.and_eq_true, ih, List.forall₂_cons]

theorem sameFields_iff {a b : List (String × Value)} :
    (a.length == b.length && sameFields a b) = true ↔
      a.length = b.length ∧ ∀ entry ∈ a, ∃ w, b.lookup entry.1 = some w ∧ entry.2.same w = true := by
  have fields : sameFields a b = true ↔
      ∀ entry ∈ a, ∃ w, b.lookup entry.1 = some w ∧ entry.2.same w = true := by
    induction a with
    | nil => simp [sameFields]
    | cons entry rest ih =>
      obtain ⟨key, v⟩ := entry
      rw [sameFields, Bool.and_eq_true, ih, List.forall_mem_cons]
      cases b.lookup key <;> simp
  rw [Bool.and_eq_true, beq_iff_eq, fields]

theorem same_obj_iff {a b : List (String × Value)} :
    (obj a).same (obj b) = true ↔
      a.length = b.length ∧ ∀ entry ∈ a, ∃ w, b.lookup entry.1 = some w ∧ entry.2.same w = true := by
  rw [same, sameFields_iff]

theorem lookup_of_mem {fields : List (String × Value)} (distinct : (fields.map Prod.fst).Nodup)
    {entry : String × Value} (member : entry ∈ fields) : fields.lookup entry.1 = some entry.2 := by
  induction fields with
  | nil => exact absurd member (by simp)
  | cons first rest ih =>
    obtain ⟨key, v⟩ := first
    rw [List.map_cons, List.nodup_cons] at distinct
    rcases List.mem_cons.1 member with rfl | member
    · simp
    · have other : entry.1 ≠ key := fun same => distinct.1 (List.mem_map.2 ⟨entry, member, same⟩)
      rw [List.lookup_cons, beq_eq_false_iff_ne.2 other]
      exact ih distinct.2 member

theorem mem_of_lookup {fields : List (String × Value)} {key : String} {v : Value}
    (found : fields.lookup key = some v) : (key, v) ∈ fields := by
  induction fields with
  | nil => exact absurd found (by simp)
  | cons first rest ih =>
    rw [List.lookup_cons] at found
    split at found
    · rename_i equal
      rw [← Option.some.inj found, beq_iff_eq.1 equal]
      exact List.mem_cons_self
    · exact List.mem_cons_of_mem _ (ih found)

theorem same_refl (v : Value) (valid : v.wellFormed = true) : v.same v = true := by
  induction v using induction with
  | step v ihItems ihFields =>
    cases v
    case arr items =>
      rw [same]
      refine sameItems_iff.2 (List.forall₂_same.2 fun w member => ?_)
      exact ihItems items rfl w member (wellFormed_arr_iff.1 valid w member)
    case obj fields =>
      obtain ⟨distinct, values⟩ := wellFormed_obj_iff.1 valid
      refine same_obj_iff.2 ⟨rfl, fun entry member => ⟨entry.2, lookup_of_mem distinct member, ?_⟩⟩
      exact ihFields fields rfl entry member (values entry member)
    case num number =>
      cases number with
      | int n => simp [same, Number.same]
      | float x => exact Double.numEq_refl valid
    all_goals simp [same]

theorem same_trans {u v w : Value} (left : u.same v = true) (right : v.same w = true) : u.same w = true := by
  induction u using induction generalizing v w with
  | step u ihItems ihFields =>
    cases u <;> cases v <;> simp only [same, Bool.false_eq_true] at left <;>
      cases w <;> simp only [same, Bool.false_eq_true] at right
    case null.null.null => rfl
    case bool.bool.bool => simp_all [same]
    case str.str.str => simp_all [same]
    case num.num.num x y z =>
      cases x <;> cases y <;> simp only [Number.same, Bool.false_eq_true] at left <;>
        cases z <;> simp only [Number.same, Bool.false_eq_true] at right
      · simp_all [same, Number.same]
      · exact Double.numEq_trans left right
    case arr.arr.arr xs ys zs =>
      replace left := sameItems_iff.1 left
      replace right := sameItems_iff.1 right
      rw [same, sameItems_iff]
      refine List.forall₂_iff_get.2 ⟨left.length_eq.trans right.length_eq, fun i first last => ?_⟩
      have middle : i < ys.length := left.length_eq ▸ first
      exact ihItems xs rfl _ (List.get_mem xs ⟨i, first⟩) (left.get first middle) (right.get middle last)
    case obj.obj.obj a b c =>
      replace left := sameFields_iff.1 left
      replace right := sameFields_iff.1 right
      refine same_obj_iff.2 ⟨left.1.trans right.1, fun entry member => ?_⟩
      obtain ⟨y, found, equal⟩ := left.2 entry member
      obtain ⟨z, found', equal'⟩ := right.2 _ (mem_of_lookup found)
      exact ⟨z, found', ihFields a rfl entry member equal equal'⟩

/-- Two objects with the same number of keys have the same keys if the keys of one are keys of the
other. -/
theorem keys_perm {a b : List (String × Value)} (distinct : (a.map Prod.fst).Nodup)
    (length : a.length = b.length) (found : ∀ entry ∈ a, ∃ w, b.lookup entry.1 = some w) :
    (a.map Prod.fst).Perm (b.map Prod.fst) := by
  have keys : a.map Prod.fst ⊆ b.map Prod.fst := by
    intro key member
    obtain ⟨entry, inside, rfl⟩ := List.mem_map.1 member
    obtain ⟨w, at'⟩ := found entry inside
    exact List.mem_map.2 ⟨_, mem_of_lookup at', rfl⟩
  exact (distinct.subperm keys).perm_of_length_le (by simp only [List.length_map, length]; exact Nat.le_refl _)

theorem same_symm {u v : Value} (valid : u.wellFormed = true) (valid' : v.wellFormed = true)
    (equal : u.same v = true) : v.same u = true := by
  induction u using induction generalizing v with
  | step u ihItems ihFields =>
    cases u <;> cases v <;> simp only [same, Bool.false_eq_true] at equal
    case null.null => rfl
    case bool.bool => simp_all [same]
    case str.str => simp_all [same]
    case num.num x y =>
      cases x <;> cases y <;> simp only [Number.same, Bool.false_eq_true] at equal
      · simp_all [same, Number.same]
      · exact Double.numEq_symm equal
    case arr.arr xs ys =>
      rw [wellFormed_arr_iff] at valid valid'
      replace equal := sameItems_iff.1 equal
      rw [same]
      refine sameItems_iff.2 (List.forall₂_iff_get.2 ⟨equal.length_eq.symm, fun i first last => ?_⟩)
      exact ihItems xs rfl _ (List.get_mem xs ⟨i, last⟩) (valid _ (List.get_mem xs ⟨i, last⟩))
        (valid' _ (List.get_mem ys ⟨i, first⟩)) (equal.get last first)
    case obj.obj a b =>
      obtain ⟨distinct, values⟩ := wellFormed_obj_iff.1 valid
      obtain ⟨distinct', values'⟩ := wellFormed_obj_iff.1 valid'
      obtain ⟨length, found⟩ := sameFields_iff.1 equal
      have keys := keys_perm distinct length fun entry member => (found entry member).imp fun _ h => h.1
      refine same_obj_iff.2 ⟨length.symm, fun entry member => ?_⟩
      obtain ⟨other, inside, key⟩ := List.mem_map.1 (keys.mem_iff.2 (List.mem_map.2 ⟨entry, member, rfl⟩))
      obtain ⟨w, at', equal⟩ := found other inside
      have same : w = entry.2 := by
        rw [key, lookup_of_mem distinct' member] at at'
        exact (Option.some.inj at').symm
      subst same
      refine ⟨other.2, key ▸ lookup_of_mem distinct inside, ?_⟩
      exact ihFields a rfl other inside (values other inside) (values' entry member) equal

end Value

end ComponentMarkdown
