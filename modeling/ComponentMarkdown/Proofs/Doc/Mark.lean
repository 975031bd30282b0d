import ComponentMarkdown.Doc.Mark
import ComponentMarkdown.Proofs.Attrs

namespace ComponentMarkdown.Mark

def wellFormed (mark : Mark) : Bool := mark.attrs.wellFormed

theorem same_iff {a b : Mark} : a.same b = true ↔ a.kind = b.kind ∧ a.attrs.same b.attrs = true := by
  rw [same, Bool.and_eq_true, decide_eq_true_eq]

theorem same_refl {mark : Mark} (valid : mark.wellFormed = true) : mark.same mark = true :=
  same_iff.2 ⟨rfl, Attrs.same_refl valid⟩

theorem same_symm {a b : Mark} (valid : a.wellFormed = true) (valid' : b.wellFormed = true)
    (equal : a.same b = true) : b.same a = true := by
  obtain ⟨kind, attrs⟩ := same_iff.1 equal
  exact same_iff.2 ⟨kind.symm, Attrs.same_symm valid valid' attrs⟩

theorem same_trans {a b c : Mark} (left : a.same b = true) (right : b.same c = true) : a.same c = true := by
  obtain ⟨kind, attrs⟩ := same_iff.1 left
  obtain ⟨kind', attrs'⟩ := same_iff.1 right
  exact same_iff.2 ⟨kind.trans kind', Attrs.same_trans attrs attrs'⟩

theorem sameList_iff {a b : List Mark} :
    sameList a b = true ↔ List.Forall₂ (fun mark other => mark.same other = true) a b := by
  induction a generalizing b with
  | nil => cases b <;> simp [sameList]
  | cons mark rest ih =>
    cases b with
    | nil => simp [sameList]
    | cons other rest' => rw [sameList, Bool.and_eq_true, ih, List.forall₂_cons]

theorem sameList_refl {marks : List Mark} (valid : ∀ mark ∈ marks, mark.wellFormed = true) :
    sameList marks marks = true :=
  sameList_iff.2 (List.forall₂_same.2 fun mark member => same_refl (valid mark member))

theorem sameList_symm {a b : List Mark} (valid : ∀ mark ∈ a, mark.wellFormed = true)
    (valid' : ∀ mark ∈ b, mark.wellFormed = true) (equal : sameList a b = true) : sameList b a = true := by
  rw [sameList_iff] at equal ⊢
  induction equal with
  | nil => exact .nil
  | cons same _ ih =>
    rw [List.forall_mem_cons] at valid valid'
    exact .cons (same_symm valid.1 valid'.1 same) (ih valid.2 valid'.2)

theorem sameList_trans {a b c : List Mark} (left : sameList a b = true) (right : sameList b c = true) :
    sameList a c = true := by
  rw [sameList_iff] at left right ⊢
  induction left generalizing c with
  | nil => exact right
  | cons same _ ih =>
    cases right with
    | cons same' right => exact .cons (same_trans same same') (ih right)

theorem sameOption_trans (a b c : Option Mark) (left : sameOption a b = true) (right : sameOption b c = true) :
    sameOption a c = true := by
  cases a with
  | none =>
    cases b with
    | none => exact right
    | some _ => cases left
  | some mark =>
    cases b with
    | none => cases left
    | some _ =>
      cases c with
      | none => cases right
      | some _ => exact same_trans left right

theorem exists_of_sameOption {mark : Mark} {outer : Option Mark} (same : sameOption (some mark) outer = true) :
    ∃ own, outer = some own ∧ mark.same own = true := by
  cases outer with
  | none => cases same
  | some own => exact ⟨own, rfl, same⟩

theorem sameOption_refl {mark : Option Mark} (valid : ∀ m ∈ mark, m.wellFormed = true) :
    sameOption mark mark = true := by
  cases mark with
  | none => rfl
  | some m => exact same_refl (valid m rfl)

theorem sameOption_symm {a b : Option Mark} (valid : ∀ m ∈ a, m.wellFormed = true)
    (valid' : ∀ m ∈ b, m.wellFormed = true) (equal : sameOption a b = true) : sameOption b a = true := by
  cases a with
  | none =>
    cases b with
    | none => rfl
    | some _ => cases equal
  | some mark =>
    cases b with
    | none => cases equal
    | some other => exact same_symm (valid mark rfl) (valid' other rfl) equal

end ComponentMarkdown.Mark
