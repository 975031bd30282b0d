import ComponentMarkdown.LinkPolicy
import ComponentMarkdown.Platform
import ComponentMarkdown.Proofs.Attrs

namespace ComponentMarkdown.LinkPolicy

variable {attrs other : Attrs}

theorem getString?_perm (distinct : attrs.Distinct) (perm : attrs.Perm other) (key : String) :
    attrs.getString? key = other.getString? key := by
  rw [Attrs.getString?, Attrs.getString?, Attrs.get?_perm distinct perm]

theorem asString?_same {v w : Value} (equal : v.same w = true) : v.asString? = w.asString? := by
  cases v <;> cases w <;> simp_all [Value.same, Value.asString?]

theorem isNull_same {v w : Value} (equal : v.same w = true) : v.isNull = w.isNull := by
  cases v <;> cases w <;> simp_all [Value.same, Value.isNull]

theorem getString?_same (valid : attrs.wellFormed = true) (valid' : other.wellFormed = true)
    (equal : attrs.same other = true) (key : String) : attrs.getString? key = other.getString? key := by
  have both := (Attrs.same_iff_get? valid valid').1 equal key
  rw [Attrs.getString?, Attrs.getString?]
  generalize attrs.get? key = here at both ⊢
  generalize other.get? key = there at both ⊢
  cases both with
  | none => rfl
  | some equal => exact asString?_same equal

theorem contains_same (valid : attrs.wellFormed = true) (valid' : other.wellFormed = true)
    (equal : attrs.same other = true) (key : String) : attrs.contains key = other.contains key := by
  have both := (Attrs.same_iff_get? valid valid').1 equal key
  rw [Attrs.contains, Attrs.contains]
  generalize attrs.get? key = here at both ⊢
  generalize other.get? key = there at both ⊢
  cases both <;> rfl

section SameMaps

variable (valid : attrs.wellFormed = true) (valid' : other.wellFormed = true)

include valid valid'

theorem insert_same (equal : attrs.same other = true) (key : String) {value : Value}
    (plain : value.wellFormed = true) : (attrs.insert key value).same (other.insert key value) = true := by
  have both := (Attrs.same_iff_get? valid valid').1 equal
  refine (Attrs.same_iff_get? (Attrs.wellFormed_insert valid plain key)
    (Attrs.wellFormed_insert valid' plain key)).2 fun key' => ?_
  rw [Attrs.get?_insert, Attrs.get?_insert]
  split
  · exact .some (Value.same_refl value plain)
  · exact both key'

theorem erase_same (equal : attrs.same other = true) (key : String) :
    (attrs.erase key).same (other.erase key) = true := by
  have both := (Attrs.same_iff_get? valid valid').1 equal
  refine (Attrs.same_iff_get? (Attrs.wellFormed_erase valid key)
    (Attrs.wellFormed_erase valid' key)).2 fun key' => ?_
  rw [Attrs.get?_erase (Attrs.distinct_of_wellFormed valid), Attrs.get?_erase (Attrs.distinct_of_wellFormed valid')]
  split
  · exact .none
  · exact both key'

theorem filter_same (equal : attrs.same other = true) (keep : Value → Bool)
    (congr : ∀ v w : Value, v.same w = true → keep v = keep w) :
    Attrs.same (attrs.filter fun entry => keep entry.2) (other.filter fun entry => keep entry.2) = true := by
  have both := (Attrs.same_iff_get? valid valid').1 equal
  refine (Attrs.same_iff_get? (Attrs.wellFormed_filter valid _) (Attrs.wellFormed_filter valid' _)).2 fun key => ?_
  rw [Attrs.get?_filter _ (Attrs.distinct_of_wellFormed valid),
    Attrs.get?_filter _ (Attrs.distinct_of_wellFormed valid')]
  have here := both key
  generalize attrs.get? key = v at here ⊢
  generalize other.get? key = w at here ⊢
  cases here with
  | none => exact .none
  | some same =>
    rw [Option.filter_some, Option.filter_some, congr _ _ same]
    split
    · exact .some same
    · exact .none

end SameMaps

section Policy

variable [Surroundings]

theorem isExternal_same (valid : attrs.wellFormed = true) (valid' : other.wellFormed = true)
    (equal : attrs.same other = true) : isExternal attrs = isExternal other := by
  rw [isExternal, isExternal, getString?_same valid valid' equal]

theorem isExternal_perm (distinct : attrs.Distinct) (perm : attrs.Perm other) :
    isExternal attrs = isExternal other := by
  rw [isExternal, isExternal, getString?_perm distinct perm]

theorem editorAttrs_wellFormed (valid : attrs.wellFormed = true) : (editorAttrs attrs).wellFormed = true := by
  rw [editorAttrs]
  split
  · exact Attrs.wellFormed_insert (Attrs.wellFormed_insert valid rfl _) rfl _
  · exact valid

theorem withoutDefaults_wellFormed (valid : attrs.wellFormed = true) :
    (withoutDefaults attrs).wellFormed = true := by
  have erased := Attrs.wellFormed_erase valid "target"
  simp only [withoutDefaults]
  split
  · split
    · exact Attrs.wellFormed_erase erased "rel"
    · exact erased
  · exact valid

theorem markupAttrs_wellFormed (valid : attrs.wellFormed = true) : (markupAttrs attrs).wellFormed = true :=
  Attrs.wellFormed_filter (withoutDefaults_wellFormed valid) _

theorem withoutDefaults_perm (distinct : attrs.Distinct) (perm : attrs.Perm other) :
    (withoutDefaults attrs).Perm (withoutDefaults other) := by
  have erased := Attrs.erase_perm distinct perm "target"
  have distinct' : (attrs.erase "target").Distinct := distinct.erase "target"
  simp only [withoutDefaults, isExternal_perm distinct perm, getString?_perm distinct' erased]
  split
  · split
    · exact Attrs.erase_perm distinct' erased "rel"
    · exact erased
  · exact perm

theorem markupAttrs_perm (distinct : attrs.Distinct) (perm : attrs.Perm other) :
    (markupAttrs attrs).Perm (markupAttrs other) := (withoutDefaults_perm distinct perm).filter _

section SameLinks

variable (valid : attrs.wellFormed = true) (valid' : other.wellFormed = true)

include valid valid'

theorem editorAttrs_same (equal : attrs.same other = true) :
    (editorAttrs attrs).same (editorAttrs other) = true := by
  rw [editorAttrs, editorAttrs, isExternal_same valid valid' equal, contains_same valid valid' equal]
  split
  · exact insert_same (Attrs.wellFormed_insert valid rfl _) (Attrs.wellFormed_insert valid' rfl _)
      (insert_same valid valid' equal "target" rfl) "rel" rfl
  · exact equal

theorem withoutDefaults_same (equal : attrs.same other = true) :
    (withoutDefaults attrs).same (withoutDefaults other) = true := by
  have erased := erase_same valid valid' equal "target"
  have left := Attrs.wellFormed_erase valid "target"
  have right := Attrs.wellFormed_erase valid' "target"
  simp only [withoutDefaults, isExternal_same valid valid' equal, getString?_same left right erased]
  split
  · split
    · exact erase_same left right erased "rel"
    · exact erased
  · exact equal

theorem markupAttrs_same (equal : attrs.same other = true) :
    (markupAttrs attrs).same (markupAttrs other) = true := by
  refine filter_same (withoutDefaults_wellFormed valid) (withoutDefaults_wellFormed valid')
    (withoutDefaults_same valid valid' equal) (!·.isNull) fun v w same => ?_
  rw [isNull_same same]

end SameLinks

theorem isExternal_editorAttrs (attrs : Attrs) : isExternal (editorAttrs attrs) = isExternal attrs := by
  rw [editorAttrs]
  split
  · rw [isExternal, isExternal, Attrs.getString?, Attrs.getString?, Attrs.get?_insert, Attrs.get?_insert,
      if_neg (by decide), if_neg (by decide)]
  · rfl

/-- What the editor adds to a link is taken off again, if the link had nothing of the kind itself. -/
theorem markupAttrs_editorAttrs (spoken : ∀ entry ∈ attrs, entry.2.isNull = false)
    (plain : isExternal attrs = true →
      attrs.get? "target" = none ∧ attrs.getString? "rel" ≠ some defaultRel) :
    markupAttrs (editorAttrs attrs) = attrs := by
  have kept : attrs.filter (fun entry => !entry.2.isNull) = attrs :=
    List.filter_eq_self.2 fun entry member => by rw [spoken entry member, Bool.not_false]
  have external' : isExternal (editorAttrs attrs) = isExternal attrs := isExternal_editorAttrs attrs
  cases external : isExternal attrs with
  | false =>
    rw [editorAttrs, external, Bool.false_and, if_neg Bool.false_ne_true, markupAttrs, withoutDefaults, external]
    exact kept
  | true =>
    rw [external] at external'
    obtain ⟨noTarget, noRel⟩ := plain external
    cases has : attrs.contains "rel" with
    | true =>
      have unchanged : editorAttrs attrs = attrs := by
        rw [editorAttrs, external, has]
        rfl
      rw [unchanged]
      simp only [markupAttrs, withoutDefaults, external, if_true, Attrs.erase_of_get?_none noTarget, noRel,
        if_false, kept]
    | false =>
      have noOwnRel : attrs.get? "rel" = none := by simpa [Attrs.contains] using has
      have later : Attrs.get? (attrs ++ [("target", .str defaultTarget)]) "rel" = none := by
        rw [Attrs.get?_append, noOwnRel]
        rfl
      have added : editorAttrs attrs =
          attrs ++ [("target", .str defaultTarget), ("rel", .str defaultRel)] := by
        rw [editorAttrs, external, has, Bool.not_false, Bool.and_true, if_pos rfl,
          Attrs.insert_of_get?_none noTarget, Attrs.insert_of_get?_none later, List.append_assoc]
        rfl
      have first : (editorAttrs attrs).erase "target" = attrs ++ [("rel", .str defaultRel)] := by
        rw [added, Attrs.erase_split noTarget]
        rfl
      have found : Attrs.getString? (attrs ++ [("rel", .str defaultRel)]) "rel" = some defaultRel := by
        rw [Attrs.getString?, Attrs.get?_append, noOwnRel]
        rfl
      have second : Attrs.erase (attrs ++ [("rel", .str defaultRel)]) "rel" = attrs := by
        rw [Attrs.erase_split noOwnRel]
        exact List.append_nil attrs
      simp only [markupAttrs, withoutDefaults, external', if_true, first, found, second, kept]

/-- The attributes of a link that the editor has read and written back. -/
def throughEditor (attrs : Attrs) : Attrs := markupAttrs (editorAttrs attrs)

theorem editorAttrs_distinct (distinct : attrs.Distinct) : (editorAttrs attrs).Distinct := by
  rw [editorAttrs]
  split
  · exact (distinct.insert _ _).insert _ _
  · exact distinct

theorem withoutDefaults_distinct (distinct : attrs.Distinct) : (withoutDefaults attrs).Distinct := by
  have erased : (attrs.erase "target").Distinct := distinct.erase "target"
  simp only [withoutDefaults]
  split
  · split
    · exact erased.erase "rel"
    · exact erased
  · exact distinct

/-- The entries of a link that are the editor's: of a link to another site, its target and the `rel` that the editor
gives. -/
def isEditors (attrs : Attrs) (key : String) : Bool :=
  isExternal attrs && (key = "target" || key = "rel" && attrs.getString? "rel" = some defaultRel)

theorem get?_withoutDefaults (distinct : attrs.Distinct) (key : String) :
    (withoutDefaults attrs).get? key = if isEditors attrs key then none else attrs.get? key := by
  have erased : (attrs.erase "target").Distinct := distinct.erase "target"
  have rel : (attrs.erase "target").getString? "rel" = attrs.getString? "rel" := by
    rw [Attrs.getString?, Attrs.get?_erase_of_ne distinct (by decide), Attrs.getString?]
  cases external : isExternal attrs with
  | false => simp [withoutDefaults, isEditors, external]
  | true =>
    by_cases given : attrs.getString? "rel" = some defaultRel
    · simp only [withoutDefaults, isEditors, external, rel, given, if_true, Attrs.get?_erase erased,
        Attrs.get?_erase distinct]
      by_cases target : key = "target"
      · simp [target]
      · by_cases own : key = "rel" <;> simp [target, own]
    · simp [withoutDefaults, isEditors, external, rel, given, Attrs.get?_erase distinct]

/-- What a link comes back with under a key: its own value, unless that is `null` or the editor's. -/
theorem get?_throughEditor (distinct : attrs.Distinct) (key : String) : (throughEditor attrs).get? key =
    if isEditors attrs key then none else (attrs.get? key).filter (!·.isNull) := by
  have distinct' : (editorAttrs attrs).Distinct := editorAttrs_distinct distinct
  rw [throughEditor, markupAttrs, Attrs.get?_filter _ (withoutDefaults_distinct distinct') (!·.isNull),
    get?_withoutDefaults distinct', isEditors, isEditors, isExternal_editorAttrs]
  cases external : isExternal attrs with
  | false => simp [editorAttrs, external]
  | true =>
    -- Only a link without a `rel` is given anything, and all of that is taken off again.
    cases found : attrs.get? "rel" with
    | some value =>
      have unchanged : editorAttrs attrs = attrs := by simp [editorAttrs, Attrs.contains, found]
      rw [unchanged]
      split <;> rfl
    | none =>
      have added :
          editorAttrs attrs = (attrs.insert "target" (.str defaultTarget)).insert "rel" (.str defaultRel) := by
        simp [editorAttrs, external, Attrs.contains, found]
      simp only [added, Attrs.getString?, Attrs.get?_insert, found]
      by_cases target : key = "target"
      · simp [target]
      · by_cases own : key = "rel" <;> simp [target, own, found, Value.asString?]

/-- What the policy asks of the attributes `back` that a link with the attributes `attrs` comes back with. -/
structure Follows (attrs back : Attrs) : Prop where
  /-- A link to another site comes back without a target, and without the `rel` that the editor gives. -/
  noTarget : isExternal attrs = true → back.get? "target" = none
  noDefault : isExternal attrs = true → back.getString? "rel" ≠ some defaultRel
  ownRel : ∀ value, attrs.get? "rel" = some value → value.isNull = false →
    attrs.getString? "rel" ≠ some defaultRel → back.get? "rel" = some value
  relative : isExternal attrs = false → back = attrs.filter fun entry => !entry.2.isNull
  others : ∀ key value, key ≠ "target" → key ≠ "rel" → attrs.get? key = some value → value.isNull = false →
    back.get? key = some value
  spoken : ∀ key value, back.get? key = some value → value.isNull = false
  nothingNew : ∀ key, back.contains key = true → attrs.contains key = true

theorem isEditors_of_ne {key : String} (target : key ≠ "target") (rel : key ≠ "rel") :
    isEditors attrs key = false := by
  simp [isEditors, target, rel]

/-- The editor gives nothing to a link that stays on the site, and takes nothing off it. -/
theorem throughEditor_of_relative (relative : isExternal attrs = false) :
    throughEditor attrs = attrs.filter fun entry => !entry.2.isNull := by
  have unchanged : editorAttrs attrs = attrs := by
    rw [editorAttrs, relative]
    rfl
  rw [throughEditor, unchanged, markupAttrs, withoutDefaults, relative]
  rfl

theorem follows_throughEditor (distinct : attrs.Distinct) : Follows attrs (throughEditor attrs) where
  noTarget external := by
    have given : isEditors attrs "target" = true := by simp [isEditors, external]
    rw [get?_throughEditor distinct, if_pos given]
  noDefault external default := by
    rw [Attrs.getString?, get?_throughEditor distinct] at default
    by_cases own : attrs.getString? "rel" = some defaultRel
    · have given : isEditors attrs "rel" = true := by simp [isEditors, external, own]
      rw [if_pos given] at default
      cases default
    · obtain ⟨value, found, text⟩ := Option.bind_eq_some_iff.1 default
      split at found
      · cases found
      · rw [Option.filter_eq_some_iff] at found
        exact own (Option.bind_eq_some_iff.2 ⟨value, found.1, text⟩)
  ownRel value found spoken other := by
    have kept : isEditors attrs "rel" = false := by simp [isEditors, other]
    rw [get?_throughEditor distinct, kept, if_neg (by simp), found]
    simp [spoken]
  relative := throughEditor_of_relative
  others key value target rel found spoken := by
    rw [get?_throughEditor distinct, isEditors_of_ne target rel, if_neg (by simp), found]
    simp [spoken]
  spoken key value found := by
    rw [get?_throughEditor distinct] at found
    split at found
    · cases found
    · simpa using (Option.filter_eq_some_iff.1 found).2
  nothingNew key has := by
    rw [Attrs.contains, get?_throughEditor distinct] at has
    split at has
    · cases has
    · obtain ⟨value, found⟩ := Option.isSome_iff_exists.1 has
      rw [Attrs.contains, (Option.filter_eq_some_iff.1 found).1]
      rfl

/-- A link leads to the same place behind the editor. -/
theorem isExternal_throughEditor (distinct : attrs.Distinct) :
    isExternal (throughEditor attrs) = isExternal attrs := by
  rw [isExternal, isExternal, Attrs.getString?, get?_throughEditor distinct,
    isEditors_of_ne (by decide) (by decide), if_neg (by simp), Attrs.getString?]
  cases attrs.get? "href" with
  | none => rfl
  | some value => cases value <;> rfl

/-- The editor keeps to the link policy, and what it has written back once comes back as it is. -/
theorem throughEditor_policy (distinct : attrs.Distinct) :
    throughEditor (throughEditor attrs) = throughEditor attrs ∧
      Follows attrs (throughEditor attrs) := by
  have follows : Follows attrs (throughEditor attrs) := follows_throughEditor distinct
  -- What comes back has nothing left that the policy could take off, so the second time changes nothing.
  refine ⟨markupAttrs_editorAttrs (fun entry member => ?_) fun external => ?_, follows⟩
  · rw [throughEditor, markupAttrs] at member
    simpa using (List.mem_filter.1 member).2
  · rw [isExternal_throughEditor distinct] at external
    exact ⟨follows.noTarget external, follows.noDefault external⟩

end Policy

/-- A link to another site with a target and a `rel` of its own. The `rel` moves to the place of the target. -/
theorem throughEditor_policy_rel :
    letI : Surroundings := .platform
    let attrs := [("title", .null), ("target", .str "_top"), ("href", .str "https://a.b"), ("rel", .str "me")]
    Attrs.Distinct attrs ∧ isExternal attrs = true ∧
      throughEditor attrs = [("rel", .str "me"), ("href", .str "https://a.b")] ∧
      throughEditor (throughEditor attrs) = throughEditor attrs ∧ Follows attrs (throughEditor attrs) := by
  refine ⟨by simp [Attrs.Distinct, Attrs.keys], by decide, by rfl, ?_⟩
  exact @throughEditor_policy _ .platform (by simp [Attrs.Distinct, Attrs.keys])

end ComponentMarkdown.LinkPolicy
