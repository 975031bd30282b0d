import ComponentMarkdown.Proofs.LinkPolicy
import ComponentMarkdown.Proofs.Markup.Canonical

namespace ComponentMarkdown

namespace Attrs

variable {attrs : Attrs} {key : String}

/-- The entry of an attribute that is there or not. -/
def entry (key : String) (value : Option String) : Attrs := value.toList.map fun s => (key, .str s)

@[simp]
theorem entry_none (key : String) : entry key none = [] := rfl

@[simp]
theorem entry_some (key s : String) : entry key (some s) = [(key, .str s)] := rfl

theorem get?_entry_of_ne {key' : String} (differ : key' ≠ key) (value : Option String) :
    (entry key value).get? key' = none := by
  cases value with
  | none => rfl
  | some s => rw [entry_some, get?_cons, if_neg differ, get?_nil]

/-- Nothing is lost when a string is taken out. -/
theorem takeString_perm (distinct : attrs.Distinct) (key : String) :
    attrs.Perm (entry key (Reading.takeString attrs key).1 ++ (Reading.takeString attrs key).2) := by
  unfold Reading.takeString
  split
  · exact .refl _
  · rename_i s found
    exact perm_cons_erase found
  · rename_i value _ found
    have missing : (attrs.erase key).get? key = none := by rw [get?_erase distinct, if_pos rfl]
    rw [insert_of_get?_none missing, entry_none, List.nil_append]
    exact (perm_cons_erase found).trans (List.perm_append_singleton _ _).symm

theorem takeString_fst (attrs : Attrs) (key : String) :
    (Reading.takeString attrs key).1 = attrs.getString? key := by
  unfold Reading.takeString getString?
  split
  · rename_i found
    rw [found]
    rfl
  · rename_i s found
    rw [found]
    rfl
  · rename_i value noString found
    rw [found]
    cases value with
    | str s => exact absurd rfl (noString s)
    | _ => rfl

theorem takeString_distinct (distinct : attrs.Distinct) (key : String) :
    (Reading.takeString attrs key).2.Distinct :=
  (distinct.perm (takeString_perm distinct key)).append_right

/-- The other attributes stay. -/
theorem getString?_takeString (distinct : attrs.Distinct) {key' : String} (differ : key' ≠ key) :
    (Reading.takeString attrs key).2.getString? key' = attrs.getString? key' := by
  rw [getString?, getString?, get?_perm distinct (takeString_perm distinct key), get?_append,
    get?_entry_of_ne differ, Option.none_or]

/-- A string that filled' something is written beside the other attributes. -/
theorem insertSpoken_perm {value : Option String} (spoken : value ≠ some "")
    (distinct : Distinct (entry key value ++ attrs)) :
    (Writing.insertSpoken attrs key value).Perm (entry key value ++ attrs) := by
  cases value with
  | none => exact .refl _
  | some s =>
    have filled : s ≠ "" := fun same => spoken (by rw [same])
    rw [entry_some, List.singleton_append] at distinct
    rw [Writing.insertSpoken, if_neg filled, insert_of_get?_none (distinct_cons_iff.1 distinct).1]
    exact List.perm_append_singleton _ _

/-- The attributes of a span of text. -/
theorem span_perm (distinct : attrs.Distinct) (canonical : attrs.isCanonicalSpan = true) :
    let style := Reading.takeString attrs "style"
    let class_ := Reading.takeString style.2 "class"
    (Writing.insertSpoken (Writing.insertSpoken class_.2 "style" style.1) "class" class_.1).Perm attrs := by
  intro style class_
  simp only [isCanonicalSpan, Bool.and_eq_true, decide_eq_true_eq, ne_eq] at canonical
  have outer : attrs.Perm (entry "style" style.1 ++ style.2) := takeString_perm distinct _
  have inner : style.2.Perm (entry "class" class_.1 ++ class_.2) :=
    takeString_perm (takeString_distinct distinct _) _
  have spokenStyle : style.1 ≠ some "" := by
    rw [takeString_fst]
    exact canonical.1
  have spokenClass : class_.1 ≠ some "" := by
    rw [takeString_fst, getString?_takeString distinct (by decide)]
    exact canonical.2
  have whole : attrs.Perm (entry "class" class_.1 ++ (entry "style" style.1 ++ class_.2)) :=
    outer.trans ((inner.append_left _).trans (List.perm_append_comm_assoc _ _ _))
  have distinctStyle := (distinct.perm whole).append_right
  have first := insertSpoken_perm spokenStyle distinctStyle
  have second := insertSpoken_perm spokenClass
    ((distinct.perm whole).perm (first.symm.append_left (entry "class" class_.1)))
  exact second.trans ((first.append_left _).trans whole.symm)

/-- The attributes of a link with content that marks cannot express, as the editor has them. -/
theorem link_perm (distinct : attrs.Distinct) {href : String} (leads : attrs.getString? "href" = some href)
    (target : attrs.getString? "target" ≠ some "") (rel : attrs.getString? "rel" ≠ some "") :
    let first := Reading.takeString attrs "href"
    let second := Reading.takeString first.2 "target"
    let third := Reading.takeString second.2 "rel"
    (insertAll (Writing.insertSpoken (Writing.insertSpoken [("href", .str (first.1.getD ""))] "target" second.1)
      "rel" third.1) third.2).Perm attrs := by
  intro first second third
  have distinct₁ : first.2.Distinct := takeString_distinct distinct _
  have distinct₂ : second.2.Distinct := takeString_distinct distinct₁ _
  have taken : first.1 = some href := (takeString_fst _ _).trans leads
  have spokenTarget : second.1 ≠ some "" := by
    rw [takeString_fst, getString?_takeString distinct (by decide)]
    exact target
  have spokenRel : third.1 ≠ some "" := by
    rw [takeString_fst, getString?_takeString distinct₁ (by decide), getString?_takeString distinct (by decide)]
    exact rel
  have outer : attrs.Perm (entry "href" first.1 ++ first.2) := takeString_perm distinct _
  have middle : first.2.Perm (entry "target" second.1 ++ second.2) := takeString_perm distinct₁ _
  have inner : second.2.Perm (entry "rel" third.1 ++ third.2) := takeString_perm distinct₂ _
  have whole :
      attrs.Perm (entry "rel" third.1 ++ (entry "target" second.1 ++ entry "href" first.1) ++ third.2) := by
    refine outer.trans (((middle.trans (inner.append_left _)).append_left _).trans ?_)
    rw [← List.append_assoc, ← List.append_assoc]
    exact (List.perm_append_comm.trans (List.perm_append_comm.append_left _)).append_right _
  have three := (distinct.perm whole).append_left
  have start : [("href", .str (first.1.getD ""))] = entry "href" first.1 := by
    rw [taken]
    rfl
  have written := insertSpoken_perm spokenTarget three.append_right
  have written' := (insertSpoken_perm spokenRel (three.perm (written.symm.append_left _))).trans
    (written.append_left _)
  have beside := (written'.append_right third.2).trans whole.symm
  rw [start, insertAll_of_distinct (distinct.perm beside.symm)]
  exact beside

theorem contains_eq_false_iff : attrs.contains key = false ↔ attrs.get? key = none := by
  rw [contains, Option.isSome_eq_false_iff, Option.isNone_iff_eq_none]

/-- A link in markup gets its own attributes back. -/
theorem markupAttrs_editorAttrs_of_canonical [Surroundings] (canonical : attrs.isCanonicalLink = true) :
    LinkPolicy.markupAttrs (LinkPolicy.editorAttrs attrs) = attrs := by
  simp only [isCanonicalLink, Bool.and_eq_true, List.all_eq_true, Bool.or_eq_true, Bool.not_eq_true',
    decide_eq_true_eq, ne_eq, contains_eq_false_iff] at canonical
  obtain ⟨spoken, plain⟩ := canonical
  refine LinkPolicy.markupAttrs_editorAttrs spoken fun external => ?_
  rw [external] at plain
  exact plain.resolve_left (by simp)

theorem getString?_editorAttrs [Surroundings] (attrs : Attrs) (key : String) :
    (LinkPolicy.editorAttrs attrs).getString? key = attrs.getString? key ∨
      (key = "target" ∧ (LinkPolicy.editorAttrs attrs).getString? key = some LinkPolicy.defaultTarget) ∨
      (key = "rel" ∧ (LinkPolicy.editorAttrs attrs).getString? key = some LinkPolicy.defaultRel) := by
  rw [LinkPolicy.editorAttrs]
  split
  · rw [getString?, getString?, get?_insert, get?_insert]
    by_cases rel : key = "rel"
    · rw [if_pos rel]
      exact Or.inr (Or.inr ⟨rel, rfl⟩)
    · rw [if_neg rel]
      by_cases target : key = "target"
      · rw [if_pos target]
        exact Or.inr (Or.inl ⟨target, rfl⟩)
      · rw [if_neg target]
        exact Or.inl rfl
  · exact Or.inl rfl

theorem editorAttrs_filled [Surroundings] (filled : attrs.getString? key ≠ some "") :
    (LinkPolicy.editorAttrs attrs).getString? key ≠ some "" := by
  rcases getString?_editorAttrs attrs key with same | ⟨_, same⟩ | ⟨_, same⟩
  · rwa [same]
  · rw [same]
    decide
  · rw [same]
    decide

/-- The attributes of a link with content that marks cannot express. -/
theorem richLink_perm [Surroundings] (valid : attrs.wellFormed = true) (canonical : attrs.isCanonicalLink = true)
    (rich : attrs.isCanonicalRichLink = true) :
    let first := Reading.takeString (LinkPolicy.editorAttrs attrs) "href"
    let second := Reading.takeString first.2 "target"
    let third := Reading.takeString second.2 "rel"
    (LinkPolicy.markupAttrs (insertAll (Writing.insertSpoken (Writing.insertSpoken
      [("href", .str (first.1.getD ""))] "target" second.1) "rel" third.1) third.2)).Perm attrs := by
  intro first second third
  simp only [isCanonicalRichLink, Bool.and_eq_true, decide_eq_true_eq, ne_eq] at rich
  obtain ⟨⟨leads, target⟩, rel⟩ := rich
  obtain ⟨href, leads⟩ := Option.isSome_iff_exists.1 leads
  have leads' : (LinkPolicy.editorAttrs attrs).getString? "href" = some href := by
    rcases getString?_editorAttrs attrs "href" with same | ⟨other, _⟩ | ⟨other, _⟩
    · rw [same, leads]
    · exact absurd other (by decide)
    · exact absurd other (by decide)
  have distinct := distinct_of_wellFormed (LinkPolicy.editorAttrs_wellFormed valid)
  have perm := link_perm distinct leads' (editorAttrs_filled target) (editorAttrs_filled rel)
  have back := LinkPolicy.markupAttrs_perm (distinct.perm perm.symm) perm
  rwa [markupAttrs_editorAttrs_of_canonical canonical] at back

theorem imageAttrs_of_canonical (canonical : attrs.isCanonicalImage = true) : Writing.imageAttrs attrs = attrs :=
  List.filter_eq_self.2 (List.all_eq_true.1 canonical)

theorem videoAttrs_videoProps (canonical : attrs.isCanonicalVideo = true) :
    Writing.videoAttrs (Reading.videoProps attrs) = attrs := by
  rw [isCanonicalVideo, List.all_eq_true] at canonical
  have same : Reading.videoProps attrs = attrs := by
    refine (List.map_congr_left fun field member => ?_).trans (List.map_id attrs)
    obtain ⟨key, value⟩ := field
    have here := canonical _ member
    by_cases flag : key ∈ Reading.videoFlags
    · simp only [flag, if_true, decide_eq_true_eq] at here
      cases value <;> simp only [Value.asBool?, reduceCtorEq, Option.some.injEq] at here
      simp only [flag, if_true, here, Reading.flagValue, id]
    · simp only [flag, if_false, id]
  rw [same]
  refine List.filter_eq_self.2 fun field member => ?_
  have here := canonical field member
  by_cases flag : field.1 ∈ Reading.videoFlags
  · simp only [flag, if_true, decide_eq_true_eq] at here ⊢
    rw [here]
    rfl
  · simpa only [flag, if_false] using here

/-- A string that filled' something and comes from a map is written as it stands there. -/
theorem insertSpoken_getString? {written : Attrs} (missing : written.get? key = none)
    (filled : ∀ value, attrs.get? key = some value → isFilled value = true) :
    Writing.insertSpoken written key (attrs.getString? key) =
      written ++ attrs.field key := by
  rw [getString?, field]
  cases found : attrs.get? key with
  | none => exact (List.append_nil written).symm
  | some value =>
    have filled' := filled value found
    cases value <;> simp only [isFilled, Bool.false_eq_true, decide_eq_true_eq, ne_eq] at filled'
    simp only [Option.bind_some, Value.asString?, Writing.insertSpoken, if_neg filled', insert_of_get?_none missing,
      Option.map_some, Option.toList_some]

theorem binding_perm (distinct : attrs.Distinct) (canonical : attrs.isCanonicalBinding = true) :
    (match attrs.get? "defaultValue" with
      | none => Writing.insertSpoken [] "value" (attrs.getString? "value")
      | some value => insert (Writing.insertSpoken [] "value" (attrs.getString? "value")) "defaultValue" value).Perm
      attrs := by
  simp only [isCanonicalBinding, List.all_eq_true, Bool.or_eq_true, Bool.and_eq_true, decide_eq_true_eq]
    at canonical
  have filled : ∀ value, attrs.get? "value" = some value → isFilled value = true := fun value found =>
    ((canonical _ ((get?_eq_some_iff distinct).1 found)).resolve_right (by simp)).2
  have known : ∀ key ∈ attrs.keys, key ∈ ["value", "defaultValue"] := by
    intro key member
    obtain ⟨entry, here, rfl⟩ := List.mem_map.1 member
    rcases canonical entry here with ⟨same, _⟩ | same
    · rw [same]
      decide
    · rw [same]
      decide
  have perm := perm_flatMap_field distinct (by decide) known
  have written := insertSpoken_getString? (get?_nil _) filled
  rw [List.nil_append] at written
  simp only [List.flatMap_cons, List.flatMap_nil, List.append_nil] at perm
  refine .trans (.of_eq ?_) perm.symm
  have missing : (attrs.field "value").get? "defaultValue" = none := get?_field_of_ne (by decide)
  have last : attrs.field "defaultValue" = ((attrs.get? "defaultValue").map fun v => ("defaultValue", v)).toList :=
    rfl
  rw [written, last]
  cases attrs.get? "defaultValue" with
  | none => exact (List.append_nil _).symm
  | some value => exact insert_of_get?_none missing value

theorem codeBlock_perm (distinct : attrs.Distinct) {code : String} (canonical : attrs.isCanonicalCode code = true) :
    (insert (Writing.insertSpoken (Writing.insertSpoken (Writing.insertSpoken [] "language"
      (Reading.spoken? attrs "language")) "filename" (Reading.spoken? attrs "filename")) "meta"
      (Reading.spoken? attrs "meta")) "code" (.str code)).Perm attrs := by
  simp only [isCanonicalCode, List.all_eq_true, Bool.or_eq_true, Bool.and_eq_true, decide_eq_true_eq] at canonical
  obtain ⟨source, others⟩ := canonical
  have filled : ∀ key, key ≠ "code" → ∀ value, attrs.get? key = some value → isFilled value = true :=
    fun key differ value found => ((others _ ((get?_eq_some_iff distinct).1 found)).resolve_left differ).2
  have spoken : ∀ key, key ≠ "code" → Reading.spoken? attrs key = attrs.getString? key := by
    intro key differ
    rw [Reading.spoken?, getString?]
    cases found : attrs.get? key with
    | none => rfl
    | some value =>
      have filled' := filled key differ value found
      cases value <;> simp only [isFilled, Bool.false_eq_true, decide_eq_true_eq, ne_eq] at filled'
      simp [Value.asString?, filled']
  have known : ∀ key ∈ attrs.keys, key ∈ ["language", "filename", "meta", "code"] := by
    intro key member
    obtain ⟨entry, here, rfl⟩ := List.mem_map.1 member
    rcases others entry here with same | ⟨same, _⟩
    · rw [same]
      decide
    · simp only [List.mem_cons, List.not_mem_nil, or_false] at same ⊢
      tauto
  have perm := perm_flatMap_field distinct (by decide) known
  simp only [List.flatMap_cons, List.flatMap_nil, List.append_nil] at perm
  have missing : ∀ key key', key' ≠ key → (attrs.field key).get? key' = none := fun _ _ => get?_field_of_ne
  have found : attrs.get? "code" = some (.str code) := by
    rw [getString?] at source
    cases value : attrs.get? "code" with
    | none =>
      rw [value] at source
      cases source
    | some value' =>
      rw [value] at source
      cases value' <;> simp_all [Value.asString?]
  have last : attrs.field "code" = [("code", .str code)] := by
    rw [field, found]
    rfl
  refine .trans (.of_eq ?_) perm.symm
  rw [spoken "language" (by decide), spoken "filename" (by decide), spoken "meta" (by decide),
    insertSpoken_getString? (get?_nil _) (filled "language" (by decide)), List.nil_append,
    insertSpoken_getString? (missing _ _ (by decide)) (filled "filename" (by decide)),
    insertSpoken_getString? ?_ (filled "meta" (by decide)), insert_of_get?_none, last]
  · simp only [List.append_assoc]
  · rw [get?_append, get?_append, missing _ _ (by decide), missing _ _ (by decide), missing _ _ (by decide)]
    rfl
  · rw [get?_append, missing _ _ (by decide), missing _ _ (by decide)]
    rfl

theorem start_eq (distinct : attrs.Distinct) (canonical : attrs.isCanonicalStart = true) :
    (if ((attrs.get? "start").bind Value.asNat?).getD 1 = 1 then []
      else [("start", .num (.int (((attrs.get? "start").bind Value.asNat?).getD 1)))]) = attrs := by
  rw [isCanonicalStart, List.all_eq_true] at canonical
  match attrs with
  | [] => rfl
  | [(key, value)] =>
    have here := canonical _ List.mem_cons_self
    simp only [Bool.and_eq_true, decide_eq_true_eq] at here
    obtain ⟨rfl, later⟩ := here
    cases value <;> simp only [Value.asNat?, Option.any_none, Bool.false_eq_true] at later
    rename_i number
    cases number <;> simp only [Number.asNat?, Option.any_none, Bool.false_eq_true] at later
    rename_i whole
    by_cases nonneg : 0 ≤ whole
    · simp only [nonneg, if_true, Option.any_some, decide_eq_true_eq] at later
      have found : Attrs.get? [("start", Value.num (.int whole))] "start" = some (.num (.int whole)) := rfl
      simp only [found, Option.bind_some, Value.asNat?, Number.asNat?, nonneg, if_true, Option.getD_some, later,
        if_false, Int.toNat_of_nonneg nonneg]
    · simp only [nonneg, if_false, Option.any_none, Bool.false_eq_true] at later
  | (key, value) :: (key', value') :: rest =>
    have first := canonical _ List.mem_cons_self
    have second := canonical _ (List.mem_cons_of_mem _ List.mem_cons_self)
    simp only [Bool.and_eq_true, decide_eq_true_eq] at first second
    have missing := (distinct_cons_iff.1 distinct).1
    rw [get?_cons, if_pos (first.1.trans second.1.symm)] at missing
    cases missing

/-- Only the attributes that name a slot are looked at for its name. -/
theorem isSlotAttr_of_slotKey? {name : String} (named : Node.slotKey? key = some name) :
    Reading.isSlotAttr key = true := by
  unfold Node.slotKey? at named
  split at named
  · rename_i name chars
    simp [Reading.isSlotAttr, Text.startsWith, Text.after?, chars]
  · rename_i name _ chars
    simp [Reading.isSlotAttr, Text.startsWith, Text.after?, chars]
  · exact absurd named (by simp)

theorem findSome?_slotKey? (attrs : Attrs) :
    attrs.keys.findSome? Node.slotKey? =
      (keys (attrs.filter fun entry => Reading.isSlotAttr entry.1)).findSome? Node.slotKey? := by
  induction attrs with
  | nil => rfl
  | cons entry rest ih =>
    obtain ⟨key, value⟩ := entry
    rw [keys, List.map_cons, List.findSome?_cons, List.filter_cons]
    cases named : Node.slotKey? key with
    | some name =>
      have here := isSlotAttr_of_slotKey? named
      simp only [here, if_true, keys, List.map_cons, List.findSome?_cons, named]
    | none =>
      by_cases slot : Reading.isSlotAttr key = true
      · simp only [slot, if_true, keys, List.map_cons, List.findSome?_cons, named]
        exact ih
      · simp only [slot, Bool.false_eq_true, if_false]
        exact ih

/-- The name in the long form of a slot attribute. -/
theorem slotKey?_long (long : Text.startsWith "v-slot:".toList key.toList = true)
    (named : (Node.slotKey? key).isSome = true) :
    ∃ name, Node.slotKey? key = some name ∧ "v-slot:" ++ name = key := by
  unfold Node.slotKey? at named ⊢
  split at named
  · rename_i name chars
    refine ⟨String.ofList name, ?_, ?_⟩
    · cases name with
      | nil => exact absurd named (by simp)
      | cons c rest => simp
    · rw [← String.toList_inj, String.toList_append, chars]
      simp
  · rename_i name _ chars
    rw [chars] at long
    exact absurd long (by simp [Text.startsWith, Text.after?])
  · exact absurd named (by simp)

/-- The attributes of the template of a slot. -/
theorem slot_perm (distinct : attrs.Distinct) (canonical : attrs.isCanonicalSlot = true) :
    (insertAll [("v-slot:" ++ ((Node.element "template" attrs []).slotName?).getD "default", .str "")]
      (attrs.filter fun entry => !Reading.isSlotAttr entry.1)).Perm attrs := by
  unfold isCanonicalSlot at canonical
  split at canonical
  · rename_i key slots
    rw [Bool.and_eq_true] at canonical
    obtain ⟨name, named, long⟩ := slotKey?_long canonical.1 canonical.2
    have found : (Node.element "template" attrs []).slotName? = some name := by
      rw [Node.slotName?, if_pos rfl, findSome?_slotKey?, slots, keys, List.map_singleton,
        List.findSome?_singleton, named]
    have parts := List.filter_append_perm (fun entry : String × Value => Reading.isSlotAttr entry.1) attrs
    rw [slots] at parts
    rw [found, Option.getD_some, long, insertAll_of_distinct (distinct.perm parts.symm)]
    exact parts
  · exact absurd canonical (by simp)

end Attrs

end ComponentMarkdown
