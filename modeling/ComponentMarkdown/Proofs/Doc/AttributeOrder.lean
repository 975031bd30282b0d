import ComponentMarkdown.Proofs.Doc.WrittenAttrs

namespace ComponentMarkdown

namespace Attrs

variable {attrs : Attrs} {key : String}

section Take

open Reading (takeString)

theorem takeString_of_none (missing : attrs.get? key = none) : takeString attrs key = (none, attrs) := by
  rw [takeString, missing]

theorem takeString_of_str {s : String} (found : attrs.get? key = some (.str s)) :
    takeString attrs key = (some s, attrs.erase key) := by
  rw [takeString, found]

theorem takeString_of_other (distinct : attrs.Distinct) {value : Value} (found : attrs.get? key = some value)
    (other : value.asString? = none) : takeString attrs key = (none, attrs.erase key ++ [(key, value)]) := by
  have missing : (attrs.erase key).get? key = none := by rw [get?_erase distinct, if_pos rfl]
  rw [takeString, found]
  cases value with
  | str => cases other
  | _ => rw [← insert_of_get?_none missing]

end Take

/-- Entries of a map are determined by their keys. -/
theorem eq_of_keys {entries others : Attrs} (each : ∀ entry ∈ entries, attrs.get? entry.1 = some entry.2)
    (each' : ∀ entry ∈ others, attrs.get? entry.1 = some entry.2) (same : entries.keys = others.keys) :
    entries = others := by
  induction entries generalizing others with
  | nil => exact (List.map_eq_nil_iff.1 same.symm).symm
  | cons entry rest ih =>
    cases others with
    | nil => cases same
    | cons other more =>
      obtain ⟨here, below⟩ := List.forall_mem_cons.1 each
      obtain ⟨here', below'⟩ := List.forall_mem_cons.1 each'
      obtain ⟨key, keys⟩ := List.cons_eq_cons.1 same
      have value : entry.2 = other.2 := Option.some.inj (here.symm.trans ((congrArg attrs.get? key).trans here'))
      rw [ih below below' keys, Prod.ext key value]

theorem exists_of_suffix (distinct : attrs.Distinct) {last : Attrs}
    (each : ∀ entry ∈ last, attrs.get? entry.1 = some entry.2) (suffix : last.keys <:+ attrs.keys) :
    ∃ front, attrs = front ++ last := by
  obtain ⟨start, whole⟩ := suffix
  obtain ⟨front, last', same, _, keys⟩ := List.map_eq_append_iff.1 whole.symm
  have each' : ∀ entry ∈ last', attrs.get? entry.1 = some entry.2 := fun entry member =>
    get?_of_mem distinct (same ▸ List.mem_append_right _ member)
  exact ⟨front, same.trans (congrArg (front ++ ·) (eq_of_keys each' each keys))⟩

theorem keys_append (attrs more : Attrs) : keys (attrs ++ more) = attrs.keys ++ more.keys := List.map_append

theorem suffix_of_append {front last : Attrs} (same : front ++ last = attrs) : last.keys <:+ attrs.keys :=
  ⟨front.keys, by rw [← same, keys_append]⟩

section Erase

variable {key' : String} {value value' : Value}

theorem erase_last (missing : attrs.get? key = none) : erase (attrs ++ [(key, value)]) key = attrs := by
  rw [erase_split missing]
  simp

/-- The last two entries can be taken out in either order. -/
theorem erase_pair (distinct : Distinct (attrs ++ [(key, value), (key', value')])) :
    erase (erase (attrs ++ [(key, value), (key', value')]) key) key' = attrs ∧
      erase (erase (attrs ++ [(key, value), (key', value')]) key') key = attrs := by
  have missing := distinct.get?_eq_none
  rw [List.append_cons] at distinct
  have missing' := distinct.get?_eq_none
  have apart := missing'
  rw [get?_append, Option.or_eq_none_iff] at apart
  refine ⟨?_, ?_⟩
  · have moved : erase (attrs ++ [(key, value), (key', value')]) key = attrs ++ [(key', value')] :=
      erase_split missing
    rw [moved, erase_last apart.1]
  · rw [List.append_cons, erase_last missing', erase_last missing]

/-- An attribute is put at the end. -/
theorem moved_eq_iff (distinct : attrs.Distinct) (found : attrs.get? key = some value) :
    attrs.erase key ++ [(key, value)] = attrs ↔ [key] <:+ attrs.keys := by
  refine ⟨suffix_of_append, fun suffix => ?_⟩
  have each : ∀ entry ∈ [(key, value)], attrs.get? entry.1 = some entry.2 := List.forall_mem_singleton.2 found
  obtain ⟨front, rfl⟩ := exists_of_suffix distinct each suffix
  rw [erase_last distinct.get?_eq_none]

/-- Two attributes are put at the end. -/
theorem both_moved_eq_iff (distinct : attrs.Distinct) (found : attrs.get? key = some value)
    (found' : attrs.get? key' = some value') :
    ((attrs.erase key).erase key' ++ [(key, value), (key', value')] = attrs ↔ [key, key'] <:+ attrs.keys) ∧
      ((attrs.erase key').erase key ++ [(key, value), (key', value')] = attrs ↔ [key, key'] <:+ attrs.keys) := by
  have each : ∀ entry ∈ [(key, value), (key', value')], attrs.get? entry.1 = some entry.2 :=
    List.forall_mem_cons.2 ⟨found, List.forall_mem_singleton.2 found'⟩
  refine ⟨⟨suffix_of_append, fun suffix => ?_⟩, ⟨suffix_of_append, fun suffix => ?_⟩⟩
  all_goals obtain ⟨front, rfl⟩ := exists_of_suffix distinct each suffix
  · rw [(erase_pair distinct).1]
  · rw [(erase_pair distinct).2]

/-- An attribute is put at the end, and then another one. -/
theorem moved_moved_eq_iff (distinct : attrs.Distinct) (differ : key ≠ key') (found : attrs.get? key = some value)
    (found' : attrs.get? key' = some value') :
    erase (attrs.erase key ++ [(key, value)]) key' ++ [(key', value')] = attrs ↔ [key'] <:+ attrs.keys := by
  refine ⟨suffix_of_append, fun suffix => ?_⟩
  have each : ∀ entry ∈ [(key', value')], attrs.get? entry.1 = some entry.2 := List.forall_mem_singleton.2 found'
  obtain ⟨front, rfl⟩ := exists_of_suffix distinct each suffix
  rw [get?_append, get?_cons, if_neg differ, get?_nil, Option.or_none] at found
  obtain ⟨before, after, rfl, missing⟩ := exists_split found
  have absent := distinct.get?_eq_none
  rw [get?_append, Option.or_eq_none_iff] at absent
  -- The first removal moves the second attribute into the place of the first one, and the second removal moves it
  -- back.
  have first : erase (before ++ (key, value) :: after ++ [(key', value')]) key =
      before ++ (key', value') :: after := by
    rw [List.append_assoc, List.cons_append, erase_split missing]
    simp
  rw [first, List.append_assoc, List.cons_append, erase_split absent.1]
  simp

end Erase

/-- The attributes of a span behind the editor. -/
def spanThroughEditor (attrs : Attrs) : Attrs :=
  let style := Reading.takeString attrs "style"
  let class_ := Reading.takeString style.2 "class"
  Writing.insertSpoken (Writing.insertSpoken class_.2 "style" style.1) "class" class_.1

/-- The keys at the end of a span that keeps the order of its attributes: texts are put at the end, and anything
else is moved there when it is found to be no text. -/
def spanTail (attrs : Attrs) : List String :=
  if attrs.contains "class" then
    if (attrs.getString? "style").isNone then ["class"]
    else if (attrs.getString? "class").isNone then ["class", "style"]
    else ["style", "class"]
  else if attrs.contains "style" then ["style"]
  else []

theorem insertSpoken_of_missing {s : String} (filled : s ≠ "") (missing : attrs.get? key = none) :
    Writing.insertSpoken attrs key (some s) = attrs ++ [(key, .str s)] := by
  rw [Writing.insertSpoken, if_neg filled, insert_of_get?_none missing]

/-- What is taken out and put back is at the end. -/
theorem insertSpoken_takeString (distinct : attrs.Distinct) {value : Value} (found : attrs.get? key = some value)
    (filled : value ≠ .str "") :
    Writing.insertSpoken (Reading.takeString attrs key).2 key (Reading.takeString attrs key).1 =
      attrs.erase key ++ [(key, value)] := by
  cases value with
  | str s =>
    rw [takeString_of_str found, insertSpoken_of_missing (fun empty => filled (congrArg _ empty))
      (get?_erase_self distinct key)]
  | _ =>
    rw [takeString_of_other distinct found rfl]
    rfl

theorem filled_of_getString? {value : Value} (found : attrs.get? key = some value)
    (spoken : attrs.getString? key ≠ some "") : value ≠ .str "" := by
  rintro rfl
  exact spoken (by rw [getString?, found]; rfl)

theorem spanThroughEditor_eq_iff (distinct : attrs.Distinct) (canonical : attrs.isCanonicalSpan = true) :
    attrs.spanThroughEditor = attrs ↔ attrs.spanTail <:+ attrs.keys := by
  simp only [isCanonicalSpan, Bool.and_eq_true, decide_eq_true_eq, ne_eq] at canonical
  obtain ⟨spokenStyle, spokenClass⟩ := canonical
  rw [spanThroughEditor, spanTail, contains, contains, getString?, getString?]
  cases style : attrs.get? "style" with
  | none =>
    rw [takeString_of_none style]
    cases class_ : attrs.get? "class" with
    | none =>
      rw [takeString_of_none class_]
      exact iff_of_true rfl List.nil_suffix
    | some value =>
      have moved := moved_eq_iff distinct class_
      rwa [← insertSpoken_takeString distinct class_ (filled_of_getString? class_ spokenClass)] at moved
  | some value =>
    have filled := filled_of_getString? style spokenStyle
    have erased := distinct.erase "style"
    have class_of : (attrs.erase "style").get? "class" = attrs.get? "class" := get?_erase_of_ne distinct (by decide)
    cases class_ : attrs.get? "class" with
    | none =>
      have moved := moved_eq_iff distinct style
      rw [← insertSpoken_takeString distinct style filled] at moved
      have missing : (Reading.takeString attrs "style").2.get? "class" = none := by
        cases value with
        | str s => rw [takeString_of_str style, class_of, class_]
        | _ => rw [takeString_of_other distinct style rfl, get?_append, class_of, class_]; rfl
      rw [takeString_of_none missing]
      exact moved
    | some value' =>
      have filled' := filled_of_getString? class_ spokenClass
      have found : (attrs.erase "style").get? "class" = some value' := class_of.trans class_
      cases text : value.asString? with
      | some s =>
        obtain rfl : value = .str s := by
          cases value <;> cases text
          rfl
        have some : s ≠ "" := fun empty => filled (congrArg _ empty)
        have missing : ((attrs.erase "style").erase "class").get? "style" = none :=
          (get?_erase_of_ne erased (by decide)).trans (get?_erase_self distinct "style")
        have missing' : ((attrs.erase "style").erase "class").get? "class" = none := get?_erase_self erased "class"
        rw [takeString_of_str style]
        cases value' with
        | str c =>
          have some' : c ≠ "" := fun empty => filled' (congrArg _ empty)
          rw [takeString_of_str found, insertSpoken_of_missing some missing,
            insertSpoken_of_missing some' (by rw [get?_append, missing']; rfl), List.append_assoc]
          exact (both_moved_eq_iff distinct style class_).1
        | _ =>
          rw [takeString_of_other erased found rfl,
            insertSpoken_of_missing some (by rw [get?_append, missing]; rfl),
            Writing.insertSpoken, List.append_assoc]
          exact (both_moved_eq_iff distinct class_ style).2
      | none =>
        have moved := moved_moved_eq_iff distinct (by decide) style class_
        have again : Attrs.Distinct (attrs.erase "style" ++ [("style", value)]) :=
          distinct.perm ((perm_cons_erase style).trans (List.perm_append_singleton _ _).symm)
        have inside : Attrs.get? (attrs.erase "style" ++ [("style", value)]) "class" = some value' := by
          rw [get?_append, found, Option.some_or]
        rw [← insertSpoken_takeString again inside filled'] at moved
        rw [takeString_of_other distinct style text, Option.bind_some, text]
        exact moved

section Link

/-- The attributes of a link behind the editor, if its content is more than marks can express. -/
def linkThroughEditor [Surroundings] (attrs : Attrs) : Attrs :=
  let href := Reading.takeString (LinkPolicy.editorAttrs attrs) "href"
  let target := Reading.takeString href.2 "target"
  let rel := Reading.takeString target.2 "rel"
  LinkPolicy.markupAttrs (insertAll (Writing.insertSpoken (Writing.insertSpoken
    [("href", .str (href.1.getD ""))] "target" target.1) "rel" rel.1) rel.2)

/-- A link that stays on the site, without `null`, whose target and `rel` are filled if they are there. -/
structure IsRelativeLink [Surroundings] (attrs : Attrs) : Prop where
  relative : LinkPolicy.isExternal attrs = false
  spoken : ∀ entry ∈ attrs, entry.2.isNull = false
  leads : (attrs.getString? "href").isSome
  target : ∀ value, attrs.get? "target" = some value → isFilled value = true
  rel : ∀ value, attrs.get? "rel" = some value → isFilled value = true

/-- The attributes that a link has at its start behind the editor. -/
def linkHead (attrs : Attrs) : Attrs := attrs.field "href" ++ attrs.field "target" ++ attrs.field "rel"

/-- What is a text or not there is taken out of the map. -/
theorem takeString_snd (text : ∀ value, attrs.get? key = some value → value.asString?.isSome = true) :
    (Reading.takeString attrs key).2 = attrs.erase key := by
  cases found : attrs.get? key with
  | none => rw [takeString_of_none found, erase_of_get?_none found]
  | some value =>
    obtain ⟨s, same⟩ := Option.isSome_iff_exists.1 (text value found)
    cases value <;> cases same
    rw [takeString_of_str found]

theorem isText_of_isFilled {value : Value} (filled : isFilled value = true) : value.asString?.isSome = true := by
  cases value <;> first | rfl | cases filled

theorem perm_field_erase (attrs : Attrs) (key : String) : attrs.Perm (attrs.field key ++ attrs.erase key) := by
  rw [field]
  cases found : attrs.get? key with
  | none => rw [erase_of_get?_none found]; exact .refl _
  | some value => exact perm_cons_erase found

theorem field_erase_of_ne (distinct : attrs.Distinct) {key' : String} (differ : key' ≠ key) :
    field (attrs.erase key) key' = attrs.field key' := by
  rw [field, field, get?_erase_of_ne distinct differ]

/-- The other attributes of a link, in the order in which they are left. -/
def linkRest (attrs : Attrs) : Attrs := ((attrs.erase "href").erase "target").erase "rel"

theorem perm_linkHead (distinct : attrs.Distinct) : attrs.Perm (attrs.linkHead ++ attrs.linkRest) := by
  have first := perm_field_erase attrs "href"
  have second := perm_field_erase (attrs.erase "href") "target"
  have third := perm_field_erase ((attrs.erase "href").erase "target") "rel"
  have erased := distinct.erase "href"
  rw [field_erase_of_ne distinct (by decide)] at second
  rw [field_erase_of_ne erased (by decide), field_erase_of_ne distinct (by decide)] at third
  have behind := second.trans (third.append_left _)
  rw [linkHead, List.append_assoc, List.append_assoc]
  exact first.trans (behind.append_left _)

theorem linkThroughEditor_eq [Surroundings] (valid : attrs.wellFormed = true) (link : attrs.IsRelativeLink) :
    attrs.linkThroughEditor = attrs.linkHead ++ attrs.linkRest := by
  have distinct := distinct_of_wellFormed valid
  have erased := distinct.erase "href"
  have perm := perm_linkHead distinct
  obtain ⟨href, leads⟩ := Option.isSome_iff_exists.1 link.leads
  have plain : LinkPolicy.editorAttrs attrs = attrs := by
    rw [LinkPolicy.editorAttrs, link.relative]
    rfl
  have text : ∀ value, attrs.get? "href" = some value → value.asString?.isSome = true := by
    intro value found
    rw [getString?, found, Option.bind_some] at leads
    rw [leads]
    rfl
  have start : [("href", Value.str href)] = attrs.field "href" := by
    obtain ⟨value, found, same⟩ := Option.bind_eq_some_iff.1 leads
    cases value <;> cases same
    rw [field, found]
    rfl
  have target : (attrs.erase "href").get? "target" = attrs.get? "target" := get?_erase_of_ne distinct (by decide)
  have rel : ((attrs.erase "href").erase "target").get? "rel" = attrs.get? "rel" :=
    (get?_erase_of_ne erased (by decide)).trans (get?_erase_of_ne distinct (by decide))
  have taken : (Reading.takeString (attrs.erase "href") "target").2 = (attrs.erase "href").erase "target" :=
    takeString_snd fun value found => isText_of_isFilled (link.target value (target ▸ found))
  have taken' : (Reading.takeString ((attrs.erase "href").erase "target") "rel").2 = attrs.linkRest :=
    takeString_snd fun value found => isText_of_isFilled (link.rel value (rel ▸ found))
  have missing : (attrs.field "href").get? "target" = none := get?_field_of_ne (by decide)
  have missing' : Attrs.get? (attrs.field "href" ++ attrs.field "target") "rel" = none := by
    rw [get?_append, get?_field_of_ne (by decide), get?_field_of_ne (by decide)]
    rfl
  have kept : LinkPolicy.isExternal (attrs.linkHead ++ attrs.linkRest) = false := by
    rw [← LinkPolicy.isExternal_perm distinct perm, link.relative]
  rw [linkThroughEditor, plain]
  simp only [takeString_fst, takeString_snd text, taken, taken', leads, Option.getD_some]
  rw [getString?, getString?, target, rel, ← getString?, ← getString?, start,
    insertSpoken_getString? missing link.target, insertSpoken_getString? missing' link.rel]
  have whole : attrs.linkHead.insertAll attrs.linkRest = attrs.linkHead ++ attrs.linkRest :=
    insertAll_of_distinct (distinct.perm perm)
  rw [linkHead] at whole kept ⊢
  rw [whole, LinkPolicy.markupAttrs, LinkPolicy.withoutDefaults, kept]
  refine List.filter_eq_self.2 fun entry member => ?_
  rw [link.spoken entry (perm.mem_iff.2 member)]
  rfl

theorem head?_erase {entry : String × Value} (other : entry.1 ≠ key) (rest : Attrs) :
    (erase (entry :: rest) key).head? = some entry := by
  cases found : Attrs.get? (entry :: rest) key with
  | none => rw [erase_of_get?_none found]; rfl
  | some value =>
    obtain ⟨before, after, same, missing⟩ := exists_split found
    rw [same, erase_split missing]
    cases before with
    | nil =>
      obtain ⟨rfl, _⟩ := List.cons_eq_cons.1 same
      exact absurd rfl other
    | cons first more => rw [(List.cons_eq_cons.1 same).1]; rfl

/-- If more than one attribute is left over, the last one comes to stand in front of them. -/
theorem length_linkRest_le (distinct : attrs.Distinct) (leads : (attrs.getString? "href").isSome = true)
    (same : attrs.linkHead ++ attrs.linkRest = attrs) : attrs.linkRest.length ≤ 1 := by
  have erased := distinct.erase "href"
  have without := erased.erase "target"
  rcases left : attrs.linkRest with _ | ⟨first, _ | ⟨second, more⟩⟩
  · exact Nat.zero_le 1
  · exact Nat.le_refl 1
  exfalso
  obtain ⟨front, last, tail⟩ : ∃ front last, second :: more = front ++ [last] :=
    ⟨_, _, (List.dropLast_append_getLast (by simp)).symm⟩
  obtain ⟨value, found⟩ : ∃ value, attrs.get? "href" = some value := by
    obtain ⟨href, leads⟩ := Option.isSome_iff_exists.1 leads
    obtain ⟨value, found, _⟩ := Option.bind_eq_some_iff.1 leads
    exact ⟨value, found⟩
  rw [tail] at left
  have absent : ∀ key, attrs.linkRest.get? key = none → last.1 ≠ key := by
    rintro _ missing rfl
    refine get?_eq_none_iff.1 missing (List.mem_map.2 ⟨last, ?_, rfl⟩)
    rw [left]
    simp
  have noRel : last.1 ≠ "rel" := absent "rel" (get?_erase_self without "rel")
  have noTarget : last.1 ≠ "target" := absent "target" <|
    (get?_erase_of_ne without (by decide)).trans (get?_erase_self erased "target")
  have moved : ∃ others, attrs.erase "href" = last :: others := by
    refine ⟨attrs.field "target" ++ attrs.field "rel" ++ first :: front, ?_⟩
    have whole : attrs =
        [] ++ ("href", value) :: (attrs.field "target" ++ attrs.field "rel" ++ first :: front ++ [last]) := by
      rw [left, linkHead] at same
      have start : attrs.field "href" = [("href", value)] := by rw [field, found]; rfl
      rw [start] at same
      simpa using same.symm
    refine (congrArg (erase · "href") whole).trans ((erase_split rfl).trans ?_)
    rw [List.getLast?_concat, List.dropLast_concat]
    rfl
  obtain ⟨others, moved⟩ := moved
  obtain ⟨others', moved'⟩ := List.head?_eq_some_iff.1 (head?_erase noTarget others)
  have start := head?_erase noRel others'
  rw [← moved', ← moved, ← linkRest, left, List.head?_cons] at start
  have twice : (attrs.linkRest).Distinct := without.erase "rel"
  rw [left, Option.some.inj start, Distinct, keys] at twice
  simp at twice

theorem linkThroughEditor_eq_iff [Surroundings] (valid : attrs.wellFormed = true) (link : attrs.IsRelativeLink) :
    attrs.linkThroughEditor = attrs ↔
      attrs.linkHead <+: attrs ∧ attrs.length ≤ attrs.linkHead.length + 1 := by
  have distinct := distinct_of_wellFormed valid
  rw [linkThroughEditor_eq valid link]
  constructor
  · intro same
    have few := length_linkRest_le distinct link.leads same
    have length := congrArg List.length same
    rw [List.length_append] at length
    exact ⟨⟨_, same⟩, by omega⟩
  · rintro ⟨⟨others, same⟩, short⟩
    have perm := perm_linkHead distinct
    have length := congrArg List.length same
    rw [List.length_append] at length
    have left : others.Perm attrs.linkRest := by
      rw [← List.perm_append_left_iff attrs.linkHead, same]
      exact perm
    have equal : others = attrs.linkRest := by
      rcases others with _ | ⟨only, _ | ⟨_, _⟩⟩
      · exact (List.nil_perm.1 left).symm
      · exact (List.singleton_perm.1 left)
      · simp only [List.length_cons] at length
        omega
    rw [← equal, same]

end Link

end Attrs

end ComponentMarkdown
