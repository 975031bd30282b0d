import ComponentMarkdown.Doc.Wire
import ComponentMarkdown.Proofs.Attrs
import ComponentMarkdown.Proofs.Doc.Tree

namespace ComponentMarkdown

@[simp]
theorem Mark.ofValue?_toValue (mark : Mark) : Mark.ofValue? mark.toValue = some mark := by
  obtain ⟨kind, attrs⟩ := mark
  cases attrs with
  | nil => simp [toValue, ofValue?, ofParts?, kindOf?, Attrs.get?_cons]
  | cons entry rest => simp [toValue, ofValue?, ofParts?, kindOf?, Attrs.get?_cons, Value.asObject?]

theorem Mark.filterMap_ofValue? (marks : List Mark) :
    (marks.map toValue).filterMap ofValue? = marks := by
  induction marks with
  | nil => rfl
  | cons mark rest ih => simp only [List.map_cons, List.filterMap_cons, ofValue?_toValue, ih]

theorem FrontmatterError.ofValue?_toValue (error : FrontmatterError) :
    ofValue? error.toValue = some error := by
  simp [toValue, ofValue?, Attrs.getString?, Attrs.get?_cons, Value.asString?]

namespace DocRecord

mutual

theorem ofValue?_toValue : ∀ record : DocRecord, ofValue? record.toValue = some record
  | .mk kind attrs content marks text => by
    have items := listOfValue?_listToValue content
    have known := Mark.filterMap_ofValue? marks
    cases attrs <;> cases content <;> cases marks <;> cases text <;>
      simp_all [toValue, ofValue?, contentOf?, ofParts?, Attrs.get?_cons, Value.asString?,
        Value.asObject?, Value.asArray?]

theorem listOfValue?_listToValue : ∀ records : List DocRecord,
    listOfValue? (listToValue records) = some records
  | [] => by simp only [listToValue, listOfValue?]
  | record :: rest => by
    simp [listToValue, listOfValue?, ofValue?_toValue record, listOfValue?_listToValue rest]

end

end DocRecord

namespace DocNode

theorem get?_optional (key key' : String) (value : Option String) :
    Attrs.get? (optional key value) key' = if key' = key then value.map Value.str else none := by
  cases value with
  | none => simp [optional]
  | some s => simp [optional, Attrs.get?_cons]

theorem get?_whenSet (key key' : String) (value : Bool) :
    Attrs.get? (whenSet key value) key' =
      if key' = key ∧ value = true then some (.bool true) else none := by
  cases value with
  | false => simp [whenSet]
  | true => simp [whenSet, Attrs.get?_cons]

theorem get?_nonempty (key key' : String) (fields : Attrs) :
    Attrs.get? (nonempty key fields) key' =
      if key' = key ∧ fields ≠ [] then some (.obj fields) else none := by
  cases fields with
  | nil => simp [nonempty]
  | cons entry rest => simp [nonempty, Attrs.get?_cons]

/-- The string that an attribute counts as. -/
def asText? : Value → Option String
  | .null => none
  | .str s => some s
  | value => some value.toJson

theorem stringAt?_eq (attrs : Attrs) (key : String) :
    stringAt? attrs key = (attrs.get? key).bind asText? := by
  unfold stringAt?
  cases attrs.get? key with
  | none => rfl
  | some value => cases value <;> rfl

theorem map_str_bind_asText? (value : Option String) : (value.map Value.str).bind asText? = value := by
  cases value <;> rfl

theorem nonempty_asObject? (fields : Attrs) :
    ((if fields = [] then none else some (Value.obj fields)).bind Value.asObject?).getD [] = fields := by
  by_cases empty : fields = []
  · simp [empty]
  · simp [empty, Value.asObject?]

theorem whenSet_asBool? (value : Bool) :
    ((if value = true then some (Value.bool true) else none).bind Value.asBool?).getD false = value := by
  cases value <;> rfl

theorem asNat?_int (n : Nat) : (Value.num (.int n)).asNat? = some n := by
  simp [Value.asNat?, Number.asNat?]

/-- What the wire format can express: the level of a heading is one of the six, `null` is no default of
a binding, and the name of a type that is not known is none of those that are. -/
def isExpressible : DocNode → Bool
  | heading level _ _ => 1 ≤ level && level ≤ 6
  | binding _ default _ => default.all (!·.isNull)
  | unknown kind _ _ => kind ∉ typeNames
  | _ => true

/-- One case for each type of node: what is written of the node is what the node is made of. -/
theorem ofParts_record (node : DocNode) (expressible : node.isExpressible = true) :
    ofParts node.typeName node.recordAttrs node.children node.marks node.recordText? = node := by
  cases node
  case frontmatter data error metadata =>
    cases error <;>
      simp [ofParts, typeName, recordAttrs, objectAt, get?_nonempty, Attrs.get?_cons, Value.asObject?,
        nonempty_asObject?, FrontmatterError.ofValue?_toValue]
  case heading level id children =>
    simp only [isExpressible, Bool.and_eq_true, decide_eq_true_eq] at expressible
    have clamped : min 6 (max 1 level) = level := by omega
    simp [ofParts, typeName, recordAttrs, DocNode.children, natAt, stringAt?_eq, asText?,
      Attrs.get?_cons, asNat?_int, clamped]
  case binding value default marks =>
    cases default with
    | none =>
      simp [ofParts, typeName, recordAttrs, DocNode.marks, stringAt?_eq, get?_optional,
        map_str_bind_asText?]
    | some v =>
      simp only [isExpressible, Option.all_some] at expressible
      simp [ofParts, typeName, recordAttrs, DocNode.marks, stringAt?_eq, get?_optional,
        Attrs.get?_append, Attrs.get?_cons, map_str_bind_asText?, expressible]
  case unknown kind attrs children =>
    simp only [isExpressible, typeNames, List.mem_cons, List.not_mem_nil, or_false, not_or,
      decide_eq_true_eq] at expressible
    simp only [ofParts, typeName, recordAttrs, DocNode.children]
    split <;> simp_all
  all_goals
    simp [ofParts, typeName, recordAttrs, children, marks, recordText?, stringAt?_eq, flagAt, natAt,
      objectAt, get?_optional, get?_nonempty, get?_whenSet, Attrs.get?_cons, Attrs.get?_append,
      map_str_bind_asText?, nonempty_asObject?, whenSet_asBool?, asNat?_int, asText?]

theorem listOfRecords_eq_map (records : List DocRecord) :
    listOfRecords records = records.map ofRecord := by
  induction records with
  | nil => simp only [listOfRecords, List.map_nil]
  | cons record rest ih => simp only [listOfRecords, List.map_cons, ih]

theorem toRecord_eq (node : DocNode) :
    node.toRecord = .mk node.typeName node.recordAttrs (node.children.map toRecord) node.marks
      node.recordText? := by
  unfold toRecord
  rw [fold_eq]
  rfl

theorem ofRecord_toRecord (node : DocNode) (expressible : node.everywhere isExpressible = true) :
    ofRecord node.toRecord = node := by
  induction node using DocNode.induction with
  | step node ih =>
    obtain ⟨here, below⟩ := everywhere_iff.1 expressible
    have same : node.children.map (ofRecord ∘ toRecord) = node.children.map id :=
      List.map_congr_left fun child member => ih child member (below child member)
    rw [toRecord_eq, ofRecord, listOfRecords_eq_map, List.map_map, same, List.map_id]
    exact ofParts_record node here

theorem map_ofRecord_toRecord (nodes : List DocNode)
    (expressible : ∀ node ∈ nodes, node.everywhere isExpressible = true) :
    listOfRecords (nodes.map toRecord) = nodes := by
  have same : nodes.map (ofRecord ∘ toRecord) = nodes.map id :=
    List.map_congr_left fun node member => ofRecord_toRecord node (expressible node member)
  rw [listOfRecords_eq_map, List.map_map, same, List.map_id]

theorem isExpressible_ofParts (kind : String) (attrs : Attrs) (children : List DocNode)
    (marks : List Mark) (content : Option String) :
    (ofParts kind attrs children marks content).isExpressible = true := by
  have clamped : ∀ level : Nat, 1 ≤ min 6 (max 1 level) ∧ min 6 (max 1 level) ≤ 6 := by omega
  unfold ofParts
  split <;> simp_all [isExpressible, typeNames, Option.all_filter]

theorem mem_children_ofParts {kind : String} {attrs : Attrs} {children : List DocNode}
    {marks : List Mark} {content : Option String} {child : DocNode}
    (member : child ∈ (ofParts kind attrs children marks content).children) : child ∈ children := by
  unfold ofParts at member
  split at member <;> simp_all [DocNode.children]

mutual

theorem everywhere_ofRecord : ∀ record : DocRecord,
    (ofRecord record).everywhere isExpressible = true
  | .mk kind attrs content marks line => by
    rw [ofRecord, everywhere_iff]
    refine ⟨isExpressible_ofParts kind attrs _ marks line, fun child member => ?_⟩
    exact everywhere_listOfRecords content child (mem_children_ofParts member)

theorem everywhere_listOfRecords : ∀ (records : List DocRecord),
    ∀ node ∈ listOfRecords records, node.everywhere isExpressible = true
  | [] => by simp only [listOfRecords, List.not_mem_nil, false_implies, implies_true]
  | record :: rest => by
    intro node member
    rw [listOfRecords, List.mem_cons] at member
    rcases member with rfl | member
    · exact everywhere_ofRecord record
    · exact everywhere_listOfRecords rest node member

end

end DocNode

namespace Doc

theorem ofValue_toValue (doc : Doc) (expressible : doc.everywhere DocNode.isExpressible = true) :
    ofValue doc.toValue = .ok doc := by
  rw [everywhere_iff] at expressible
  simp only [ofValue, toValue, DocRecord.ofValue?_toValue, ofRecord, if_true,
    DocNode.map_ofRecord_toRecord doc.content expressible]

theorem everywhere_of_ofValue {value : Value} {doc : Doc} (read : ofValue value = .ok doc) :
    doc.everywhere DocNode.isExpressible = true := by
  unfold ofValue at read
  split at read
  · rename_i record _
    obtain ⟨kind, attrs, content, marks, line⟩ := record
    rw [ofRecord] at read
    split at read
    · rw [← Except.ok.inj read]
      exact everywhere_iff.2 (DocNode.everywhere_listOfRecords content)
    · exact absurd read (by simp)
  · exact absurd read (by simp)

/-- The documents that are read back as they were written are those that the format can express. What is
read from any value is one of them, so reading it once more changes nothing. -/
theorem wire_round_trip (doc : Doc) :
    (ofValue doc.toValue = .ok doc ↔ doc.everywhere DocNode.isExpressible = true) ∧
    ∀ value, ofValue value = .ok doc →
      doc.everywhere DocNode.isExpressible = true ∧ ofValue doc.toValue = .ok doc := by
  refine ⟨⟨everywhere_of_ofValue, ofValue_toValue doc⟩, ?_⟩
  intro value read
  have expressible := everywhere_of_ofValue read
  exact ⟨expressible, ofValue_toValue doc expressible⟩

/-- A level out of range, a default that is `null`, and a mark and a type that are not known. -/
theorem wire_round_trip_normalised :
    let doc : Doc := ⟨[.heading 6 "" [.binding none none []], .unknown "mathBlock" [("tex", .str "x")] []]⟩
    ofValue (.obj [("type", .str "doc"), ("content", .arr
      [.obj [("type", .str "heading"), ("attrs", .obj [("level", .num (.int 9))]), ("content", .arr
        [.obj [("type", .str "binding"), ("attrs", .obj [("defaultValue", .null)]),
          ("marks", .arr [.obj [("type", .str "underline")]])]])],
      .obj [("type", .str "mathBlock"), ("attrs", .obj [("tex", .str "x")])]])]) = .ok doc ∧
    ofValue doc.toValue = .ok doc := by
  refine ⟨?read, ((wire_round_trip _).2 _ ?read).2⟩
  case read => rfl

end Doc

end ComponentMarkdown
