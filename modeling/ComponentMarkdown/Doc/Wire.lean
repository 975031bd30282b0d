import ComponentMarkdown.Doc.Node
import ComponentMarkdown.Json.Printer
import ComponentMarkdown.Json.Reader
import ComponentMarkdown.Json.Record

namespace ComponentMarkdown

/-- Why a value is no document. -/
inductive DocError where
  | notADocument (found : String)
  | undecodable
deriving DecidableEq, Repr, Inhabited

namespace DocError

def message : DocError → String
  | notADocument found => "Expected a \x60doc\x60 node at the root, found \x60" ++ found ++ "\x60"
  | undecodable => "Invalid editor document JSON"

end DocError

/-- The record of a node. -/
inductive DocRecord where
  | mk (kind : String) (attrs : Attrs) (content : List DocRecord) (marks : List Mark)
      (text : Option String)
deriving Repr, Inhabited

namespace Mark

/-- The wire form of a mark. -/
def toValue (mark : Mark) : Value :=
  .obj (("type", .str mark.kind.name)
    :: if mark.attrs.isEmpty then [] else [("attrs", .obj mark.attrs)])

/-- The kind of a mark: its name, or an object with the name as the only key and nothing in it. -/
def kindOf? : Value → Option MarkKind
  | .str name => MarkKind.ofName? name
  | .obj [(name, .null)] => MarkKind.ofName? name
  | _ => none

/-- The mark of a kind and attributes, of which the latter may be missing. -/
def ofParts? (kind attrs : Option Value) : Option Mark := do
  let kind ← kind.bind kindOf?
  let attrs ← match attrs with
    | none => some []
    | some value => value.asObject?
  return ⟨kind, attrs⟩

/-- The mark of a record. -/
def ofValue? : Value → Option Mark
  | .obj fields => ofParts? (Attrs.get? fields "type") (Attrs.get? fields "attrs")
  | .arr [kind] => ofParts? (some kind) none
  | .arr [kind, attrs] => ofParts? (some kind) (some attrs)
  | _ => none

end Mark

namespace FrontmatterError

def toValue (error : FrontmatterError) : Value :=
  .obj [("message", .str error.message), ("raw", error.raw)]

def ofValue? : Value → Option FrontmatterError
  | .obj fields => do
    let message ← Attrs.getString? fields "message"
    let raw ← Attrs.get? fields "raw"
    return ⟨message, raw⟩
  | .arr [.str message, raw] => some ⟨message, raw⟩
  | _ => none

end FrontmatterError

mutual

/-- The wire form of a record. -/
def DocRecord.toValue : DocRecord → Value
  | .mk kind attrs content marks text =>
    .obj (("type", .str kind)
      :: ((if attrs.isEmpty then [] else [("attrs", .obj attrs)])
        ++ (if content.isEmpty then [] else [("content", .arr (DocRecord.listToValue content))])
        ++ (if marks.isEmpty then [] else [("marks", .arr (marks.map Mark.toValue))])
        ++ (match text with
          | none => []
          | some content => [("text", .str content)])))

def DocRecord.listToValue : List DocRecord → List Value
  | [] => []
  | record :: rest => record.toValue :: DocRecord.listToValue rest

end

namespace DocRecord

/-- The fields of a record, in order. -/
def shape : Json.RecordShape := ⟨["type", "attrs", "content", "marks", "text"], some "content"⟩

/-- The record of its fields, of which all but the type may be missing. -/
def ofParts? (kind attrs : Option Value) (content : List DocRecord) (marks text : Option Value) :
    Option DocRecord := do
  let kind ← kind.bind Value.asString?
  let attrs ← match attrs with
    | none => some []
    | some value => value.asObject?
  let marks ← match marks with
    | none => some []
    | some value => value.asArray?
  let text ← match text with
    | none | some .null => some none
    | some value => value.asString?.map some
  return .mk kind attrs content (marks.filterMap Mark.ofValue?) text

end DocRecord

mutual

/-- The record that a value stands for: an object, or an array of the fields in order. -/
def DocRecord.ofValue? : Value → Option DocRecord
  | .obj fields => do
    let content ← DocRecord.contentOf? fields
    DocRecord.ofParts? (Attrs.get? fields "type") (Attrs.get? fields "attrs") content
      (Attrs.get? fields "marks") (Attrs.get? fields "text")
  | .arr [kind] => DocRecord.ofParts? (some kind) none [] none none
  | .arr [kind, attrs] => DocRecord.ofParts? (some kind) (some attrs) [] none none
  | .arr [kind, attrs, .arr items] => do
    let content ← DocRecord.listOfValue? items
    DocRecord.ofParts? (some kind) (some attrs) content none none
  | .arr [kind, attrs, .arr items, marks] => do
    let content ← DocRecord.listOfValue? items
    DocRecord.ofParts? (some kind) (some attrs) content (some marks) none
  | .arr [kind, attrs, .arr items, marks, text] => do
    let content ← DocRecord.listOfValue? items
    DocRecord.ofParts? (some kind) (some attrs) content (some marks) (some text)
  | _ => none

/-- The records in the content field of an object. -/
def DocRecord.contentOf? : List (String × Value) → Option (List DocRecord)
  | [] => some []
  | (key, value) :: rest =>
    if key = "content" then
      match value with
      | .arr items => DocRecord.listOfValue? items
      | _ => none
    else DocRecord.contentOf? rest

/-- The records that the items of an array stand for. -/
def DocRecord.listOfValue? : List Value → Option (List DocRecord)
  | [] => some []
  | value :: rest => do
    let record ← DocRecord.ofValue? value
    let records ← DocRecord.listOfValue? rest
    return record :: records

end

namespace DocNode

/-- The string under a key. Any other value but `null` counts as its JSON text. -/
def stringAt? (attrs : Attrs) (key : String) : Option String :=
  match attrs.get? key with
  | none | some .null => none
  | some (.str s) => some s
  | some value => some value.toJson

/-- The object under a key, empty if there is none. -/
def objectAt (attrs : Attrs) (key : String) : Attrs :=
  ((attrs.get? key).bind Value.asObject?).getD []

def flagAt (attrs : Attrs) (key : String) : Bool :=
  ((attrs.get? key).bind Value.asBool?).getD false

def natAt (attrs : Attrs) (key : String) (missing : Nat) : Nat :=
  ((attrs.get? key).bind Value.asNat?).getD missing

/-- The types that are known. -/
def typeNames : List String :=
  ["frontmatter", "paragraph", "heading", "bulletList", "orderedList", "listItem", "blockquote",
    "horizontalRule", "hardBreak", "text", "element", "inlineElement", "slot", "codeBlock", "image",
    "video", "link", "spanStyle", "binding", "comment", "emoji"]

/-- The node of a record whose content has been read. -/
def ofParts (kind : String) (attrs : Attrs) (children : List DocNode) (marks : List Mark)
    (content : Option String) : DocNode :=
  match kind with
  | "frontmatter" =>
    frontmatter (objectAt attrs "frontmatter")
      ((attrs.get? "error").bind FrontmatterError.ofValue?) (objectAt attrs "meta")
  | "paragraph" => paragraph (flagAt attrs "synthetic") children
  | "heading" =>
    heading (min 6 (max 1 (natAt attrs "level" 1))) ((stringAt? attrs "id").getD "") children
  | "bulletList" => bulletList children
  | "orderedList" => orderedList (natAt attrs "start" 1) children
  | "listItem" => listItem children
  | "blockquote" => blockquote children
  | "horizontalRule" => horizontalRule
  | "hardBreak" => hardBreak marks
  | "text" => text (content.getD "") marks
  | "element" =>
    element ((stringAt? attrs "tag").getD "div") (objectAt attrs "props") children
  | "inlineElement" =>
    inlineElement ((stringAt? attrs "tag").getD "span") (objectAt attrs "props") children marks
  | "slot" =>
    slot ((stringAt? attrs "name").getD "default") (objectAt attrs "props")
      (flagAt attrs "synthetic") children
  | "codeBlock" =>
    codeBlock ⟨stringAt? attrs "language", stringAt? attrs "filename", stringAt? attrs "meta"⟩
      (stringAt? attrs "code") children
  | "image" => image attrs marks
  | "video" => video attrs marks
  | "link" =>
    link ((stringAt? attrs "href").getD "") (stringAt? attrs "target") (stringAt? attrs "rel")
      (objectAt attrs "props") children marks
  | "spanStyle" =>
    spanStyle (stringAt? attrs "style") (stringAt? attrs "class") (objectAt attrs "props")
      children marks
  | "binding" =>
    binding (stringAt? attrs "value") ((attrs.get? "defaultValue").filter (fun v => !v.isNull)) marks
  | "comment" => comment ((stringAt? attrs "text").getD "")
  | "emoji" =>
    emoji ((stringAt? attrs "name").getD "") ((stringAt? attrs "glyph").getD "") marks
  | kind => unknown kind attrs children

end DocNode

mutual

/-- The node of a record. -/
def DocNode.ofRecord : DocRecord → DocNode
  | .mk kind attrs content marks line =>
    DocNode.ofParts kind attrs (DocNode.listOfRecords content) marks line

def DocNode.listOfRecords : List DocRecord → List DocNode
  | [] => []
  | record :: rest => DocNode.ofRecord record :: DocNode.listOfRecords rest

end

namespace DocNode

/-- An attribute that is written only when there is a value. -/
def optional (key : String) (value : Option String) : Attrs :=
  match value with
  | none => []
  | some s => [(key, .str s)]

/-- An attribute that is written only when the object is not empty. -/
def nonempty (key : String) (fields : Attrs) : Attrs :=
  if fields.isEmpty then [] else [(key, .obj fields)]

/-- An attribute that is written only when it is set. -/
def whenSet (key : String) (value : Bool) : Attrs := if value then [(key, .bool true)] else []

/-- The attributes in the record of a node. -/
def recordAttrs : DocNode → Attrs
  | frontmatter data error metadata =>
    ("frontmatter", .obj data)
      :: ((match error with
          | none => []
          | some error => [("error", error.toValue)])
        ++ nonempty "meta" metadata)
  | paragraph synthetic _ => whenSet "synthetic" synthetic
  | heading level id _ => [("level", .num (.int level)), ("id", .str id)]
  | orderedList start _ => [("start", .num (.int start))]
  | element tag props _ | inlineElement tag props _ _ => ("tag", .str tag) :: nonempty "props" props
  | slot name props synthetic _ =>
    ("name", .str name) :: (nonempty "props" props ++ whenSet "synthetic" synthetic)
  | codeBlock info code _ =>
    optional "language" info.language ++ optional "filename" info.filename
      ++ optional "meta" info.meta? ++ optional "code" code
  | image props _ | video props _ => props
  | link href target rel props _ _ =>
    ("href", .str href)
      :: (optional "target" target ++ optional "rel" rel ++ nonempty "props" props)
  | spanStyle style class_ props _ _ =>
    optional "style" style ++ optional "class" class_ ++ nonempty "props" props
  | binding value default _ =>
    optional "value" value
      ++ (match default with
        | none => []
        | some v => [("defaultValue", v)])
  | comment content => [("text", .str content)]
  | emoji name glyph _ => [("name", .str name), ("glyph", .str glyph)]
  | unknown _ attrs _ => attrs
  | bulletList _ | listItem _ | blockquote _ | horizontalRule | hardBreak _ | text _ _ => []

/-- The text in the record of a node. -/
def recordText? : DocNode → Option String
  | text content _ => some content
  | _ => none

/-- The record of a node, given the records of its children. -/
def record (node : DocNode) (content : List DocRecord) : DocRecord :=
  .mk node.typeName node.recordAttrs content node.marks node.recordText?

/-- The record of a node with the records of everything in it. -/
def toRecord (node : DocNode) : DocRecord := node.fold record

end DocNode

namespace Doc

/-- The wire form of a document. -/
def toValue (doc : Doc) : Value :=
  (DocRecord.mk "doc" [] (doc.content.map DocNode.toRecord) [] none).toValue

/-- The document of a record. -/
def ofRecord : DocRecord → Except DocError Doc
  | .mk kind _ content _ _ =>
    if kind = "doc" then .ok ⟨DocNode.listOfRecords content⟩ else .error (.notADocument kind)

/-- The document of a value, which is read as records first. Reading records fails when a field has the wrong
type. Making typed nodes of them never fails: a missing or unfit attribute counts as its default, a type that is
not known is kept as it is, and marks that are not known are dropped. -/
def ofValue (value : Value) : Except DocError Doc :=
  match DocRecord.ofValue? value with
  | some record => ofRecord record
  | none => .error .undecodable

/-- The document of a JSON text. Repeated fields of a record are an error here. -/
def ofJson (text : String) : Except DocError Doc :=
  match (Json.written? text).bind (Json.Written.record? DocRecord.shape) with
  | some value => ofValue value
  | none => .error .undecodable

end Doc

end ComponentMarkdown
