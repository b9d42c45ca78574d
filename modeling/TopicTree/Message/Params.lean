import TopicTree.Error
import TopicTree.Limits
import TopicTree.Text.Utf8

/-!
# Parameters

Parameters are a short run of bytes. Most methods see it as a row of fields, each behind one byte
that tells its length; notifications carry it as it is. A field that is cut short ends the row.
-/

namespace TopicTree

/-- What a request, a response or a notification carries. -/
structure Params where
  bytes : Bytes
  /-- Parameters are short. -/
  fits : bytes.length ≤ maxParams
  deriving DecidableEq, Repr

namespace Params

/-- No parameters. -/
def empty : Params :=
  ⟨[], by decide⟩

instance : Inhabited Params := ⟨empty⟩

/-- The longest field that a length byte can announce. -/
abbrev maxField : Nat := 255

/-- The parameters with given bytes, if there are few enough. -/
def ofBytes (bytes : Bytes) : Except Error Params :=
  if fits : bytes.length ≤ maxParams then .ok ⟨bytes, fits⟩
  else .error (.paramsTooLong bytes.length maxParams)

/-- Adds a field. A field that no length byte can announce is reported as such; otherwise it is the
size of the whole that counts. -/
def addField (params : Params) (field : Bytes) : Except Error Params :=
  if maxField < field.length then .error (.paramsTooLong field.length maxField)
  else ofBytes (params.bytes ++ field.length.toUInt8 :: field)

/-- Adds a text as a field. -/
def addText (params : Params) (text : String) : Except Error Params :=
  params.addField (Text.toBytes text)

/-- Parameters of one text field. -/
def ofText (text : String) : Except Error Params :=
  empty.addText text

/-- The fields that some bytes hold, up to the first one that is cut short. -/
def splitFields : Bytes → List Bytes
  | [] => []
  | len :: rest =>
    if rest.length < len.toNat then []
    else rest.take len.toNat :: splitFields (rest.drop len.toNat)
termination_by bytes => bytes.length
decreasing_by
  simp only [List.length_drop, List.length_cons]
  omega

/-- The fields. -/
def fields (params : Params) : List Bytes :=
  splitFields params.bytes

/-- The field at an index. -/
def field? (params : Params) (index : Nat) : Option Bytes :=
  params.fields[index]?

/-- The text of the field at an index, if it is there and UTF-8. -/
def text? (params : Params) (index : Nat) : Option String :=
  (params.field? index).bind Text.ofBytes?

end Params
end TopicTree
