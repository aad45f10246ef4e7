import SchemaBinding.Json.Reading

/-!
Contract: records in JSON, written as maps or as lists.

Owns:
- `RecordLayout`, the fields of a kind of record;
- `Contents`, what has been read of a record so far; and
- `Node.record`, the reader of records.

Does not own: the fields of any particular record, and their defaults.

As a map a record gives its fields by name, in any order and each at most once,
and members of other names are passed over. As a list it gives them by place, and
fields at the end may be left out.
-/

set_option autoImplicit false

namespace SchemaBinding
namespace Json

/-- The fields of a kind of record. -/
structure RecordLayout where
  /-- The title of the record in complaints. -/
  title : String
  Field : Type
  sameField : DecidableEq Field
  /-- All fields, in the order in which a list gives them. -/
  fields : List Field
  name : Field → String
  /-- What is read for each field. -/
  Content : Field → Type

namespace RecordLayout

instance (layout : RecordLayout) : DecidableEq layout.Field := layout.sameField

def field? (layout : RecordLayout) (name : String) : Option layout.Field :=
  layout.fields.find? (layout.name · == name)

/-- The place of a field in a list, counted from zero. -/
def place (layout : RecordLayout) (field : layout.Field) : Nat :=
  layout.fields.findIdx (· == field)

end RecordLayout

/-- What has been read of a record, field by field. -/
def Contents (layout : RecordLayout) : Type :=
  (field : layout.Field) → Option (layout.Content field)

namespace Contents

variable {layout : RecordLayout}

def empty : Contents layout := fun _ => none

def set (contents : Contents layout) (field : layout.Field)
    (content : layout.Content field) : Contents layout :=
  fun other => if same : field = other then some (same ▸ content) else contents other

@[simp]
theorem set_self (contents : Contents layout) (field : layout.Field)
    (content : layout.Content field) :
    contents.set field content field = some content := by
  simp [set]

theorem set_of_ne (contents : Contents layout) {field other : layout.Field}
    (content : layout.Content field) (apart : field ≠ other) :
    contents.set field content other = contents other := by
  simp [set, apart]

end Contents

/-- The ways to read a record of a layout: how each field is read, and what its
contents make. The latter may ask for a field that is missing. -/
structure RecordReader (layout : RecordLayout) (α : Type) where
  read : Nat → (field : layout.Field) → Node → Except Fault (layout.Content field)
  build : Contents layout → Except layout.Field α

namespace RecordReader

variable {layout : RecordLayout} {α : Type}

/-- A field that stands twice. Its place is settled late: blanks after the second
key count as read, and so does a closing brace after them. -/
def duplicate (name : String) (key : TextLiteral) : Fault :=
  match skipBlanks (key.after?.getD []) with
  | '\x7d' :: after => .here (.duplicateField name) after
  | mark => .here (.duplicateField name) mark

/-- Reads the members of a record. -/
def readMembers (reader : RecordReader layout α) (budget : Nat) :
    List Member → Contents layout → Except Fault (Contents layout)
  | [], contents => .ok contents
  | ⟨key, value⟩ :: rest, contents => do
      let name ← key.content
      match layout.field? name with
      | some field =>
          if (contents field).isSome then .error (duplicate name key)
          else do
            let content ← reader.read budget field value
            reader.readMembers budget rest (contents.set field content)
      | none => do
          value.wellFormed
          reader.readMembers budget rest contents

/-- Reads the items of a record, one for each field. -/
def readItems (reader : RecordReader layout α) (budget : Nat) (ending : ListEnding) :
    List layout.Field → List Node → Contents layout → Except Fault (Contents layout)
  | [], [], contents => do
      ending.whenClosing
      return contents
  | [], item :: _, _ => .error (.next .trailingCharacters item.start)
  | _ :: _, [], contents => do
      ending.whenReading
      return contents
  | field :: fields, item :: items, contents => do
      let content ← reader.read budget field item
      reader.readItems budget ending fields items (contents.set field content)

/-- Makes a record of its contents, or puts a missing field down to `complaint`,
at the place after the record. -/
def finish (reader : RecordReader layout α) (contents : Contents layout)
    (complaint : layout.Field → Reason) (after? : Option Mark) : Except Fault α :=
  match reader.build contents with
  | .ok record => .ok record
  | .error field => .error (.here (complaint field) (after?.getD []))

/-- A record, written as a map or as a list. -/
def run (reader : RecordReader layout α) (budget : Nat) : Node → Except Fault α
  | .map start members ending =>
      spend budget start fun rest => do
        let contents ← reader.readMembers rest members .empty
        ending.whenReading
        reader.finish contents (fun field => .missingField (layout.name field))
          ending.after?
  | .list start items ending =>
      spend budget start fun rest => do
        let contents ← reader.readItems rest ending layout.fields items .empty
        reader.finish contents
          (fun field =>
            .tooFewItems (layout.place field) layout.title layout.fields.length)
          ending.after?
  | other => other.reject (.record layout.title)

end RecordReader

end Json
end SchemaBinding
