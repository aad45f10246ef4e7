import SchemaBinding.Json.Record
import SchemaBinding.Schema.Document

/-!
Contract: the JSON format of schema documents.

Owns:
- the layouts of the three records of a document: blocks, attributes and nested
  block types;
- `blockForm`, the reader of a document's tree; and
- `BlockSchema.ofText`, which reads a schema from a text.

Does not own: what a schema means.

Every field has a default but the nesting of a nested block type. A block opens a
map of block types, that map a record, and that record the next block: three of
the lists and maps that may be open are spent for each level of blocks.
-/

set_option autoImplicit false

namespace SchemaBinding

open Json (RecordLayout RecordReader Contents Node Fault)

/-! ## Attributes -/

inductive AttributeField where
  | type
  | description
  | required
  | optional
  | computed
  | sensitive
  | deprecated
  deriving DecidableEq, Repr

namespace AttributeField

def name : AttributeField → String
  | type => "type"
  | description => "description"
  | required => "required"
  | optional => "optional"
  | computed => "computed"
  | sensitive => "sensitive"
  | deprecated => "deprecated"

def Content : AttributeField → Type
  | type => Option Json.Value
  | description => Option String
  | _ => Bool

end AttributeField

def attributeLayout : RecordLayout where
  title := "JsonAttribute"
  Field := AttributeField
  sameField := inferInstance
  fields :=
    [.type, .description, .required, .optional, .computed, .sensitive, .deprecated]
  name := AttributeField.name
  Content := AttributeField.Content

def attributeReader : RecordReader attributeLayout AttributeForm where
  read budget field node :=
    match field with
    | .type => node.readOptional (·.readValue budget)
    | .description => node.readOptional Node.readText
    | .required | .optional | .computed | .sensitive | .deprecated => node.readFlag
  build contents :=
    let flag (content : Option Bool) : Bool := content.getD false
    .ok
      { type := (contents AttributeField.type).join
        description := (contents AttributeField.description).join
        required := flag (contents AttributeField.required)
        optional := flag (contents AttributeField.optional)
        computed := flag (contents AttributeField.computed)
        sensitive := flag (contents AttributeField.sensitive)
        deprecated := flag (contents AttributeField.deprecated) }

/-! ## Nested block types -/

inductive NestedField where
  | nestingMode
  | block
  | minItems
  | maxItems
  deriving DecidableEq, Repr

namespace NestedField

def name : NestedField → String
  | nestingMode => "nesting_mode"
  | block => "block"
  | minItems => "min_items"
  | maxItems => "max_items"

def Content : NestedField → Type
  | nestingMode => String
  | block => Option BlockForm
  | minItems | maxItems => Option UInt64

end NestedField

def nestedLayout : RecordLayout where
  title := "JsonBlockType"
  Field := NestedField
  sameField := inferInstance
  fields := [.nestingMode, .block, .minItems, .maxItems]
  name := NestedField.name
  Content := NestedField.Content

/-- The reader of a nested block type, given the reader of its block. -/
def nestedReader (readBlock : Node → Except Fault BlockForm) :
    RecordReader nestedLayout NestedForm where
  read _ field node :=
    match field with
    | .nestingMode => node.readText
    | .block => node.readOptional readBlock
    | .minItems | .maxItems => node.readOptional Node.readCount
  build contents :=
    match contents NestedField.nestingMode with
    | none => .error .nestingMode
    | some nestingMode =>
        .ok
          { nestingMode
            block := (contents NestedField.block).join
            minItems := (contents NestedField.minItems).join
            maxItems := (contents NestedField.maxItems).join }

/-! ## Blocks -/

inductive BlockField where
  | attributes
  | blockTypes
  | description
  | deprecated
  deriving DecidableEq, Repr

namespace BlockField

def name : BlockField → String
  | attributes => "attributes"
  | blockTypes => "block_types"
  | description => "description"
  | deprecated => "deprecated"

def Content : BlockField → Type
  | attributes => NamedMap AttributeForm
  | blockTypes => NamedList NestedForm
  | description => Option String
  | deprecated => Bool

end BlockField

def blockLayout : RecordLayout where
  title := "JsonBlock"
  Field := BlockField
  sameField := inferInstance
  fields := [.attributes, .blockTypes, .description, .deprecated]
  name := BlockField.name
  Content := BlockField.Content

/-- The reader of a block, given the reader of the blocks inside it. -/
def blockReader (readInner : Node → Except Fault BlockForm) :
    RecordReader blockLayout BlockForm where
  read budget field node :=
    match field with
    | .attributes => node.readMap budget attributeReader.run
    | .blockTypes =>
        (node.readMap budget (nestedReader readInner).run).map NamedMap.toNamedList
    | .description => node.readOptional Node.readText
    | .deprecated => node.readFlag
  build contents :=
    let attributes : Option (NamedMap AttributeForm) := contents BlockField.attributes
    let blockTypes : Option (NamedList NestedForm) := contents BlockField.blockTypes
    let deprecated : Option Bool := contents BlockField.deprecated
    .ok
      { attributes := attributes.getD {}
        blockTypes := blockTypes.getD {}
        description := (contents BlockField.description).join
        deprecated := deprecated.getD false }

/-- The block at a place where `budget` more lists and maps may be opened. -/
def blockForm : Nat → Node → Except Fault BlockForm
  | budget + 3, node => (blockReader (blockForm budget)).run (budget + 3) node
  | budget, node =>
      (blockReader fun inner => .error (.next .tooDeep inner.start)).run budget node

/-! ## Documents -/

/-- The block that a text consists of. Nothing but blanks may follow it. -/
def documentForm (source : List Char) : Except Fault BlockForm := do
  let node := Node.ofCharacters source
  let form ← blockForm Json.openLimit node
  match Json.skipBlanks (node.after?.getD []) with
  | [] => return form
  | mark => .error (.next .trailingCharacters mark)

/-- The schema that a text documents. -/
def BlockSchema.ofText (text : String) : Except SchemaError BlockSchema :=
  match documentForm text.toList with
  | .ok form => form.toSchema
  | .error fault => .error (.json (fault.message text.toList))

end SchemaBinding
