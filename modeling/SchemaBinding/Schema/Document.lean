import SchemaBinding.Json.Value
import SchemaBinding.Schema.Basic

/-!
Contract: a schema as its document states it.

Owns:
- `BlockForm`, `NestedForm` and `AttributeForm`, the records of a document;
- `BlockForm.toSchema`, which turns them into a schema; and
- `SchemaError`, the ways in which a document yields no schema.

Does not own: the text of a document.

A document states a nesting by its name and a type as any JSON value. Names of
nestings are looked up only here, so a document that cannot be read at all is
never blamed for an unknown one.
-/

set_option autoImplicit false

namespace SchemaBinding

/-- Why a document yields no schema. -/
inductive SchemaError where
  /-- The text cannot be read as a document. -/
  | json (message : String)
  /-- A nested block type has a nesting that does not exist. -/
  | unknownNesting (typeName mode : String)
  deriving DecidableEq, Repr

namespace SchemaError

def message : SchemaError → String
  | json message => "JSON error: " ++ message
  | unknownNesting typeName mode =>
      "Unknown nesting mode `" ++ mode ++ "` for block type `" ++ typeName ++ "`"

end SchemaError

/-- What a document says about an attribute. -/
structure AttributeForm where
  type : Option Json.Value := none
  description : Option String := none
  required : Bool := false
  optional : Bool := false
  computed : Bool := false
  sensitive : Bool := false
  deprecated : Bool := false

mutual

/-- What a document says about the body of a block. -/
structure BlockForm where
  attributes : NamedMap AttributeForm
  blockTypes : NamedList NestedForm
  description : Option String
  deprecated : Bool

/-- What a document says about a nested block type. -/
structure NestedForm where
  nestingMode : String
  block : Option BlockForm
  minItems : Option UInt64
  maxItems : Option UInt64

end

/-- The text of a declared type: a text as it is, and any other value in its
canonical form. -/
def typeTextOf : Json.Value → String
  | .text text => text
  | other => String.ofList other.canonical.render

namespace AttributeForm

def toSchema (name : String) (form : AttributeForm) : AttributeSchema :=
  { name
    description := form.description
    typeText := form.type.map typeTextOf
    required := form.required
    optional := form.optional
    computed := form.computed
    sensitive := form.sensitive
    deprecated := form.deprecated }

end AttributeForm

/-- The nesting of a given name, for a nested block type. -/
def nestingOf (typeName mode : String) : Except SchemaError Nesting :=
  match Nesting.ofText? mode with
  | some nesting => .ok nesting
  | none => .error (.unknownNesting typeName mode)

mutual

/-- The schema of a block. The error is that of the first unknown nesting, where
a nested block type comes before the types inside it. -/
def BlockForm.toSchema : BlockForm → Except SchemaError BlockSchema
  | ⟨attributes, ⟨blockTypes⟩, description, deprecated⟩ => do
      let nested ← NestedForm.toSchemas blockTypes
      return {
        attributes := attributes.mapValues AttributeForm.toSchema
        nested := ⟨nested⟩
        description
        deprecated }

/-- The schema of a nested block type. A type without a block holds nothing. -/
def NestedForm.toSchema (typeName : String) : NestedForm → Except SchemaError NestedSchema
  | ⟨nestingMode, block, minItems, maxItems⟩ => do
      let nesting ← nestingOf typeName nestingMode
      let block ←
        match block with
        | some inner => inner.toSchema
        | none => .ok {}
      return { typeName, nesting, block, minItems, maxItems }

def NestedForm.toSchemas :
    List (String × NestedForm) → Except SchemaError (List (String × NestedSchema))
  | [] => .ok []
  | (typeName, form) :: rest => do
      let nested ← form.toSchema typeName
      return (typeName, nested) :: (← NestedForm.toSchemas rest)

end

end SchemaBinding
