import SchemaBinding.NamedMap

/-!
Contract: what a schema says about the body of a block.

Owns:
- `AttributeSchema`, `NestedSchema` and `BlockSchema`;
- `Nesting`, how often a nested block type may stand in its parent;
- the steps that build a schema; and
- `BlockSchema.inductionOn`, induction over the schemas of nested block types.

Does not own: any check of a configuration against these promises. Cardinality
is stated here and enforced nowhere in this library.
-/

set_option autoImplicit false

namespace SchemaBinding

/-- How a nested block type may repeat inside its parent. -/
inductive Nesting where
  /-- At most one block. -/
  | single
  /-- Exactly one block, never null. -/
  | group
  /-- An ordered sequence of blocks. -/
  | list
  /-- An unordered set of blocks. -/
  | set
  /-- Blocks under their single label. -/
  | map
  deriving DecidableEq, Repr

namespace Nesting

instance : Inhabited Nesting := ⟨single⟩

def text : Nesting → String
  | single => "single"
  | group => "group"
  | list => "list"
  | set => "set"
  | map => "map"

def all : List Nesting := [single, group, list, set, map]

/-- The nesting of a given name. -/
def ofText? (name : String) : Option Nesting :=
  all.find? (·.text == name)

/-- Whether more than one block of the type may stand in one parent. -/
def repeats : Nesting → Bool
  | single | group => false
  | list | set | map => true

end Nesting

/-- An attribute that a block may hold. -/
structure AttributeSchema where
  name : String
  description : Option String := none
  /-- The declared type, such as `string` or `list(number)`. -/
  typeText : Option String := none
  required : Bool := false
  optional : Bool := false
  computed : Bool := false
  sensitive : Bool := false
  deprecated : Bool := false
  deriving DecidableEq, Repr, Inhabited

mutual

/-- What the body of a block may hold. -/
structure BlockSchema where
  attributes : NamedMap AttributeSchema := {}
  nested : NamedList NestedSchema := {}
  description : Option String := none
  deprecated : Bool := false

/-- A nested block type with the schema of its blocks. -/
structure NestedSchema where
  typeName : String
  nesting : Nesting
  block : BlockSchema
  minItems : Option UInt64 := none
  maxItems : Option UInt64 := none

end

namespace BlockSchema

instance : Inhabited BlockSchema := ⟨{}⟩

/-- Declares an attribute under its own name. -/
def addAttribute (schema : BlockSchema) (added : AttributeSchema) : BlockSchema :=
  { schema with attributes := schema.attributes.insert added.name added }

/-- Declares a nested block type under its own name. -/
def addNested (schema : BlockSchema) (added : NestedSchema) : BlockSchema :=
  { schema with nested := schema.nested.insert added.typeName added }

def attribute? (schema : BlockSchema) (name : String) : Option AttributeSchema :=
  schema.attributes.find? name

def nested? (schema : BlockSchema) (typeName : String) : Option NestedSchema :=
  schema.nested.find? typeName

end BlockSchema

/-! ## Induction over nested schemas -/

theorem BlockSchema.sizeOf_lt_of_mem {schema : BlockSchema} {entry : String × NestedSchema}
    (member : entry ∈ schema.nested.entries) : sizeOf entry.2.block < sizeOf schema := by
  obtain ⟨_, ⟨entries⟩, _, _⟩ := schema
  obtain ⟨name, _, _, block, _, _⟩ := entry
  have inList : sizeOf _ < sizeOf entries := List.sizeOf_lt_of_mem member
  simp only [BlockSchema.mk.sizeOf_spec, NestedSchema.mk.sizeOf_spec,
    NamedList.mk.sizeOf_spec, Prod.mk.sizeOf_spec] at *
  omega

/-- What holds of a schema whenever it holds of the schemas of its nested block types
holds of every schema. -/
@[elab_as_elim]
theorem BlockSchema.inductionOn {motive : BlockSchema → Prop} (schema : BlockSchema)
    (step : ∀ schema : BlockSchema,
      (∀ entry ∈ schema.nested.entries, motive entry.2.block) → motive schema) :
    motive schema :=
  step schema fun entry _ => BlockSchema.inductionOn entry.2.block step
termination_by sizeOf schema
decreasing_by exact BlockSchema.sizeOf_lt_of_mem ‹_›

/-! ## Equality up to the order of declarations -/

mutual

def BlockSchema.alike : BlockSchema → BlockSchema → Bool
  | ⟨attributes, ⟨nested⟩, description, deprecated⟩, other =>
      attributes.alike (· == ·) other.attributes.toNamedList
        && nested.length == other.nested.size
        && NestedSchema.eachAlike nested other.nested
        && description == other.description
        && deprecated == other.deprecated

def NestedSchema.alike : NestedSchema → NestedSchema → Bool
  | ⟨typeName, nesting, block, minItems, maxItems⟩, other =>
      typeName == other.typeName
        && nesting == other.nesting
        && block.alike other.block
        && minItems == other.minItems
        && maxItems == other.maxItems

/-- Each entry has its equal under the same name in the other list. -/
def NestedSchema.eachAlike :
    List (String × NestedSchema) → NamedList NestedSchema → Bool
  | [], _ => true
  | (name, nested) :: rest, others =>
      (match others.find? name with
        | some other => nested.alike other
        | none => false)
        && NestedSchema.eachAlike rest others

end

instance : BEq BlockSchema := ⟨BlockSchema.alike⟩

instance : BEq NestedSchema := ⟨NestedSchema.alike⟩

end SchemaBinding
