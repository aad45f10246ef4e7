import SchemaBinding.Schema.Basic
import SchemaBinding.Tree.Basic

/-!
Contract: a block of a configuration seen through its schema.

Owns:
- `BoundBlock`, `BoundGroup` and `BoundAttribute`;
- `bindBlock`, which sorts what a block holds into what its schema declares and what
  it does not; and
- the grouping of declared blocks by type.

Does not own: any verdict on what is undeclared, or on what is declared and
missing. Nesting and item counts have no part in binding.

Every attribute and every nested block of a bound block stands in exactly one of
the known and the unknown collections. Declared nested blocks are bound in turn,
each against the schema of its type; undeclared ones are kept as they are.
-/

set_option autoImplicit false

namespace SchemaBinding

/-- A declared attribute that stands in the source. -/
structure BoundAttribute where
  source : Attribute
  schema : AttributeSchema
  deriving DecidableEq, Repr, Inhabited

mutual

/-- A block with its schema, either of which may be absent. -/
structure BoundBlock where
  source : Option Block
  labels : List Label
  schema : Option BlockSchema
  knownAttributes : NamedMap BoundAttribute
  unknownAttributes : NamedMap Attribute
  knownBlocks : NamedList BoundGroup
  unknownBlocks : List Block

/-- The blocks of one declared type in source order. -/
structure BoundGroup where
  schema : NestedSchema
  blocks : List BoundBlock

end

namespace BoundGroup

def size (group : BoundGroup) : Nat :=
  group.blocks.length

def isEmpty (group : BoundGroup) : Bool :=
  group.blocks.isEmpty

end BoundGroup

/-! ## Attributes -/

/-- The attributes filed under a declared name, in order, each with what the
schema says under that name. -/
def knownAttributes (attributes : NamedMap Attribute)
    (declared : NamedMap AttributeSchema) : NamedMap BoundAttribute :=
  attributes.filterMap fun name source =>
    (declared.find? name).map fun schema => { source, schema }

/-- The attributes filed under no declared name, in order. -/
def unknownAttributes (attributes : NamedMap Attribute)
    (declared : NamedMap AttributeSchema) : NamedMap Attribute :=
  attributes.filterNames fun name => !declared.contains name

@[simp]
theorem entries_unknownAttributes (attributes : NamedMap Attribute)
    (declared : NamedMap AttributeSchema) :
    (unknownAttributes attributes declared).entries
      = attributes.entries.filter fun entry => !declared.contains entry.1 :=
  attributes.entries_filterNames fun name => !declared.contains name

/-! ## Nested blocks -/

/-- The blocks of no declared type, in source order. -/
def unknownBlocks (blocks : List Block) (declared : NamedList NestedSchema) :
    List Block :=
  blocks.filter fun block => !declared.contains block.typeName

/-- A bound block with the type that it was declared under. -/
structure Declared where
  typeName : String
  schema : NestedSchema
  block : BoundBlock

/-- Adds a block to the group of its type, which is opened at the end when the
block is the first of its type. -/
def fileDeclared (groups : NamedList BoundGroup) (declared : Declared) :
    NamedList BoundGroup :=
  match groups.find? declared.typeName with
  | some group =>
      groups.insert declared.typeName
        { group with blocks := group.blocks ++ [declared.block] }
  | none =>
      groups.insert declared.typeName
        { schema := declared.schema, blocks := [declared.block] }

/-- Blocks by type: the types in order of first occurrence, and the blocks of one
type in the order given. -/
def groupByType (declared : List Declared) : NamedList BoundGroup :=
  declared.foldl fileDeclared {}

/-! ## Binding -/

mutual

/-- Binds a present block against a present schema. -/
def bindPresent : Block → List Label → BlockSchema → BoundBlock
  | ⟨typeName, labelValues, ⟨attributes, blocks, bodySpan, endSpan⟩, typeSpan,
      labelSpans, openBrace, closeBrace⟩, labels, schema =>
      { source :=
          some ⟨typeName, labelValues, ⟨attributes, blocks, bodySpan, endSpan⟩,
            typeSpan, labelSpans, openBrace, closeBrace⟩
        labels
        schema := some schema
        knownAttributes := knownAttributes attributes schema.attributes
        unknownAttributes := unknownAttributes attributes schema.attributes
        knownBlocks := groupByType (bindDeclared blocks schema.nested)
        unknownBlocks := unknownBlocks blocks schema.nested }

/-- Binds the blocks of declared types, in source order, each with its own labels
and against the schema of its type. -/
def bindDeclared : List Block → NamedList NestedSchema → List Declared
  | [], _ => []
  | block :: rest, declared =>
      match declared.find? block.typeName with
      | some nested =>
          { typeName := block.typeName
            schema := nested
            block := bindPresent block block.labels nested.block }
            :: bindDeclared rest declared
      | none => bindDeclared rest declared

end

/-- The declared nested blocks of a body, bound and grouped by type. -/
def knownBlocks (blocks : List Block) (declared : NamedList NestedSchema) :
    NamedList BoundGroup :=
  groupByType (bindDeclared blocks declared)

/-- What binding a present block yields, part by part. -/
theorem bindPresent_eq (block : Block) (labels : List Label) (schema : BlockSchema) :
    bindPresent block labels schema =
      { source := some block
        labels
        schema := some schema
        knownAttributes := knownAttributes block.body.attributes schema.attributes
        unknownAttributes := unknownAttributes block.body.attributes schema.attributes
        knownBlocks := knownBlocks block.body.blocks schema.nested
        unknownBlocks := unknownBlocks block.body.blocks schema.nested } := by
  obtain ⟨_, _, ⟨_, _, _, _⟩, _, _, _, _⟩ := block
  rfl

section

variable (block : Block) (labels : List Label) (schema : BlockSchema)

@[simp]
theorem bindPresent_source : (bindPresent block labels schema).source = some block := by
  rw [bindPresent_eq]

@[simp]
theorem bindPresent_labels : (bindPresent block labels schema).labels = labels := by
  rw [bindPresent_eq]

@[simp]
theorem bindPresent_schema : (bindPresent block labels schema).schema = some schema := by
  rw [bindPresent_eq]

@[simp]
theorem bindPresent_knownAttributes :
    (bindPresent block labels schema).knownAttributes
      = knownAttributes block.body.attributes schema.attributes := by
  rw [bindPresent_eq]

@[simp]
theorem bindPresent_unknownAttributes :
    (bindPresent block labels schema).unknownAttributes
      = unknownAttributes block.body.attributes schema.attributes := by
  rw [bindPresent_eq]

@[simp]
theorem bindPresent_knownBlocks :
    (bindPresent block labels schema).knownBlocks
      = knownBlocks block.body.blocks schema.nested := by
  rw [bindPresent_eq]

@[simp]
theorem bindPresent_unknownBlocks :
    (bindPresent block labels schema).unknownBlocks
      = unknownBlocks block.body.blocks schema.nested := by
  rw [bindPresent_eq]

end

/-- Binds a block against a schema. Without a block nothing but the labels is
there; without a schema everything in the block is unknown. -/
def bindBlock (block : Option Block) (labels : List Label) (schema : Option BlockSchema) :
    BoundBlock :=
  match block, schema with
  | none, _ =>
      { source := none
        labels
        schema
        knownAttributes := {}
        unknownAttributes := {}
        knownBlocks := {}
        unknownBlocks := [] }
  | some present, none =>
      { source := some present
        labels
        schema := none
        knownAttributes := {}
        unknownAttributes := present.body.attributes
        knownBlocks := {}
        unknownBlocks := present.body.blocks }
  | some present, some declared => bindPresent present labels declared

namespace BoundBlock

/-- Whether the block stands in the source. -/
def isPresent (bound : BoundBlock) : Bool :=
  bound.source.isSome

/-- The nested blocks of declared types: types in order of first occurrence, and
within a type in source order. -/
def nestedBlocks (bound : BoundBlock) : List BoundBlock :=
  bound.knownBlocks.values.flatMap BoundGroup.blocks

end BoundBlock

/-! ## Equality up to the order of attributes, declarations and groups -/

mutual

def BoundBlock.alike : BoundBlock → BoundBlock → Bool
  | ⟨source, labels, schema, known, unknown, ⟨groups⟩, rest⟩, other =>
      source == other.source
        && labels == other.labels
        && schema == other.schema
        && known.alike (· == ·) other.knownAttributes.toNamedList
        && unknown.alike (· == ·) other.unknownAttributes.toNamedList
        && groups.length == other.knownBlocks.size
        && BoundGroup.eachAlike groups other.knownBlocks
        && rest == other.unknownBlocks

def BoundGroup.alike : BoundGroup → BoundGroup → Bool
  | ⟨schema, blocks⟩, other =>
      schema == other.schema && BoundBlock.allAlike blocks other.blocks

def BoundBlock.allAlike : List BoundBlock → List BoundBlock → Bool
  | [], [] => true
  | first :: rest, other :: others => first.alike other && BoundBlock.allAlike rest others
  | _, _ => false

/-- Each group has its equal under the same type in the other list. -/
def BoundGroup.eachAlike : List (String × BoundGroup) → NamedList BoundGroup → Bool
  | [], _ => true
  | (typeName, group) :: rest, others =>
      (match others.find? typeName with
        | some other => group.alike other
        | none => false)
        && BoundGroup.eachAlike rest others

end

instance : BEq BoundBlock := ⟨BoundBlock.alike⟩

end SchemaBinding
