import Mathlib.Data.List.Forall2
import SchemaBinding.Binding.Lookup
import SchemaBinding.Proofs.Binding.Grouping

/-!
Contract: a bound tree splits the source exactly, at every depth.

Owns:
- `Block.Declares`, the blocks of a tree that are declared all the way down to them;
- `BoundBlock.Within`, the bound blocks at any depth below a root;
- `BoundBlock.Views`, by which a bound block carries what it was bound from;
- `BoundBlock.Partitions`, what it means that a bound block holds all of its source,
  split by what its schema declares; and
- `bindBlock_partitions`, which says so of everything within a bound block.

Does not own: the way in which binding groups blocks, which is taken from
`Grouping` by the names and the look-ups of groups.
-/

set_option autoImplicit false

namespace SchemaBinding

/-- The blocks of a tree that are declared together with every block around them, each
with the schema of its type. The root is declared by the schema given for it. -/
inductive Block.Declares (root : Block) (schema : BlockSchema) :
    Block → BlockSchema → Prop where
  | root : Declares root schema root schema
  | nested {outer child : Block} {outerSchema : BlockSchema} {declared : NestedSchema}
      (around : Declares root schema outer outerSchema)
      (member : child ∈ outer.body.blocks)
      (found : outerSchema.nested.find? child.typeName = some declared) :
      Declares root schema child declared.block

namespace BoundBlock

/-- The bound blocks that a root holds at any depth, the root included. -/
inductive Within (root : BoundBlock) : BoundBlock → Prop where
  | root : Within root root
  | nested {outer inner : BoundBlock} {typeName : String} {group : BoundGroup}
      (within : Within root outer)
      (grouped : (typeName, group) ∈ outer.knownBlocks.entries)
      (member : inner ∈ group.blocks) : Within root inner

/-- The bound block is that of `block` under `labels` and `schema`. -/
structure Views (bound : BoundBlock) (block : Block) (labels : List Label)
    (schema : BlockSchema) : Prop where
  source : bound.source = some block
  labels : bound.labels = labels
  schema : bound.schema = some schema

/-- What a bound block holds is what stands in the body of `source`, all of it, in
order, and split by what `declared` declares. -/
structure Partitions (bound : BoundBlock) (source : Block) (declared : BlockSchema) :
    Prop where
  knownAttributes :
    bound.knownAttributes.entries.map (fun entry => (entry.1, entry.2.source))
      = source.body.attributes.entries.filter fun entry =>
          declared.attributes.contains entry.1
  attributeSchemas :
    ∀ entry ∈ bound.knownAttributes.entries,
      declared.attributes.find? entry.1 = some entry.2.schema
  unknownAttributes :
    bound.unknownAttributes.entries
      = source.body.attributes.entries.filter fun entry =>
          !declared.attributes.contains entry.1
  unknownBlocks :
    bound.unknownBlocks
      = source.body.blocks.filter fun block => !declared.nested.contains block.typeName
  /-- One group for each declared type that occurs, first occurrence first. -/
  groupNames :
    bound.knownBlocks.names
      = ((source.body.blocks.filter fun block =>
          declared.nested.contains block.typeName).map Block.typeName).eraseDups
  groups :
    ∀ typeName group, (typeName, group) ∈ bound.knownBlocks.entries →
      declared.nested.find? typeName = some group.schema ∧
        group.blocks ≠ [] ∧
        group.blocks
          = (source.body.blocks.filter fun block => block.typeName == typeName).map
              fun block => bindBlock (some block) block.labels (some group.schema.block)
  /-- The blocks of a group are, one by one, those of its type in the source. -/
  views :
    ∀ typeName group, (typeName, group) ∈ bound.knownBlocks.entries →
      List.Forall₂ (fun inner child => inner.Views child child.labels group.schema.block)
        group.blocks (source.body.blocks.filter fun block => block.typeName == typeName)

end BoundBlock

/-! ## One bound block -/

theorem knownAttributes_sources (attributes : NamedMap Attribute)
    (declared : NamedMap AttributeSchema) :
    (knownAttributes attributes declared).entries.map
        (fun entry => (entry.1, entry.2.source))
      = attributes.entries.filter fun entry => declared.contains entry.1 := by
  rw [knownAttributes, NamedMap.entries_filterMap]
  induction attributes.entries with
  | nil => rfl
  | cons entry rest inductionHypothesis =>
      simp only [List.filterMap_cons, List.filter_cons, NamedList.contains] at *
      cases declared.find? entry.1 with
      | none => simpa using inductionHypothesis
      | some schema => simpa using inductionHypothesis

theorem names_knownAttributes (attributes : NamedMap Attribute)
    (declared : NamedMap AttributeSchema) :
    (knownAttributes attributes declared).names
      = attributes.names.filter declared.contains := by
  have sources := congrArg (List.map Prod.fst) (knownAttributes_sources attributes declared)
  rw [List.map_map] at sources
  rw [NamedList.names, NamedList.names, List.filter_map]
  exact sources

theorem find?_of_mem_knownAttributes {attributes : NamedMap Attribute}
    {declared : NamedMap AttributeSchema} {entry : String × BoundAttribute}
    (member : entry ∈ (knownAttributes attributes declared).entries) :
    declared.find? entry.1 = some entry.2.schema := by
  obtain ⟨filed, _, bound⟩ := List.mem_filterMap.1 member
  obtain ⟨known, made, rfl⟩ := Option.map_eq_some_iff.1 bound
  obtain ⟨schema, found, rfl⟩ := Option.map_eq_some_iff.1 made
  exact found

/-- Binding only changes the order in which the attributes of a block are searched. -/
theorem attributes_bindPresent_perm (block : Block) (labels : List Label)
    (schema : BlockSchema) :
    (bindPresent block labels schema).attributes.Perm block.body.attributes.values := by
  have known :
      (knownAttributes block.body.attributes schema.attributes).values.map
          BoundAttribute.source
        = (block.body.attributes.entries.filter fun entry =>
            schema.attributes.contains entry.1).map Prod.snd := by
    rw [← knownAttributes_sources, NamedList.values, List.map_map, List.map_map]
    rfl
  rw [BoundBlock.attributes, bindPresent_knownAttributes, bindPresent_unknownAttributes, known,
    unknownAttributes, NamedList.values, ← List.map_append]
  exact (List.filter_append_perm _ _).map Prod.snd

theorem bindPresent_views (block : Block) (labels : List Label) (schema : BlockSchema) :
    (bindPresent block labels schema).Views block labels schema where
  source := bindPresent_source block labels schema
  labels := bindPresent_labels block labels schema
  schema := bindPresent_schema block labels schema

/-- Binding splits one block exactly. -/
theorem bindPresent_partitions (block : Block) (labels : List Label)
    (schema : BlockSchema) :
    (bindPresent block labels schema).Partitions block schema where
  knownAttributes := by
    rw [bindPresent_knownAttributes]
    exact knownAttributes_sources _ _
  attributeSchemas := by
    intro entry member
    rw [bindPresent_knownAttributes] at member
    exact find?_of_mem_knownAttributes member
  unknownAttributes := by
    rw [bindPresent_unknownAttributes]
    rfl
  unknownBlocks := by
    rw [bindPresent_unknownBlocks]
    rfl
  groupNames := by
    rw [bindPresent_knownBlocks]
    exact names_knownBlocks _ _
  groups := by
    intro typeName group member
    rw [bindPresent_knownBlocks, (knownBlocks_distinct _ _).mem_entries_iff] at member
    obtain ⟨declared, occurs, blocks⟩ := find?_knownBlocks_eq_some_iff.1 member
    refine ⟨declared, ?_, blocks⟩
    rw [blocks]
    simpa using occurs
  views := by
    intro typeName group member
    rw [bindPresent_knownBlocks, (knownBlocks_distinct _ _).mem_entries_iff] at member
    obtain ⟨_, _, blocks⟩ := find?_knownBlocks_eq_some_iff.1 member
    rw [blocks, List.forall₂_map_left_iff]
    apply List.forall₂_same.2
    intro child _
    exact bindPresent_views child child.labels group.schema.block

/-! ## Every depth -/

/-- Whatever stands in a group of a bound block is a block of its body, bound under its
own labels against the schema of its type. -/
theorem exists_bindPresent_of_mem_group {block : Block} {labels : List Label}
    {schema : BlockSchema} {typeName : String} {group : BoundGroup} {inner : BoundBlock}
    (grouped : (typeName, group) ∈ (bindPresent block labels schema).knownBlocks.entries)
    (member : inner ∈ group.blocks) :
    ∃ child ∈ block.body.blocks,
      schema.nested.find? child.typeName = some group.schema ∧
        inner = bindNested group.schema child := by
  rw [bindPresent_knownBlocks, (knownBlocks_distinct _ _).mem_entries_iff] at grouped
  obtain ⟨declared, _, blocks⟩ := find?_knownBlocks_eq_some_iff.1 grouped
  rw [blocks] at member
  obtain ⟨child, ofType, rfl⟩ := List.mem_map.1 member
  obtain ⟨inBody, isType⟩ := List.mem_filter.1 ofType
  rw [← eq_of_beq isType] at declared
  exact ⟨child, inBody, declared, rfl⟩

/-- Everything within a bound block is a declared block of its tree, bound against the
schema of its type. -/
theorem BoundBlock.Within.exists_bindPresent {block : Block} {labels : List Label}
    {schema : BlockSchema} {bound : BoundBlock}
    (within : (bindPresent block labels schema).Within bound) :
    ∃ source ownLabels declared,
      block.Declares schema source declared ∧ bound = bindPresent source ownLabels declared := by
  induction within with
  | root => exact ⟨block, labels, schema, .root, rfl⟩
  | nested _ grouped member inductionHypothesis =>
      obtain ⟨source, ownLabels, declared, around, rfl⟩ := inductionHypothesis
      obtain ⟨child, inBody, found, rfl⟩ := exists_bindPresent_of_mem_group grouped member
      exact ⟨child, _, _, .nested around inBody found, rfl⟩

/-- Binding gives the view of the given block under the given labels and schema.
Everything within it, itself included, is the view of a declared block of the tree, and
splits that block exactly by the schema of its type. -/
theorem bindBlock_partitions (block : Block) (labels : List Label) (schema : BlockSchema) :
    (bindBlock (some block) labels (some schema)).Views block labels schema ∧
      (bindBlock (some block) labels (some schema)).Partitions block schema ∧
      ∀ bound, (bindBlock (some block) labels (some schema)).Within bound →
        ∃ source ownLabels declared,
          block.Declares schema source declared ∧
            bound.Views source ownLabels declared ∧ bound.Partitions source declared := by
  refine ⟨bindPresent_views block labels schema, bindPresent_partitions block labels schema, ?_⟩
  intro bound within
  obtain ⟨source, ownLabels, declared, declares, rfl⟩ := within.exists_bindPresent
  exact ⟨source, ownLabels, declared, declares, bindPresent_views source ownLabels declared,
    bindPresent_partitions source ownLabels declared⟩

/-! ## A server with its disks -/

/-- A block without places, given by its type, the names of its attributes and its
nested blocks. -/
def outline (typeName : String) (attributes : List String) (blocks : List Block) :
    Block :=
  Block.unlabelled typeName default
    { Body.empty default with
      attributes :=
        NamedMap.fileAll Attribute.name
          (attributes.map fun name => { (default : Attribute) with name }) {}
      blocks }

/-- A partition with a declared attribute between two undeclared ones. -/
def partitionOutline : Block := outline "partition" ["label", "size", "colour"] []

/-- Two disks with a port between them. The partition stands in the second disk. -/
def serverOutline : Block :=
  outline "server" ["name"]
    [outline "disk" [] [], outline "port" [] [],
      outline "disk" [] [outline "mount" [] [], partitionOutline]]

def partitionSchema : BlockSchema :=
  { attributes := { entries := [("size", { name := "size" })] } }

def serverSchema : BlockSchema :=
  let partition : NestedSchema :=
    { typeName := "partition", nesting := .list, block := partitionSchema }
  let disk : NestedSchema :=
    { typeName := "disk", nesting := .list, block := { nested := ⟨[("partition", partition)]⟩ } }
  { nested := ⟨[("disk", disk)]⟩ }

/-- The partition, two levels below the server, is declared there and split exactly. -/
theorem partition_of_server_partitions :
    (bindBlock (some serverOutline) [] (some serverSchema)).Within
        (bindPresent partitionOutline [] partitionSchema) ∧
      ∃ source ownLabels declared,
        serverOutline.Declares serverSchema source declared ∧
          (bindPresent partitionOutline [] partitionSchema).Views source ownLabels declared ∧
          (bindPresent partitionOutline [] partitionSchema).Partitions source declared := by
  have within :
      (bindBlock (some serverOutline) [] (some serverSchema)).Within
        (bindPresent partitionOutline [] partitionSchema) :=
    .nested
      (.nested .root List.mem_cons_self (List.mem_cons_of_mem _ List.mem_cons_self))
      List.mem_cons_self List.mem_cons_self
  exact ⟨within, (bindBlock_partitions serverOutline [] serverSchema).2.2 _ within⟩

end SchemaBinding
