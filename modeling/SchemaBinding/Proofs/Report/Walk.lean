import SchemaBinding.Proofs.Binding.Partition
import SchemaBinding.Proofs.Report.Order
import SchemaBinding.Report.Collector

/-!
Contract: the diagnostics of a bound block, told from its source and schema alone.

Owns:
- `Block.walk`, which goes through a block and a schema and reports what is
  undeclared, without binding anything;
- `Block.Conforms`, what it means that a block holds nothing undeclared at any
  declared place; and
- `diagnostics_eq_walk`, by which binding and collecting report the walk, sorted.

Does not own: the order of the groups, which `groupedBlocks` gives, and the order in
which diagnostics are shown, which is that of `Order`.
-/

set_option autoImplicit false

namespace SchemaBinding

/-! ## Going through a block -/

/-- What is undeclared in a block: its attributes, its nested blocks, and then what is
undeclared inside its declared nested blocks, group by group, when the options ask for
it. -/
def Block.walk (options : ReportOptions) (block : Block) (schema : BlockSchema) :
    List Diagnostic :=
  ((block.body.attributes.entries.filter fun entry =>
      !schema.attributes.contains entry.1).map fun entry =>
        { span := entry.2.nameSpan
          severity := options.attributeSeverity
          code := some "H0001"
          message :=
            s!"unexpected attribute '{entry.2.name}' in block '{block.typeName}'" })
    ++ ((block.body.blocks.filter fun child =>
      !schema.nested.contains child.typeName).map fun child =>
        { span := child.typeSpan
          severity := options.blockSeverity
          code := some "H0002"
          message := s!"unexpected block '{child.typeName}' in block '{block.typeName}'" })
    ++ if options.recursive then
        (groupedBlocks block.body.blocks schema.nested).attach.flatMap fun child =>
          match schema.nested.find? child.1.typeName with
          | some nested => child.1.walk options nested.block
          | none => []
      else []
termination_by sizeOf block
decreasing_by exact Block.sizeOf_lt_of_mem (mem_groupedBlocks.1 child.2).1

/-- All attributes and nested blocks are declared, and so on inside the nested
blocks, each against the schema of its type. -/
inductive Block.Conforms : Block → BlockSchema → Prop where
  | intro {block : Block} {schema : BlockSchema}
      (attributes : ∀ entry ∈ block.body.attributes.entries,
        schema.attributes.contains entry.1 = true)
      (blocks : ∀ child ∈ block.body.blocks, schema.nested.contains child.typeName = true)
      (nested : ∀ child ∈ block.body.blocks, ∀ declared,
        schema.nested.find? child.typeName = some declared →
          Block.Conforms child declared.block) :
      Block.Conforms block schema

/-! ## Walking and collecting -/

/-- A walk reports what is undeclared in the block itself, as collecting does, and then
goes on group by group. -/
theorem Block.walk_eq (options : ReportOptions) (block : Block) (schema : BlockSchema) :
    block.walk options schema
      = ownFindings options block.typeName
          (unknownAttributes block.body.attributes schema.attributes)
          (unknownBlocks block.body.blocks schema.nested)
        ++ if options.recursive then
            (groupedBlocks block.body.blocks schema.nested).flatMap fun child =>
              ((schema.nested.find? child.typeName).map fun nested =>
                child.walk options nested.block).getD []
          else [] := by
  rw [Block.walk, ownFindings, NamedList.values, unknownAttributes, List.map_map]
  congr 2
  conv_rhs => rw [← List.attach_map_subtype_val (groupedBlocks _ _), List.flatMap_map]
  refine List.flatMap_congr fun child _ => ?_
  cases schema.nested.find? child.1.typeName with
  | none => rfl
  | some nested => rfl

/-- Collecting from a bound tree finds what the walk through its source finds. -/
theorem findings_bindPresent (options : ReportOptions) (block : Block) :
    ∀ (labels : List Label) (schema : BlockSchema),
      (bindPresent block labels schema).findings options = block.walk options schema := by
  induction block using Block.inductionOn with
  | step block inductionHypothesis =>
      intro labels schema
      rw [BoundBlock.findings_eq options (bindPresent_source _ _ _) (bindPresent_schema _ _ _),
        bindPresent_unknownAttributes, bindPresent_unknownBlocks, nestedBlocks_bindPresent,
        flatMap_filterMap, Block.walk_eq]
      congr 2
      refine List.flatMap_congr fun child grouped => ?_
      cases schema.nested.find? child.typeName with
      | none => rfl
      | some nested =>
          exact inductionHypothesis child (mem_groupedBlocks.1 grouped).1 child.labels
            nested.block

theorem ownFindings_eq_nil_iff (options : ReportOptions) (block : Block)
    (schema : BlockSchema) :
    ownFindings options block.typeName
        (unknownAttributes block.body.attributes schema.attributes)
        (unknownBlocks block.body.blocks schema.nested) = [] ↔
      (∀ entry ∈ block.body.attributes.entries,
          schema.attributes.contains entry.1 = true) ∧
        ∀ child ∈ block.body.blocks, schema.nested.contains child.typeName = true := by
  unfold ownFindings NamedList.values unknownBlocks
  simp only [List.append_eq_nil_iff, List.map_eq_nil_iff, entries_unknownAttributes,
    List.filter_eq_nil_iff, Bool.not_eq_true, Bool.not_eq_false']

/-- When nested blocks are looked into, a walk reports nothing exactly when the block
conforms to the schema. -/
theorem Block.walk_eq_nil_iff {options : ReportOptions}
    (recursive : options.recursive = true) (block : Block) :
    ∀ schema : BlockSchema, block.walk options schema = [] ↔ block.Conforms schema := by
  induction block using Block.inductionOn with
  | step block inductionHypothesis =>
      intro schema
      rw [Block.walk_eq, recursive, if_pos rfl, List.append_eq_nil_iff,
        List.flatMap_eq_nil_iff, ownFindings_eq_nil_iff]
      constructor
      · rintro ⟨⟨attributes, blocks⟩, nothingInside⟩
        refine .intro attributes blocks fun child member declared found => ?_
        have silent :=
          nothingInside child (mem_groupedBlocks.2 ⟨member, blocks child member⟩)
        rw [found] at silent
        exact (inductionHypothesis child member declared.block).1 silent
      · rintro ⟨attributes, blocks, nested⟩
        refine ⟨⟨attributes, blocks⟩, fun child grouped => ?_⟩
        have member := (mem_groupedBlocks.1 grouped).1
        cases found : schema.nested.find? child.typeName with
        | none => rfl
        | some declared =>
            exact (inductionHypothesis child member declared.block).2
              (nested child member declared found)

theorem Diagnostic.inOrder_eq_nil_iff {found : List Diagnostic} :
    Diagnostic.inOrder found = [] ↔ found = [] := by
  rw [← List.length_eq_zero_iff, ← List.length_eq_zero_iff,
    (inOrder_stableSort found).same.length_eq]

/-- The diagnostics of a block bound against a schema are those of a walk through the
block and the schema, stably sorted. When nested blocks are looked into there are none
exactly when the block conforms to the schema. There are none either without a block
or without a schema. -/
theorem diagnostics_eq_walk (options : ReportOptions) (block : Block) (labels : List Label)
    (schema : BlockSchema) :
    StableSort (block.walk options schema)
        ((bindBlock (some block) labels (some schema)).diagnostics options) ∧
      (bindBlock (some block) labels (some schema)).diagnostics options
        = Diagnostic.inOrder (block.walk options schema) ∧
      (options.recursive = true →
        ((bindBlock (some block) labels (some schema)).diagnostics options = [] ↔
          block.Conforms schema)) ∧
      (∀ anySchema, (bindBlock none labels anySchema).diagnostics options = []) ∧
      ∀ anyBlock, (bindBlock anyBlock labels none).diagnostics options = [] := by
  have sorted :
      (bindBlock (some block) labels (some schema)).diagnostics options
        = Diagnostic.inOrder (block.walk options schema) :=
    congrArg Diagnostic.inOrder (findings_bindPresent options block labels schema)
  refine ⟨?_, sorted, ?_, ?_, ?_⟩
  · rw [sorted]
    exact inOrder_stableSort _
  · intro recursive
    rw [sorted, Diagnostic.inOrder_eq_nil_iff, Block.walk_eq_nil_iff recursive]
  · intro anySchema
    exact Diagnostic.inOrder_eq_nil_iff.2 rfl
  · intro anyBlock
    cases anyBlock with
    | none => exact Diagnostic.inOrder_eq_nil_iff.2 rfl
    | some present => exact Diagnostic.inOrder_eq_nil_iff.2 rfl

/-- By default nested blocks are looked into, so a server with a port that its schema
does not declare is reported just when it does not conform. -/
theorem diagnostics_of_server :
    ({} : ReportOptions).recursive = true ∧
      ((bindBlock (some serverOutline) [] (some serverSchema)).diagnostics {} = [] ↔
        serverOutline.Conforms serverSchema) :=
  ⟨rfl, (diagnostics_eq_walk {} serverOutline [] serverSchema).2.2.1 rfl⟩

end SchemaBinding
