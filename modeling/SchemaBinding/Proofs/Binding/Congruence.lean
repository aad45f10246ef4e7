import SchemaBinding.Proofs.Binding.Cursor
import SchemaBinding.Proofs.Binding.Equality
import SchemaBinding.Proofs.Binding.Pairing
import SchemaBinding.Proofs.Binding.Partition
import SchemaBinding.Proofs.Schema.Equality
import SchemaBinding.Proofs.Tree.Equality

/-!
Contract: equal blocks bound against equal schemas.

Owns:
- `EqualInputs`, a pair of blocks and a pair of schemas that equality takes for the same;
- how the nested blocks of such a pair go together, in the order of the source and group by
  group; and
- `bindPresent_beq` and `blockAt_beq`, by which the bound blocks are equal, and so is what
  a cursor finds in them.

Does not own: diagnostics. These are lists, and their order may show the order of the
attributes.
-/

set_option autoImplicit false

namespace SchemaBinding

/-! ## Equal inputs -/

/-- Two blocks and two schemas that are equal, where nested types are declared under distinct
names, as they are in any schema that was built by insertion. -/
structure EqualInputs (first second : Block) (firstSchema secondSchema : BlockSchema) :
    Prop where
  distinct : firstSchema.TypesDistinct
  blocks : (first == second) = true
  schemas : (firstSchema == secondSchema) = true

/-- A nested block and its equal on the other side. -/
structure Counterparts (parent child other : Block) : Prop where
  member : child ∈ parent.body.blocks
  reordering : child.Reordering other
  blocks : (child == other) = true

theorem Counterparts.typeName_eq {parent : Block} (child other : Block)
    (pair : Counterparts parent child other) : child.typeName = other.typeName :=
  pair.reordering.typeName

/-- A nested block of declared type and its equal, each with the schema that it is bound
against. -/
inductive BoundTogether (parent : Block) (firstSchema secondSchema : BlockSchema)
    (child other : Block) : Prop where
  | intro (declared otherDeclared : NestedSchema)
      (member : child ∈ parent.body.blocks)
      (found : firstSchema.nested.find? child.typeName = some declared)
      (foundOther : secondSchema.nested.find? other.typeName = some otherDeclared)
      (equal : EqualInputs child other declared.block otherDeclared.block)

namespace EqualInputs

variable {first second : Block} {firstSchema secondSchema : BlockSchema}

theorem block (equal : EqualInputs first second firstSchema secondSchema) :
    first.Reordering second :=
  Block.beq_iff_reordering.1 equal.blocks

theorem schema (equal : EqualInputs first second firstSchema secondSchema) :
    firstSchema.Reordering secondSchema :=
  (BlockSchema.beq_iff_reordering equal.distinct).1 equal.schemas

/-! ### Attributes -/

theorem knownAttributes_perm (equal : EqualInputs first second firstSchema secondSchema) :
    (knownAttributes first.body.attributes firstSchema.attributes).entries.Perm
      (knownAttributes second.body.attributes secondSchema.attributes).entries := by
  unfold knownAttributes
  simp only [NamedMap.entries_filterMap, equal.schema.find?_attribute]
  exact equal.block.attributes.filterMap _

theorem unknownAttributes_perm (equal : EqualInputs first second firstSchema secondSchema) :
    (unknownAttributes first.body.attributes firstSchema.attributes).entries.Perm
      (unknownAttributes second.body.attributes secondSchema.attributes).entries := by
  simp only [entries_unknownAttributes, NamedList.contains, equal.schema.find?_attribute]
  exact equal.block.attributes.filter _

/-- The attributes that a cursor may find are the same, in another order. -/
theorem attributes_perm (equal : EqualInputs first second firstSchema secondSchema)
    (labels : List Label) :
    (bindPresent first labels firstSchema).attributes.Perm
      (bindPresent second labels secondSchema).attributes := by
  unfold BoundBlock.attributes
  rw [bindPresent_knownAttributes, bindPresent_knownAttributes,
    bindPresent_unknownAttributes, bindPresent_unknownAttributes]
  apply List.Perm.append
  · exact (equal.knownAttributes_perm.map Prod.snd).map BoundAttribute.source
  · exact equal.unknownAttributes_perm.map Prod.snd

/-! ### Nested blocks -/

theorem counterparts (equal : EqualInputs first second firstSchema secondSchema) :
    List.Forall₂ (Counterparts first) first.body.blocks second.body.blocks := by
  have children := (List.forall₂_and_left (p := (· ∈ first.body.blocks)) _ _).2
    ⟨fun _ member => member, equal.block.blocks⟩
  apply children.imp
  rintro child other ⟨member, same⟩
  exact ⟨member, Block.beq_iff_reordering.1 same, same⟩

theorem unknownBlocks_counterparts
    (equal : EqualInputs first second firstSchema secondSchema) :
    List.Forall₂ (Counterparts first) (unknownBlocks first.body.blocks firstSchema.nested)
      (unknownBlocks second.body.blocks secondSchema.nested) :=
  unknownBlocks_forall₂ Counterparts.typeName_eq equal.schema.contains_nested
    equal.counterparts

/-- What is bound for a counterpart has equal inputs again. -/
theorem inner (equal : EqualInputs first second firstSchema secondSchema)
    {child other : Block} (pair : Counterparts first child other) {typeName : String}
    {declared otherDeclared : NestedSchema}
    (found : firstSchema.nested.find? typeName = some declared)
    (same : (declared == otherDeclared) = true) :
    EqualInputs child other declared.block otherDeclared.block where
  distinct := equal.distinct.inner found
  blocks := pair.blocks
  schemas := NestedSchema.block_beq same

/-- Group by group, declared blocks are bound together with their equals. -/
theorem groupedBlocks_together (equal : EqualInputs first second firstSchema secondSchema) :
    List.Forall₂ (BoundTogether first firstSchema secondSchema)
      (groupedBlocks first.body.blocks firstSchema.nested)
      (groupedBlocks second.body.blocks secondSchema.nested) := by
  have grouped :=
    groupedBlocks_forall₂ Counterparts.typeName_eq equal.schema.contains_nested
      equal.counterparts
  have declared := (List.forall₂_and_left
    (p := (· ∈ groupedBlocks first.body.blocks firstSchema.nested)) _ _).2
    ⟨fun _ member => member, grouped⟩
  apply declared.imp
  rintro child other ⟨member, pair⟩
  obtain ⟨nested, found⟩ := Option.isSome_iff_exists.1 (mem_groupedBlocks.1 member).2
  obtain ⟨otherNested, foundOther, same⟩ := equal.schema.find?_nested found
  rw [pair.reordering.typeName] at foundOther
  exact .intro nested otherNested pair.member found foundOther (equal.inner pair found same)

end EqualInputs

/-! ## Equal bound blocks -/

theorem bindPresent_distinct (block : Block) (labels : List Label) (schema : BlockSchema) :
    (bindPresent block labels schema).knownBlocks.Distinct := by
  rw [bindPresent_knownBlocks]
  exact knownBlocks_distinct _ _

/-- Equal blocks bound against equal schemas are equal bound blocks. -/
theorem bindPresent_beq (block : Block) :
    ∀ {second : Block} {firstSchema secondSchema : BlockSchema},
      EqualInputs block second firstSchema secondSchema → ∀ labels : List Label,
        (bindPresent block labels firstSchema == bindPresent second labels secondSchema)
          = true := by
  induction block using Block.inductionOn with
  | step block inductionHypothesis =>
      intro second firstSchema secondSchema equal labels
      apply (BoundBlock.beq_iff_reordering (bindPresent_distinct block labels firstSchema)).2
      constructor
      case source =>
        rw [bindPresent_source, bindPresent_source]
        exact equal.blocks
      case labels => rw [bindPresent_labels, bindPresent_labels]
      case schema =>
        rw [bindPresent_schema, bindPresent_schema]
        exact equal.schemas
      case knownAttributes =>
        rw [bindPresent_knownAttributes, bindPresent_knownAttributes]
        exact equal.knownAttributes_perm
      case unknownAttributes =>
        rw [bindPresent_unknownAttributes, bindPresent_unknownAttributes]
        exact equal.unknownAttributes_perm
      case types =>
        rw [bindPresent_knownBlocks, bindPresent_knownBlocks, names_knownBlocks,
          names_knownBlocks,
          declaredTypes_eq Counterparts.typeName_eq equal.schema.contains_nested
            equal.counterparts]
      case unknownBlocks =>
        rw [bindPresent_unknownBlocks, bindPresent_unknownBlocks]
        exact equal.unknownBlocks_counterparts.imp fun _ _ pair => pair.blocks
      case groups =>
        rw [bindPresent_knownBlocks, bindPresent_knownBlocks]
        intro typeName group other found foundOther
        obtain ⟨declared, _, bound⟩ := find?_knownBlocks_eq_some_iff.1 found
        obtain ⟨otherDeclared, _, otherBound⟩ := find?_knownBlocks_eq_some_iff.1 foundOther
        have same := equal.schema.nested typeName _ _ declared otherDeclared
        refine ⟨same, ?_⟩
        rw [bound, otherBound, List.forall₂_map_left_iff, List.forall₂_map_right_iff]
        apply (blocksOfType_forall₂ Counterparts.typeName_eq equal.counterparts typeName).imp
        intro child otherChild pair
        unfold bindNested
        rw [pair.reordering.labels]
        exact inductionHypothesis child pair.member (equal.inner pair declared same)
          otherChild.labels

/-- Whether any attribute is around a position does not depend on their order. -/
theorem inAttribute_eq {first second : Block} {firstSchema secondSchema : BlockSchema}
    (equal : EqualInputs first second firstSchema secondSchema) (labels : List Label)
    (position : Position) :
    (bindPresent first labels firstSchema).inAttribute position
      = (bindPresent second labels secondSchema).inAttribute position := by
  unfold BoundBlock.inAttribute BoundBlock.attributeAt
  rw [Bool.eq_iff_iff, List.find?_isSome, List.find?_isSome]
  simp only [(equal.attributes_perm labels).mem_iff]

/-- A descent through equal bound blocks ends at equal blocks. -/
theorem blockAt_beq (position : Position) (block : Block) :
    ∀ {second : Block} {firstSchema secondSchema : BlockSchema},
      EqualInputs block second firstSchema secondSchema → ∀ labels : List Label,
        Option.Rel (fun found other : BoundBlock => (found == other) = true)
          ((bindPresent block labels firstSchema).blockAt position)
          ((bindPresent second labels secondSchema).blockAt position) := by
  induction block using Block.inductionOn with
  | step block inductionHypothesis =>
      intro second firstSchema secondSchema equal labels
      rw [blockAt_bindPresent, blockAt_bindPresent]
      refine rel_bind ?_ (rel_find?_of_forall₂ ?_ equal.groupedBlocks_together)
      · rintro child other ⟨declared, otherDeclared, member, found, foundOther, equalBelow⟩
        rw [found, foundOther]
        unfold bindNested
        rw [equalBelow.block.labels]
        have here := bindPresent_beq child equalBelow other.labels
        have below := inductionHypothesis child member equalBelow other.labels
        exact .some (rel_getD here below)
      · rintro child other ⟨_, _, _, _, _, equalBelow⟩
        rw [equalBelow.block.span]

end SchemaBinding
