import SchemaBinding.Proofs.Binding.Congruence
import SchemaBinding.Proofs.Report.Walk

/-!
Contract: what equal blocks and equal schemas may still be told apart by.

Owns:
- `BoundBlock.Indistinguishable`, two bound blocks that are equal and that answer alike; and
- `bindBlock_congruent`, by which binding takes equal inputs to such a pair.

Does not own: ties. Undeclared attributes that start at one place are reported in the order
in which the block has them, and that order is not part of what equality compares.
-/

set_option autoImplicit false

namespace SchemaBinding

/-- The two are equal, a cursor finds the same in them, and they have the same diagnostics.
Only where diagnostics start at one place may their order differ. -/
structure BoundBlock.Indistinguishable (first second : BoundBlock) : Prop where
  equal : (first == second) = true
  inAttribute : ∀ position, first.inAttribute position = second.inAttribute position
  blockAt : ∀ position, (first.blockAt position == second.blockAt position) = true
  diagnostics_perm :
    ∀ options, (first.diagnostics options).Perm (second.diagnostics options)
  diagnostics_eq :
    ∀ options, Untied (first.diagnostics options) →
      first.diagnostics options = second.diagnostics options

/-! ## Findings -/

section

variable {first second : Block} {firstSchema secondSchema : BlockSchema}

theorem ownFindings_perm (equal : EqualInputs first second firstSchema secondSchema)
    (options : ReportOptions) :
    (ownFindings options first.typeName
        (unknownAttributes first.body.attributes firstSchema.attributes)
        (unknownBlocks first.body.blocks firstSchema.nested)).Perm
      (ownFindings options second.typeName
        (unknownAttributes second.body.attributes secondSchema.attributes)
        (unknownBlocks second.body.blocks secondSchema.nested)) := by
  unfold ownFindings
  rw [equal.block.typeName]
  apply List.Perm.append
  · exact (equal.unknownAttributes_perm.map Prod.snd).map _
  · apply List.Perm.of_eq
    apply map_eq_of_forall₂ ?_ equal.unknownBlocks_counterparts
    intro child other pair
    unfold Diagnostic.unknownBlock
    rw [pair.reordering.typeSpan, pair.reordering.typeName]

end

/-- Walks through equal blocks, held against equal schemas, report the same. -/
theorem walk_perm (options : ReportOptions) (block : Block) :
    ∀ {second : Block} {firstSchema secondSchema : BlockSchema},
      EqualInputs block second firstSchema secondSchema →
        (block.walk options firstSchema).Perm (second.walk options secondSchema) := by
  induction block using Block.inductionOn with
  | step block inductionHypothesis =>
      intro second firstSchema secondSchema equal
      rw [Block.walk_eq, Block.walk_eq]
      apply List.Perm.append (ownFindings_perm equal options)
      cases options.recursive with
      | false => exact .nil
      | true =>
          apply flatMap_perm_of_forall₂ ?_ equal.groupedBlocks_together
          rintro child other ⟨declared, otherDeclared, member, found, foundOther, equalBelow⟩
          rw [found, foundOther]
          exact inductionHypothesis child member equalBelow

/-! ## Equal inputs -/

theorem bindPresent_indistinguishable {first second : Block}
    {firstSchema secondSchema : BlockSchema}
    (equal : EqualInputs first second firstSchema secondSchema) (labels : List Label) :
    (bindPresent first labels firstSchema).Indistinguishable
      (bindPresent second labels secondSchema) where
  equal := bindPresent_beq first equal labels
  inAttribute := inAttribute_eq equal labels
  blockAt position := beq_of_rel (blockAt_beq position first equal labels)
  diagnostics_perm options := by
    unfold BoundBlock.diagnostics
    rw [findings_bindPresent, findings_bindPresent]
    exact inOrder_perm (walk_perm options first equal)
  diagnostics_eq options untied := by
    unfold BoundBlock.diagnostics at untied ⊢
    rw [findings_bindPresent] at untied ⊢
    rw [findings_bindPresent]
    apply inOrder_eq_of_untied (walk_perm options first equal)
    exact untied.of_perm (inOrder_stableSort _).same

/-- Equality of blocks asks for the same attributes in any order, and for equal nested
blocks in their order; equality of schemas asks for the same declarations in any order, and
equality of bound blocks for the same attributes and groups in any order. Equal blocks bound
against equal schemas are equal, and they cannot be told apart but by the order of
diagnostics that start at one place. -/
theorem bindBlock_congruent (first second : Block) {firstSchema : BlockSchema}
    (distinct : firstSchema.TypesDistinct) (secondSchema : BlockSchema) (labels : List Label) :
    ((first == second) = true ↔ first.Reordering second) ∧
      ((firstSchema == secondSchema) = true ↔ firstSchema.Reordering secondSchema) ∧
      ((bindBlock (some first) labels (some firstSchema)
          == bindBlock (some second) labels (some secondSchema)) = true ↔
        (bindBlock (some first) labels (some firstSchema)).Reordering
          (bindBlock (some second) labels (some secondSchema))) ∧
      ((first == second) = true → (firstSchema == secondSchema) = true →
        (bindBlock (some first) labels (some firstSchema)).Indistinguishable
          (bindBlock (some second) labels (some secondSchema))) := by
  refine ⟨Block.beq_iff_reordering, BlockSchema.beq_iff_reordering distinct, ?_, ?_⟩
  · exact BoundBlock.beq_iff_reordering (bindPresent_distinct first labels firstSchema)
  · intro blocks schemas
    exact bindPresent_indistinguishable ⟨distinct, blocks, schemas⟩ labels

/-! ## A link written in two orders -/

/-- A network with one link, which has three attributes. -/
def linkLine : Block :=
  lineBlock "network" 0 8 30 []
    [lineBlock "link" 9 13 29
      [lineAttribute "mtu" 14 19, lineAttribute "up" 20 22, lineAttribute "rate" 23 28] []]

/-- The link with its last attribute listed first. -/
def linkLineReordered : Block :=
  lineBlock "network" 0 8 30 []
    [lineBlock "link" 9 13 29
      [lineAttribute "rate" 23 28, lineAttribute "mtu" 14 19, lineAttribute "up" 20 22] []]

/-- Links with the given attributes declared. -/
def linkSchema (names : List String) : BlockSchema :=
  let block : BlockSchema :=
    { attributes := NamedMap.fileAll AttributeSchema.name (names.map fun name => { name }) {} }
  { nested := ⟨[("link", { typeName := "link", nesting := .list, block })]⟩ }

theorem linkSchema_typesDistinct (names : List String) : (linkSchema names).TypesDistinct := by
  refine .intro (List.pairwise_singleton _ _) ?_
  intro entry member
  cases List.mem_singleton.1 member
  exact .intro .nil nofun

/-- Of the attributes of the link one is declared and two are reported. Neither their order
nor that of the declarations can be told from what is bound. -/
theorem linkLine_congruent :
    (linkSchema ["up", "queue"]).TypesDistinct ∧
      (linkLine == linkLineReordered) = true ∧
      (linkSchema ["up", "queue"] == linkSchema ["queue", "up"]) = true ∧
      (bindBlock (some linkLine) [] (some (linkSchema ["up", "queue"]))).Indistinguishable
        (bindBlock (some linkLineReordered) [] (some (linkSchema ["queue", "up"]))) := by
  have blocks : (linkLine == linkLineReordered) = true := by decide
  have schemas : (linkSchema ["up", "queue"] == linkSchema ["queue", "up"]) = true := by
    decide
  have distinct := linkSchema_typesDistinct ["up", "queue"]
  have congruent :=
    bindBlock_congruent linkLine linkLineReordered distinct (linkSchema ["queue", "up"]) []
  exact ⟨distinct, blocks, schemas, congruent.2.2.2 blocks schemas⟩

end SchemaBinding
