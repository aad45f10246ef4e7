import Mathlib.Data.List.Flatten
import SchemaBinding.Proofs.Binding.Widening
import SchemaBinding.Proofs.Report.Walk
import SchemaBinding.Proofs.Schema.Names

/-!
Contract: what is no longer reported when a schema declares more attributes.

Owns:
- `Block.visits`, the blocks that are looked into, each with what two schemas say of it;
- `Visit.gained`, the attributes of such a block that only the wide schema declares; and
- `diagnostics_addsAttributes`, by which their reports are dropped and all others stay as
  they are shown.

Does not own: schemas that declare other types of nested blocks. Their groups may open in
another order.
-/

set_option autoImplicit false

namespace SchemaBinding

/-! ## Visited blocks -/

/-- A block with what either schema declares for it. -/
structure Visit where
  block : Block
  narrow : BlockSchema
  wide : BlockSchema

/-- The attributes of the block that the wide schema declares and the narrow one does not,
each as often as it is filed. -/
def Visit.gained (visit : Visit) : List (String × Attribute) :=
  visit.block.body.attributes.entries.filter fun entry =>
    visit.wide.attributes.contains entry.1 && !visit.narrow.attributes.contains entry.1

/-- What is reported of these attributes under the narrow schema. -/
def Visit.dropped (options : ReportOptions) (visit : Visit) : List Diagnostic :=
  visit.gained.map fun entry =>
    { span := entry.2.nameSpan
      severity := options.attributeSeverity
      code := some "H0001"
      message :=
        s!"unexpected attribute '{entry.2.name}' in block '{visit.block.typeName}'" }

mutual

/-- A block and, when the options ask for them, the declared blocks inside it at every depth,
in source order. -/
def Block.visits (options : ReportOptions) : Block → BlockSchema → BlockSchema → List Visit
  | ⟨typeName, labelValues, ⟨attributes, blocks, bodySpan, endSpan⟩, typeSpan, labelSpans,
      openBrace, closeBrace⟩, narrow, wide =>
      { block :=
          ⟨typeName, labelValues, ⟨attributes, blocks, bodySpan, endSpan⟩, typeSpan,
            labelSpans, openBrace, closeBrace⟩
        narrow
        wide } ::
        if options.recursive then Block.visitsIn options blocks narrow wide else []

/-- The visits to nested blocks of declared types, each with the schemas of its type. -/
def Block.visitsIn (options : ReportOptions) :
    List Block → BlockSchema → BlockSchema → List Visit
  | [], _, _ => []
  | block :: rest, narrow, wide =>
      match narrow.nested.find? block.typeName, wide.nested.find? block.typeName with
      | some declared, some other =>
          block.visits options declared.block other.block
            ++ Block.visitsIn options rest narrow wide
      | _, _ => Block.visitsIn options rest narrow wide

end

/-- The visits to one nested block and inside it, none to a block of an undeclared type. -/
def Block.nestedVisits (options : ReportOptions) (narrow wide : BlockSchema) (child : Block) :
    List Visit :=
  match narrow.nested.find? child.typeName, wide.nested.find? child.typeName with
  | some declared, some other => child.visits options declared.block other.block
  | _, _ => []

theorem Block.visitsIn_eq (options : ReportOptions) (narrow wide : BlockSchema) :
    ∀ blocks : List Block,
      Block.visitsIn options blocks narrow wide
        = blocks.flatMap (Block.nestedVisits options narrow wide)
  | [] => rfl
  | block :: rest => by
      rw [Block.visitsIn, Block.visitsIn_eq options narrow wide rest, List.flatMap_cons,
        Block.nestedVisits]
      split <;> rfl

theorem Block.visits_eq (options : ReportOptions) (block : Block) (narrow wide : BlockSchema) :
    block.visits options narrow wide
      = { block, narrow, wide } ::
          if options.recursive then
            block.body.blocks.flatMap (Block.nestedVisits options narrow wide)
          else [] := by
  obtain ⟨_, _, ⟨_, _, _, _⟩, _, _, _, _⟩ := block
  rw [Block.visits, Block.visitsIn_eq]

section

variable {wide narrow : BlockSchema}

/-! ## One block -/

theorem groupedBlocks_eq_of_adds (adds : wide.AddsAttributes narrow) (blocks : List Block) :
    groupedBlocks blocks wide.nested = groupedBlocks blocks narrow.nested :=
  groupedBlocks_congr adds.contains_nested blocks

theorem unknownBlocks_eq_of_adds (adds : wide.AddsAttributes narrow) (blocks : List Block) :
    unknownBlocks blocks wide.nested = unknownBlocks blocks narrow.nested := by
  unfold unknownBlocks
  simp only [adds.contains_nested]

/-- A grouped block is declared in both schemas. -/
theorem exists_declared_of_adds (adds : wide.AddsAttributes narrow) {blocks : List Block}
    {child : Block} (grouped : child ∈ groupedBlocks blocks narrow.nested) :
    child ∈ blocks ∧ ∃ declared other, narrow.nested.find? child.typeName = some declared ∧
      wide.nested.find? child.typeName = some other ∧
        other.block.AddsAttributes declared.block := by
  obtain ⟨member, isDeclared⟩ := mem_groupedBlocks.1 grouped
  obtain ⟨declared, found⟩ := Option.isSome_iff_exists.1 isDeclared
  obtain ⟨other, foundOther, addsBelow⟩ := adds.find?_nested found
  exact ⟨member, declared, other, found, foundOther, addsBelow⟩

/-- What is undeclared in the narrow schema is undeclared in both or gained. -/
theorem unknownAttributes_perm_gained (adds : wide.AddsAttributes narrow) (block : Block) :
    (unknownAttributes block.body.attributes narrow.attributes).entries.Perm
      ((unknownAttributes block.body.attributes wide.attributes).entries
        ++ (Visit.mk block narrow wide).gained) := by
  have undeclaredInBoth :
      ((unknownAttributes block.body.attributes narrow.attributes).entries.filter fun entry =>
          !wide.attributes.contains entry.1)
        = (unknownAttributes block.body.attributes wide.attributes).entries := by
    rw [entries_unknownAttributes, entries_unknownAttributes, List.filter_filter]
    refine List.filter_congr fun entry _ => ?_
    cases missing : narrow.attributes.contains entry.1 with
    | false => simp
    | true => simp [adds.extends_narrow.contains_attribute missing]
  have gained :
      ((unknownAttributes block.body.attributes narrow.attributes).entries.filter fun entry =>
          wide.attributes.contains entry.1)
        = (Visit.mk block narrow wide).gained := by
    rw [entries_unknownAttributes, List.filter_filter]
    rfl
  have split := List.filter_append_perm (fun entry => wide.attributes.contains entry.1)
    (unknownAttributes block.body.attributes narrow.attributes).entries
  rw [undeclaredInBoth, gained] at split
  exact split.symm.trans List.perm_append_comm

theorem ownFindings_sublist (options : ReportOptions) (parent : String)
    (adds : wide.AddsAttributes narrow) (attributes : NamedMap Attribute)
    (blocks : List Block) :
    (ownFindings options parent (unknownAttributes attributes wide.attributes) blocks).Sublist
      (ownFindings options parent (unknownAttributes attributes narrow.attributes) blocks) := by
  apply List.Sublist.append
  · apply List.Sublist.map
    apply List.Sublist.map
    exact filter_undeclared_sublist (fun _ => adds.extends_narrow.contains_attribute) _ _
  · exact List.Sublist.refl _

theorem ownFindings_perm_dropped (options : ReportOptions) (adds : wide.AddsAttributes narrow)
    (block : Block) (blocks : List Block) :
    (ownFindings options block.typeName
        (unknownAttributes block.body.attributes narrow.attributes) blocks).Perm
      (ownFindings options block.typeName
          (unknownAttributes block.body.attributes wide.attributes) blocks
        ++ (Visit.mk block narrow wide).dropped options) := by
  have reported := (unknownAttributes_perm_gained adds block).map fun entry =>
    Diagnostic.unknownAttribute options.attributeSeverity block.typeName entry.2
  rw [List.map_append] at reported
  unfold ownFindings NamedList.values
  rw [List.map_map, List.map_map, List.append_assoc]
  refine (reported.append_right _).trans ?_
  rw [List.append_assoc]
  exact List.perm_append_comm.append_left _

end

/-! ## The walk -/

/-- A walk under the wide schema finds, in the same order, part of what it finds under the
narrow one. -/
theorem walk_sublist (options : ReportOptions) (block : Block) :
    ∀ {narrow wide : BlockSchema}, wide.AddsAttributes narrow →
      (block.walk options wide).Sublist (block.walk options narrow) := by
  induction block using Block.inductionOn with
  | step block inductionHypothesis =>
      intro narrow wide adds
      rw [Block.walk_eq, Block.walk_eq, unknownBlocks_eq_of_adds adds,
        groupedBlocks_eq_of_adds adds]
      apply List.Sublist.append
      · exact ownFindings_sublist options _ adds _ _
      · split
        · apply List.Sublist.flatMap_right
          intro child grouped
          obtain ⟨member, declared, other, found, foundOther, addsBelow⟩ :=
            exists_declared_of_adds adds grouped
          rw [found, foundOther]
          exact inductionHypothesis child member addsBelow
        · exact List.Sublist.refl _

/-- Only declared blocks are visited, in whatever order. -/
theorem flatMap_nestedVisits_perm (options : ReportOptions) (narrow wide : BlockSchema)
    (blocks : List Block) :
    ((groupedBlocks blocks narrow.nested).flatMap
        (Block.nestedVisits options narrow wide)).Perm
      (blocks.flatMap (Block.nestedVisits options narrow wide)) := by
  refine ((groupedBlocks_perm blocks narrow.nested).flatMap_right _).trans ?_
  apply List.Perm.of_eq
  unfold declaredBlocks
  induction blocks with
  | nil => rfl
  | cons child rest inductionHypothesis =>
      rw [List.filter_cons, List.flatMap_cons, ← inductionHypothesis]
      cases found : narrow.nested.find? child.typeName with
      | some declared => simp [NamedList.contains, found]
      | none => simp [NamedList.contains, found, Block.nestedVisits]

/-- What a walk finds under the narrow schema and not under the wide one is what is dropped
in the visited blocks. -/
theorem walk_perm_dropped (options : ReportOptions) (block : Block) :
    ∀ {narrow wide : BlockSchema}, wide.AddsAttributes narrow →
      (block.walk options narrow).Perm
        (block.walk options wide
          ++ (block.visits options narrow wide).flatMap (Visit.dropped options)) := by
  induction block using Block.inductionOn with
  | step block inductionHypothesis =>
      intro narrow wide adds
      have own := ownFindings_perm_dropped options adds block
        (unknownBlocks block.body.blocks narrow.nested)
      rw [Block.walk_eq, Block.walk_eq, Block.visits_eq, unknownBlocks_eq_of_adds adds,
        groupedBlocks_eq_of_adds adds, List.flatMap_cons]
      by_cases recursive : options.recursive = true
      · rw [if_pos recursive, if_pos recursive, if_pos recursive]
        have each : ∀ child ∈ groupedBlocks block.body.blocks narrow.nested,
            (((narrow.nested.find? child.typeName).map fun nested =>
                child.walk options nested.block).getD []).Perm
              (((wide.nested.find? child.typeName).map fun nested =>
                  child.walk options nested.block).getD []
                ++ (Block.nestedVisits options narrow wide child).flatMap
                    (Visit.dropped options)) := by
          intro child grouped
          obtain ⟨member, declared, other, found, foundOther, addsBelow⟩ :=
            exists_declared_of_adds adds grouped
          rw [Block.nestedVisits, found, foundOther]
          exact inductionHypothesis child member addsBelow
        have visited := (flatMap_nestedVisits_perm options narrow wide
          block.body.blocks).flatMap_right (Visit.dropped options)
        rw [List.flatMap_assoc] at visited
        have inside := ((List.Perm.refl _).flatMap each).trans
          ((List.flatMap_append_perm _ _ _).symm.trans (visited.append_left _))
        refine (own.append inside).trans ?_
        -- The reports dropped here change places with what is found further inside.
        simp only [List.append_assoc]
        exact (List.perm_append_comm_assoc _ _ _).append_left _
      · rw [if_neg recursive, if_neg recursive, if_neg recursive]
        simpa using own

/-! ## The diagnostics -/

/-- Where a schema declares more attributes, the diagnostics are those that are shown under
the narrow schema, in their order, less one for each attribute gained in a visited block. -/
theorem diagnostics_addsAttributes (options : ReportOptions) (block : Block)
    (labels : List Label) {narrow wide : BlockSchema} (adds : wide.AddsAttributes narrow) :
    ((bindBlock (some block) labels (some wide)).diagnostics options).Sublist
        ((bindBlock (some block) labels (some narrow)).diagnostics options) ∧
      ((bindBlock (some block) labels (some narrow)).diagnostics options).Perm
        ((bindBlock (some block) labels (some wide)).diagnostics options
          ++ (block.visits options narrow wide).flatMap (Visit.dropped options)) := by
  have walked : ∀ schema : BlockSchema,
      (bindBlock (some block) labels (some schema)).diagnostics options
        = Diagnostic.inOrder (block.walk options schema) := by
    intro schema
    exact congrArg Diagnostic.inOrder (findings_bindPresent options block labels schema)
  rw [walked, walked]
  constructor
  · exact inOrder_sublist (walk_sublist options block adds)
  · apply (inOrder_stableSort _).same.trans
    apply (walk_perm_dropped options block adds).trans
    exact (inOrder_stableSort _).same.symm.append_right _

/-- The schema of the server with labels declared in partitions. -/
def labelledServerSchema : BlockSchema :=
  let partition : NestedSchema :=
    { typeName := "partition", nesting := .list, block := labelledPartitionSchema }
  let disk : NestedSchema :=
    { typeName := "disk", nesting := .list, block := { nested := ⟨[("partition", partition)]⟩ } }
  { nested := ⟨[("disk", disk)]⟩ }

theorem labelledServerSchema_adds : labelledServerSchema.AddsAttributes serverSchema := by
  refine .intro (List.nil_subset _) (fun _ => Iff.rfl) ?_
  intro typeName disk labelledDisk found foundLabelled
  cases List.mem_singleton.1 (NamedList.mem_entries_of_find? found)
  cases foundLabelled
  refine .intro (List.nil_subset _) (fun _ => Iff.rfl) ?_
  intro typeName partition labelledPartition found foundLabelled
  cases List.mem_singleton.1 (NamedList.mem_entries_of_find? found)
  cases foundLabelled
  exact .intro (by decide) (fun _ => Iff.rfl) nofun

/-- The label of the partition in the second disk is all that is no longer reported. -/
theorem diagnostics_labelledServer :
    labelledServerSchema.AddsAttributes serverSchema ∧
      ((bindBlock (some serverOutline) [] (some labelledServerSchema)).diagnostics {}).Sublist
        ((bindBlock (some serverOutline) [] (some serverSchema)).diagnostics {}) ∧
      ((bindBlock (some serverOutline) [] (some serverSchema)).diagnostics {}).Perm
        ((bindBlock (some serverOutline) [] (some labelledServerSchema)).diagnostics {}
          ++ [Diagnostic.unknownAttribute .error "partition"
              { (default : Attribute) with name := "label" }]) := by
  have dropped :
      (serverOutline.visits {} serverSchema labelledServerSchema).flatMap (Visit.dropped {})
        = [Diagnostic.unknownAttribute .error "partition"
            { (default : Attribute) with name := "label" }] := by
    rfl
  rw [← dropped]
  exact ⟨labelledServerSchema_adds,
    diagnostics_addsAttributes {} serverOutline [] labelledServerSchema_adds⟩

end SchemaBinding
