import SchemaBinding.Proofs.Binding.Partition
import SchemaBinding.Proofs.Binding.Places
import SchemaBinding.Proofs.Schema.Names

/-!
Contract: a schema that declares more makes more of a tree known, and nothing less.

Owns:
- `BoundBlock.Widens`, what a bound block gains when its schema declares more; and
- `bindBlock_widens`, by which every place of the narrow binding is a place of the wide
  one, and is widened there.

Does not own: the order of the groups. A newly declared type may open its group between
two others, so a place is told by the types and the indices within groups, which stay.
-/

set_option autoImplicit false

namespace SchemaBinding

/-- The two are bound from one block with the same labels. What is known in the narrow one
is known in the wide one, and what is unknown in the wide one is unknown in the narrow one
and stands there in the same order. -/
structure BoundBlock.Widens (wide narrow : BoundBlock) : Prop where
  source : wide.source = narrow.source
  labels : wide.labels = narrow.labels
  knownAttributes : narrow.knownAttributes.names ⊆ wide.knownAttributes.names
  unknownAttributes :
    wide.unknownAttributes.entries.Sublist narrow.unknownAttributes.entries
  unknownBlocks : wide.unknownBlocks.Sublist narrow.unknownBlocks

/-! ## One bound block -/

/-- Fewer items stay undeclared where more is declared. -/
theorem filter_undeclared_sublist {α β : Type} {wide narrow : NamedList α}
    (wider : ∀ name, narrow.contains name = true → wide.contains name = true)
    (nameOf : β → String) (items : List β) :
    (items.filter fun item => !wide.contains (nameOf item)).Sublist
      (items.filter fun item => !narrow.contains (nameOf item)) := by
  apply List.monotone_filter_right
  intro item undeclared
  rw [Bool.not_eq_true'] at undeclared ⊢
  by_contra declared
  rw [Bool.not_eq_false] at declared
  rw [wider (nameOf item) declared] at undeclared
  cases undeclared

section

variable {wide narrow : BlockSchema}

/-- Binding one block against a wider schema widens it. -/
theorem bindPresent_widens (wider : wide.Extends narrow) (block : Block)
    (labels : List Label) :
    (bindPresent block labels wide).Widens (bindPresent block labels narrow) where
  source := by rw [bindPresent_source, bindPresent_source]
  labels := by rw [bindPresent_labels, bindPresent_labels]
  knownAttributes := by
    intro name known
    rw [bindPresent_knownAttributes, names_knownAttributes, List.mem_filter] at known ⊢
    exact ⟨known.1, wider.contains_attribute known.2⟩
  unknownAttributes := by
    rw [bindPresent_unknownAttributes, bindPresent_unknownAttributes]
    exact filter_undeclared_sublist (fun _ => wider.contains_attribute) Prod.fst _
  unknownBlocks := by
    rw [bindPresent_unknownBlocks, bindPresent_unknownBlocks]
    exact filter_undeclared_sublist (fun _ => wider.contains_nested) Block.typeName _

end

/-! ## Every place -/

/-- Whatever is selected in a block bound against a schema is selected in the same way when
the block is bound against a wider schema, and is widened. -/
theorem bindBlock_widens {wide narrow : BlockSchema} (wider : wide.Extends narrow)
    (block : Block) (labels : List Label) (place : List Selection) {node : BoundBlock}
    (selected : (bindBlock (some block) labels (some narrow)).at? place = some node) :
    ∃ other, (bindBlock (some block) labels (some wide)).at? place = some other ∧
      other.Widens node := by
  have inherited :
      BlockSchema.Inherited fun narrower widened => widened.Extends narrower :=
    fun _ _ extending _ _ found => extending.find?_nested found
  obtain ⟨source, ownLabels, declared, widened, extending, rfl, there⟩ :=
    exists_at?_of_inherited inherited place wider selected
  exact ⟨_, there, bindPresent_widens extending source ownLabels⟩

/-! ## A server with more declared -/

def labelledPartitionSchema : BlockSchema :=
  { attributes := { entries := [("label", { name := "label" }), ("size", { name := "size" })] } }

/-- The schema of the server with ports declared before disks, mounts declared before
partitions, and more attributes on either level. -/
def wideServerSchema : BlockSchema :=
  let partition : NestedSchema :=
    { typeName := "partition", nesting := .set, block := labelledPartitionSchema }
  let mount : NestedSchema := { typeName := "mount", nesting := .single, block := {} }
  let disk : NestedSchema :=
    { typeName := "disk"
      nesting := .list
      block := { nested := ⟨[("mount", mount), ("partition", partition)]⟩ } }
  let port : NestedSchema := { typeName := "port", nesting := .list, block := {} }
  { attributes := { entries := [("name", { name := "name" })] }
    nested := ⟨[("port", port), ("disk", disk)]⟩ }

theorem wideServerSchema_extends : wideServerSchema.Extends serverSchema := by
  refine .intro (List.nil_subset _) (by decide) ?_
  intro typeName disk wideDisk found foundWide
  cases List.mem_singleton.1 (NamedList.mem_entries_of_find? found)
  cases foundWide
  refine .intro (List.nil_subset _) (by decide) ?_
  intro typeName partition widePartition found foundWide
  cases List.mem_singleton.1 (NamedList.mem_entries_of_find? found)
  cases foundWide
  exact .intro (by decide) (List.nil_subset _) nofun

/-- The partition in the second disk, with mounts now known beside it. -/
def partitionPlace : List Selection := [⟨"disk", 1⟩, ⟨"partition", 0⟩]

theorem partition_of_wideServer_widens :
    wideServerSchema.Extends serverSchema ∧
      (bindBlock (some serverOutline) [] (some serverSchema)).at? partitionPlace
        = some (bindPresent partitionOutline [] partitionSchema) ∧
      ∃ other,
        (bindBlock (some serverOutline) [] (some wideServerSchema)).at? partitionPlace
            = some other ∧
          other.Widens (bindPresent partitionOutline [] partitionSchema) := by
  have selected :
      (bindBlock (some serverOutline) [] (some serverSchema)).at? partitionPlace
        = some (bindPresent partitionOutline [] partitionSchema) :=
    rfl
  exact ⟨wideServerSchema_extends, selected,
    bindBlock_widens wideServerSchema_extends serverOutline [] partitionPlace selected⟩

end SchemaBinding
