import SchemaBinding.Proofs.Binding.Cursor
import SchemaBinding.Proofs.Report.Walk
import SchemaBinding.Proofs.Schema.Names

/-!
Contract: of a schema nothing counts but the names that it declares.

Owns:
- `BoundBlock.SameContents`, two bound blocks with all the same in them but for what their
  schemas say; and
- `bindBlock_namesOnly`, by which schemas of the same names can be told apart neither by
  the bound tree nor by its diagnostics nor by a cursor.

Does not own: schemas that differ in a name. Those are compared in `Widening`.
-/

set_option autoImplicit false

namespace SchemaBinding

/-- The two hold the same attributes, groups and blocks in the same order, with the same
sources and labels. Of their schemas nothing is asked. -/
structure BoundBlock.SameContents (first second : BoundBlock) : Prop where
  source : first.source = second.source
  labels : first.labels = second.labels
  knownAttributes :
    first.knownAttributes.entries.map (fun entry => (entry.1, entry.2.source))
      = second.knownAttributes.entries.map fun entry => (entry.1, entry.2.source)
  unknownAttributes : first.unknownAttributes = second.unknownAttributes
  groups :
    first.knownBlocks.entries.map
        (fun entry => (entry.1, entry.2.blocks.map fun inner => (inner.source, inner.labels)))
      = second.knownBlocks.entries.map fun entry =>
          (entry.1, entry.2.blocks.map fun inner => (inner.source, inner.labels))
  unknownBlocks : first.unknownBlocks = second.unknownBlocks

section

variable {first second : BlockSchema}

/-! ## One bound block -/

theorem unknownAttributes_eq_of_sameNames (same : first.SameNames second)
    (attributes : NamedMap Attribute) :
    unknownAttributes attributes first.attributes
      = unknownAttributes attributes second.attributes := by
  unfold unknownAttributes
  simp only [same.contains_attribute]

theorem unknownBlocks_eq_of_sameNames (same : first.SameNames second) (blocks : List Block) :
    unknownBlocks blocks first.nested = unknownBlocks blocks second.nested := by
  unfold unknownBlocks
  simp only [same.contains_nested]

theorem declaredBlocks_eq_of_sameNames (same : first.SameNames second) (blocks : List Block) :
    declaredBlocks blocks first.nested = declaredBlocks blocks second.nested := by
  unfold declaredBlocks
  simp only [same.contains_nested]

theorem groupedBlocks_eq_of_sameNames (same : first.SameNames second) (blocks : List Block) :
    groupedBlocks blocks first.nested = groupedBlocks blocks second.nested :=
  groupedBlocks_congr same.contains_nested blocks

/-- Groups open in the order of the source, whatever the order of the declarations. -/
theorem groups_eq_of_sameNames (same : first.SameNames second) (blocks : List Block) :
    (knownBlocks blocks first.nested).entries.map
        (fun entry => (entry.1, entry.2.blocks.map fun inner => (inner.source, inner.labels)))
      = (knownBlocks blocks second.nested).entries.map fun entry =>
          (entry.1, entry.2.blocks.map fun inner => (inner.source, inner.labels)) := by
  rw [knownBlocks_entries, knownBlocks_entries, List.map_filterMap, List.map_filterMap,
    declaredBlocks_eq_of_sameNames same]
  refine List.filterMap_congr fun typeName occurs => ?_
  obtain ⟨other, foundOther, _⟩ := exists_of_mem_types occurs
  obtain ⟨declared, found, _⟩ := same.symm.find?_nested foundOther
  rw [found, foundOther]
  simp [bindNested]

/-- Binding one block against schemas of the same names puts the same into it. -/
theorem bindPresent_sameContents (same : first.SameNames second) (block : Block)
    (labels : List Label) :
    (bindPresent block labels first).SameContents (bindPresent block labels second) where
  source := by rw [bindPresent_source, bindPresent_source]
  labels := by rw [bindPresent_labels, bindPresent_labels]
  knownAttributes := by
    rw [bindPresent_knownAttributes, bindPresent_knownAttributes, knownAttributes_sources,
      knownAttributes_sources]
    simp only [same.contains_attribute]
  unknownAttributes := by
    rw [bindPresent_unknownAttributes, bindPresent_unknownAttributes]
    exact unknownAttributes_eq_of_sameNames same _
  groups := by
    rw [bindPresent_knownBlocks, bindPresent_knownBlocks]
    exact groups_eq_of_sameNames same _
  unknownBlocks := by
    rw [bindPresent_unknownBlocks, bindPresent_unknownBlocks]
    exact unknownBlocks_eq_of_sameNames same _

/-! ## Every place -/

/-- The two bindings of a block have bound blocks at the same places, with the same in
them. -/
theorem at?_sameContents (same : first.SameNames second) (block : Block)
    (labels : List Label) (place : List Selection) :
    Option.Rel BoundBlock.SameContents ((bindPresent block labels first).at? place)
      ((bindPresent block labels second).at? place) := by
  have inherited : BlockSchema.Inherited BlockSchema.SameNames :=
    fun _ _ sameHere _ _ found => sameHere.find?_nested found
  cases selected : (bindPresent block labels first).at? place with
  | some node =>
      obtain ⟨source, ownLabels, declared, other, sameThere, rfl, there⟩ :=
        exists_at?_of_inherited inherited place same selected
      rw [there]
      exact .some (bindPresent_sameContents sameThere source ownLabels)
  | none =>
      cases selectedOther : (bindPresent block labels second).at? place with
      | none => exact .none
      | some node =>
          obtain ⟨_, _, _, _, _, _, back⟩ :=
            exists_at?_of_inherited inherited place same.symm selectedOther
          rw [selected] at back
          cases back

end

/-! ## Diagnostics and cursors -/

/-- A grouped block is declared in both schemas, by schemas of the same names. -/
theorem exists_declared_of_grouped {first second : BlockSchema}
    (same : first.SameNames second) {blocks : List Block} {child : Block}
    (grouped : child ∈ groupedBlocks blocks first.nested) :
    child ∈ blocks ∧ ∃ declared other, first.nested.find? child.typeName = some declared ∧
      second.nested.find? child.typeName = some other ∧
        declared.block.SameNames other.block := by
  obtain ⟨member, isDeclared⟩ := mem_groupedBlocks.1 grouped
  obtain ⟨declared, found⟩ := Option.isSome_iff_exists.1 isDeclared
  obtain ⟨other, foundOther, sameBelow⟩ := same.find?_nested found
  exact ⟨member, declared, other, found, foundOther, sameBelow⟩

/-- A walk asks a schema for nothing but names. -/
theorem walk_eq_of_sameNames (options : ReportOptions) (block : Block) :
    ∀ {first second : BlockSchema}, first.SameNames second →
      block.walk options first = block.walk options second := by
  induction block using Block.inductionOn with
  | step block inductionHypothesis =>
      intro first second same
      rw [Block.walk_eq, Block.walk_eq, unknownAttributes_eq_of_sameNames same,
        unknownBlocks_eq_of_sameNames same, ← groupedBlocks_eq_of_sameNames same]
      congr 2
      refine List.flatMap_congr fun child grouped => ?_
      obtain ⟨member, declared, other, found, foundOther, sameBelow⟩ :=
        exists_declared_of_grouped same grouped
      rw [found, foundOther, Option.map_some, Option.map_some,
        inductionHypothesis child member sameBelow]

/-- A descent goes the same way in both bindings. -/
theorem blockAt_sameContents (position : Position) (block : Block) :
    ∀ (labels : List Label) {first second : BlockSchema}, first.SameNames second →
      Option.Rel BoundBlock.SameContents ((bindPresent block labels first).blockAt position)
        ((bindPresent block labels second).blockAt position) := by
  induction block using Block.inductionOn with
  | step block inductionHypothesis =>
      intro labels first second same
      rw [blockAt_bindPresent, blockAt_bindPresent, ← groupedBlocks_eq_of_sameNames same]
      cases descends : (groupedBlocks block.body.blocks first.nested).find? fun child =>
          child.span.contains position with
      | none => exact .none
      | some child =>
          obtain ⟨member, declared, other, found, foundOther, sameBelow⟩ :=
            exists_declared_of_grouped same (List.mem_of_find?_eq_some descends)
          rw [Option.bind_some, Option.bind_some, found, foundOther]
          apply Option.Rel.some
          apply rel_getD
          · exact bindPresent_sameContents sameBelow child child.labels
          · exact inductionHypothesis child member child.labels sameBelow

namespace BoundBlock.SameContents

variable {first second : BoundBlock}

theorem attributes (same : first.SameContents second) :
    first.attributes = second.attributes := by
  have known := congrArg (List.map Prod.snd) same.knownAttributes
  rw [List.map_map, List.map_map] at known
  unfold BoundBlock.attributes NamedList.values
  rw [same.unknownAttributes, List.map_map, List.map_map]
  exact congrArg (· ++ _) known

theorem inBody (same : first.SameContents second) (position : Position) :
    first.inBody position = second.inBody position := by
  unfold BoundBlock.inBody
  rw [same.source]

theorem labelAt (same : first.SameContents second) (position : Position) :
    first.labelAt position = second.labelAt position := by
  unfold BoundBlock.labelAt BoundBlock.isPresent
  rw [same.source, same.labels]

theorem attributeAt (same : first.SameContents second) (position : Position) :
    first.attributeAt position = second.attributeAt position := by
  unfold BoundBlock.attributeAt
  rw [same.attributes]

end BoundBlock.SameContents

/-- Schemas that declare the same names bind a block to the same contents at every place,
give the same diagnostics, and answer alike what stands under a cursor. -/
theorem bindBlock_namesOnly {first second : BlockSchema} (same : first.SameNames second)
    (block : Block) (labels : List Label) :
    (∀ place, Option.Rel BoundBlock.SameContents
        ((bindBlock (some block) labels (some first)).at? place)
        ((bindBlock (some block) labels (some second)).at? place)) ∧
      (∀ options, (bindBlock (some block) labels (some first)).diagnostics options
        = (bindBlock (some block) labels (some second)).diagnostics options) ∧
      ∀ position,
        (bindBlock (some block) labels (some first)).inBody position
            = (bindBlock (some block) labels (some second)).inBody position ∧
          (bindBlock (some block) labels (some first)).labelAt position
            = (bindBlock (some block) labels (some second)).labelAt position ∧
          (bindBlock (some block) labels (some first)).attributeAt position
            = (bindBlock (some block) labels (some second)).attributeAt position ∧
          Option.Rel BoundBlock.SameContents
            ((bindBlock (some block) labels (some first)).blockAt position)
            ((bindBlock (some block) labels (some second)).blockAt position) := by
  have contents :
      (bindPresent block labels first).SameContents (bindPresent block labels second) :=
    bindPresent_sameContents same block labels
  refine ⟨at?_sameContents same block labels, ?_, ?_⟩
  · intro options
    apply congrArg Diagnostic.inOrder
    show (bindPresent block labels first).findings options
      = (bindPresent block labels second).findings options
    rw [findings_bindPresent, findings_bindPresent, walk_eq_of_sameNames options block same]
  · intro position
    exact ⟨contents.inBody position, contents.labelAt position, contents.attributeAt position,
      blockAt_sameContents position block labels same⟩

/-! ## A network declared twice -/

/-- A network with a link whose speed is declared, and with routes that do not occur. -/
def plainNetworkSchema : BlockSchema :=
  let link : NestedSchema :=
    { typeName := "link"
      nesting := .list
      block :=
        { attributes := { entries := [("up", { name := "up", typeText := some "bool" })] } } }
  let route : NestedSchema := { typeName := "route", nesting := .list, block := {} }
  { nested := ⟨[("link", link), ("route", route)]⟩ }

/-- The same names in another order, where a network may have one link and no more, and
where everything else is said differently too. -/
def strictNetworkSchema : BlockSchema :=
  let link : NestedSchema :=
    { typeName := "uplink"
      nesting := .single
      block :=
        { attributes :=
            { entries := [("up", { name := "state", required := true, deprecated := true })] } }
      minItems := some 1
      maxItems := some 1 }
  let route : NestedSchema := { typeName := "route", nesting := .set, block := {} }
  { nested := ⟨[("route", route), ("link", link)]⟩
    description := some "a network with its uplink"
    deprecated := true }

theorem plainNetworkSchema_sameNames : plainNetworkSchema.SameNames strictNetworkSchema := by
  refine .intro (by simp [plainNetworkSchema, strictNetworkSchema]) ?_ ?_
  · intro typeName
    simp [plainNetworkSchema, strictNetworkSchema, NamedList.names, or_comm]
  · intro typeName declared other found foundOther
    rcases List.mem_cons.1 (NamedList.mem_entries_of_find? found) with same | later
    · cases same
      cases foundOther
      refine .intro (by simp [NamedList.names]) (by simp) ?_
      intro typeName declared other none
      cases none
    · cases List.mem_singleton.1 later
      cases foundOther
      refine .intro (by simp) (by simp) ?_
      intro typeName declared other none
      cases none

/-- Two links in a network that is to have one: no diagnostic tells of it, and the cursor
at the second link finds it. -/
theorem networkLine_namesOnly :
    plainNetworkSchema.SameNames strictNetworkSchema ∧
      (bindBlock (some networkLine) [] (some plainNetworkSchema)).diagnostics {}
        = (bindBlock (some networkLine) [] (some strictNetworkSchema)).diagnostics {} ∧
      Option.Rel BoundBlock.SameContents
        ((bindBlock (some networkLine) [] (some plainNetworkSchema)).blockAt
          (lineSpan 21 22).start)
        ((bindBlock (some networkLine) [] (some strictNetworkSchema)).blockAt
          (lineSpan 21 22).start) :=
  have observed := bindBlock_namesOnly plainNetworkSchema_sameNames networkLine []
  ⟨plainNetworkSchema_sameNames, observed.2.1 {},
    (observed.2.2 (lineSpan 21 22).start).2.2.2⟩

end SchemaBinding
