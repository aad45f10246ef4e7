import Mathlib.Data.List.Basic
import Mathlib.Data.List.Induction
import SchemaBinding.Binding.Basic
import SchemaBinding.Proofs.NamedList.Repetition

/-!
Contract: what grouping by type makes of the declared blocks of a body.

Owns:
- `declaredBlocks` and `blocksOfType`, the blocks that groups hold;
- the names of `knownBlocks`: the declared types that occur, first occurrence
  first;
- the group of a type: the bound blocks of that type, in source order; and
- `groupedBlocks_perm`, by which grouping only reorders the declared blocks.

Does not own: what stands inside a bound block.

Grouping files one block after another, so the facts about `groupByType` are
proved by appending a block.
-/

set_option autoImplicit false

namespace SchemaBinding

/-- The blocks of declared types, in source order. -/
def declaredBlocks (blocks : List Block) (declared : NamedList NestedSchema) :
    List Block :=
  blocks.filter fun block => declared.contains block.typeName

/-- The blocks of one type, in source order. -/
def blocksOfType (blocks : List Block) (typeName : String) : List Block :=
  blocks.filter fun block => block.typeName == typeName

/-- The blocks of declared types, type by type in order of first occurrence, and in
source order within a type. -/
def groupedBlocks (blocks : List Block) (declared : NamedList NestedSchema) :
    List Block :=
  ((declaredBlocks blocks declared).map Block.typeName).eraseDups.flatMap
    (blocksOfType blocks)

/-- A nested block bound with its own labels, as a member of its group. -/
def bindNested (nested : NestedSchema) (block : Block) : BoundBlock :=
  bindPresent block block.labels nested.block

/-! ## Filing one block after another -/

theorem groupByType_append (earlier : List Declared) (last : Declared) :
    groupByType (earlier ++ [last]) = fileDeclared (groupByType earlier) last := by
  rw [groupByType, List.foldl_append]
  rfl

theorem names_fileDeclared (groups : NamedList BoundGroup) (declared : Declared) :
    (fileDeclared groups declared).names
      = if declared.typeName ∈ groups.names then groups.names
        else groups.names ++ [declared.typeName] := by
  unfold fileDeclared
  split <;> exact groups.names_insert _ _

theorem Distinct_fileDeclared {groups : NamedList BoundGroup} (distinct : groups.Distinct)
    (declared : Declared) : (fileDeclared groups declared).Distinct := by
  unfold fileDeclared
  split <;> exact distinct.insert _ _

/-- The group that a block is filed into. -/
theorem find?_fileDeclared_self (groups : NamedList BoundGroup) (declared : Declared) :
    (fileDeclared groups declared).find? declared.typeName
      = some
          (match groups.find? declared.typeName with
          | some group => { group with blocks := group.blocks ++ [declared.block] }
          | none => { schema := declared.schema, blocks := [declared.block] }) := by
  unfold fileDeclared
  cases groups.find? declared.typeName with
  | some group => exact groups.find?_insert_self _ _
  | none => exact groups.find?_insert_self _ _

theorem find?_fileDeclared_of_ne (groups : NamedList BoundGroup) (declared : Declared)
    {other : String} (apart : other ≠ declared.typeName) :
    (fileDeclared groups declared).find? other = groups.find? other := by
  unfold fileDeclared
  split <;> exact groups.find?_insert_of_ne _ apart

/-! ## The groups of a sequence of blocks -/

theorem groupByType_distinct (declared : List Declared) :
    (groupByType declared).Distinct := by
  induction declared using List.reverseRecOn with
  | nil => exact List.nodup_nil
  | append_singleton earlier last inductionHypothesis =>
      rw [groupByType_append]
      exact Distinct_fileDeclared inductionHypothesis last

/-- Types stand in order of first occurrence. -/
theorem names_groupByType (declared : List Declared) :
    (groupByType declared).names = (declared.map Declared.typeName).eraseDups := by
  induction declared using List.reverseRecOn with
  | nil => rfl
  | append_singleton earlier last inductionHypothesis =>
      rw [groupByType_append, names_fileDeclared, inductionHypothesis, List.map_append,
        List.map_singleton, eraseDups_append_singleton]
      simp only [List.mem_eraseDups]

/-- A group takes its schema from the first block of its type and holds all
blocks of that type in the order given. -/
theorem find?_groupByType (declared : List Declared) (typeName : String) :
    (groupByType declared).find? typeName
      = ((declared.filter fun entry => entry.typeName == typeName).head?).map fun first =>
          { schema := first.schema
            blocks :=
              (declared.filter fun entry => entry.typeName == typeName).map
                Declared.block } := by
  induction declared using List.reverseRecOn with
  | nil => rfl
  | append_singleton earlier last inductionHypothesis =>
      rw [groupByType_append, List.filter_append]
      by_cases here : last.typeName = typeName
      · subst here
        rw [find?_fileDeclared_self, inductionHypothesis]
        cases earlier.filter fun entry => entry.typeName == last.typeName with
        | nil => simp
        | cons first rest => simp
      · rw [find?_fileDeclared_of_ne _ _ (Ne.symm here), inductionHypothesis]
        simp [here]

/-! ## The declared blocks of a body -/

theorem bindDeclared_eq_filterMap (blocks : List Block)
    (declared : NamedList NestedSchema) :
    bindDeclared blocks declared
      = blocks.filterMap fun block =>
          (declared.find? block.typeName).map fun nested =>
            { typeName := block.typeName
              schema := nested
              block := bindNested nested block } := by
  induction blocks with
  | nil => rfl
  | cons block rest inductionHypothesis =>
      rw [bindDeclared, inductionHypothesis, List.filterMap_cons]
      cases declared.find? block.typeName with
      | none => rfl
      | some nested => rfl

theorem map_typeName_bindDeclared (blocks : List Block)
    (declared : NamedList NestedSchema) :
    (bindDeclared blocks declared).map Declared.typeName
      = (declaredBlocks blocks declared).map Block.typeName := by
  rw [bindDeclared_eq_filterMap]
  induction blocks with
  | nil => rfl
  | cons block rest inductionHypothesis =>
      rw [declaredBlocks, List.filterMap_cons, List.filter_cons, NamedList.contains]
      cases declared.find? block.typeName with
      | none => exact inductionHypothesis
      | some nested => exact congrArg (block.typeName :: ·) inductionHypothesis

/-- The blocks of one type are bound against one schema, if against any. -/
theorem filter_bindDeclared (blocks : List Block) (declared : NamedList NestedSchema)
    (typeName : String) :
    (bindDeclared blocks declared).filter (fun entry => entry.typeName == typeName)
      = match declared.find? typeName with
        | some nested =>
            (blocksOfType blocks typeName).map fun block =>
              { typeName, schema := nested, block := bindNested nested block }
        | none => [] := by
  rw [bindDeclared_eq_filterMap]
  induction blocks with
  | nil =>
      cases declared.find? typeName with
      | none => rfl
      | some nested => rfl
  | cons block rest inductionHypothesis =>
      rw [List.filterMap_cons, blocksOfType, List.filter_cons, ← blocksOfType]
      by_cases here : block.typeName = typeName
      · subst here
        cases found : declared.find? block.typeName with
        | none => simpa [found] using inductionHypothesis
        | some nested => simpa [found] using inductionHypothesis
      · cases declared.find? block.typeName with
        | none => simpa [here] using inductionHypothesis
        | some nested => simpa [here] using inductionHypothesis

theorem knownBlocks_distinct (blocks : List Block) (declared : NamedList NestedSchema) :
    (knownBlocks blocks declared).Distinct :=
  groupByType_distinct _

/-- The groups of a body: one for each declared type that occurs, in order of
first occurrence. -/
theorem names_knownBlocks (blocks : List Block) (declared : NamedList NestedSchema) :
    (knownBlocks blocks declared).names
      = ((declaredBlocks blocks declared).map Block.typeName).eraseDups := by
  rw [knownBlocks, names_groupByType, map_typeName_bindDeclared]

/-- The group of a type is there when the type is declared and occurs. It has the
schema declared for the type and holds the blocks of the type in source order,
bound. -/
theorem find?_knownBlocks_eq_some_iff {blocks : List Block}
    {declared : NamedList NestedSchema} {typeName : String} {group : BoundGroup} :
    (knownBlocks blocks declared).find? typeName = some group ↔
      declared.find? typeName = some group.schema ∧
        blocksOfType blocks typeName ≠ [] ∧
        group.blocks = (blocksOfType blocks typeName).map (bindNested group.schema) := by
  rw [knownBlocks, find?_groupByType, filter_bindDeclared]
  cases declared.find? typeName with
  | none => simp
  | some nested =>
      cases blocksOfType blocks typeName with
      | nil => simp
      | cons first rest =>
          obtain ⟨schema, bound⟩ := group
          constructor
          · intro found
            cases found
            simp
          · rintro ⟨sameSchema, _, sameBlocks⟩
            cases sameSchema
            simp only at sameBlocks
            simp [sameBlocks, Function.comp_def]

/-- A type that occurs among the declared blocks of a body is declared. -/
theorem exists_of_mem_types {blocks : List Block} {declared : NamedList NestedSchema}
    {typeName : String}
    (occurs : typeName ∈ ((declaredBlocks blocks declared).map Block.typeName).eraseDups) :
    ∃ nested, declared.find? typeName = some nested ∧ blocksOfType blocks typeName ≠ [] := by
  obtain ⟨first, isDeclared, rfl⟩ := List.mem_map.1 (List.mem_eraseDups.1 occurs)
  obtain ⟨member, found⟩ := List.mem_filter.1 isDeclared
  obtain ⟨nested, found⟩ := Option.isSome_iff_exists.1 found
  refine ⟨nested, found, ?_⟩
  exact List.ne_nil_of_mem (List.mem_filter.2 ⟨member, beq_self_eq_true _⟩)

/-- The groups of a body with their types, each told by the schema of its type. -/
theorem knownBlocks_entries (blocks : List Block) (declared : NamedList NestedSchema) :
    (knownBlocks blocks declared).entries
      = (((declaredBlocks blocks declared).map Block.typeName).eraseDups).filterMap
          fun typeName => (declared.find? typeName).map fun nested =>
            (typeName,
              { schema := nested
                blocks := (blocksOfType blocks typeName).map (bindNested nested) }) := by
  rw [(knownBlocks_distinct blocks declared).entries_eq, names_knownBlocks]
  refine List.filterMap_congr fun typeName occurs => ?_
  obtain ⟨nested, found, occurring⟩ := exists_of_mem_types occurs
  have group :
      (knownBlocks blocks declared).find? typeName
        = some
            { schema := nested
              blocks := (blocksOfType blocks typeName).map (bindNested nested) } :=
    find?_knownBlocks_eq_some_iff.2 ⟨found, occurring, rfl⟩
  rw [group, found]
  rfl

/-! ## Group after group -/

/-- Of the declarations nothing counts for the groups but the types that are declared. -/
theorem groupedBlocks_congr {first second : NamedList NestedSchema}
    (same : ∀ typeName, first.contains typeName = second.contains typeName)
    (blocks : List Block) : groupedBlocks blocks first = groupedBlocks blocks second := by
  unfold groupedBlocks declaredBlocks
  simp only [same]

theorem mem_groupedBlocks {blocks : List Block} {declared : NamedList NestedSchema}
    {block : Block} :
    block ∈ groupedBlocks blocks declared ↔
      block ∈ blocks ∧ declared.contains block.typeName = true := by
  unfold groupedBlocks
  rw [List.mem_flatMap]
  constructor
  · rintro ⟨typeName, occurs, ofType⟩
    obtain ⟨member, same⟩ := List.mem_filter.1 ofType
    obtain ⟨first, isDeclared, rfl⟩ := List.mem_map.1 (List.mem_eraseDups.1 occurs)
    rw [eq_of_beq same]
    exact ⟨member, (List.mem_filter.1 isDeclared).2⟩
  · rintro ⟨member, isDeclared⟩
    refine ⟨block.typeName, List.mem_eraseDups.2 (List.mem_map_of_mem ?_), ?_⟩
    · exact List.mem_filter.2 ⟨member, isDeclared⟩
    · exact List.mem_filter.2 ⟨member, beq_self_eq_true _⟩

/-- The blocks of some types, type by type, are the blocks of these types. -/
theorem flatMap_blocksOfType_perm (blocks : List Block) {typeNames : List String}
    (distinct : typeNames.Nodup) :
    (typeNames.flatMap (blocksOfType blocks)).Perm
      (blocks.filter fun block => typeNames.contains block.typeName) := by
  induction typeNames with
  | nil => simp
  | cons typeName rest inductionHypothesis =>
      obtain ⟨apart, restDistinct⟩ := List.nodup_cons.1 distinct
      have ofType :
          (blocks.filter fun block => (typeName :: rest).contains block.typeName).filter
              (fun block => block.typeName == typeName)
            = blocksOfType blocks typeName := by
        rw [List.filter_filter, blocksOfType]
        refine List.filter_congr fun block _ => ?_
        simp only [List.contains_cons]
        cases block.typeName == typeName with
        | true => rfl
        | false => rfl
      have ofOthers :
          (blocks.filter fun block => (typeName :: rest).contains block.typeName).filter
              (fun block => !(block.typeName == typeName))
            = blocks.filter fun block => rest.contains block.typeName := by
        rw [List.filter_filter]
        refine List.filter_congr fun block _ => ?_
        simp only [List.contains_cons]
        cases same : block.typeName == typeName with
        | true => simp [eq_of_beq same, apart]
        | false => rfl
      have split := List.filter_append_perm (fun block => block.typeName == typeName)
        (blocks.filter fun block => (typeName :: rest).contains block.typeName)
      rw [ofType, ofOthers] at split
      rw [List.flatMap_cons]
      exact ((inductionHypothesis restDistinct).append_left _).trans split

/-- Grouping only changes the order of the declared blocks. -/
theorem groupedBlocks_perm (blocks : List Block) (declared : NamedList NestedSchema) :
    (groupedBlocks blocks declared).Perm (declaredBlocks blocks declared) := by
  have distinct : ((declaredBlocks blocks declared).map Block.typeName).eraseDups.Nodup := by
    rw [← names_knownBlocks]
    exact knownBlocks_distinct blocks declared
  have sameTypes :
      (blocks.filter fun block =>
          ((declaredBlocks blocks declared).map Block.typeName).eraseDups.contains
            block.typeName)
        = declaredBlocks blocks declared := by
    refine List.filter_congr fun block member => ?_
    rw [Bool.eq_iff_iff, List.contains_iff_mem, List.mem_eraseDups, List.mem_map]
    constructor
    · rintro ⟨first, isDeclared, same⟩
      rw [← same]
      exact (List.mem_filter.1 isDeclared).2
    · intro isDeclared
      exact ⟨block, List.mem_filter.2 ⟨member, isDeclared⟩, rfl⟩
  have grouped := flatMap_blocksOfType_perm blocks distinct
  rw [sameTypes] at grouped
  exact grouped

theorem flatMap_filterMap {α β γ : Type} (find : α → Option β) (parts : β → List γ)
    (keys : List α) :
    (keys.filterMap find).flatMap parts
      = keys.flatMap fun key => ((find key).map parts).getD [] := by
  induction keys with
  | nil => rfl
  | cons key rest inductionHypothesis =>
      rw [List.filterMap_cons, List.flatMap_cons, ← inductionHypothesis]
      cases find key with
      | none => rfl
      | some found => exact List.flatMap_cons

/-- The nested blocks of a bound block are the grouped blocks of its source, each
bound against the schema of its type. -/
theorem nestedBlocks_bindPresent (block : Block) (labels : List Label)
    (schema : BlockSchema) :
    (bindPresent block labels schema).nestedBlocks
      = (groupedBlocks block.body.blocks schema.nested).filterMap fun child =>
          (schema.nested.find? child.typeName).map fun nested =>
            bindNested nested child := by
  rw [BoundBlock.nestedBlocks, bindPresent_knownBlocks, NamedList.values,
    knownBlocks_entries, List.map_filterMap, groupedBlocks, List.filterMap_flatMap,
    flatMap_filterMap]
  refine List.flatMap_congr fun typeName occurs => ?_
  obtain ⟨nested, found, _⟩ := exists_of_mem_types occurs
  -- Within the group all blocks have one type, and so the schema found for it.
  rw [found, Option.map_some, Option.map_some, Option.map_some, Option.getD_some,
    ← List.filterMap_eq_map]
  refine List.filterMap_congr fun child ofType => ?_
  rw [eq_of_beq (List.mem_filter.1 ofType).2, found]
  rfl

end SchemaBinding
