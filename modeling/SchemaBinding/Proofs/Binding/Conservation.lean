import Mathlib.Data.List.Perm.Basic
import SchemaBinding.Proofs.Binding.Occurrences

/-!
Contract: binding neither loses nor doubles a block, at any depth.

Owns:
- `Block.IsBound`, `Block.IsListed` and `Block.IsHidden`, the three cases of a block
  below the one that is bound;
- `BoundBlock.descendants` and `BoundBlock.listed`, all that a bound tree holds;
- `Block.Conserved`, what becomes of all blocks below one; and
- `bindBlock_conserves`, which says so of every block.

Does not own: which slot holds which block. That is `Block.slot?`.
-/

set_option autoImplicit false

namespace SchemaBinding

/-! ## What becomes of a block -/

namespace Block

variable (block : Block) (labels : List Label) (schema : BlockSchema) (path : List Nat)

/-- Some bound block has the block at the path for its source. -/
def IsBound : Prop :=
  ∃ place, (Slot.bound place).Holds block labels schema path

/-- The block at the path is among the undeclared blocks of some bound block. -/
def IsListed : Prop :=
  ∃ owner index, (Slot.listed owner index).Holds block labels schema path

/-- The block at the path stands inside a listed one. -/
def IsHidden : Prop :=
  ∃ outer inner, path = outer ++ inner ∧ inner ≠ [] ∧ block.IsListed labels schema outer

end Block

/-! ## Along a path -/

section

variable {block : Block} {schema : BlockSchema} {path : List Nat}

theorem reached?_of_declared {child : Block} {index : Nat} {deeper : List Nat}
    {nested : NestedSchema} (here : block.body.blocks[index]? = some child)
    (declared : schema.nested.find? child.typeName = some nested) :
    schema.reached? block (index :: deeper) = nested.block.reached? child deeper := by
  rw [BlockSchema.reached?, here, Option.bind_some, declared, Option.bind_some]

theorem reached?_cons_eq_some_iff {index : Nat} {deeper : List Nat} {declared : BlockSchema} :
    schema.reached? block (index :: deeper) = some declared ↔
      ∃ child nested, block.body.blocks[index]? = some child ∧
        schema.nested.find? child.typeName = some nested ∧
          nested.block.reached? child deeper = some declared := by
  rw [BlockSchema.reached?, Option.bind_eq_some_iff]
  constructor
  · rintro ⟨child, here, below⟩
    obtain ⟨nested, found, reached⟩ := Option.bind_eq_some_iff.1 below
    exact ⟨child, nested, here, found, reached⟩
  · rintro ⟨child, nested, here, found, reached⟩
    exact ⟨child, here, Option.bind_eq_some_iff.2 ⟨nested, found, reached⟩⟩

/-- What stands in a bound slot is bound with its own labels against the schema that the
path leads to. -/
theorem at?_of_slot?_bound {place : List Selection}
    (assigned : block.slot? schema path = some (.bound place)) :
    ∃ source declared, block.at? path = some source ∧
      schema.reached? block path = some declared ∧
        (bindPresent block block.labels schema).at? place
          = some (bindPresent source source.labels declared) := by
  induction path generalizing block schema place with
  | nil =>
      cases assigned
      exact ⟨block, schema, rfl, rfl, rfl⟩
  | cons index deeper inductionHypothesis =>
      rcases Block.slot?_cons_eq_some_iff.1 assigned with ⟨child, here, declared | undeclared⟩
      · obtain ⟨nested, inner, found, innerAssigned, below⟩ := declared
        cases inner with
        | listed owner rank => cases below
        | bound innerPlace =>
            cases below
            obtain ⟨source, declared, atPath, reached, bound⟩ :=
              inductionHypothesis innerAssigned
            refine ⟨source, declared, ?_, ?_, ?_⟩
            · exact Block.at?_cons_eq_some_iff.2 ⟨child, here, atPath⟩
            · rw [reached?_of_declared here found]
              exact reached
            · exact BoundBlock.at?_cons_eq_some_iff.2 ⟨_, child?_selectionOf here found, bound⟩
      · cases undeclared.2.2

/-- Where a schema is reached the block is bound. -/
theorem exists_slot?_bound {declared : BlockSchema}
    (reached : schema.reached? block path = some declared) :
    ∃ place, block.slot? schema path = some (.bound place) := by
  induction path generalizing block schema with
  | nil => exact ⟨[], rfl⟩
  | cons index deeper inductionHypothesis =>
      obtain ⟨child, nested, here, found, below⟩ := reached?_cons_eq_some_iff.1 reached
      obtain ⟨place, assigned⟩ := inductionHypothesis below
      refine ⟨block.selectionOf index child :: place, ?_⟩
      rw [Block.slot?_of_declared here found, assigned]
      rfl

/-- What stands in a listed slot is the first undeclared block of its path, and its owner
is bound from the parent. -/
theorem parent_of_slot?_listed {owner : List Selection} {rank : Nat}
    (assigned : block.slot? schema path = some (.listed owner rank)) :
    ∃ parent last declared source, path = parent ++ [last] ∧
      block.slot? schema parent = some (.bound owner) ∧
        schema.reached? block parent = some declared ∧ block.at? path = some source ∧
          declared.nested.find? source.typeName = none := by
  induction path generalizing block schema owner with
  | nil => cases assigned
  | cons index deeper inductionHypothesis =>
      rcases Block.slot?_cons_eq_some_iff.1 assigned with ⟨child, here, declared | undeclared⟩
      · obtain ⟨nested, inner, found, innerAssigned, below⟩ := declared
        cases inner with
        | bound place => cases below
        | listed innerOwner innerRank =>
            cases below
            obtain ⟨parent, last, declared, source, rfl, owned, reached, atPath, missing⟩ :=
              inductionHypothesis innerAssigned
            refine ⟨index :: parent, last, declared, source, rfl, ?_, ?_, ?_, missing⟩
            · rw [Block.slot?_of_declared here found, owned]
              rfl
            · rw [reached?_of_declared here found]
              exact reached
            · exact Block.at?_cons_eq_some_iff.2 ⟨child, here, atPath⟩
      · obtain ⟨missing, rfl, slotEq⟩ := undeclared
        cases slotEq
        refine ⟨[], index, schema, child, rfl, rfl, rfl, ?_, missing⟩
        rw [Block.at?_singleton]
        exact here

/-- The first undeclared block of a path is listed. -/
theorem exists_slot?_listed {parent : List Nat} {last : Nat} {declared : BlockSchema}
    {source : Block} (reached : schema.reached? block parent = some declared)
    (atPath : block.at? (parent ++ [last]) = some source)
    (undeclared : declared.nested.find? source.typeName = none) :
    ∃ owner rank, block.slot? schema (parent ++ [last]) = some (.listed owner rank) := by
  induction parent generalizing block schema with
  | nil =>
      have sameSchema : schema = declared := Option.some.inj reached
      rw [← sameSchema] at undeclared
      rw [List.nil_append, Block.at?_singleton] at atPath
      refine ⟨[], block.listingOf schema last, ?_⟩
      rw [List.nil_append, Block.slot?_of_undeclared atPath undeclared, if_pos rfl]
  | cons index deeper inductionHypothesis =>
      obtain ⟨child, nested, here, found, below⟩ := reached?_cons_eq_some_iff.1 reached
      obtain ⟨other, there, deeperPath⟩ := Block.at?_cons_eq_some_iff.1 atPath
      have sameChild : other = child := Option.some.inj (there.symm.trans here)
      rw [sameChild] at deeperPath
      obtain ⟨owner, rank, assigned⟩ := inductionHypothesis below deeperPath
      refine ⟨block.selectionOf index child :: owner, rank, ?_⟩
      rw [List.cons_append, Block.slot?_of_declared here found, assigned]
      rfl

/-- A block without a slot stands inside a listed one. -/
theorem exists_listed_of_no_slot {source : Block} (atPath : block.at? path = some source)
    (unassigned : block.slot? schema path = none) :
    ∃ outer inner owner rank, path = outer ++ inner ∧ inner ≠ [] ∧
      block.slot? schema outer = some (.listed owner rank) := by
  induction path generalizing block schema with
  | nil => cases unassigned
  | cons index deeper inductionHypothesis =>
      obtain ⟨child, here, below⟩ := Block.at?_cons_eq_some_iff.1 atPath
      cases found : schema.nested.find? child.typeName with
      | none =>
          have inside : deeper ≠ [] := by
            intro atChild
            rw [Block.slot?_of_undeclared here found, if_pos atChild] at unassigned
            cases unassigned
          refine ⟨[index], deeper, [], block.listingOf schema index, rfl, inside, ?_⟩
          rw [Block.slot?_of_undeclared here found, if_pos rfl]
      | some nested =>
          rw [Block.slot?_of_declared here found, Option.map_eq_none_iff] at unassigned
          obtain ⟨outer, inner, owner, rank, rfl, inside, listed⟩ :=
            inductionHypothesis below unassigned
          refine ⟨index :: outer, inner, block.selectionOf index child :: owner, rank, rfl,
            inside, ?_⟩
          rw [Block.slot?_of_declared here found, listed]
          rfl

/-- What stands inside a listed block has no slot. -/
theorem slot?_inside_listed {outer inner : List Nat} {owner : List Selection} {rank : Nat}
    (listed : block.slot? schema outer = some (.listed owner rank)) (inside : inner ≠ []) :
    block.slot? schema (outer ++ inner) = none := by
  induction outer generalizing block schema owner rank with
  | nil => cases listed
  | cons index deeper inductionHypothesis =>
      rcases Block.slot?_cons_eq_some_iff.1 listed with ⟨child, here, declared | undeclared⟩
      · obtain ⟨nested, below, found, belowAssigned, slotEq⟩ := declared
        cases below with
        | bound place => cases slotEq
        | listed belowOwner belowRank =>
            rw [List.cons_append, Block.slot?_of_declared here found,
              inductionHypothesis belowAssigned]
            rfl
      · obtain ⟨missing, rfl, _⟩ := undeclared
        rw [List.cons_append, List.nil_append, Block.slot?_of_undeclared here missing,
          if_neg inside]

end

/-! ## All that a bound tree holds -/

mutual

/-- The bound blocks below a bound block at any depth. -/
def BoundBlock.descendants : BoundBlock → List BoundBlock
  | ⟨_, _, _, _, _, ⟨groups⟩, _⟩ => BoundGroup.descendants groups

/-- The bound blocks of groups at any depth. -/
def BoundGroup.descendants : List (String × BoundGroup) → List BoundBlock
  | [] => []
  | (_, ⟨_, blocks⟩) :: rest =>
      BoundBlock.withDescendants blocks ++ BoundGroup.descendants rest

/-- Bound blocks, each with all bound blocks below it. -/
def BoundBlock.withDescendants : List BoundBlock → List BoundBlock
  | [] => []
  | bound :: rest => bound :: bound.descendants ++ BoundBlock.withDescendants rest

end

namespace BoundBlock

/-- The undeclared blocks of a bound block and of all bound blocks below it. -/
def listed (bound : BoundBlock) : List Block :=
  (bound :: bound.descendants).flatMap unknownBlocks

/-- All blocks of the source that a bound tree accounts for: the sources of the bound
blocks below the root, the listed blocks, and what stands inside the listed ones. -/
def accounted (bound : BoundBlock) : List Block :=
  bound.descendants.filterMap source
    ++ (bound.listed ++ bound.listed.flatMap Block.descendants)

theorem withDescendants_eq (blocks : List BoundBlock) :
    withDescendants blocks = blocks.flatMap fun bound => bound :: bound.descendants := by
  induction blocks with
  | nil => rfl
  | cons bound rest inductionHypothesis =>
      rw [withDescendants, inductionHypothesis, List.flatMap_cons]

theorem groupDescendants_eq (groups : List (String × BoundGroup)) :
    BoundGroup.descendants groups
      = ((groups.map Prod.snd).flatMap BoundGroup.blocks).flatMap fun bound =>
          bound :: bound.descendants := by
  induction groups with
  | nil => rfl
  | cons entry rest inductionHypothesis =>
      obtain ⟨_, _, blocks⟩ := entry
      rw [BoundGroup.descendants, inductionHypothesis, withDescendants_eq, List.map_cons,
        List.flatMap_cons, List.flatMap_append]

theorem descendants_eq (bound : BoundBlock) :
    bound.descendants = bound.nestedBlocks.flatMap fun inner => inner :: inner.descendants := by
  obtain ⟨_, _, _, _, _, ⟨groups⟩, _⟩ := bound
  rw [descendants, groupDescendants_eq]
  rfl

theorem listed_eq (bound : BoundBlock) :
    bound.listed = bound.unknownBlocks ++ bound.nestedBlocks.flatMap listed := by
  rw [listed, List.flatMap_cons, descendants_eq, List.flatMap_assoc]
  rfl

theorem descendants_sources_eq (bound : BoundBlock) :
    bound.descendants.filterMap source
      = bound.nestedBlocks.flatMap fun inner =>
          inner.source.toList ++ inner.descendants.filterMap source := by
  rw [descendants_eq, List.filterMap_flatMap]
  refine List.flatMap_congr fun inner _ => ?_
  rw [List.filterMap_cons]
  cases inner.source with
  | none => rfl
  | some block => rfl

/-- A bound block accounts for what the bound blocks in it do, for these themselves, and
for its undeclared blocks with all that stands in them. -/
theorem accounted_perm (bound : BoundBlock) :
    bound.accounted.Perm
      ((bound.nestedBlocks.flatMap fun inner => inner.source.toList ++ inner.accounted)
        ++ bound.unknownBlocks.flatMap fun child => child :: child.descendants) := by
  let sources := bound.nestedBlocks.flatMap fun inner =>
    inner.source.toList ++ inner.descendants.filterMap source
  let below := bound.nestedBlocks.flatMap listed
  let hiddenBelow := bound.nestedBlocks.flatMap fun inner =>
    inner.listed.flatMap Block.descendants
  let here := bound.unknownBlocks
  let hiddenHere := bound.unknownBlocks.flatMap Block.descendants
  have levels :
      bound.accounted = sources ++ (here ++ below ++ (hiddenHere ++ hiddenBelow)) := by
    rw [accounted, descendants_sources_eq, listed_eq, List.flatMap_append, List.flatMap_assoc]
  have nested : (sources ++ (below ++ hiddenBelow)).Perm
      (bound.nestedBlocks.flatMap fun inner => inner.source.toList ++ inner.accounted) := by
    have joined := (List.flatMap_append_perm bound.nestedBlocks listed fun inner =>
      inner.listed.flatMap Block.descendants).append_left sources
    refine (joined.trans (List.flatMap_append_perm _ _ _)).trans (.of_eq ?_)
    refine List.flatMap_congr fun inner _ => ?_
    rw [accounted, List.append_assoc]
  have undeclared : (here ++ hiddenHere).Perm
      (bound.unknownBlocks.flatMap fun child => child :: child.descendants) := by
    have joined := List.map_append_flatMap_perm bound.unknownBlocks id Block.descendants
    rw [List.map_id] at joined
    exact joined
  calc bound.accounted
      = sources ++ (here ++ (below ++ (hiddenHere ++ hiddenBelow))) := by
        rw [levels, List.append_assoc here]
    List.Perm _ (sources ++ (here ++ (hiddenHere ++ (below ++ hiddenBelow)))) :=
        ((List.perm_append_comm_assoc _ _ _).append_left here).append_left sources
    _ = sources ++ (here ++ hiddenHere ++ (below ++ hiddenBelow)) := by
        rw [List.append_assoc here]
    List.Perm _ (sources ++ (below ++ hiddenBelow ++ (here ++ hiddenHere))) :=
        List.perm_append_comm.append_left sources
    _ = sources ++ (below ++ hiddenBelow) ++ (here ++ hiddenHere) :=
        (List.append_assoc _ _ _).symm
    List.Perm _ _ := nested.append undeclared

end BoundBlock

/-- A bound tree accounts for all blocks below the one that is bound, each as often as it
occurs. -/
theorem accounted_bindPresent_perm (block : Block) (labels : List Label)
    (schema : BlockSchema) :
    (bindPresent block labels schema).accounted.Perm block.descendants := by
  induction block using Block.inductionOn generalizing labels schema with
  | step block inductionHypothesis =>
      let whole : Block → List Block := fun child => child :: child.descendants
      have nested :
          ((bindPresent block labels schema).nestedBlocks.flatMap fun inner =>
              inner.source.toList ++ inner.accounted).Perm
            ((groupedBlocks block.body.blocks schema.nested).flatMap whole) := by
        rw [nestedBlocks_bindPresent, flatMap_filterMap]
        refine .flatMap_left _ fun child grouped => ?_
        obtain ⟨member, declared⟩ := mem_groupedBlocks.1 grouped
        obtain ⟨nested, found⟩ := Option.isSome_iff_exists.1 declared
        rw [found]
        show List.Perm
          ((bindNested nested child).source.toList ++ (bindNested nested child).accounted) _
        rw [bindNested, bindPresent_source]
        exact (inductionHypothesis child member _ _).cons child
      -- Grouping has reordered the declared children, and filtering has split the body.
      have declared := (groupedBlocks_perm block.body.blocks schema.nested).flatMap_right whole
      have split := (List.filter_append_perm
        (fun child => schema.nested.contains child.typeName) block.body.blocks).flatMap_right whole
      rw [List.flatMap_append] at split
      rw [Block.descendants_eq]
      have levels := BoundBlock.accounted_perm (bindPresent block labels schema)
      rw [bindPresent_unknownBlocks] at levels
      exact levels.trans (((nested.trans declared).append_right _).trans split)

theorem exists_source_of_mem_descendants {block : Block} {labels : List Label}
    {schema : BlockSchema} {inner : BoundBlock}
    (member : inner ∈ (bindPresent block labels schema).descendants) :
    inner.source.isSome = true := by
  induction block using Block.inductionOn generalizing labels schema with
  | step block inductionHypothesis =>
      rw [BoundBlock.descendants_eq, List.mem_flatMap] at member
      obtain ⟨outer, nested, below⟩ := member
      obtain ⟨selection, selected⟩ := mem_nestedBlocks_bindPresent_iff.1 nested
      obtain ⟨schemaOfType, child, _, inGroup, rfl⟩ := child?_bindPresent_eq_some_iff.1 selected
      have childMember : child ∈ block.body.blocks :=
        (List.mem_filter.1 (List.mem_of_getElem? inGroup)).1
      rcases List.mem_cons.1 below with rfl | deeper
      · rw [bindNested, bindPresent_source]
        rfl
      · exact inductionHypothesis child childMember deeper

/-! ## The three cases -/

namespace Block

variable {block : Block} {labels : List Label} {schema : BlockSchema} {path : List Nat}

theorem isBound_iff_slot? :
    block.IsBound labels schema path ↔ ∃ place, block.slot? schema path = some (.bound place) :=
  exists_congr fun _ => Slot.holds_iff

theorem isListed_iff_slot? :
    block.IsListed labels schema path ↔
      ∃ owner index, block.slot? schema path = some (.listed owner index) :=
  exists_congr fun _ => exists_congr fun _ => Slot.holds_iff

theorem IsHidden.slot?_eq_none (hidden : block.IsHidden labels schema path) :
    block.slot? schema path = none := by
  obtain ⟨outer, inner, rfl, inside, listed⟩ := hidden
  obtain ⟨owner, index, assigned⟩ := isListed_iff_slot?.1 listed
  exact slot?_inside_listed assigned inside

theorem isHidden_of_no_slot {source : Block} (atPath : block.at? path = some source)
    (unassigned : block.slot? schema path = none) : block.IsHidden labels schema path := by
  obtain ⟨outer, inner, owner, index, split, inside, listed⟩ :=
    exists_listed_of_no_slot atPath unassigned
  exact ⟨outer, inner, split, inside, isListed_iff_slot?.2 ⟨owner, index, listed⟩⟩

/-- The case of a block is told by its slot. -/
theorem one_case {source : Block} (atPath : block.at? path = some source) :
    (block.IsBound labels schema path ∧ ¬ block.IsListed labels schema path ∧
        ¬ block.IsHidden labels schema path) ∨
      (¬ block.IsBound labels schema path ∧ block.IsListed labels schema path ∧
        ¬ block.IsHidden labels schema path) ∨
      (¬ block.IsBound labels schema path ∧ ¬ block.IsListed labels schema path ∧
        block.IsHidden labels schema path) := by
  have visible : ∀ slot, block.slot? schema path = some slot →
      ¬ block.IsHidden labels schema path := by
    intro slot assigned hidden
    rw [hidden.slot?_eq_none] at assigned
    cases assigned
  rw [isBound_iff_slot?, isListed_iff_slot?]
  cases assigned : block.slot? schema path with
  | none =>
      refine .inr (.inr ⟨?_, ?_, isHidden_of_no_slot atPath assigned⟩)
      · rintro ⟨place, ⟨⟩⟩
      · rintro ⟨owner, index, ⟨⟩⟩
  | some slot =>
      cases slot with
      | bound place =>
          refine .inl ⟨⟨place, rfl⟩, ?_, visible _ assigned⟩
          rintro ⟨owner, index, ⟨⟩⟩
      | listed owner index =>
          refine .inr (.inl ⟨?_, ⟨owner, index, rfl⟩, visible _ assigned⟩)
          rintro ⟨place, ⟨⟩⟩

theorem isBound_iff_reached? :
    block.IsBound labels schema path ↔
      ∃ declared, schema.reached? block path = some declared := by
  rw [isBound_iff_slot?]
  constructor
  · rintro ⟨place, assigned⟩
    obtain ⟨source, declared, _, reached, _⟩ := at?_of_slot?_bound assigned
    exact ⟨declared, reached⟩
  · rintro ⟨declared, reached⟩
    exact exists_slot?_bound reached

theorem isListed_iff_first_undeclared :
    block.IsListed labels schema path ↔
      ∃ parent last declared source, path = parent ++ [last] ∧
        schema.reached? block parent = some declared ∧ block.at? path = some source ∧
          declared.nested.contains source.typeName = false := by
  rw [isListed_iff_slot?]
  constructor
  · rintro ⟨owner, index, assigned⟩
    obtain ⟨parent, last, declared, source, split, _, reached, atPath, undeclared⟩ :=
      parent_of_slot?_listed assigned
    exact ⟨parent, last, declared, source, split, reached, atPath,
      NamedList.contains_eq_false_iff.2 undeclared⟩
  · rintro ⟨parent, last, declared, source, rfl, reached, atPath, undeclared⟩
    exact exists_slot?_listed reached atPath (NamedList.contains_eq_false_iff.1 undeclared)

/-- A bound block below the root is bound as its source and the schema reached ask for. -/
theorem at?_of_bound {place : List Selection} (below : path ≠ [])
    (assigned : block.slot? schema path = some (.bound place)) :
    ∃ source declared, block.at? path = some source ∧
      schema.reached? block path = some declared ∧
        (bindPresent block labels schema).at? place
          = some (bindPresent source source.labels declared) := by
  obtain ⟨source, declared, atPath, reached, bound⟩ := at?_of_slot?_bound assigned
  refine ⟨source, declared, atPath, reached, ?_⟩
  cases place with
  | nil =>
      have ofRoot : (Slot.bound []).Holds block labels schema [] := Slot.holds_of_slot? rfl
      exact absurd ((Slot.holds_of_slot? assigned).path_eq ofRoot) below
  | cons selection rest =>
      -- The labels given to the root have no part in what stands below it.
      rw [← bound, BoundBlock.at?, BoundBlock.at?, BoundBlock.child?, BoundBlock.child?,
        bindPresent_knownBlocks, bindPresent_knownBlocks]

end Block

/-! ## Conservation -/

/-- What becomes of the blocks below a block when it is bound. A path stands for the
occurrence of a block, and a slot for a place of the bound tree that holds one. -/
structure Block.Conserved (block : Block) (labels : List Label) (schema : BlockSchema) :
    Prop where
  /-- Each block below is in one of the three cases and in no other. -/
  oneCase : ∀ path source, path ≠ [] → block.at? path = some source →
    (block.IsBound labels schema path ∧ ¬ block.IsListed labels schema path ∧
        ¬ block.IsHidden labels schema path) ∨
      (¬ block.IsBound labels schema path ∧ block.IsListed labels schema path ∧
        ¬ block.IsHidden labels schema path) ∨
      (¬ block.IsBound labels schema path ∧ ¬ block.IsListed labels schema path ∧
        block.IsHidden labels schema path)
  /-- No block is held twice. -/
  slot_unique : ∀ path (first second : Slot), first.Holds block labels schema path →
    second.Holds block labels schema path → first = second
  /-- Every slot that holds anything holds the block at one path. -/
  path_unique : ∀ (slot : Slot) source,
    (bindBlock (some block) labels (some schema)).shown? slot = some source →
      ∃! path, slot.Holds block labels schema path
  /-- Bound is what has only declared types on its path, each by the schema reached. -/
  isBound_iff : ∀ path,
    block.IsBound labels schema path ↔ ∃ declared, schema.reached? block path = some declared
  /-- What is bound is bound with its own labels against the schema reached. -/
  bound_against : ∀ path place, path ≠ [] →
    (Slot.bound place).Holds block labels schema path →
      ∃ source declared, block.at? path = some source ∧
        schema.reached? block path = some declared ∧
          (bindBlock (some block) labels (some schema)).at? place
            = some (bindBlock (some source) source.labels (some declared))
  /-- Listed is what has the first undeclared type on its path. -/
  isListed_iff : ∀ path,
    block.IsListed labels schema path ↔
      ∃ parent last declared source, path = parent ++ [last] ∧
        schema.reached? block parent = some declared ∧ block.at? path = some source ∧
          declared.nested.contains source.typeName = false
  /-- What is listed is listed by its parent. -/
  listed_by : ∀ path owner index, (Slot.listed owner index).Holds block labels schema path →
    ∃ parent last, path = parent ++ [last] ∧
      (Slot.bound owner).Holds block labels schema parent
  /-- What stands inside a listed block is held nowhere. -/
  hidden_nowhere : ∀ path, block.IsHidden labels schema path →
    ∀ slot : Slot, ¬ slot.Holds block labels schema path
  /-- The sources of the bound blocks below the root, the listed blocks and the blocks
  inside listed ones are together the blocks below, each as often as it occurs. -/
  sources :
    ((bindBlock (some block) labels (some schema)).descendants.filterMap BoundBlock.source
      ++ ((bindBlock (some block) labels (some schema)).listed
        ++ (bindBlock (some block) labels (some schema)).listed.flatMap
            Block.descendants)).Perm block.descendants
  count :
    (bindBlock (some block) labels (some schema)).descendants.length
      + (bindBlock (some block) labels (some schema)).listed.length
      + ((bindBlock (some block) labels (some schema)).listed.flatMap Block.descendants).length
    = block.descendants.length

/-- Binding conserves the blocks of every tree, whatever the schema. -/
theorem bindBlock_conserves (block : Block) (labels : List Label) (schema : BlockSchema) :
    block.Conserved labels schema where
  oneCase := by
    intro path source _ atPath
    exact Block.one_case atPath
  slot_unique := by
    intro path first second holdsFirst holdsSecond
    rw [Slot.holds_iff] at holdsFirst holdsSecond
    exact Option.some.inj (holdsFirst.symm.trans holdsSecond)
  path_unique := by
    intro slot source shown
    obtain ⟨path, assigned⟩ := exists_slot?_of_shown? shown
    have holds : slot.Holds block labels schema path := Slot.holds_of_slot? assigned
    exact ⟨path, holds, fun other holdsOther => holdsOther.path_eq holds⟩
  isBound_iff := by
    intro path
    exact Block.isBound_iff_reached?
  bound_against := by
    intro path place below holds
    exact Block.at?_of_bound below (Slot.holds_iff.1 holds)
  isListed_iff := by
    intro path
    exact Block.isListed_iff_first_undeclared
  listed_by := by
    intro path owner index holds
    obtain ⟨parent, last, _, _, split, owned, _⟩ :=
      parent_of_slot?_listed (Slot.holds_iff.1 holds)
    exact ⟨parent, last, split, Slot.holds_of_slot? owned⟩
  hidden_nowhere := by
    intro path hidden slot holds
    have assigned := Slot.holds_iff.1 holds
    rw [hidden.slot?_eq_none] at assigned
    cases assigned
  sources := accounted_bindPresent_perm block labels schema
  count := by
    have sources := (accounted_bindPresent_perm block labels schema).length_eq
    have present :
        ((bindPresent block labels schema).descendants.filterMap BoundBlock.source).length
          = (bindPresent block labels schema).descendants.length :=
      List.filterMap_length_eq_length.2 fun _ => exists_source_of_mem_descendants
    rw [BoundBlock.accounted, List.length_append, List.length_append, present] at sources
    rw [← sources, ← Nat.add_assoc]
    rfl

end SchemaBinding
