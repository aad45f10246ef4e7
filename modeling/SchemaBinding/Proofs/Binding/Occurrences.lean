import SchemaBinding.Proofs.Binding.Places
import SchemaBinding.Proofs.Tree.Paths

/-!
Contract: where a bound tree holds each block of its source.

Owns:
- `Slot`, one slot of a bound tree: the source of a bound block or one of its undeclared
  blocks;
- `Slot.Holds`, by which a slot holds the block at a path, and not just an equal one;
- `BlockSchema.reached?`, the schema that a path leads to; and
- `Block.slot?`, which computes the slot that holds the block at a path.

Does not own: how many slots there are.

Two blocks of one tree may be equal, so that a slot holds the block at a path cannot be
told from the block found in it. Binding looks at nothing but types: in all trees of the
same types a slot is filled from the same path, and this is what `Slot.Holds` asks for.
-/

set_option autoImplicit false

namespace SchemaBinding

/-! ## Slots of a bound tree -/

/-- A slot of a bound tree that holds a block of its source. -/
inductive Slot where
  /-- The source of the bound block at a place. -/
  | bound (place : List Selection)
  /-- One of the undeclared blocks of the bound block at a place. -/
  | listed (owner : List Selection) (index : Nat)
  deriving DecidableEq, Repr

/-- The slot seen from one level further up. -/
def Slot.within (selection : Selection) : Slot → Slot
  | .bound place => .bound (selection :: place)
  | .listed owner index => .listed (selection :: owner) index

/-- The block that a slot holds. -/
def BoundBlock.shown? (root : BoundBlock) : Slot → Option Block
  | .bound place => (root.at? place).bind BoundBlock.source
  | .listed owner index => (root.at? owner).bind fun bound => bound.unknownBlocks[index]?

/-- When a block is bound, the slot is filled with what stands at the path. It is so
in every tree of the same types, and therefore not by an equal block elsewhere. -/
def Slot.Holds (slot : Slot) (block : Block) (labels : List Label)
    (schema : BlockSchema) (path : List Nat) : Prop :=
  ∀ other : Block, other.SameTypes block →
    ∃ source, other.at? path = some source ∧
      (bindBlock (some other) labels (some schema)).shown? slot = some source

theorem BoundBlock.shown?_within (root : BoundBlock) (selection : Selection)
    (slot : Slot) :
    root.shown? (slot.within selection)
      = (root.child? selection).bind fun child => child.shown? slot := by
  cases slot with
  | bound place => exact Option.bind_assoc _ _ _
  | listed owner index => exact Option.bind_assoc _ _ _

/-! ## The schema at the end of a path -/

/-- The schema that a path leads to. There is none when a type on the path is not
declared where it stands. -/
def BlockSchema.reached? (schema : BlockSchema) (block : Block) :
    List Nat → Option BlockSchema
  | [] => some schema
  | index :: deeper =>
      (block.body.blocks[index]?).bind fun child =>
        (schema.nested.find? child.typeName).bind fun nested =>
          nested.block.reached? child deeper

/-! ## The slot for a path -/

namespace Block

/-- The choice of a child among the blocks of its type: it comes after those that stand
before its index. -/
def selectionOf (block : Block) (index : Nat) (child : Block) : Selection :=
  { typeName := child.typeName
    index := (block.body.blocks.take index).countP (·.typeName == child.typeName) }

/-- How many undeclared blocks stand before an index. -/
def listingOf (block : Block) (schema : BlockSchema) (index : Nat) : Nat :=
  (block.body.blocks.take index).countP fun child => !schema.nested.contains child.typeName

/-- The slot for the block at a path. There is none for what stands inside an undeclared
block. -/
def slot? (block : Block) (schema : BlockSchema) : List Nat → Option Slot
  | [] => some (.bound [])
  | index :: deeper =>
      (block.body.blocks[index]?).bind fun child =>
        match schema.nested.find? child.typeName with
        | some nested =>
            (child.slot? nested.block deeper).map (Slot.within (block.selectionOf index child))
        | none => if deeper = [] then some (.listed [] (block.listingOf schema index)) else none

section

variable {block child : Block} {schema : BlockSchema} {index : Nat} {deeper : List Nat}

/-- The slot for a path of one step and more: one level below the slot in the child when
the type of the child is declared, and otherwise in the list of undeclared blocks. -/
theorem slot?_cons_eq_some_iff {slot : Slot} :
    block.slot? schema (index :: deeper) = some slot ↔
      ∃ child, block.body.blocks[index]? = some child ∧
        ((∃ nested inner, schema.nested.find? child.typeName = some nested ∧
            child.slot? nested.block deeper = some inner ∧
            slot = inner.within (block.selectionOf index child)) ∨
          (schema.nested.find? child.typeName = none ∧ deeper = [] ∧
            slot = .listed [] (block.listingOf schema index))) := by
  rw [slot?, Option.bind_eq_some_iff]
  refine exists_congr fun child => and_congr_right fun _ => ?_
  cases schema.nested.find? child.typeName with
  | some nested => simp [Option.map_eq_some_iff, @eq_comm _ slot]
  | none =>
      cases deeper with
      | nil => simp [@eq_comm _ slot]
      | cons next rest => simp

theorem slot?_of_declared {nested : NestedSchema}
    (here : block.body.blocks[index]? = some child)
    (declared : schema.nested.find? child.typeName = some nested) :
    block.slot? schema (index :: deeper)
      = (child.slot? nested.block deeper).map (Slot.within (block.selectionOf index child)) := by
  rw [slot?, here, Option.bind_some, declared]

theorem slot?_of_undeclared (here : block.body.blocks[index]? = some child)
    (undeclared : schema.nested.find? child.typeName = none) :
    block.slot? schema (index :: deeper)
      = if deeper = [] then some (.listed [] (block.listingOf schema index)) else none := by
  rw [slot?, here, Option.bind_some, undeclared]

end

end Block

/-! ## Indices before and after filtering -/

section

variable {α : Type} {keep : α → Bool}

/-- What is kept moves to the index that counts what is kept before it. -/
theorem getElem?_filter_countP {items : List α} {index : Nat} {item : α}
    (here : items[index]? = some item) (kept : keep item = true) :
    (items.filter keep)[(items.take index).countP keep]? = some item := by
  induction items generalizing index with
  | nil => cases here
  | cons first rest inductionHypothesis =>
      cases index with
      | zero =>
          cases here
          rw [List.filter_cons_of_pos kept]
          rfl
      | succ before =>
          have later := inductionHypothesis here
          by_cases firstKept : keep first = true
          · rw [List.filter_cons_of_pos firstKept, List.take_succ_cons,
              List.countP_cons_of_pos firstKept]
            exact later
          · rw [List.filter_cons_of_neg firstKept, List.take_succ_cons,
              List.countP_cons_of_neg firstKept]
            exact later

/-- Whatever is found after filtering has come from somewhere. -/
theorem exists_getElem?_of_filter {items : List α} {rank : Nat} {item : α}
    (here : (items.filter keep)[rank]? = some item) :
    ∃ index, items[index]? = some item ∧ (items.take index).countP keep = rank := by
  induction items generalizing rank with
  | nil => cases here
  | cons first rest inductionHypothesis =>
      by_cases firstKept : keep first = true
      · rw [List.filter_cons_of_pos firstKept] at here
        cases rank with
        | zero =>
            cases here
            exact ⟨0, rfl, rfl⟩
        | succ before =>
            obtain ⟨index, found, counted⟩ := inductionHypothesis here
            refine ⟨index + 1, found, ?_⟩
            rw [List.take_succ_cons, List.countP_cons_of_pos firstKept, counted]
      · rw [List.filter_cons_of_neg firstKept] at here
        obtain ⟨index, found, counted⟩ := inductionHypothesis here
        refine ⟨index + 1, found, ?_⟩
        rw [List.take_succ_cons, List.countP_cons_of_neg firstKept, counted]

end

/-! ## What selections and listings lead to -/

section

variable {block child : Block} {labels : List Label} {schema : BlockSchema} {index : Nat}

/-- A child of declared type is the one selected. -/
theorem child?_selectionOf {nested : NestedSchema}
    (here : block.body.blocks[index]? = some child)
    (declared : schema.nested.find? child.typeName = some nested) :
    (bindPresent block labels schema).child? (block.selectionOf index child)
      = some (bindNested nested child) := by
  refine child?_bindPresent_eq_some_iff.2 ⟨nested, child, declared, ?_, rfl⟩
  exact getElem?_filter_countP here (beq_self_eq_true child.typeName)

/-- A child of undeclared type is the one listed. -/
theorem unknownBlocks_listingOf (here : block.body.blocks[index]? = some child)
    (undeclared : schema.nested.find? child.typeName = none) :
    (bindPresent block labels schema).unknownBlocks[block.listingOf schema index]?
      = some child := by
  rw [bindPresent_unknownBlocks]
  refine getElem?_filter_countP here ?_
  rw [NamedList.contains_eq_false_iff.2 undeclared]
  rfl

end

/-! ## The slot for a path is filled from it -/

section

variable {block source : Block} {labels : List Label} {schema : BlockSchema}

/-- The slot for a path shows the block at the path. -/
theorem shown?_of_slot? {path : List Nat} {slot : Slot}
    (assigned : block.slot? schema path = some slot) :
    ∃ source, block.at? path = some source ∧
      (bindPresent block labels schema).shown? slot = some source := by
  induction path generalizing block labels schema slot with
  | nil =>
      cases assigned
      exact ⟨block, rfl, bindPresent_source block labels schema⟩
  | cons index deeper inductionHypothesis =>
      obtain ⟨child, here, declared | undeclared⟩ := Block.slot?_cons_eq_some_iff.1 assigned
      · obtain ⟨nested, inner, found, innerAssigned, rfl⟩ := declared
        obtain ⟨source, below, shown⟩ :
            ∃ source, child.at? deeper = some source ∧
              (bindNested nested child).shown? inner = some source :=
          inductionHypothesis innerAssigned
        refine ⟨source, Block.at?_cons_eq_some_iff.2 ⟨child, here, below⟩, ?_⟩
        rw [BoundBlock.shown?_within, child?_selectionOf here found]
        exact shown
      · obtain ⟨missing, rfl, rfl⟩ := undeclared
        refine ⟨child, Block.at?_cons_eq_some_iff.2 ⟨child, here, rfl⟩, ?_⟩
        exact unknownBlocks_listingOf here missing

/-- A slot below a selection shows a block of the child selected. -/
theorem exists_slot?_within {selection : Selection} {inner : Slot}
    (shown : (bindPresent block labels schema).shown? (inner.within selection) = some source)
    (below : ∀ nested child, (bindNested nested child).shown? inner = some source →
      ∃ path, child.slot? nested.block path = some inner) :
    ∃ path, block.slot? schema path = some (inner.within selection) := by
  rw [BoundBlock.shown?_within, Option.bind_eq_some_iff] at shown
  obtain ⟨bound, selected, shownBelow⟩ := shown
  obtain ⟨nested, child, declared, inGroup, rfl⟩ := child?_bindPresent_eq_some_iff.1 selected
  obtain ⟨deeper, assigned⟩ := below nested child shownBelow
  -- The index in the group gives the index in the body, which is where the path starts.
  obtain ⟨index, here, counted⟩ := exists_getElem?_of_filter inGroup
  have ofType : child.typeName = selection.typeName :=
    eq_of_beq (List.mem_filter.1 (List.mem_of_getElem? inGroup)).2
  have sameSelection : block.selectionOf index child = selection := by
    rw [Block.selectionOf, ofType, counted]
  rw [← ofType] at declared
  refine ⟨index :: deeper, ?_⟩
  rw [Block.slot?_of_declared here declared, assigned, Option.map_some, sameSelection]

/-- Whatever a slot shows has come from some path. -/
theorem exists_slot?_of_shown? {slot : Slot}
    (shown : (bindPresent block labels schema).shown? slot = some source) :
    ∃ path, block.slot? schema path = some slot := by
  cases slot with
  | bound place =>
      induction place generalizing block labels schema with
      | nil => exact ⟨[], rfl⟩
      | cons selection rest inductionHypothesis =>
          change (bindPresent block labels schema).shown? ((Slot.bound rest).within selection)
            = some source at shown
          exact exists_slot?_within shown fun nested child => inductionHypothesis
  | listed owner index =>
      induction owner generalizing block labels schema with
      | nil =>
          have inList : (bindPresent block labels schema).unknownBlocks[index]? = some source :=
            shown
          rw [bindPresent_unknownBlocks] at inList
          obtain ⟨first, here, counted⟩ := exists_getElem?_of_filter inList
          have undeclared : schema.nested.find? source.typeName = none := by
            have kept := (List.mem_filter.1 (List.mem_of_getElem? inList)).2
            rw [Bool.not_eq_true'] at kept
            exact NamedList.contains_eq_false_iff.1 kept
          refine ⟨[first], ?_⟩
          rw [Block.slot?_of_undeclared here undeclared, if_pos rfl, Block.listingOf, counted]
      | cons selection rest inductionHypothesis =>
          change (bindPresent block labels schema).shown?
            ((Slot.listed rest index).within selection) = some source at shown
          exact exists_slot?_within shown fun nested child => inductionHypothesis

/-- Blocks are counted by their types, which the two trees have in common. -/
theorem countP_take_eq_of_sameTypes {first second : Block} (same : first.SameTypes second)
    (index : Nat) (counted : String → Bool) :
    (first.body.blocks.take index).countP (fun block => counted block.typeName)
      = (second.body.blocks.take index).countP fun block => counted block.typeName := by
  have byNames : ∀ blocks : List Block,
      (blocks.take index).countP (fun block => counted block.typeName)
        = ((blocks.map Block.typeName).take index).countP counted := by
    intro blocks
    rw [← List.map_take, List.countP_map]
    rfl
  rw [byNames, byNames, same.names]

/-- Trees of the same types have the same slots. -/
theorem slot?_eq_of_sameTypes {first second : Block} (same : first.SameTypes second)
    (path : List Nat) : first.slot? schema path = second.slot? schema path := by
  induction path generalizing first second schema with
  | nil => rfl
  | cons index deeper inductionHypothesis =>
      have atIndex := same [index]
      rw [Block.at?_singleton, Block.at?_singleton] at atIndex
      cases here : first.body.blocks[index]? with
      | none =>
          rw [here] at atIndex
          rw [Block.slot?, Block.slot?, here, Option.map_eq_none_iff.1 atIndex.symm]
          rfl
      | some child =>
          rw [here] at atIndex
          obtain ⟨other, there, sameName⟩ := Option.map_eq_some_iff.1 atIndex.symm
          cases declared : schema.nested.find? child.typeName with
          | none =>
              have sameListing : first.listingOf schema index = second.listingOf schema index :=
                countP_take_eq_of_sameTypes same index (!schema.nested.contains ·)
              rw [Block.slot?_of_undeclared here declared,
                Block.slot?_of_undeclared there (sameName ▸ declared), sameListing]
          | some nested =>
              have sameSelection :
                  first.selectionOf index child = second.selectionOf index other := by
                rw [Block.selectionOf, Block.selectionOf, sameName,
                  countP_take_eq_of_sameTypes same index (· == child.typeName)]
              have below : child.slot? nested.block deeper = other.slot? nested.block deeper :=
                inductionHypothesis (same.child here there)
              rw [Block.slot?_of_declared here declared,
                Block.slot?_of_declared there (sameName ▸ declared), sameSelection, below]

/-! ## Slots and paths -/

/-- No slot holds the blocks at two paths. -/
theorem Slot.Holds.path_eq {slot : Slot} {first second : List Nat}
    (holdsFirst : slot.Holds block labels schema first)
    (holdsSecond : slot.Holds block labels schema second) : first = second := by
  by_contra different
  obtain ⟨source, here, _⟩ := holdsFirst block (.refl block)
  -- The slot cannot show both once the two paths lead to blocks told apart.
  obtain ⟨other, sameTypes, apart⟩ := Block.exists_at?_ne different here
  obtain ⟨atFirst, hereFirst, shownFirst⟩ := holdsFirst other sameTypes
  obtain ⟨atSecond, hereSecond, shownSecond⟩ := holdsSecond other sameTypes
  have agree : some atFirst = some atSecond := shownFirst.symm.trans shownSecond
  exact apart (hereFirst.trans (agree.trans hereSecond.symm))

theorem Slot.holds_of_slot? {slot : Slot} {path : List Nat}
    (assigned : block.slot? schema path = some slot) :
    slot.Holds block labels schema path := by
  intro other sameTypes
  rw [← slot?_eq_of_sameTypes sameTypes] at assigned
  exact shown?_of_slot? assigned

/-- A slot holds the block at a path just when it is the slot for the path. -/
theorem Slot.holds_iff {slot : Slot} {path : List Nat} :
    slot.Holds block labels schema path ↔ block.slot? schema path = some slot := by
  refine ⟨fun holds => ?_, holds_of_slot?⟩
  obtain ⟨source, _, shown⟩ := holds block (.refl block)
  obtain ⟨origin, assigned⟩ := exists_slot?_of_shown? shown
  rw [holds.path_eq (holds_of_slot? assigned)]
  exact assigned

end

end SchemaBinding
