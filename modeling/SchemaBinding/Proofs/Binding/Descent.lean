import Mathlib.Data.Prod.Lex
import SchemaBinding.Proofs.Binding.Cursor

/-!
Contract: the descent to the innermost block around a position, in any tree.

Owns:
- `Selection.turn`, the order in which the nested blocks of a block are searched;
- `BoundBlock.FirstAround` and `BoundBlock.Descent`, one step of a descent and all of
  them; and
- `bindBlock_descends`, by which a descent takes these steps and stops where none is left.

Does not own: trees that are laid out, where the order of the search does not matter.

Nothing is assumed of the spans. They may cross, be empty, or lie outside of the block
around them.
-/

set_option autoImplicit false

namespace SchemaBinding

/-! ## The order of a search -/

/-- Types are searched in the order in which they first occur among the blocks, and the
blocks of one type by their index. -/
def Selection.turn (selection : Selection) (blocks : List Block) : Nat ×ₗ Nat :=
  toLex ((blocks.map Block.typeName).idxOf selection.typeName, selection.index)

/-- Names that are kept stay in the order in which they first occur among all names. -/
theorem pairwise_idxOf_eraseDups (keep : String → Bool) (names : List String) :
    (names.filter keep).eraseDups.Pairwise fun first second =>
      names.idxOf first < names.idxOf second := by
  induction names using List.reverseRecOn with
  | nil => exact List.Pairwise.nil
  | append_singleton earlier last inductionHypothesis =>
      have early : ∀ name ∈ (earlier.filter keep).eraseDups, name ∈ earlier := by
        intro name kept
        exact (List.mem_filter.1 (List.mem_eraseDups.1 kept)).1
      have ordered :
          (earlier.filter keep).eraseDups.Pairwise fun first second =>
            (earlier ++ [last]).idxOf first < (earlier ++ [last]).idxOf second := by
        apply inductionHypothesis.imp_of_mem
        intro first second firstKept secondKept before
        rw [List.idxOf_append_of_mem (early first firstKept),
          List.idxOf_append_of_mem (early second secondKept)]
        exact before
      by_cases fresh : keep last = true ∧ last ∉ earlier
      · -- A new name goes to the end of the names, and of those that are kept.
        have grown :
            ((earlier ++ [last]).filter keep).eraseDups
              = (earlier.filter keep).eraseDups ++ [last] := by
          simp [eraseDups_append_singleton, fresh]
        rw [grown, List.pairwise_append]
        refine ⟨ordered, List.pairwise_singleton _ _, ?_⟩
        intro first kept second isLast
        rw [List.mem_singleton.1 isLast, List.idxOf_append_of_mem (early first kept),
          List.idxOf_append_of_notMem fresh.2]
        have within := List.idxOf_lt_length_iff.2 (early first kept)
        omega
      · have same :
            ((earlier ++ [last]).filter keep).eraseDups = (earlier.filter keep).eraseDups := by
          by_cases kept : keep last = true
          · have known : last ∈ earlier := by
              by_contra missing
              exact fresh ⟨kept, missing⟩
            simp [eraseDups_append_singleton, kept, known]
          · simp [kept]
        rw [same]
        exact ordered

/-- What is found among grouped blocks comes first, by the turns of the selections. -/
theorem exists_turn_le_of_find?_groupedBlocks {blocks : List Block}
    {declared : NamedList NestedSchema} {test : Block → Bool} {child : Block}
    (found : (groupedBlocks blocks declared).find? test = some child) :
    ∃ index, (blocksOfType blocks child.typeName)[index]? = some child ∧
      ∀ (selection : Selection) (other : Block), declared.contains selection.typeName = true →
        (blocksOfType blocks selection.typeName)[selection.index]? = some other →
        test other = true →
        (Selection.mk child.typeName index).turn blocks ≤ selection.turn blocks := by
  unfold groupedBlocks at found
  rw [List.find?_flatMap, List.findSome?_eq_some_iff] at found
  obtain ⟨before, typeName, after, types, inGroup, missed⟩ := found
  obtain ⟨_, index, within, rfl, earlier⟩ := List.find?_eq_some_iff_getElem.1 inGroup
  have here : (blocksOfType blocks typeName)[index]? = some (blocksOfType blocks typeName)[index] :=
    List.getElem?_eq_getElem within
  have ofType : (blocksOfType blocks typeName)[index].typeName = typeName :=
    eq_of_beq (List.mem_filter.1 (List.getElem_mem within)).2
  rw [ofType]
  refine ⟨index, here, ?_⟩
  intro selection other isDeclared selected holds
  have inSelected := List.mem_of_getElem? selected
  have otherType : other.typeName = selection.typeName :=
    eq_of_beq (List.mem_filter.1 inSelected).2
  have occurs : selection.typeName ∈ before ++ typeName :: after := by
    rw [← types, List.mem_eraseDups, ← otherType]
    apply List.mem_map_of_mem
    apply List.mem_filter.2
    exact ⟨(List.mem_filter.1 inSelected).1, otherType ▸ isDeclared⟩
  rw [Selection.turn, Selection.turn, Prod.Lex.toLex_le_toLex]
  rcases List.mem_append.1 occurs with passed | rest
  · exact absurd holds (List.find?_eq_none.1 (missed _ passed) other inSelected)
  rcases List.mem_cons.1 rest with sameType | later
  · -- Within the group, whatever stands before the index was passed over.
    right
    rw [sameType] at selected ⊢
    refine ⟨rfl, ?_⟩
    show index ≤ selection.index
    by_contra tooEarly
    obtain ⟨otherWithin, rfl⟩ := List.getElem?_eq_some_iff.1 selected
    have passed := earlier selection.index (by omega)
    rw [holds] at passed
    exact absurd passed (by decide)
  · left
    have ordered := pairwise_idxOf_eraseDups declared.contains (blocks.map Block.typeName)
    have sameNames : (blocks.map Block.typeName).filter declared.contains
        = (declaredBlocks blocks declared).map Block.typeName := by
      rw [List.filter_map]
      rfl
    rw [sameNames, types] at ordered
    exact (List.pairwise_cons.1 (List.pairwise_append.1 ordered).2.1).1 _ later

/-! ## One step -/

namespace BoundBlock

/-- The nested blocks of the source, whether declared or not. -/
def sourceBlocks (bound : BoundBlock) : List Block :=
  (bound.source.map fun block => block.body.blocks).getD []

/-- No nested block holds the position. -/
def ClearAt (bound : BoundBlock) (position : Position) : Prop :=
  ∀ inner ∈ bound.nestedBlocks, ¬ inner.contains position = true

/-- Of the nested blocks of `outer` that hold the position, `inner` is the one selected in
the first turn. -/
structure FirstAround (outer : BoundBlock) (position : Position) (selection : Selection)
    (inner : BoundBlock) : Prop where
  selected : outer.child? selection = some inner
  /-- The index counts the blocks of the type in source order. -/
  listed : (blocksOfType outer.sourceBlocks selection.typeName)[selection.index]? = inner.source
  around : inner.contains position = true
  first : ∀ other otherInner, outer.child? other = some otherInner →
    otherInner.contains position = true →
      selection.turn outer.sourceBlocks ≤ other.turn outer.sourceBlocks

/-- Steps of a descent from `root` to a node below it, each into the first nested block
around the position. -/
inductive Descent (position : Position) : BoundBlock → List Selection → BoundBlock → Prop where
  | last {outer inner : BoundBlock} {selection : Selection}
      (step : outer.FirstAround position selection inner) :
      Descent position outer [selection] inner
  | step {outer inner node : BoundBlock} {selection : Selection} {deeper : List Selection}
      (step : outer.FirstAround position selection inner)
      (below : Descent position inner deeper node) :
      Descent position outer (selection :: deeper) node

theorem blockAt_eq_none_iff {bound : BoundBlock} {position : Position} :
    bound.blockAt position = none ↔ bound.ClearAt position := by
  rw [blockAt_eq, Option.map_eq_none_iff, List.find?_eq_none]
  rfl

/-- The type of the first block around a position occurs in the source. -/
theorem FirstAround.occurs {outer inner : BoundBlock} {position : Position}
    {selection : Selection} (step : outer.FirstAround position selection inner) :
    selection.typeName ∈ outer.sourceBlocks.map Block.typeName := by
  have present : inner.source.isSome = true := by
    have around := step.around
    unfold contains span? at around
    cases source : inner.source with
    | none => simp [source] at around
    | some child => rfl
  obtain ⟨child, source⟩ := Option.isSome_iff_exists.1 present
  have member := List.mem_of_getElem? (step.listed.trans source)
  obtain ⟨inSource, ofType⟩ := List.mem_filter.1 member
  rw [← eq_of_beq ofType]
  exact List.mem_map_of_mem inSource

/-- No two selections have one turn, so only one of them is first. -/
theorem FirstAround.unique {outer inner other : BoundBlock} {position : Position}
    {selection otherSelection : Selection}
    (step : outer.FirstAround position selection inner)
    (otherStep : outer.FirstAround position otherSelection other) : inner = other := by
  have sameTurn : selection.turn outer.sourceBlocks = otherSelection.turn outer.sourceBlocks :=
    le_antisymm (step.first _ _ otherStep.selected otherStep.around)
      (otherStep.first _ _ step.selected step.around)
  obtain ⟨samePlace, sameIndex⟩ := Prod.mk.inj (toLex.injective sameTurn)
  have sameType := (List.idxOf_inj step.occurs).1 samePlace
  have same : selection = otherSelection := by
    cases selection
    cases otherSelection
    simp only [Selection.mk.injEq]
    exact ⟨sameType, sameIndex⟩
  have selected := step.selected
  rw [same, otherStep.selected] at selected
  exact (Option.some.inj selected).symm

end BoundBlock

theorem sourceBlocks_bindPresent (block : Block) (labels : List Label) (schema : BlockSchema) :
    (bindPresent block labels schema).sourceBlocks = block.body.blocks := by
  rw [BoundBlock.sourceBlocks, bindPresent_source]
  rfl

section

variable {block : Block} {labels : List Label} {schema : BlockSchema} {position : Position}

/-- What a search of the nested blocks finds is first. -/
theorem exists_firstAround_of_find? {inner : BoundBlock}
    (found : (bindPresent block labels schema).nestedBlocks.find?
      (fun nested => nested.contains position) = some inner) :
    ∃ selection, (bindPresent block labels schema).FirstAround position selection inner := by
  have around : inner.contains position = true := by simpa using List.find?_some found
  rw [find?_nestedBlocks_bindPresent, Option.bind_eq_some_iff] at found
  obtain ⟨child, grouped, bound⟩ := found
  obtain ⟨nested, declared, rfl⟩ := Option.map_eq_some_iff.1 bound
  obtain ⟨index, here, first⟩ := exists_turn_le_of_find?_groupedBlocks grouped
  refine ⟨⟨child.typeName, index⟩, ?_, ?_, around, ?_⟩
  · exact child?_bindPresent_eq_some_iff.2 ⟨nested, child, declared, here, rfl⟩
  · rw [sourceBlocks_bindPresent, bindNested, bindPresent_source]
    exact here
  · intro other otherInner selected otherAround
    obtain ⟨otherNested, otherChild, otherDeclared, otherHere, rfl⟩ :=
      child?_bindPresent_eq_some_iff.1 selected
    rw [bindNested, contains_bindPresent] at otherAround
    rw [sourceBlocks_bindPresent]
    apply first other otherChild
    · rw [NamedList.contains, otherDeclared]
      rfl
    · exact otherHere
    · exact otherAround

/-- A search of the nested blocks finds the one selected in the first turn. -/
theorem find?_nestedBlocks_eq_some_iff {inner : BoundBlock} :
    (bindPresent block labels schema).nestedBlocks.find?
        (fun nested => nested.contains position) = some inner ↔
      ∃ selection, (bindPresent block labels schema).FirstAround position selection inner := by
  constructor
  · exact exists_firstAround_of_find?
  · rintro ⟨selection, step⟩
    cases found : (bindPresent block labels schema).nestedBlocks.find?
        fun nested => nested.contains position with
    | none =>
        have member := mem_nestedBlocks_bindPresent_iff.2 ⟨selection, step.selected⟩
        exact absurd step.around (List.find?_eq_none.1 found inner member)
    | some other =>
        obtain ⟨_, otherStep⟩ := exists_firstAround_of_find? found
        rw [otherStep.unique step]

end

/-! ## All steps -/

/-- A descent finds a node when steps lead there and no further one can be taken. -/
theorem blockAt_bindPresent_eq_some_iff (position : Position) (block : Block) :
    ∀ {labels : List Label} {schema : BlockSchema} {node : BoundBlock},
      (bindPresent block labels schema).blockAt position = some node ↔
        (∃ place, BoundBlock.Descent position (bindPresent block labels schema) place node) ∧
          node.ClearAt position := by
  induction block using Block.inductionOn with
  | step block inductionHypothesis =>
      intro labels schema node
      rw [BoundBlock.blockAt_eq, Option.map_eq_some_iff]
      constructor
      · rintro ⟨inner, found, ends⟩
        obtain ⟨selection, step⟩ := find?_nestedBlocks_eq_some_iff.1 found
        obtain ⟨nested, child, member, rfl⟩ := exists_of_child?_bindPresent step.selected
        cases below : (bindNested nested child).blockAt position with
        | none =>
            rw [below, Option.getD_none] at ends
            subst ends
            exact ⟨⟨[selection], .last step⟩, BoundBlock.blockAt_eq_none_iff.1 below⟩
        | some deepest =>
            rw [below, Option.getD_some] at ends
            subst ends
            obtain ⟨⟨place, descent⟩, clear⟩ := (inductionHypothesis child member).1 below
            exact ⟨⟨selection :: place, .step step descent⟩, clear⟩
      · rintro ⟨⟨place, descent⟩, clear⟩
        cases descent with
        | last step =>
            refine ⟨node, find?_nestedBlocks_eq_some_iff.2 ⟨_, step⟩, ?_⟩
            rw [BoundBlock.blockAt_eq_none_iff.2 clear]
            rfl
        | step step below =>
            obtain ⟨nested, child, member, rfl⟩ := exists_of_child?_bindPresent step.selected
            have deepest := (inductionHypothesis child member).2 ⟨⟨_, below⟩, clear⟩
            refine ⟨_, find?_nestedBlocks_eq_some_iff.2 ⟨_, step⟩, ?_⟩
            unfold bindNested
            rw [deepest]
            rfl

/-- Without known nested blocks there is no step to take. -/
theorem BoundBlock.not_descent_of_knownBlocks_eq {root node : BoundBlock} {position : Position}
    {place : List Selection} (empty : root.knownBlocks = {}) :
    ¬ BoundBlock.Descent position root place node := by
  have nowhere : ∀ selection inner, ¬ root.FirstAround position selection inner := by
    intro selection inner step
    have selected := step.selected
    rw [child?, empty] at selected
    cases selected
  intro descent
  cases descent with
  | last step => exact nowhere _ _ step
  | step step _ => exact nowhere _ _ step

/-- What a descent from `root` finds. -/
structure BoundBlock.Descends (root : BoundBlock) (position : Position) : Prop where
  nothing : root.blockAt position = none ↔ root.ClearAt position
  /-- At least one step is taken, each into the first nested block around the position, and
  no nested block of the node that is found is around it. -/
  found : ∀ node, root.blockAt position = some node ↔
    (∃ place, BoundBlock.Descent position root place node) ∧ node.ClearAt position
  ends : ∀ node, root.blockAt position = some node → node.blockAt position = none

/-- In any tree a descent goes into the first nested block around the position, from there
on in the same way, and ends where no nested block is around it. -/
theorem bindBlock_descends (block : Option Block) (labels : List Label)
    (schema : Option BlockSchema) (position : Position) :
    (bindBlock block labels schema).Descends position := by
  have found : ∀ node, (bindBlock block labels schema).blockAt position = some node ↔
      (∃ place, BoundBlock.Descent position (bindBlock block labels schema) place node) ∧
        node.ClearAt position := by
    intro node
    by_cases empty : (bindBlock block labels schema).knownBlocks = {}
    · have nothing : (bindBlock block labels schema).blockAt position = none := by
        rw [BoundBlock.blockAt_eq, BoundBlock.nestedBlocks, empty]
        rfl
      rw [nothing]
      constructor
      · intro found
        cases found
      · rintro ⟨⟨place, descent⟩, _⟩
        exact absurd descent (BoundBlock.not_descent_of_knownBlocks_eq empty)
    · rcases block with _ | present
      · exact absurd rfl empty
      rcases schema with _ | declared
      · exact absurd rfl empty
      exact blockAt_bindPresent_eq_some_iff position present
  refine ⟨BoundBlock.blockAt_eq_none_iff, found, ?_⟩
  intro node here
  exact BoundBlock.blockAt_eq_none_iff.2 ((found node).1 here).2

/-- A port that crosses the second of two links. -/
def crossedLine : Block :=
  lineBlock "network" 0 8 40 []
    [lineBlock "link" 10 15 16 [] [], lineBlock "port" 17 22 30 [] [],
      lineBlock "link" 20 25 34 [] []]

def linkAndPortSchema : BlockSchema :=
  { nested :=
      ⟨[("port", { typeName := "port", nesting := .list, block := {} }),
        ("link", { typeName := "link", nesting := .list, block := {} })]⟩ }

-- A link stands before the port, so all links are searched before it.
example :
    ((bindBlock (some crossedLine) [] (some linkAndPortSchema)).blockAt
        (lineSpan 26 27).start).bind BoundBlock.span?
      = some (lineSpan 20 34) := by
  rfl

end SchemaBinding
