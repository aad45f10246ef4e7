import SchemaBinding.Proofs.Binding.Grouping

/-!
Contract: places in a bound tree.

Owns:
- `Selection`, the choice of one nested block by its type and its index in the group;
- `BoundBlock.at?`, the bound block at the end of a sequence of selections;
- what can be selected in a bound block: the blocks of declared types, bound; and
- `exists_at?_of_inherited`, by which a place of one binding is a place of another.

Does not own: any order among places beyond the one of sequences, where a place
stands inside another when it goes on from it.
-/

set_option autoImplicit false

namespace SchemaBinding

/-- A nested block of a bound block: the one of a given index, counted from zero, in
the group of a type. -/
structure Selection where
  typeName : String
  index : Nat
  deriving DecidableEq, Repr

namespace BoundBlock

def child? (bound : BoundBlock) (selection : Selection) : Option BoundBlock :=
  (bound.knownBlocks.find? selection.typeName).bind fun group =>
    group.blocks[selection.index]?

/-- The bound block that selections lead to, one level after another. -/
def at? (bound : BoundBlock) : List Selection → Option BoundBlock
  | [] => some bound
  | selection :: deeper => (bound.child? selection).bind fun child => child.at? deeper

theorem at?_cons_eq_some_iff {bound node : BoundBlock} {selection : Selection}
    {deeper : List Selection} :
    bound.at? (selection :: deeper) = some node ↔
      ∃ child, bound.child? selection = some child ∧ child.at? deeper = some node :=
  Option.bind_eq_some_iff

theorem at?_append (bound : BoundBlock) (place deeper : List Selection) :
    bound.at? (place ++ deeper) = (bound.at? place).bind fun node => node.at? deeper := by
  induction place generalizing bound with
  | nil => rfl
  | cons selection rest inductionHypothesis =>
      rw [List.cons_append, at?, at?, Option.bind_assoc]
      exact Option.bind_congr fun child _ => inductionHypothesis child

end BoundBlock

/-! ## Selecting in a block that has been bound -/

section

variable {block : Block} {labels : List Label} {schema : BlockSchema}

/-- Of a bound block one selects a declared block of its source, bound against the
schema of its type. -/
theorem child?_bindPresent_eq_some_iff {selection : Selection} {inner : BoundBlock} :
    (bindPresent block labels schema).child? selection = some inner ↔
      ∃ nested child,
        schema.nested.find? selection.typeName = some nested ∧
          (blocksOfType block.body.blocks selection.typeName)[selection.index]? = some child ∧
          inner = bindNested nested child := by
  rw [BoundBlock.child?, bindPresent_knownBlocks, Option.bind_eq_some_iff]
  constructor
  · rintro ⟨group, found, selected⟩
    obtain ⟨declared, _, blocks⟩ := find?_knownBlocks_eq_some_iff.1 found
    rw [blocks, List.getElem?_map, Option.map_eq_some_iff] at selected
    obtain ⟨child, here, rfl⟩ := selected
    exact ⟨group.schema, child, declared, here, rfl⟩
  · rintro ⟨nested, child, declared, here, rfl⟩
    let group : BoundGroup :=
      { schema := nested
        blocks :=
          (blocksOfType block.body.blocks selection.typeName).map (bindNested nested) }
    have occurs : blocksOfType block.body.blocks selection.typeName ≠ [] :=
      List.ne_nil_of_mem (List.mem_of_getElem? here)
    refine ⟨group, find?_knownBlocks_eq_some_iff.2 ⟨declared, occurs, rfl⟩, ?_⟩
    rw [List.getElem?_map, here]
    rfl

theorem exists_of_child?_bindPresent {selection : Selection} {inner : BoundBlock}
    (selected : (bindPresent block labels schema).child? selection = some inner) :
    ∃ nested, ∃ child ∈ block.body.blocks, inner = bindNested nested child := by
  obtain ⟨nested, child, _, here, same⟩ := child?_bindPresent_eq_some_iff.1 selected
  exact ⟨nested, child, (List.mem_filter.1 (List.mem_of_getElem? here)).1, same⟩

/-- The nested blocks of a bound block are those that can be selected. -/
theorem mem_nestedBlocks_bindPresent_iff {inner : BoundBlock} :
    inner ∈ (bindPresent block labels schema).nestedBlocks ↔
      ∃ selection, (bindPresent block labels schema).child? selection = some inner := by
  rw [nestedBlocks_bindPresent, List.mem_filterMap]
  constructor
  · rintro ⟨child, grouped, bound⟩
    obtain ⟨nested, declared, rfl⟩ := Option.map_eq_some_iff.1 bound
    have ofType : child ∈ blocksOfType block.body.blocks child.typeName :=
      List.mem_filter.2 ⟨(mem_groupedBlocks.1 grouped).1, beq_self_eq_true _⟩
    obtain ⟨index, here⟩ := List.getElem?_of_mem ofType
    exact ⟨⟨child.typeName, index⟩,
      child?_bindPresent_eq_some_iff.2 ⟨nested, child, declared, here, rfl⟩⟩
  · rintro ⟨selection, selected⟩
    obtain ⟨nested, child, declared, here, rfl⟩ :=
      child?_bindPresent_eq_some_iff.1 selected
    obtain ⟨member, same⟩ := List.mem_filter.1 (List.mem_of_getElem? here)
    rw [← eq_of_beq same] at declared
    refine ⟨child, mem_groupedBlocks.2 ⟨member, ?_⟩, by rw [declared]; rfl⟩
    rw [NamedList.contains, declared]
    rfl

end

/-! ## Selecting in two bindings of one block -/

/-- A relation between schemas that passes down: where the first schema declares a type,
so does the second, and the schemas of the type are related again. -/
def BlockSchema.Inherited (related : BlockSchema → BlockSchema → Prop) : Prop :=
  ∀ first second, related first second →
    ∀ typeName declared, first.nested.find? typeName = some declared →
      ∃ other, second.nested.find? typeName = some other ∧ related declared.block other.block

/-- What can be selected in a block bound against one schema can be selected when it is
bound against a related one, and is again one block bound against related schemas. -/
theorem exists_at?_of_inherited {related : BlockSchema → BlockSchema → Prop}
    (inherited : BlockSchema.Inherited related) (place : List Selection) :
    ∀ {block : Block} {labels : List Label} {first second : BlockSchema} {node : BoundBlock},
      related first second → (bindPresent block labels first).at? place = some node →
      ∃ source ownLabels declared other, related declared other ∧
        node = bindPresent source ownLabels declared ∧
          (bindPresent block labels second).at? place
            = some (bindPresent source ownLabels other) := by
  induction place with
  | nil =>
      intro block labels first second node relatedHere selected
      cases selected
      exact ⟨block, labels, first, second, relatedHere, rfl, rfl⟩
  | cons selection deeper inductionHypothesis =>
      intro block labels first second node relatedHere selected
      obtain ⟨inner, here, below⟩ := BoundBlock.at?_cons_eq_some_iff.1 selected
      obtain ⟨nested, child, declared, inGroup, rfl⟩ := child?_bindPresent_eq_some_iff.1 here
      -- A group holds the blocks of its type whatever its schema, so the index is the same.
      obtain ⟨otherNested, found, relatedBelow⟩ :=
        inherited first second relatedHere selection.typeName nested declared
      have there : (bindPresent block labels second).child? selection
          = some (bindNested otherNested child) :=
        child?_bindPresent_eq_some_iff.2 ⟨otherNested, child, found, inGroup, rfl⟩
      obtain ⟨source, ownLabels, reached, otherReached, relatedThere, same, belowOther⟩ :=
        inductionHypothesis relatedBelow below
      refine ⟨source, ownLabels, reached, otherReached, relatedThere, same, ?_⟩
      exact BoundBlock.at?_cons_eq_some_iff.2 ⟨_, there, belowOther⟩

end SchemaBinding
