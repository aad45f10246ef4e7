import Mathlib.Data.List.Find
import SchemaBinding.Binding.Lookup
import SchemaBinding.Proofs.Binding.Partition
import SchemaBinding.Proofs.Binding.Places
import SchemaBinding.Proofs.Tree.Layout

/-!
Contract: what stands under a cursor in a tree that is laid out.

Owns:
- `BoundBlock.AroundBelow`, the places below a root whose blocks hold a position;
- `BoundBlock.Innermost`, the end of the way that a descent takes; and
- `bindBlock_resolves`, by which the descent ends at the deepest of these places and
  at the owner of any attribute around the position.

Does not own: look-ups in trees whose spans cross.

In a laid-out tree only one nested block of a level can hold a position. A descent
that goes into the first one it meets has therefore no choice, whatever the order of
its search.
-/

set_option autoImplicit false

namespace SchemaBinding

namespace BoundBlock

/-- The bound block at a place holds the position. -/
def Around (root : BoundBlock) (position : Position) (place : List Selection) : Prop :=
  ∃ node, root.at? place = some node ∧ node.contains position = true

/-- As `Around`, for places strictly below the root. -/
def AroundBelow (root : BoundBlock) (position : Position) (place : List Selection) : Prop :=
  place ≠ [] ∧ root.Around position place

/-- A descent from `root` ends at `place`, where `node` stands: the places below the
root around the position are the stations on the way there. -/
structure Innermost (root : BoundBlock) (position : Position) (place : List Selection)
    (node : BoundBlock) : Prop where
  selected : root.at? place = some node
  found : (root.blockAt position).getD root = node
  nothing : root.blockAt position = none ↔ place = []
  chain : ∀ other, other ≠ [] → (root.Around position other ↔ other <+: place)

end BoundBlock

/-! ## One level -/

section

variable {block : Block} {labels : List Label} {schema : BlockSchema} {position : Position}

theorem contains_bindPresent :
    (bindPresent block labels schema).contains position = block.span.contains position := by
  rw [BoundBlock.contains, BoundBlock.span?, bindPresent_source]
  rfl

/-- The first nested block around a position told on the source: the first of the grouped
blocks that holds it, bound. -/
theorem find?_nestedBlocks_bindPresent :
    (bindPresent block labels schema).nestedBlocks.find? (fun inner => inner.contains position)
      = ((groupedBlocks block.body.blocks schema.nested).find? fun child =>
            child.span.contains position).bind fun child =>
          (schema.nested.find? child.typeName).map fun nested => bindNested nested child := by
  rw [nestedBlocks_bindPresent, List.find?_filterMap]
  have sameTest : ∀ child ∈ groupedBlocks block.body.blocks schema.nested,
      ((schema.nested.find? child.typeName).map fun nested => bindNested nested child).any
          (fun inner => inner.contains position)
        = child.span.contains position := by
    intro child grouped
    obtain ⟨nested, found⟩ := Option.isSome_iff_exists.1 (mem_groupedBlocks.1 grouped).2
    have declared : schema.nested.find? child.typeName = some nested := found
    rw [declared]
    exact contains_bindPresent
  rw [List.find?_congr sameTest]

/-- A descent told on the source: it goes into the first of the grouped blocks that holds the
position, and on from there. -/
theorem blockAt_bindPresent :
    (bindPresent block labels schema).blockAt position
      = ((groupedBlocks block.body.blocks schema.nested).find? fun child =>
            child.span.contains position).bind fun child =>
          (schema.nested.find? child.typeName).map fun nested =>
            ((bindNested nested child).blockAt position).getD (bindNested nested child) := by
  rw [BoundBlock.blockAt_eq, find?_nestedBlocks_bindPresent, Option.map_bind]
  refine Option.bind_congr fun child _ => ?_
  rw [Function.comp_apply, Option.map_map]
  rfl

/-- What two descents end at is related when what they find is, and also where they start. -/
theorem rel_getD {related : BoundBlock → BoundBlock → Prop} {found other : Option BoundBlock}
    {start otherStart : BoundBlock} (here : related start otherStart)
    (below : Option.Rel related found other) :
    related (found.getD start) (other.getD otherStart) := by
  cases below with
  | none => exact here
  | some deeper => exact deeper

/-- Only one nested block of a laid-out block can be selected around a position. -/
theorem selection_unique (laidOut : block.LaidOut) {first second : Selection}
    {inner other : BoundBlock}
    (here : (bindPresent block labels schema).child? first = some inner)
    (there : (bindPresent block labels schema).child? second = some other)
    (around : inner.contains position = true)
    (aroundOther : other.contains position = true) :
    first = second := by
  obtain ⟨typeName, index⟩ := first
  obtain ⟨otherName, otherIndex⟩ := second
  obtain ⟨nested, child, _, childHere, rfl⟩ := child?_bindPresent_eq_some_iff.1 here
  obtain ⟨otherNested, otherChild, _, otherHere, rfl⟩ :=
    child?_bindPresent_eq_some_iff.1 there
  unfold bindNested at around aroundOther
  rw [contains_bindPresent] at around aroundOther
  obtain ⟨member, ofType⟩ := List.mem_filter.1 (List.mem_of_getElem? childHere)
  obtain ⟨otherMember, ofOtherType⟩ := List.mem_filter.1 (List.mem_of_getElem? otherHere)
  -- The two are one block of the source, so the types agree, and then the indices.
  have sameChild : child = otherChild :=
    eq_of_apart laidOut.blocks_apart member otherMember around aroundOther
  have sameType : typeName = otherName := by
    calc
      typeName = child.typeName := (eq_of_beq ofType).symm
      _ = otherChild.typeName := congrArg Block.typeName sameChild
      _ = otherName := eq_of_beq ofOtherType
  subst sameType
  have typeApart :
      (blocksOfType block.body.blocks typeName).Pairwise fun first second =>
        first.span.Apart second.span :=
    laidOut.blocks_apart.sublist List.filter_sublist
  have sameIndex : index = otherIndex :=
    index_unique_of_apart typeApart childHere otherHere around aroundOther
  rw [sameIndex]

/-- A descent that finds no nested block around the position ends where it starts. -/
theorem child?_not_contains_of_blockAt_eq_none
    (nothing : (bindPresent block labels schema).blockAt position = none)
    {selection : Selection} {inner : BoundBlock}
    (selected : (bindPresent block labels schema).child? selection = some inner) :
    ¬ inner.contains position = true := by
  rw [BoundBlock.blockAt_eq, Option.map_eq_none_iff, List.find?_eq_none] at nothing
  exact nothing inner (mem_nestedBlocks_bindPresent_iff.2 ⟨selection, selected⟩)

/-- A descent that finds something goes on inside a nested block around the
position. -/
theorem exists_child?_of_blockAt_eq_some {found : BoundBlock}
    (descends : (bindPresent block labels schema).blockAt position = some found) :
    ∃ selection inner,
      (bindPresent block labels schema).child? selection = some inner ∧
        inner.contains position = true ∧ (inner.blockAt position).getD inner = found := by
  rw [BoundBlock.blockAt_eq, Option.map_eq_some_iff] at descends
  obtain ⟨inner, first, same⟩ := descends
  obtain ⟨selection, selected⟩ :=
    mem_nestedBlocks_bindPresent_iff.1 (List.mem_of_find?_eq_some first)
  exact ⟨selection, inner, selected, by simpa using List.find?_some first, same⟩

end

/-! ## Every level -/

/-- What holds a position lies in blocks that hold it. -/
theorem contains_of_around {position : Position} (place : List Selection) :
    ∀ {block : Block} {labels : List Label} {schema : BlockSchema}, block.LaidOut →
      (bindPresent block labels schema).Around position place →
      (bindPresent block labels schema).contains position = true := by
  induction place with
  | nil =>
      rintro block labels schema _ ⟨node, selected, around⟩
      cases selected
      exact around
  | cons selection deeper inductionHypothesis =>
      rintro block labels schema laidOut ⟨node, selected, around⟩
      obtain ⟨inner, here, below⟩ := BoundBlock.at?_cons_eq_some_iff.1 selected
      obtain ⟨nested, child, member, rfl⟩ := exists_of_child?_bindPresent here
      have inChild := inductionHypothesis (laidOut.nested member) ⟨node, below, around⟩
      rw [contains_bindPresent] at inChild ⊢
      exact laidOut.contains_of_child member inChild

/-- Whatever stands at a place has been bound from a laid-out block. -/
theorem exists_laidOut_of_at? (place : List Selection) :
    ∀ {block : Block} {labels : List Label} {schema : BlockSchema} {node : BoundBlock},
      block.LaidOut → (bindPresent block labels schema).at? place = some node →
      ∃ source ownLabels declared,
        source.LaidOut ∧ node = bindPresent source ownLabels declared := by
  induction place with
  | nil =>
      rintro block labels schema node laidOut selected
      cases selected
      exact ⟨block, labels, schema, laidOut, rfl⟩
  | cons selection deeper inductionHypothesis =>
      rintro block labels schema node laidOut selected
      obtain ⟨inner, here, below⟩ := BoundBlock.at?_cons_eq_some_iff.1 selected
      obtain ⟨nested, child, member, rfl⟩ := exists_of_child?_bindPresent here
      exact inductionHypothesis (laidOut.nested member) below

section

variable {block : Block} {labels : List Label} {schema : BlockSchema} {position : Position}

/-- The first selection of a place around a position leads to a nested block around
it. -/
theorem exists_child?_of_around (laidOut : block.LaidOut) {selection : Selection}
    {deeper : List Selection}
    (around : (bindPresent block labels schema).Around position (selection :: deeper)) :
    ∃ inner,
      (bindPresent block labels schema).child? selection = some inner ∧
        inner.contains position = true ∧ inner.Around position deeper := by
  obtain ⟨node, selected, aroundNode⟩ := around
  obtain ⟨inner, here, below⟩ := BoundBlock.at?_cons_eq_some_iff.1 selected
  obtain ⟨nested, child, member, rfl⟩ := exists_of_child?_bindPresent here
  have aroundInner :=
    contains_of_around deeper (laidOut.nested member) ⟨node, below, aroundNode⟩
  exact ⟨_, here, aroundInner, node, below, aroundNode⟩

/-- Where no nested block is around the position, a descent ends at the root. -/
theorem innermost_root (laidOut : block.LaidOut)
    (nothing : (bindPresent block labels schema).blockAt position = none) :
    (bindPresent block labels schema).Innermost position []
      (bindPresent block labels schema) where
  selected := rfl
  found := by rw [nothing]; rfl
  nothing := ⟨fun _ => rfl, fun _ => nothing⟩
  chain := by
    intro other notRoot
    constructor
    · intro around
      cases other with
      | nil => exact absurd rfl notRoot
      | cons selection deeper =>
          obtain ⟨inner, here, aroundInner, _⟩ := exists_child?_of_around laidOut around
          exact absurd aroundInner (child?_not_contains_of_blockAt_eq_none nothing here)
    · intro initial
      exact absurd (List.prefix_nil.1 initial) notRoot

/-- A descent that goes into a nested block ends where a descent from there ends. -/
theorem innermost_cons (laidOut : block.LaidOut) {selection : Selection}
    {inner found node : BoundBlock} {place : List Selection}
    (here : (bindPresent block labels schema).child? selection = some inner)
    (aroundInner : inner.contains position = true)
    (descends : (bindPresent block labels schema).blockAt position = some found)
    (continued : (inner.blockAt position).getD inner = found)
    (inside : inner.Innermost position place node) :
    (bindPresent block labels schema).Innermost position (selection :: place) node where
  selected := BoundBlock.at?_cons_eq_some_iff.2 ⟨inner, here, inside.selected⟩
  found := by
    rw [descends, Option.getD_some, ← continued]
    exact inside.found
  nothing := by simp [descends]
  chain := by
    intro other notRoot
    cases other with
    | nil => exact absurd rfl notRoot
    | cons choice deeper =>
        rw [List.cons_prefix_cons]
        constructor
        · intro around
          obtain ⟨chosen, there, aroundChosen, below⟩ :=
            exists_child?_of_around laidOut around
          -- Only one nested block is around the position, so the choice was no choice.
          have same : choice = selection :=
            selection_unique laidOut there here aroundChosen aroundInner
          subst same
          rw [here] at there
          cases there
          by_cases atInner : deeper = []
          · exact ⟨rfl, atInner ▸ List.nil_prefix⟩
          · exact ⟨rfl, (inside.chain deeper atInner).1 below⟩
        · rintro ⟨rfl, initial⟩
          have below : inner.Around position deeper := by
            by_cases atInner : deeper = []
            · exact ⟨inner, atInner ▸ rfl, aroundInner⟩
            · exact (inside.chain deeper atInner).2 initial
          obtain ⟨covering, selected, around⟩ := below
          exact
            ⟨covering, BoundBlock.at?_cons_eq_some_iff.2 ⟨inner, here, selected⟩, around⟩

end

/-- In a laid-out tree every descent ends at the deepest place around the position. -/
theorem exists_innermost (position : Position) (block : Block) :
    ∀ (labels : List Label) (schema : BlockSchema), block.LaidOut →
      ∃ place node, (bindPresent block labels schema).Innermost position place node := by
  induction block using Block.inductionOn with
  | step block inductionHypothesis =>
      intro labels schema laidOut
      cases descends : (bindPresent block labels schema).blockAt position with
      | none => exact ⟨[], _, innermost_root laidOut descends⟩
      | some found =>
          obtain ⟨selection, inner, here, around, continued⟩ :=
            exists_child?_of_blockAt_eq_some descends
          obtain ⟨nested, child, member, rfl⟩ := exists_of_child?_bindPresent here
          obtain ⟨place, node, inside⟩ :=
            inductionHypothesis child member child.labels nested.block
              (laidOut.nested member)
          exact ⟨selection :: place, node,
            innermost_cons laidOut here around descends continued inside⟩

/-! ## The owner of an attribute -/

/-- Among attributes that keep apart, the one around a position is looked up, in whatever
order they are searched. -/
theorem BoundBlock.attributeAt_eq_some_iff {bound : BoundBlock} {attributes : List Attribute}
    {position : Position} {assignment : Attribute}
    (searched : bound.attributes.Perm attributes)
    (apart : attributes.Pairwise fun first second => first.span.Apart second.span) :
    bound.attributeAt position = some assignment ↔
      assignment ∈ attributes ∧ assignment.span.contains position = true := by
  have searchedApart :
      bound.attributes.Pairwise fun first second => first.span.Apart second.span :=
    (searched.pairwise_iff fun keepApart => keepApart.symm).2 apart
  rw [attributeAt, find?_eq_some_iff_of_apart searchedApart, searched.mem_iff]

/-- The attribute of a laid-out block around a position is the one looked up there. -/
theorem attributeAt_of_laidOut {block : Block} {labels : List Label} {schema : BlockSchema}
    {position : Position} {assignment : Attribute} (laidOut : block.LaidOut)
    (member : assignment ∈ block.body.attributes.values)
    (around : assignment.span.contains position = true) :
    (bindPresent block labels schema).attributeAt position = some assignment := by
  have searched := attributes_bindPresent_perm block labels schema
  rw [BoundBlock.attributeAt_eq_some_iff searched laidOut.attributes_apart]
  exact ⟨member, around⟩

/-- A descent ends at the block that owns an attribute around the position. -/
theorem BoundBlock.Innermost.eq_of_attribute {block : Block} {labels : List Label}
    {schema : BlockSchema} {position : Position} {deepest place : List Selection}
    {node owner : BoundBlock} {source : Block} {assignment : Attribute}
    (laidOut : block.LaidOut)
    (innermost : (bindPresent block labels schema).Innermost position deepest node)
    (selected : (bindPresent block labels schema).at? place = some owner)
    (present : owner.source = some source)
    (member : assignment ∈ source.body.attributes.values)
    (around : assignment.span.contains position = true) :
    place = deepest ∧ owner = node ∧ owner.attributeAt position = some assignment := by
  obtain ⟨_, ownLabels, declared, ownLaidOut, rfl⟩ :=
    exists_laidOut_of_at? place laidOut selected
  rw [bindPresent_source] at present
  cases present
  have aroundOwner : (bindPresent block labels schema).Around position place := by
    refine ⟨_, selected, ?_⟩
    rw [contains_bindPresent]
    exact ownLaidOut.contains_of_attribute member around
  have initial : place <+: deepest := by
    by_cases atRoot : place = []
    · exact atRoot ▸ List.nil_prefix
    · exact (innermost.chain place atRoot).1 aroundOwner
  obtain ⟨further, rfl⟩ := initial
  -- A way that goes on leads into a nested block around the position, which the
  -- attribute keeps apart from.
  have ends : further = [] := by
    cases further with
    | nil => rfl
    | cons selection deeper =>
        have onTheWay : place ++ [selection] <+: place ++ selection :: deeper := by
          rw [List.prefix_append_right_inj, List.cons_prefix_cons]
          exact ⟨rfl, List.nil_prefix⟩
        have station :
            (bindPresent block labels schema).Around position (place ++ [selection]) :=
          (innermost.chain _ (by simp)).2 onTheWay
        obtain ⟨inner, toInner, aroundInner⟩ := station
        rw [BoundBlock.at?_append, selected] at toInner
        obtain ⟨_, here, same⟩ := BoundBlock.at?_cons_eq_some_iff.1 toInner
        cases same
        obtain ⟨nested, child, childMember, rfl⟩ := exists_of_child?_bindPresent here
        unfold bindNested at aroundInner
        rw [contains_bindPresent] at aroundInner
        have keepApart := ownLaidOut.attribute_apart_child member childMember
        exact absurd aroundInner (keepApart.not_contains around)
  subst ends
  rw [List.append_nil] at innermost ⊢
  refine ⟨rfl, ?_, attributeAt_of_laidOut ownLaidOut member around⟩
  exact Option.some.inj (selected.symm.trans innermost.selected)

/-! ## The cursor -/

/-- What a descent from `root` finds around a position. -/
structure BoundBlock.Resolves (root : BoundBlock) (position : Position) : Prop where
  /-- Of two places below the root around the position, one stands inside the other. -/
  chain :
    ∀ first second, root.AroundBelow position first → root.AroundBelow position second →
      first <+: second ∨ second <+: first
  nothing : root.blockAt position = none ↔ ∀ place, ¬ root.AroundBelow position place
  /-- What is found stands at the deepest of these places. -/
  deepest :
    ∀ found, root.blockAt position = some found →
      ∃ place, root.AroundBelow position place ∧ root.at? place = some found ∧
        ∀ other, root.AroundBelow position other → other <+: place
  /-- An attribute around the position belongs to the block that is found, or to the
  root when nothing is, and is the one looked up there. -/
  owner :
    ∀ place owner source assignment,
      root.at? place = some owner → owner.source = some source →
        assignment ∈ source.body.attributes.values →
        assignment.span.contains position = true →
        (root.blockAt position).getD root = owner ∧
          owner.attributeAt position = some assignment ∧
          (root.blockAt position = none ↔ place = []) ∧
          ∀ other, root.AroundBelow position other → other <+: place

theorem BoundBlock.Innermost.prefix_of_aroundBelow {root node : BoundBlock}
    {position : Position} {deepest other : List Selection}
    (innermost : root.Innermost position deepest node)
    (below : root.AroundBelow position other) : other <+: deepest :=
  (innermost.chain other below.1).1 below.2

theorem BoundBlock.Innermost.aroundBelow {root node : BoundBlock} {position : Position}
    {deepest : List Selection} (innermost : root.Innermost position deepest node)
    (notRoot : deepest ≠ []) : root.AroundBelow position deepest :=
  ⟨notRoot, (innermost.chain deepest notRoot).2 List.prefix_rfl⟩

/-- In a laid-out tree, bound as it is, the bound blocks around a position form a chain, a
descent ends at the deepest of them, and any attribute around the position is found there. -/
theorem bindBlock_resolves (block : Block) (labels : List Label) (schema : BlockSchema)
    (position : Position) (laidOut : block.LaidOut) :
    (bindBlock (some block) labels (some schema)).source = some block ∧
      (bindBlock (some block) labels (some schema)).Resolves position := by
  have bound :
      bindBlock (some block) labels (some schema) = bindPresent block labels schema :=
    rfl
  rw [bound]
  obtain ⟨deepest, node, innermost⟩ := exists_innermost position block labels schema laidOut
  refine ⟨bindPresent_source block labels schema, ?_, ?_, ?_, ?_⟩
  · intro first second aroundFirst aroundSecond
    exact List.prefix_or_prefix_of_prefix (innermost.prefix_of_aroundBelow aroundFirst)
      (innermost.prefix_of_aroundBelow aroundSecond)
  · rw [innermost.nothing]
    constructor
    · rintro rfl place below
      exact below.1 (List.prefix_nil.1 (innermost.prefix_of_aroundBelow below))
    · intro empty
      by_contra notRoot
      exact empty deepest (innermost.aroundBelow notRoot)
  · intro found descends
    have notRoot : deepest ≠ [] := by
      intro atRoot
      rw [innermost.nothing.2 atRoot] at descends
      cases descends
    have ends : found = node := by
      have descent := innermost.found
      rw [descends, Option.getD_some] at descent
      exact descent
    subst ends
    exact ⟨deepest, innermost.aroundBelow notRoot, innermost.selected, fun _ below =>
      innermost.prefix_of_aroundBelow below⟩
  · intro place owner source assignment selected present member around
    obtain ⟨rfl, rfl, lookUp⟩ :=
      innermost.eq_of_attribute laidOut selected present member around
    exact ⟨innermost.found, lookUp, innermost.nothing, fun _ below =>
      innermost.prefix_of_aroundBelow below⟩

/-! ## A network with two links -/

/-- The bytes from `start` up to `stop` of a file with one line. -/
def lineSpan (start stop : Nat) : Span :=
  { file := "main.conf"
    start := { line := 1, column := start + 1, byte := start }
    stop := { line := 1, column := stop + 1, byte := stop } }

/-- A block on one line whose type name starts at `start` and whose braces enclose the
bytes from `brace` up to `stop`. -/
def lineBlock (typeName : String) (start brace stop : Nat) (attributes : List Attribute)
    (blocks : List Block) : Block :=
  Block.unlabelled typeName (lineSpan start brace)
    { attributes := NamedMap.fileAll Attribute.name attributes {}
      blocks
      span := lineSpan brace stop
      endSpan := lineSpan stop stop }

def lineAttribute (name : String) (start stop : Nat) : Attribute :=
  { (default : Attribute) with name, span := lineSpan start stop }

/-- The second link starts on the byte after the first one. -/
def networkLine : Block :=
  lineBlock "network" 0 8 32 [lineAttribute "mtu" 9 14]
    [lineBlock "link" 15 19 21 [] [],
      lineBlock "link" 21 25 31 [lineAttribute "up" 26 30] []]

def networkSchema : BlockSchema :=
  { nested := ⟨[("link", { typeName := "link", nesting := .list, block := {} })]⟩ }

theorem networkLine_laidOut : networkLine.LaidOut := by
  refine .intro (by decide) (by decide) (by decide) (by decide) ?_
  intro link member
  rcases List.mem_cons.1 member with rfl | later
  · exact .intro (by decide) (by decide) (by decide) (by decide) nofun
  · cases List.mem_singleton.1 later
    exact .intro (by decide) (by decide) (by decide) (by decide) nofun

/-- The descent to the first byte of the second link. -/
theorem networkLine_resolves :
    networkLine.LaidOut ∧
      (bindBlock (some networkLine) [] (some networkSchema)).source = some networkLine ∧
      (bindBlock (some networkLine) [] (some networkSchema)).Resolves
        (lineSpan 21 22).start :=
  ⟨networkLine_laidOut, bindBlock_resolves _ _ _ _ networkLine_laidOut⟩

end SchemaBinding
