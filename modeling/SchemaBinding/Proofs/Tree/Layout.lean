import SchemaBinding.Tree.Basic

/-!
Contract: trees whose spans nest and keep apart, as those read from one file do.

Owns:
- `Span.Inside` and `Span.Apart`, told by bytes and half-open, and decided by bounds;
- `Block.LaidOut`, the layout of a tree at every depth; and
- the uniqueness of whatever lies around a place among spans that keep apart.

Does not own: any reading of configuration text. That a reader lays its trees out in
this way is an assumption of whoever uses it.
-/

set_option autoImplicit false

namespace SchemaBinding

namespace Span

/-- Every byte of the first span is a byte of the second. -/
def Inside (inner outer : Span) : Prop :=
  ∀ offset, inner.containsOffset offset = true → outer.containsOffset offset = true

/-- No byte belongs to both spans. -/
def Apart (first second : Span) : Prop :=
  ∀ offset, ¬ (first.containsOffset offset = true ∧ second.containsOffset offset = true)

theorem Inside.contains {inner outer : Span} (inside : inner.Inside outer)
    {position : Position} (around : inner.contains position = true) :
    outer.contains position = true :=
  inside position.byte around

theorem Apart.not_contains {first second : Span} (apart : first.Apart second)
    {position : Position} (aroundFirst : first.contains position = true) :
    ¬ second.contains position = true :=
  fun aroundSecond => apart position.byte ⟨aroundFirst, aroundSecond⟩

theorem Apart.symm {first second : Span} (apart : first.Apart second) : second.Apart first :=
  fun offset both => apart offset both.symm

theorem containsOffset_iff {span : Span} {offset : Nat} :
    span.containsOffset offset = true ↔
      span.start.byte ≤ offset ∧ offset < span.stop.byte := by
  rw [containsOffset, Bool.and_eq_true, decide_eq_true_eq, decide_eq_true_eq]

/-- A span with a byte lies inside another when its bounds do. -/
theorem inside_iff {inner outer : Span} :
    inner.Inside outer ↔
      inner.start.byte < inner.stop.byte →
        outer.start.byte ≤ inner.start.byte ∧ inner.stop.byte ≤ outer.stop.byte := by
  constructor
  · intro inside nonempty
    have first := containsOffset_iff.1
      (inside inner.start.byte (containsOffset_iff.2 ⟨Nat.le_refl _, nonempty⟩))
    have last := containsOffset_iff.1
      (inside (inner.stop.byte - 1) (containsOffset_iff.2 (by omega)))
    omega
  · intro bounds offset inInner
    rw [containsOffset_iff] at inInner ⊢
    omega

/-- Two spans with bytes keep apart when one ends before the other starts. -/
theorem apart_iff {first second : Span} :
    first.Apart second ↔
      first.start.byte < first.stop.byte → second.start.byte < second.stop.byte →
        first.stop.byte ≤ second.start.byte ∨ second.stop.byte ≤ first.start.byte := by
  constructor
  · intro apart firstNonempty secondNonempty
    have common := apart (max first.start.byte second.start.byte)
    rw [containsOffset_iff, containsOffset_iff] at common
    omega
  · intro order offset both
    rw [containsOffset_iff, containsOffset_iff] at both
    omega

instance (inner outer : Span) : Decidable (inner.Inside outer) :=
  decidable_of_iff _ inside_iff.symm

instance (first second : Span) : Decidable (first.Apart second) :=
  decidable_of_iff _ apart_iff.symm

end Span

/-! ## One at most around a place -/

section

variable {α : Type} {span : α → Span} {items : List α} {position : Position}

/-- Among items whose spans keep apart, only one can lie around a place. -/
theorem index_unique_of_apart
    (apart : items.Pairwise fun first second => (span first).Apart (span second))
    {index other : Nat} {item otherItem : α} (here : items[index]? = some item)
    (there : items[other]? = some otherItem)
    (around : (span item).contains position = true)
    (aroundOther : (span otherItem).contains position = true) : index = other := by
  obtain ⟨indexLt, rfl⟩ := List.getElem?_eq_some_iff.1 here
  obtain ⟨otherLt, rfl⟩ := List.getElem?_eq_some_iff.1 there
  rcases Nat.lt_trichotomy index other with before | same | after
  · have keepApart := List.pairwise_iff_getElem.1 apart index other indexLt otherLt before
    exact absurd aroundOther (keepApart.not_contains around)
  · exact same
  · have keepApart := List.pairwise_iff_getElem.1 apart other index otherLt indexLt after
    exact absurd around (keepApart.not_contains aroundOther)

theorem eq_of_apart
    (apart : items.Pairwise fun first second => (span first).Apart (span second))
    {item other : α} (member : item ∈ items) (otherMember : other ∈ items)
    (around : (span item).contains position = true)
    (aroundOther : (span other).contains position = true) : item = other := by
  obtain ⟨index, here⟩ := List.getElem?_of_mem member
  obtain ⟨otherIndex, there⟩ := List.getElem?_of_mem otherMember
  have same := index_unique_of_apart apart here there around aroundOther
  rw [same, there] at here
  exact (Option.some.inj here).symm

/-- Among items whose spans keep apart, the first one around a place is the only one. -/
theorem find?_eq_some_iff_of_apart
    (apart : items.Pairwise fun first second => (span first).Apart (span second)) {item : α} :
    items.find? (fun other => (span other).contains position) = some item ↔
      item ∈ items ∧ (span item).contains position = true := by
  constructor
  · intro found
    exact ⟨List.mem_of_find?_eq_some found, by simpa using List.find?_some found⟩
  · rintro ⟨member, around⟩
    cases lookUp : items.find? fun other => (span other).contains position with
    | none => exact absurd around (List.find?_eq_none.1 lookUp item member)
    | some first =>
        have aroundFirst : (span first).contains position = true := by
          simpa using List.find?_some lookUp
        rw [eq_of_apart apart (List.mem_of_find?_eq_some lookUp) member aroundFirst around]

end

/-! ## Laid-out trees -/

/-- The body lies inside the block, what the body holds lies inside the body and keeps
apart, and the nested blocks are laid out in turn. -/
inductive Block.LaidOut : Block → Prop where
  | intro {block : Block}
      (body : block.body.span.Inside block.span)
      (attributes : ∀ assignment ∈ block.body.attributes.values,
        assignment.span.Inside block.body.span)
      (blocks : ∀ child ∈ block.body.blocks, child.span.Inside block.body.span)
      (apart : (block.body.attributes.values.map Attribute.span
        ++ block.body.blocks.map Block.span).Pairwise Span.Apart)
      (nested : ∀ child ∈ block.body.blocks, Block.LaidOut child) :
      Block.LaidOut block

namespace Block.LaidOut

variable {block : Block} {position : Position}

theorem nested (laidOut : block.LaidOut) {child : Block}
    (member : child ∈ block.body.blocks) : child.LaidOut := by
  cases laidOut with
  | intro _ _ _ _ nested => exact nested child member

theorem contains_of_child (laidOut : block.LaidOut) {child : Block}
    (member : child ∈ block.body.blocks) (around : child.span.contains position = true) :
    block.span.contains position = true := by
  cases laidOut with
  | intro body _ blocks _ _ => exact body.contains ((blocks child member).contains around)

theorem contains_of_attribute (laidOut : block.LaidOut) {assignment : Attribute}
    (member : assignment ∈ block.body.attributes.values)
    (around : assignment.span.contains position = true) :
    block.span.contains position = true := by
  cases laidOut with
  | intro body attributes _ _ _ =>
      exact body.contains ((attributes assignment member).contains around)

theorem blocks_apart (laidOut : block.LaidOut) :
    block.body.blocks.Pairwise fun first second => first.span.Apart second.span := by
  cases laidOut with
  | intro _ _ _ apart _ =>
      have spans := (List.pairwise_append.1 apart).2.1
      exact List.pairwise_map.1 spans

theorem attributes_apart (laidOut : block.LaidOut) :
    block.body.attributes.values.Pairwise fun first second =>
      first.span.Apart second.span := by
  cases laidOut with
  | intro _ _ _ apart _ =>
      have spans := (List.pairwise_append.1 apart).1
      exact List.pairwise_map.1 spans

theorem attribute_apart_child (laidOut : block.LaidOut) {assignment : Attribute}
    (attributeMember : assignment ∈ block.body.attributes.values) {child : Block}
    (childMember : child ∈ block.body.blocks) : assignment.span.Apart child.span := by
  cases laidOut with
  | intro _ _ _ apart _ =>
      have across := (List.pairwise_append.1 apart).2.2
      exact across _ (List.mem_map_of_mem attributeMember) _
        (List.mem_map_of_mem childMember)

end Block.LaidOut

end SchemaBinding
