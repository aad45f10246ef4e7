import Mathlib.Data.List.Forall2
import SchemaBinding.Proofs.NamedList.Reordering
import SchemaBinding.Tree.Basic

/-!
Contract: what equality of blocks leaves open and what it asks for.

Owns:
- `Block.frame`, a block with nothing in its body; and
- `Block.Reordering`, to which equality of blocks comes down: attributes in any order, and
  nested blocks pairwise equal in their order.

Does not own: equality of handles.
-/

set_option autoImplicit false

namespace SchemaBinding

namespace Block

/-- The block with nothing in its body: what remains are its type, its labels and all
spans. -/
def frame (block : Block) : Block :=
  { block with body := { block.body with attributes := {}, blocks := [] } }

/-- The second block is the first one with its attributes reordered, and so on in the
nested blocks, which keep their order. -/
structure Reordering (first second : Block) : Prop where
  frame : first.frame = second.frame
  attributes : first.body.attributes.entries.Perm second.body.attributes.entries
  blocks :
    List.Forall₂ (fun child other : Block => (child == other) = true) first.body.blocks
      second.body.blocks

namespace Reordering

variable {first second : Block}

theorem typeName (same : first.Reordering second) : first.typeName = second.typeName := by
  show first.frame.typeName = second.frame.typeName
  rw [same.frame]

theorem typeSpan (same : first.Reordering second) : first.typeSpan = second.typeSpan := by
  show first.frame.typeSpan = second.frame.typeSpan
  rw [same.frame]

theorem span (same : first.Reordering second) : first.span = second.span := by
  show first.frame.span = second.frame.span
  rw [same.frame]

theorem labels (same : first.Reordering second) : first.labels = second.labels := by
  show first.frame.labels = second.frame.labels
  rw [same.frame]

end Reordering

/-! ## Equality told part by part -/

theorem allAlike_iff_forall₂ (first second : List Block) :
    allAlike first second = true ↔
      List.Forall₂ (fun child other : Block => (child == other) = true) first second := by
  induction first generalizing second with
  | nil =>
      cases second with
      | nil => exact ⟨fun _ => .nil, fun _ => rfl⟩
      | cons other others => exact ⟨nofun, nofun⟩
  | cons child rest inductionHypothesis =>
      cases second with
      | nil => exact ⟨nofun, nofun⟩
      | cons other others =>
          rw [allAlike, Bool.and_eq_true, inductionHypothesis, List.forall₂_cons]
          exact Iff.rfl

/-- Two blocks are equal when the one is a reordering of the other. -/
theorem beq_iff_reordering {first second : Block} :
    (first == second) = true ↔ first.Reordering second := by
  obtain ⟨typeName, labelValues, ⟨attributes, blocks, span, endSpan⟩, typeSpan, labelSpans,
    openBrace, closeBrace⟩ := first
  obtain ⟨otherName, otherValues, ⟨otherAttributes, otherBlocks, otherSpan, otherEnd⟩,
    otherTypeSpan, otherLabelSpans, otherOpen, otherClose⟩ := second
  show Block.alike _ _ = true ↔ _
  rw [Block.alike, Body.alike]
  simp only [Bool.and_eq_true, beq_iff_eq, allAlike_iff_forall₂]
  rw [NamedList.alike_iff_perm attributes.distinct]
  constructor
  · rintro ⟨⟨⟨⟨⟨⟨rfl, rfl⟩, ⟨⟨reordered, nested⟩, rfl⟩, rfl⟩, rfl⟩, rfl⟩, rfl⟩, rfl⟩
    exact ⟨rfl, reordered, nested⟩
  · rintro ⟨frame, reordered, nested⟩
    simp only [Block.frame, Block.mk.injEq, Body.mk.injEq] at frame
    obtain ⟨rfl, rfl, ⟨_, _, rfl, rfl⟩, rfl, rfl, rfl, rfl⟩ := frame
    exact ⟨⟨⟨⟨⟨⟨rfl, rfl⟩, ⟨⟨reordered, nested⟩, rfl⟩, rfl⟩, rfl⟩, rfl⟩, rfl⟩, rfl⟩

end Block

end SchemaBinding
