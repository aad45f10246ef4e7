import SchemaBinding.Binding.Basic
import SchemaBinding.Proofs.NamedList.Reordering
import Mathlib.Data.List.Forall2

/-!
Contract: what equality of bound blocks leaves open and what it asks for.

Owns: `BoundBlock.Reordering`, to which equality of bound blocks comes down: attributes and
groups in any order, and the blocks of a group pairwise equal in their order.

Does not own: what equality of the sources and of the schemas asks for.
-/

set_option autoImplicit false

namespace SchemaBinding

theorem beq_iff_forall₂ {α : Type} [BEq α] (first second : List α) :
    (first == second) = true ↔
      List.Forall₂ (fun item other => (item == other) = true) first second := by
  induction first generalizing second with
  | nil =>
      cases second with
      | nil => simp
      | cons other rest => simp
  | cons item items inductionHypothesis =>
      cases second with
      | nil => simp
      | cons other rest => simp [inductionHypothesis]

namespace BoundBlock

/-- The second bound block is the first one with its attributes and its groups reordered,
and so on in the bound blocks of each group, which keep their order. -/
structure Reordering (first second : BoundBlock) : Prop where
  source : (first.source == second.source) = true
  labels : first.labels = second.labels
  schema : (first.schema == second.schema) = true
  knownAttributes : first.knownAttributes.entries.Perm second.knownAttributes.entries
  unknownAttributes : first.unknownAttributes.entries.Perm second.unknownAttributes.entries
  types : first.knownBlocks.names.Perm second.knownBlocks.names
  groups : ∀ typeName group other,
    first.knownBlocks.find? typeName = some group →
      second.knownBlocks.find? typeName = some other →
        (group.schema == other.schema) = true ∧
          List.Forall₂ (fun inner counterpart : BoundBlock => (inner == counterpart) = true)
            group.blocks other.blocks
  unknownBlocks :
    List.Forall₂ (fun child counterpart : Block => (child == counterpart) = true)
      first.unknownBlocks second.unknownBlocks

/-! ## Equality told part by part -/

theorem allAlike_iff_forall₂ (first second : List BoundBlock) :
    allAlike first second = true ↔
      List.Forall₂ (fun inner other : BoundBlock => (inner == other) = true) first second := by
  induction first generalizing second with
  | nil =>
      cases second with
      | nil => simp [allAlike]
      | cons other others => simp [allAlike]
  | cons inner rest inductionHypothesis =>
      cases second with
      | nil => simp [allAlike]
      | cons other others =>
          rw [allAlike, Bool.and_eq_true, inductionHypothesis, List.forall₂_cons]
          exact Iff.rfl

end BoundBlock

theorem BoundGroup.alike_iff (group other : BoundGroup) :
    group.alike other = true ↔
      (group.schema == other.schema) = true ∧
        List.Forall₂ (fun inner counterpart : BoundBlock => (inner == counterpart) = true)
          group.blocks other.blocks := by
  obtain ⟨schema, blocks⟩ := group
  rw [alike, Bool.and_eq_true, BoundBlock.allAlike_iff_forall₂]

theorem BoundGroup.eachAlike_iff (groups : List (String × BoundGroup))
    (others : NamedList BoundGroup) :
    BoundGroup.eachAlike groups others = true ↔
      ∀ entry ∈ groups, ∃ other,
        others.find? entry.1 = some other ∧ entry.2.alike other = true := by
  induction groups with
  | nil => simp [eachAlike]
  | cons entry rest inductionHypothesis =>
      obtain ⟨typeName, group⟩ := entry
      rw [eachAlike, Bool.and_eq_true, inductionHypothesis, List.forall_mem_cons]
      apply and_congr_left
      intro _
      cases others.find? typeName with
      | none => simp
      | some other => simp

namespace BoundBlock

/-- Two bound blocks are equal when the one is a reordering of the other. -/
theorem beq_iff_reordering {first second : BoundBlock} (distinct : first.knownBlocks.Distinct) :
    (first == second) = true ↔ first.Reordering second := by
  obtain ⟨source, labels, schema, knownAttributes, unknownAttributes, ⟨groups⟩, rest⟩ := first
  show BoundBlock.alike _ second = true ↔ _
  rw [BoundBlock.alike]
  simp only [Bool.and_eq_true, beq_iff_eq, BoundGroup.eachAlike_iff, beq_iff_forall₂]
  rw [NamedList.alike_iff_perm knownAttributes.distinct,
    NamedList.alike_iff_perm unknownAttributes.distinct]
  have inner := NamedList.each_found_iff distinct second.knownBlocks
    fun group other : BoundGroup => group.alike other = true
  constructor
  · rintro ⟨⟨⟨⟨⟨⟨⟨source, labels⟩, schema⟩, known⟩, unknown⟩, size⟩, each⟩, rest⟩
    obtain ⟨types, same⟩ := inner.1 ⟨size, each⟩
    refine ⟨source, labels, schema, known, unknown, types, ?_, rest⟩
    intro typeName group other found foundOther
    exact (BoundGroup.alike_iff group other).1 (same typeName group other found foundOther)
  · rintro ⟨source, labels, schema, known, unknown, types, same, rest⟩
    obtain ⟨size, each⟩ := inner.2 ⟨types, fun typeName group other found foundOther =>
      (BoundGroup.alike_iff group other).2 (same typeName group other found foundOther)⟩
    exact ⟨⟨⟨⟨⟨⟨⟨source, labels⟩, schema⟩, known⟩, unknown⟩, size⟩, each⟩, rest⟩

end BoundBlock

end SchemaBinding
