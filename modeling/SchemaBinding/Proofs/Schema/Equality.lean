import SchemaBinding.Proofs.NamedList.Reordering
import SchemaBinding.Schema.Basic

/-!
Contract: what equality of schemas leaves open and what it asks for.

Owns:
- `BlockSchema.TypesDistinct`, by which no nested type is declared twice, at any depth;
- `BlockSchema.frame`, a schema with nothing declared in it; and
- `BlockSchema.Reordering`, to which equality of schemas comes down: declarations in any
  order, equal name by name.

Does not own: schemas that only agree in their names.
-/

set_option autoImplicit false

namespace SchemaBinding

/-- At every depth, nested types are declared under distinct names. -/
inductive BlockSchema.TypesDistinct : BlockSchema → Prop where
  | intro {schema : BlockSchema}
      (nested : schema.nested.Distinct)
      (inner : ∀ entry ∈ schema.nested.entries, BlockSchema.TypesDistinct entry.2.block) :
      BlockSchema.TypesDistinct schema

namespace BlockSchema

namespace TypesDistinct

variable {schema : BlockSchema}

theorem nested (distinct : schema.TypesDistinct) : schema.nested.Distinct := by
  cases distinct with
  | intro nested _ => exact nested

theorem inner (distinct : schema.TypesDistinct) {typeName : String} {declared : NestedSchema}
    (found : schema.nested.find? typeName = some declared) :
    declared.block.TypesDistinct := by
  cases distinct with
  | intro _ inner => exact inner _ (NamedList.mem_entries_of_find? found)

end TypesDistinct

/-- The schema with nothing declared in it: what remains is said of the block itself. -/
def frame (schema : BlockSchema) : BlockSchema :=
  { schema with attributes := {}, nested := {} }

/-- The second schema is the first one with its declarations reordered, and so on in the
schemas of nested types. -/
structure Reordering (first second : BlockSchema) : Prop where
  frame : first.frame = second.frame
  attributes : first.attributes.entries.Perm second.attributes.entries
  types : first.nested.names.Perm second.nested.names
  nested : ∀ typeName declared other,
    first.nested.find? typeName = some declared →
      second.nested.find? typeName = some other → (declared == other) = true

end BlockSchema

/-! ## Equality told part by part -/

theorem NestedSchema.eachAlike_iff (entries : List (String × NestedSchema))
    (others : NamedList NestedSchema) :
    NestedSchema.eachAlike entries others = true ↔
      ∀ entry ∈ entries, ∃ other,
        others.find? entry.1 = some other ∧ (entry.2 == other) = true := by
  induction entries with
  | nil => exact ⟨fun _ => nofun, fun _ => rfl⟩
  | cons entry rest inductionHypothesis =>
      obtain ⟨typeName, declared⟩ := entry
      rw [NestedSchema.eachAlike, Bool.and_eq_true, inductionHypothesis, List.forall_mem_cons]
      apply and_congr_left
      intro _
      cases others.find? typeName with
      | none => simp
      | some other => simp [BEq.beq]

/-- Equal nested types have equal schemas. -/
theorem NestedSchema.block_beq {declared other : NestedSchema}
    (same : (declared == other) = true) : (declared.block == other.block) = true := by
  obtain ⟨typeName, nesting, block, minItems, maxItems⟩ := declared
  change NestedSchema.alike _ other = true at same
  rw [NestedSchema.alike, Bool.and_eq_true, Bool.and_eq_true, Bool.and_eq_true] at same
  exact same.1.1.2

namespace BlockSchema

variable {first second : BlockSchema}

/-- Two schemas are equal when the one is a reordering of the other. -/
theorem beq_iff_reordering (distinct : first.TypesDistinct) :
    (first == second) = true ↔ first.Reordering second := by
  have nestedDistinct := distinct.nested
  obtain ⟨attributes, ⟨nested⟩, description, deprecated⟩ := first
  obtain ⟨otherAttributes, otherNested, otherDescription, otherDeprecated⟩ := second
  show BlockSchema.alike _ _ = true ↔ _
  rw [BlockSchema.alike]
  simp only [Bool.and_eq_true, beq_iff_eq, NestedSchema.eachAlike_iff]
  rw [NamedList.alike_iff_perm attributes.distinct]
  have inner := NamedList.each_found_iff nestedDistinct otherNested
    fun declared other : NestedSchema => (declared == other) = true
  constructor
  · rintro ⟨⟨⟨⟨reordered, size⟩, each⟩, rfl⟩, rfl⟩
    obtain ⟨types, same⟩ := inner.1 ⟨size, each⟩
    exact ⟨rfl, reordered, types, same⟩
  · rintro ⟨frame, reordered, types, same⟩
    simp only [BlockSchema.frame, BlockSchema.mk.injEq] at frame
    obtain ⟨_, _, rfl, rfl⟩ := frame
    obtain ⟨size, each⟩ := inner.2 ⟨types, same⟩
    exact ⟨⟨⟨⟨reordered, size⟩, each⟩, rfl⟩, rfl⟩

namespace Reordering

/-- Attributes are declared under the same names by the same schemas. -/
theorem find?_attribute (same : first.Reordering second) (name : String) :
    first.attributes.find? name = second.attributes.find? name :=
  NamedList.find?_eq_of_perm first.attributes.distinct same.attributes name

theorem contains_nested (same : first.Reordering second) (typeName : String) :
    first.nested.contains typeName = second.nested.contains typeName :=
  NamedList.contains_eq_of_mem_names_iff same.types.mem_iff

/-- A nested type that one of the schemas declares is declared by an equal schema in the
other. -/
theorem find?_nested (same : first.Reordering second) {typeName : String}
    {declared : NestedSchema} (found : first.nested.find? typeName = some declared) :
    ∃ other, second.nested.find? typeName = some other ∧ (declared == other) = true := by
  obtain ⟨other, foundOther⟩ :=
    NamedList.exists_find?_of_names_subset same.types.subset found
  exact ⟨other, foundOther, same.nested typeName declared other found foundOther⟩

end Reordering

end BlockSchema

end SchemaBinding
