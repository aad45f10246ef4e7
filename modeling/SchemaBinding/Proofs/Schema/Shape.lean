import SchemaBinding.Schema.Basic

/-!
Contract: schemas whose declarations stand under their own names, and how deep they go.

Owns:
- `BlockSchema.Keyed`, by which names are distinct and are the names of what they name,
  at every depth; and
- `BlockSchema.depth`, the number of levels of nested blocks.

Does not own: where schemas come from.
-/

set_option autoImplicit false

namespace SchemaBinding

/-- At every depth, names are distinct, and every declaration stands under its own. The names
of attributes are distinct in any schema. -/
inductive BlockSchema.Keyed : BlockSchema → Prop where
  | intro {schema : BlockSchema}
      (attributes : ∀ entry ∈ schema.attributes.entries, entry.2.name = entry.1)
      (nestedDistinct : schema.nested.Distinct)
      (nested : ∀ entry ∈ schema.nested.entries, entry.2.typeName = entry.1)
      (inner : ∀ entry ∈ schema.nested.entries, BlockSchema.Keyed entry.2.block) :
      BlockSchema.Keyed schema

namespace BlockSchema.Keyed

variable {schema : BlockSchema}

theorem attribute_name (keyed : schema.Keyed) {entry : String × AttributeSchema}
    (member : entry ∈ schema.attributes.entries) : entry.2.name = entry.1 := by
  cases keyed with
  | intro attributes _ _ _ => exact attributes entry member

theorem nestedDistinct (keyed : schema.Keyed) : schema.nested.Distinct := by
  cases keyed with
  | intro _ nestedDistinct _ _ => exact nestedDistinct

theorem nested_typeName (keyed : schema.Keyed) {entry : String × NestedSchema}
    (member : entry ∈ schema.nested.entries) : entry.2.typeName = entry.1 := by
  cases keyed with
  | intro _ _ nested _ => exact nested entry member

theorem inner (keyed : schema.Keyed) {entry : String × NestedSchema}
    (member : entry ∈ schema.nested.entries) : entry.2.block.Keyed := by
  cases keyed with
  | intro _ _ _ inner => exact inner entry member

end BlockSchema.Keyed

/-! ## Depth -/

mutual

/-- The levels of nested blocks below a block, none for a block without nested types. -/
def BlockSchema.depth : BlockSchema → Nat
  | ⟨_, ⟨nested⟩, _, _⟩ => NestedSchema.deepest nested

def NestedSchema.depth : NestedSchema → Nat
  | ⟨_, _, block, _, _⟩ => block.depth + 1

def NestedSchema.deepest : List (String × NestedSchema) → Nat
  | [] => 0
  | (_, nested) :: rest => max nested.depth (NestedSchema.deepest rest)

end

theorem NestedSchema.depth_le_deepest {entry : String × NestedSchema} :
    ∀ {entries : List (String × NestedSchema)}, entry ∈ entries →
      entry.2.depth ≤ NestedSchema.deepest entries
  | (_, nested) :: rest, member => by
      rw [NestedSchema.deepest]
      rcases List.mem_cons.1 member with rfl | later
      · exact Nat.le_max_left _ _
      · exact Nat.le_trans (NestedSchema.depth_le_deepest later) (Nat.le_max_right _ _)

/-- A nested block lies one level below. -/
theorem BlockSchema.depth_lt_of_mem {schema : BlockSchema} {entry : String × NestedSchema}
    (member : entry ∈ schema.nested.entries) : entry.2.block.depth < schema.depth := by
  obtain ⟨_, ⟨entries⟩, _, _⟩ := schema
  have below : entry.2.depth ≤ NestedSchema.deepest entries :=
    NestedSchema.depth_le_deepest member
  obtain ⟨_, _, _, block, _, _⟩ := entry
  exact below

end SchemaBinding
