import SchemaBinding.Schema.Basic

/-!
Contract: schemas compared by nothing but the names that they declare.

Owns:
- `BlockSchema.Extends`, by which one schema declares whatever another does, at every
  depth;
- `BlockSchema.AddsAttributes`, by which it does so with the same nested types; and
- `BlockSchema.SameNames`, by which two schemas declare the same names at every depth.

Does not own: what is said under a name. Schemas of the same names may differ in every
type, description, flag, nesting and item count, and in the order of their declarations.
-/

set_option autoImplicit false

namespace SchemaBinding

namespace BlockSchema

/-- Whatever the narrow schema declares is declared by the wide one too, and so on in the
schemas of nested block types. -/
inductive Extends : BlockSchema → BlockSchema → Prop where
  | intro {wide narrow : BlockSchema}
      (attributes : narrow.attributes.names ⊆ wide.attributes.names)
      (nested : narrow.nested.names ⊆ wide.nested.names)
      (inner : ∀ typeName declared other,
        narrow.nested.find? typeName = some declared →
          wide.nested.find? typeName = some other → Extends other.block declared.block) :
      Extends wide narrow

/-- The schemas declare the same types of nested blocks, and the wide one whatever attributes
the narrow one declares, and so on in the schemas of these types. -/
inductive AddsAttributes : BlockSchema → BlockSchema → Prop where
  | intro {wide narrow : BlockSchema}
      (attributes : narrow.attributes.names ⊆ wide.attributes.names)
      (nested : ∀ typeName, typeName ∈ narrow.nested.names ↔ typeName ∈ wide.nested.names)
      (inner : ∀ typeName declared other,
        narrow.nested.find? typeName = some declared →
          wide.nested.find? typeName = some other →
            AddsAttributes other.block declared.block) :
      AddsAttributes wide narrow

/-- The two schemas declare attributes of the same names and nested blocks of the same
types, and so on in the schemas of these types. -/
inductive SameNames : BlockSchema → BlockSchema → Prop where
  | intro {first second : BlockSchema}
      (attributes : ∀ name, name ∈ first.attributes.names ↔ name ∈ second.attributes.names)
      (nested : ∀ typeName, typeName ∈ first.nested.names ↔ typeName ∈ second.nested.names)
      (inner : ∀ typeName declared other,
        first.nested.find? typeName = some declared →
          second.nested.find? typeName = some other → SameNames declared.block other.block) :
      SameNames first second

/-! ## Look-ups in a wider schema -/

namespace Extends

variable {wide narrow : BlockSchema}

theorem contains_attribute (wider : wide.Extends narrow) {name : String}
    (declared : narrow.attributes.contains name = true) :
    wide.attributes.contains name = true := by
  cases wider with
  | intro attributes _ _ =>
      rw [← NamedList.mem_names_iff] at declared ⊢
      exact attributes declared

theorem contains_nested (wider : wide.Extends narrow) {typeName : String}
    (declared : narrow.nested.contains typeName = true) :
    wide.nested.contains typeName = true := by
  cases wider with
  | intro _ nested _ =>
      rw [← NamedList.mem_names_iff] at declared ⊢
      exact nested declared

/-- A declared type is declared in the wider schema by a wider schema. -/
theorem find?_nested (wider : wide.Extends narrow) {typeName : String}
    {declared : NestedSchema} (found : narrow.nested.find? typeName = some declared) :
    ∃ other, wide.nested.find? typeName = some other ∧
      other.block.Extends declared.block := by
  cases wider with
  | intro _ nested inner =>
      obtain ⟨other, foundOther⟩ := NamedList.exists_find?_of_names_subset nested found
      exact ⟨other, foundOther, inner typeName declared other found foundOther⟩

end Extends

/-! ## Look-ups where attributes are added -/

namespace AddsAttributes

variable {wide narrow : BlockSchema}

theorem extends_narrow (adds : wide.AddsAttributes narrow) : wide.Extends narrow := by
  induction adds with
  | intro attributes nested _ inductionHypothesis =>
      exact .intro attributes (fun typeName => (nested typeName).1) inductionHypothesis

theorem contains_nested (adds : wide.AddsAttributes narrow) (typeName : String) :
    wide.nested.contains typeName = narrow.nested.contains typeName := by
  cases adds with
  | intro _ nested _ => exact NamedList.contains_eq_of_mem_names_iff (nested typeName).symm

/-- A type is declared in both schemas, by schemas that again differ in added attributes
only. -/
theorem find?_nested (adds : wide.AddsAttributes narrow) {typeName : String}
    {declared : NestedSchema} (found : narrow.nested.find? typeName = some declared) :
    ∃ other, wide.nested.find? typeName = some other ∧
      other.block.AddsAttributes declared.block := by
  cases adds with
  | intro _ nested inner =>
      obtain ⟨other, foundOther⟩ :=
        NamedList.exists_find?_of_names_subset (fun name => (nested name).1) found
      exact ⟨other, foundOther, inner typeName declared other found foundOther⟩

end AddsAttributes

/-! ## Look-ups in schemas of the same names -/

namespace SameNames

variable {first second : BlockSchema}

protected theorem symm (same : first.SameNames second) : second.SameNames first := by
  induction same with
  | intro attributes nested _ inductionHypothesis =>
      apply intro
      · exact fun name => (attributes name).symm
      · exact fun typeName => (nested typeName).symm
      · intro typeName declared other found foundOther
        exact inductionHypothesis typeName other declared foundOther found

theorem contains_attribute (same : first.SameNames second) (name : String) :
    first.attributes.contains name = second.attributes.contains name := by
  cases same with
  | intro attributes _ _ => exact NamedList.contains_eq_of_mem_names_iff (attributes name)

theorem contains_nested (same : first.SameNames second) (typeName : String) :
    first.nested.contains typeName = second.nested.contains typeName := by
  cases same with
  | intro _ nested _ => exact NamedList.contains_eq_of_mem_names_iff (nested typeName)

/-- A type declared by one of the schemas is declared by the other, with a schema of the
same names. -/
theorem find?_nested (same : first.SameNames second) {typeName : String}
    {declared : NestedSchema} (found : first.nested.find? typeName = some declared) :
    ∃ other, second.nested.find? typeName = some other ∧
      declared.block.SameNames other.block := by
  cases same with
  | intro _ nested inner =>
      obtain ⟨other, foundOther⟩ :=
        NamedList.exists_find?_of_names_subset (fun name => (nested name).1) found
      exact ⟨other, foundOther, inner typeName declared other found foundOther⟩

end SameNames

end BlockSchema

end SchemaBinding
