import SchemaBinding.Proofs.Json.Node
import SchemaBinding.Schema.Format

/-!
Contract: the text of a schema in the format of schema documents.

Owns:
- `BlockSchema.toText`, the compact text of a schema, with its members in a fixed order
  and its declarations in theirs;
- `Absence`, the two ways in which a document states nothing; and
- `BlockSchema.exact_toValue`, by which all its numbers are written exactly.

Does not own: the reading of documents. The names of members are spelled out here, and
not taken from the layouts that a reader goes by.
-/

set_option autoImplicit false

namespace SchemaBinding

open Json (Value)

/-- How a document states that an optional member has no value. -/
inductive Absence where
  | leftOut
  | null
  deriving DecidableEq, Repr

namespace Absence

/-- A member with the given value, if there is one. -/
def member (absence : Absence) (name : String) : Option Value → List (String × Value)
  | some value => [(name, value)]
  | none =>
      match absence with
      | leftOut => []
      | null => [(name, .null)]

end Absence

/-- A count in decimal. -/
def countValue (count : UInt64) : Value :=
  .number (.integer count.toNat)

def AttributeSchema.toValue (absence : Absence) (schema : AttributeSchema) : Value :=
  .map
    (absence.member "type" (schema.typeText.map .text)
      ++ absence.member "description" (schema.description.map .text)
      ++ [("required", .flag schema.required),
        ("optional", .flag schema.optional),
        ("computed", .flag schema.computed),
        ("sensitive", .flag schema.sensitive),
        ("deprecated", .flag schema.deprecated)])

mutual

def BlockSchema.toValue (absence : Absence) : BlockSchema → Value
  | ⟨attributes, ⟨nested⟩, description, deprecated⟩ =>
      .map
        ([("attributes",
            .map (attributes.entries.map fun entry => (entry.1, entry.2.toValue absence))),
          ("block_types", .map (NestedSchema.toMembers absence nested))]
          ++ absence.member "description" (description.map .text)
          ++ [("deprecated", .flag deprecated)])

def NestedSchema.toValue (absence : Absence) : NestedSchema → Value
  | ⟨_, nesting, block, minItems, maxItems⟩ =>
      .map
        ([("nesting_mode", .text nesting.text), ("block", block.toValue absence)]
          ++ absence.member "min_items" (minItems.map countValue)
          ++ absence.member "max_items" (maxItems.map countValue))

def NestedSchema.toMembers (absence : Absence) :
    List (String × NestedSchema) → List (String × Value)
  | [] => []
  | (name, nested) :: rest =>
      (name, nested.toValue absence) :: NestedSchema.toMembers absence rest

end

/-- The text of a schema. -/
def BlockSchema.toText (absence : Absence) (schema : BlockSchema) : String :=
  String.ofList (schema.toValue absence).render

theorem NestedSchema.toMembers_eq_map (absence : Absence) :
    ∀ entries : List (String × NestedSchema),
      NestedSchema.toMembers absence entries
        = entries.map fun entry => (entry.1, entry.2.toValue absence)
  | [] => rfl
  | (name, nested) :: rest => by
      rw [NestedSchema.toMembers, NestedSchema.toMembers_eq_map absence rest, List.map_cons]

/-! ## Numbers are written exactly -/

theorem exact_countValue (count : UInt64) : (countValue count).Exact := by
  have bound : count.toNat < Json.NumberLiteral.wordLimit := count.toNat_lt
  unfold countValue Value.Exact Json.FitsWord
  omega

theorem Absence.membersExact_member (absence : Absence) (name : String)
    {value? : Option Value} (exact : ∀ value, value? = some value → value.Exact) :
    Value.MembersExact (absence.member name value?) := by
  cases value? with
  | some value => exact ⟨exact value rfl, trivial⟩
  | none =>
      cases absence with
      | leftOut => trivial
      | null => exact ⟨trivial, trivial⟩

theorem exact_of_map_text {text? : Option String} {value : Value}
    (present : text?.map Value.text = some value) : value.Exact := by
  obtain ⟨text, _, rfl⟩ := Option.map_eq_some_iff.1 present
  trivial

theorem exact_of_map_count {count? : Option UInt64} {value : Value}
    (present : count?.map countValue = some value) : value.Exact := by
  obtain ⟨count, _, rfl⟩ := Option.map_eq_some_iff.1 present
  exact exact_countValue count

theorem AttributeSchema.exact_toValue (absence : Absence) (schema : AttributeSchema) :
    (schema.toValue absence).Exact := by
  refine Value.membersExact_append.2 ⟨Value.membersExact_append.2 ⟨?_, ?_⟩, ?_⟩
  · exact absence.membersExact_member _ fun _ => exact_of_map_text
  · exact absence.membersExact_member _ fun _ => exact_of_map_text
  · exact ⟨trivial, trivial, trivial, trivial, trivial, trivial⟩

theorem NestedSchema.exact_toValue {absence : Absence} {nested : NestedSchema}
    (exact : (nested.block.toValue absence).Exact) : (nested.toValue absence).Exact := by
  obtain ⟨_, _, _, _, _⟩ := nested
  refine Value.membersExact_append.2 ⟨Value.membersExact_append.2 ⟨?_, ?_⟩, ?_⟩
  · exact ⟨trivial, exact, trivial⟩
  · exact absence.membersExact_member _ fun _ => exact_of_map_count
  · exact absence.membersExact_member _ fun _ => exact_of_map_count

theorem BlockSchema.exact_toValue (absence : Absence) (schema : BlockSchema) :
    (schema.toValue absence).Exact := by
  induction schema using BlockSchema.inductionOn with
  | step schema inductionHypothesis =>
      obtain ⟨attributes, ⟨nested⟩, description, _⟩ := schema
      have attributesExact :
          Value.MembersExact
            (attributes.entries.map fun entry => (entry.1, entry.2.toValue absence)) := by
        refine Value.membersExact_iff.2 fun member written => ?_
        obtain ⟨entry, _, rfl⟩ := List.mem_map.1 written
        exact entry.2.exact_toValue absence
      have nestedExact : Value.MembersExact (NestedSchema.toMembers absence nested) := by
        rw [NestedSchema.toMembers_eq_map]
        refine Value.membersExact_iff.2 fun member written => ?_
        obtain ⟨entry, listed, rfl⟩ := List.mem_map.1 written
        exact NestedSchema.exact_toValue (inductionHypothesis entry listed)
      refine Value.membersExact_append.2 ⟨Value.membersExact_append.2 ⟨?_, ?_⟩, ?_⟩
      · exact ⟨attributesExact, nestedExact, trivial⟩
      · exact absence.membersExact_member _ fun _ => exact_of_map_text
      · exact ⟨trivial, trivial⟩

end SchemaBinding
