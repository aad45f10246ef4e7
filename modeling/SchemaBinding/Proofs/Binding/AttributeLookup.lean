import SchemaBinding.Proofs.Binding.Cursor

/-!
Contract: the attribute under a cursor and the schema that the block is bound against.

Owns:
- `attributes_bindBlock_perm`, by which every schema has the same attributes searched; and
- `attributeAt_bindBlock`, by which the schema has no part in what is looked up.

Does not own: attributes of nested blocks, which are never searched.

The declared attributes are searched first, so the order of the search changes with the
schema. Whether something is found does not, and where the attributes keep apart there is
only one that can be found.
-/

set_option autoImplicit false

namespace SchemaBinding

/-- The attributes searched are those of the body, in an order that the schema sets. -/
theorem attributes_bindBlock_perm (block : Block) (labels : List Label)
    (schema : Option BlockSchema) :
    (bindBlock (some block) labels schema).attributes.Perm block.body.attributes.values := by
  cases schema with
  | none => exact List.Perm.refl _
  | some declared => exact attributes_bindPresent_perm block labels declared

/-- A position is in an attribute when it is in one of those that are searched. -/
theorem BoundBlock.inAttribute_eq_true_iff {bound : BoundBlock} {attributes : List Attribute}
    {position : Position} (searched : bound.attributes.Perm attributes) :
    bound.inAttribute position = true ↔
      ∃ assignment ∈ attributes, assignment.span.contains position = true := by
  rw [inAttribute, attributeAt, List.find?_isSome]
  simp only [searched.mem_iff]

/-- Whether a position is in an attribute is told by the body alone. Where the attributes
of the body keep apart, so is the attribute: the only one around the position. -/
theorem attributeAt_bindBlock (block : Block) (labels : List Label) (position : Position)
    (first second : Option BlockSchema) :
    (bindBlock (some block) labels first).inAttribute position
        = (bindBlock (some block) labels second).inAttribute position ∧
      ((bindBlock (some block) labels first).inAttribute position = true ↔
        ∃ assignment ∈ block.body.attributes.values,
          assignment.span.contains position = true) ∧
      (block.body.attributes.values.Pairwise
          (fun assignment other => assignment.span.Apart other.span) →
        (bindBlock (some block) labels first).attributeAt position
            = (bindBlock (some block) labels second).attributeAt position ∧
          ∀ assignment,
            (bindBlock (some block) labels first).attributeAt position = some assignment ↔
              assignment ∈ block.body.attributes.values ∧
                assignment.span.contains position = true) := by
  have searched := attributes_bindBlock_perm block labels first
  have searchedAgain := attributes_bindBlock_perm block labels second
  refine ⟨?_, ?_, ?_⟩
  · rw [Bool.eq_iff_iff]
    simp only [BoundBlock.inAttribute_eq_true_iff searched,
      BoundBlock.inAttribute_eq_true_iff searchedAgain]
  · exact BoundBlock.inAttribute_eq_true_iff searched
  · intro apart
    constructor
    · apply Option.ext
      intro assignment
      rw [BoundBlock.attributeAt_eq_some_iff searched apart,
        BoundBlock.attributeAt_eq_some_iff searchedAgain apart]
    · intro assignment
      exact BoundBlock.attributeAt_eq_some_iff searched apart

/-- Two attributes on one line. The schema below declares the second of them, which it
therefore has searched first. -/
def hostLine : Block :=
  lineBlock "host" 0 5 30 [lineAttribute "name" 7 14, lineAttribute "port" 16 23] []

def portSchema : BlockSchema :=
  { attributes := { entries := [("port", { name := "port" })] } }

/-- With and without a schema the name of the host is found under its last byte. -/
theorem attributeAt_hostLine :
    hostLine.body.attributes.values.Pairwise
        (fun assignment other => assignment.span.Apart other.span) ∧
      (bindBlock (some hostLine) [] (some portSchema)).attributeAt (lineSpan 13 14).start
        = some (lineAttribute "name" 7 14) ∧
      (bindBlock (some hostLine) [] none).attributeAt (lineSpan 13 14).start
        = some (lineAttribute "name" 7 14) := by
  have apart :
      hostLine.body.attributes.values.Pairwise
        (fun assignment other => assignment.span.Apart other.span) := by
    decide
  obtain ⟨_, _, lookUp⟩ :=
    attributeAt_bindBlock hostLine [] (lineSpan 13 14).start (some portSchema) none
  obtain ⟨same, found⟩ := lookUp apart
  have name :
      (bindBlock (some hostLine) [] (some portSchema)).attributeAt (lineSpan 13 14).start
        = some (lineAttribute "name" 7 14) :=
    (found _).2 ⟨List.mem_cons_self, by decide⟩
  exact ⟨apart, name, same ▸ name⟩

end SchemaBinding
