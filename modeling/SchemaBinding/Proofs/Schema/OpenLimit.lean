import SchemaBinding.Proofs.Schema.Presentation

/-!
Contract: how many lists and maps of a document may be open at once.

Owns:
- `Role.Opens`, by which a value opens so many lists and maps inside one another, in places
  that are read; and
- `BlockSchema.ofText_of_opens`, by which a text that opens more than the limit is no
  document.

Does not own: the values of unknown members, where nothing counts.
-/

set_option autoImplicit false

namespace SchemaBinding

open Json (ParseTree RecordLayout TextLexeme)
open Json.ParseTree (IsMap IsOptional IsValue)

/-! ## The values of a record -/

/-- A value stands for a field of a record. -/
inductive Json.RecordLayout.Stands (layout : RecordLayout) (field : layout.Field) :
    ParseTree → ParseTree → Prop where
  | byName {members : List (TextLexeme × ParseTree)} {key : TextLexeme} {value : ParseTree}
      (listed : (key, value) ∈ members) (decoded : key.text? = some (layout.name field)) :
      Stands layout field (.map members) value
  | byPlace {items : List ParseTree} {value : ParseTree}
      (found : items[layout.place field]? = some value) : Stands layout field (.list items) value

/-- What stands for a field is what the record gives for it. -/
theorem Json.RecordLayout.Gives.of_stands {layout : RecordLayout} {field : layout.Field}
    {tree value : ParseTree} {given : layout.Field → Option ParseTree}
    (gives : layout.Gives tree given) (stands : layout.Stands field tree value) :
    given field = some value := by
  cases stands with
  | byName listed decoded =>
      rename_i members key
      cases gives with
      | byName _ under =>
          have among : value ∈ Json.valuesUnder (layout.name field) members :=
            List.mem_filterMap.2 ⟨_, listed, if_pos decoded⟩
          rw [under field] at among
          exact Option.mem_toList.1 among
  | byPlace found =>
      cases gives with
      | byPlace _ placed => exact (placed field).symm.trans found

/-! ## Open lists and maps -/

theorem StatesBlock.pos {budget : Nat} {tree : ParseTree} {form : BlockForm}
    (states : StatesBlock budget tree form) : 0 < budget := by
  rw [statesBlock_eq] at states
  obtain ⟨rest, _, rfl, _⟩ := states
  exact Nat.succ_pos rest

namespace Role

/-- A value opens `depth` lists and maps inside one another, in places that are read. -/
inductive Opens : Role → ParseTree → Nat → Prop where
  | list {role : Role} {items : List ParseTree} : Opens role (.list items) 1
  | map {role : Role} {members : List (TextLexeme × ParseTree)} : Opens role (.map members) 1
  | attributes {tree value : ParseTree} {depth : Nat}
      (stands : blockLayout.Stands BlockField.attributes tree value)
      (deeper : Opens attributeMap value depth) : Opens block tree (depth + 1)
  | blockTypes {tree value : ParseTree} {depth : Nat}
      (stands : blockLayout.Stands BlockField.blockTypes tree value)
      (deeper : Opens nestedMap value depth) : Opens block tree (depth + 1)
  | attributeEntry {members : List (TextLexeme × ParseTree)}
      {member : TextLexeme × ParseTree} {depth : Nat} (listed : member ∈ members)
      (deeper : Opens attributeEntry member.2 depth) :
      Opens attributeMap (.map members) (depth + 1)
  | nestedEntry {members : List (TextLexeme × ParseTree)}
      {member : TextLexeme × ParseTree} {depth : Nat} (listed : member ∈ members)
      (deeper : Opens nestedEntry member.2 depth) :
      Opens nestedMap (.map members) (depth + 1)
  | innerBlock {tree value : ParseTree} {depth : Nat}
      (stands : nestedLayout.Stands NestedField.block tree value)
      (deeper : Opens block value depth) : Opens nestedEntry tree (depth + 1)
  | type {tree value : ParseTree}
      (stands : attributeLayout.Stands AttributeField.type tree value) :
      Opens attributeEntry tree (value.height + 1)

/-- What is left for the next block inside a value. -/
def left (budget : Nat) : Role → Nat
  | nestedMap => budget - 2
  | nestedEntry => budget - 1
  | block | attributeEntry | attributeMap => 0

/-- A value that is stated opens one list or map at least. -/
theorem States.pos {role : Role} {inner budget : Nat} {tree : ParseTree} {content : role.Content}
    (states : role.States inner budget tree content) : 0 < budget := by
  cases role with
  | block => exact StatesBlock.pos states
  | attributeEntry | nestedEntry =>
      obtain ⟨rest, _, rfl, _⟩ := states
      exact Nat.succ_pos rest
  | attributeMap | nestedMap =>
      obtain ⟨rest, _, _, rfl, _⟩ := states
      exact Nat.succ_pos rest

theorem Opens.ne_null {role : Role} {tree : ParseTree} {depth : Nat}
    (opens : role.Opens tree depth) : tree ≠ .word .null := by
  rintro rfl
  cases opens with
  | attributes stands _ => cases stands
  | blockTypes stands _ => cases stands
  | innerBlock stands _ => cases stands
  | type stands => cases stands

/-- No more lists and maps are open at once than the budget has. -/
theorem Opens.le_budget {role : Role} {tree : ParseTree} {depth : Nat}
    (opens : role.Opens tree depth) :
    ∀ {budget : Nat} {content : role.Content},
      role.States (role.left budget) budget tree content → depth ≤ budget := by
  induction opens with
  | list => exact States.pos
  | map => exact States.pos
  | attributes stands deeper inductionHypothesis =>
      intro budget content states
      rw [Role.States, statesBlock_eq] at states
      obtain ⟨rest, given, rfl, gives, attributes, _⟩ := states
      rw [gives.of_stands stands] at attributes
      exact Nat.succ_le_succ (inductionHypothesis attributes)
  | blockTypes stands deeper inductionHypothesis =>
      intro budget content states
      rw [Role.States, statesBlock_eq] at states
      obtain ⟨rest, given, rfl, gives, _, blockTypes, _⟩ := states
      rw [gives.of_stands stands] at blockTypes
      exact Nat.succ_le_succ (inductionHypothesis blockTypes)
  | attributeEntry listed deeper inductionHypothesis =>
      intro budget content states
      obtain ⟨rest, _, pairs, rfl, ⟨⟩, matched, _⟩ := states
      obtain ⟨pair, _, _, meant⟩ := Json.exists_mem_of_forall₂ matched.flip listed
      exact Nat.succ_le_succ (inductionHypothesis meant)
  | nestedEntry listed deeper inductionHypothesis =>
      intro budget content states
      obtain ⟨rest, _, pairs, rfl, ⟨⟩, matched, _⟩ := states
      obtain ⟨pair, _, _, meant⟩ := Json.exists_mem_of_forall₂ matched.flip listed
      exact Nat.succ_le_succ (inductionHypothesis meant)
  | innerBlock stands deeper inductionHypothesis =>
      intro budget content states
      obtain ⟨rest, given, rfl, gives, _, block, _⟩ := states
      rw [gives.of_stands stands] at block
      generalize content.block = inner at block
      cases block with
      | absent => exact absurd rfl deeper.ne_null
      | present _ meant => exact Nat.succ_le_succ (inductionHypothesis meant)
  | type stands =>
      intro budget content states
      obtain ⟨rest, given, rfl, gives, type, _⟩ := states
      rw [gives.of_stands stands] at type
      generalize content.type = value at type
      cases type with
      | absent => exact Nat.succ_le_succ (Nat.zero_le rest)
      | present _ meant => exact Nat.succ_le_succ meant.1

end Role

/-! ## Texts -/

/-- The list or map with number 128 is refused, wherever it stands in a place that is read. -/
theorem BlockSchema.ofText_of_opens {text : String} {tree : ParseTree} {depth : Nat}
    (spelled : tree.Spelled text.toList) (opens : Role.block.Opens tree depth)
    (tooDeep : 127 < depth) : ∃ message, ofText text = .error (.json message) := by
  apply ofText_of_not_documents
  rintro ⟨form, documents⟩
  have states : StatesBlock Json.openLimit tree form :=
    (documentForm_eq_ok_iff_of_spelled spelled).1 (documentForm_eq_ok_iff.2 documents)
  have low : depth ≤ 127 := opens.le_budget states
  omega

end SchemaBinding
