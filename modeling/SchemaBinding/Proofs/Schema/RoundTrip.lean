import SchemaBinding.Proofs.Json.Record
import SchemaBinding.Proofs.Schema.CanonicalText
import SchemaBinding.Proofs.Schema.Shape

/-!
Contract: a schema that has been written is read back.

Owns:
- the form of a schema, which its text is read as and which makes the schema again;
- the number of open lists and maps that reading a schema takes, by its depth; and
- `BlockSchema.ofText_toText`, the round trip of every keyed schema of at most 41 levels.

Does not own: texts in which declarations stand twice or under names not their own.
-/

set_option autoImplicit false

namespace SchemaBinding

open Json (RecordLayout RecordReader Contents Node Value)

/-! ## Optional members -/

namespace Absence

section

variable {α : Type} {absence : Absence} {print : α → Value} {content? : Option α}

/-- What is written for an optional member, with what is read from it. -/
def entry (absence : Absence) (print : α → Value) : Option α → Option (Value × Option α)
  | some content => some (print content, some content)
  | none =>
      match absence with
      | leftOut => none
      | null => some (.null, none)

theorem readsAs_of_entry {read : Node → Except Json.Fault α} {value : Value}
    {content : Option α}
    (reads : ∀ own, content? = some own → print own ≠ .null ∧ (print own).ReadsAs read own)
    (written : absence.entry print content? = some (value, content)) :
    value.ReadsAs (Node.readOptional read) content := by
  cases content? with
  | some own =>
      cases written
      obtain ⟨present, readsOwn⟩ := reads own rfl
      exact Value.readsAs_some present readsOwn
  | none =>
      cases absence with
      | leftOut => cases written
      | null =>
          cases written
          exact Value.readsAs_none read

end

theorem readsAs_of_entry_text {absence : Absence} {text? content : Option String}
    {value : Value} (written : absence.entry .text text? = some (value, content)) :
    value.ReadsAs (Node.readOptional Node.readText) content := by
  refine readsAs_of_entry (fun own _ => ?_) written
  exact ⟨nofun, Value.readsAs_text own⟩

theorem readsAs_of_entry_count {absence : Absence} {count? content : Option UInt64}
    {value : Value} (written : absence.entry countValue count? = some (value, content)) :
    value.ReadsAs (Node.readOptional Node.readCount) content := by
  refine readsAs_of_entry (fun own _ => ?_) written
  exact ⟨nofun, Value.readsAs_count own⟩

end Absence

/-! ## Attributes -/

namespace AttributeSchema

def toForm (schema : AttributeSchema) : AttributeForm :=
  { type := schema.typeText.map .text
    description := schema.description
    required := schema.required
    optional := schema.optional
    computed := schema.computed
    sensitive := schema.sensitive
    deprecated := schema.deprecated }

theorem toSchema_toForm (schema : AttributeSchema) :
    schema.toForm.toSchema schema.name = schema := by
  obtain ⟨_, _, typeText, _, _, _, _, _⟩ := schema
  cases typeText with
  | none => rfl
  | some _ => rfl

/-- What is written for each field of an attribute, with what is read from it. -/
def entry (absence : Absence) (schema : AttributeSchema) :
    (field : AttributeField) → Option (Value × field.Content)
  | .type => absence.entry (fun value => value) (schema.typeText.map .text)
  | .description => absence.entry .text schema.description
  | .required => some (.flag schema.required, schema.required)
  | .optional => some (.flag schema.optional, schema.optional)
  | .computed => some (.flag schema.computed, schema.computed)
  | .sensitive => some (.flag schema.sensitive, schema.sensitive)
  | .deprecated => some (.flag schema.deprecated, schema.deprecated)

theorem toValue_eq (absence : Absence) (schema : AttributeSchema) :
    schema.toValue absence = .map (attributeLayout.members (schema.entry absence)) := by
  obtain ⟨_, description, typeText, _, _, _, _, _⟩ := schema
  cases typeText <;> cases description <;> cases absence <;> rfl

theorem build_entry (absence : Absence) (schema : AttributeSchema) :
    attributeReader.build (fun field => (schema.entry absence field).map Prod.snd)
      = .ok schema.toForm := by
  obtain ⟨_, description, typeText, _, _, _, _, _⟩ := schema
  cases typeText <;> cases description <;> cases absence <;> rfl

theorem readsAs_toValue (absence : Absence) (budget : Nat) (schema : AttributeSchema) :
    (schema.toValue absence).ReadsAs (attributeReader.run (budget + 1)) schema.toForm := by
  rw [toValue_eq]
  refine Value.readsAs_record (by decide) (fun field => by cases field <;> rfl) ?_
    (build_entry absence schema)
  intro field value content written
  cases field with
  | type =>
      refine Absence.readsAs_of_entry (fun own present => ?_) written
      obtain ⟨text, _, rfl⟩ := Option.map_eq_some_iff.1 present
      exact ⟨nofun, Value.readsAs_value_text budget text⟩
  | description => exact Absence.readsAs_of_entry_text written
  | required | optional | computed | sensitive | deprecated =>
      cases written
      exact Value.readsAs_flag _

end AttributeSchema

/-! ## Blocks and nested block types -/

mutual

def BlockSchema.toForm : BlockSchema → BlockForm
  | ⟨attributes, ⟨nested⟩, description, deprecated⟩ =>
      { attributes := attributes.mapValues fun _ => AttributeSchema.toForm
        blockTypes := ⟨NestedSchema.toForms nested⟩
        description
        deprecated }

def NestedSchema.toForm : NestedSchema → NestedForm
  | ⟨_, nesting, block, minItems, maxItems⟩ =>
      { nestingMode := nesting.text
        block := some block.toForm
        minItems
        maxItems }

def NestedSchema.toForms : List (String × NestedSchema) → List (String × NestedForm)
  | [] => []
  | (name, nested) :: rest => (name, nested.toForm) :: NestedSchema.toForms rest

end

theorem NestedSchema.toForms_eq_map :
    ∀ entries : List (String × NestedSchema),
      NestedSchema.toForms entries = entries.map fun entry => (entry.1, entry.2.toForm)
  | [] => rfl
  | (name, nested) :: rest => by
      rw [NestedSchema.toForms, NestedSchema.toForms_eq_map rest, List.map_cons]

namespace NestedSchema

/-- What is written for each field of a nested block type, with what is read from it. -/
def entry (absence : Absence) (nested : NestedSchema) :
    (field : NestedField) → Option (Value × field.Content)
  | .nestingMode => some (.text nested.nesting.text, nested.nesting.text)
  | .block => some (nested.block.toValue absence, some nested.block.toForm)
  | .minItems => absence.entry countValue nested.minItems
  | .maxItems => absence.entry countValue nested.maxItems

theorem toValue_eq (absence : Absence) (nested : NestedSchema) :
    nested.toValue absence = .map (nestedLayout.members (nested.entry absence)) := by
  obtain ⟨_, _, _, minItems, maxItems⟩ := nested
  cases minItems <;> cases maxItems <;> cases absence <;> rfl

theorem build_entry (absence : Absence) (nested : NestedSchema)
    (readBlock : Node → Except Json.Fault BlockForm) :
    (nestedReader readBlock).build (fun field => (nested.entry absence field).map Prod.snd)
      = .ok nested.toForm := by
  obtain ⟨_, _, _, minItems, maxItems⟩ := nested
  cases minItems <;> cases maxItems <;> cases absence <;> rfl

theorem readsAs_toValue {absence : Absence} {budget : Nat} {nested : NestedSchema}
    {readBlock : Node → Except Json.Fault BlockForm}
    (readsBlock : (nested.block.toValue absence).ReadsAs readBlock nested.block.toForm) :
    (nested.toValue absence).ReadsAs ((nestedReader readBlock).run (budget + 1))
      nested.toForm := by
  rw [toValue_eq]
  refine Value.readsAs_record (by decide) (fun field => by cases field <;> rfl) ?_
    (build_entry absence nested readBlock)
  intro field value content written
  cases field with
  | nestingMode =>
      cases written
      exact Value.readsAs_text _
  | block =>
      cases written
      have present : nested.block.toValue absence ≠ .null := by
        obtain ⟨_, _, ⟨_, _, _, _⟩, _, _⟩ := nested
        exact nofun
      exact Value.readsAs_some present readsBlock
  | minItems => exact Absence.readsAs_of_entry_count written
  | maxItems => exact Absence.readsAs_of_entry_count written

end NestedSchema

namespace BlockSchema

/-- What is written for each field of a block, with what is read from it. -/
def entry (absence : Absence) (schema : BlockSchema) :
    (field : BlockField) → Option (Value × field.Content)
  | .attributes =>
      some
        (.map (schema.attributes.entries.map fun entry => (entry.1, entry.2.toValue absence)),
          schema.attributes.mapValues fun _ => AttributeSchema.toForm)
  | .blockTypes =>
      some
        (.map (schema.nested.entries.map fun entry => (entry.1, entry.2.toValue absence)),
          ⟨schema.nested.entries.map fun entry => (entry.1, entry.2.toForm)⟩)
  | .description => absence.entry .text schema.description
  | .deprecated => some (.flag schema.deprecated, schema.deprecated)

theorem toValue_eq (absence : Absence) (schema : BlockSchema) :
    schema.toValue absence = .map (blockLayout.members (schema.entry absence)) := by
  obtain ⟨_, ⟨nested⟩, description, _⟩ := schema
  rw [toValue, NestedSchema.toMembers_eq_map]
  cases description <;> cases absence <;> rfl

theorem build_entry (absence : Absence) (schema : BlockSchema)
    (readInner : Node → Except Json.Fault BlockForm) :
    (blockReader readInner).build (fun field => (schema.entry absence field).map Prod.snd)
      = .ok schema.toForm := by
  obtain ⟨_, ⟨nested⟩, description, _⟩ := schema
  rw [toForm, NestedSchema.toForms_eq_map]
  cases description <;> cases absence <;> rfl

/-- Three of the lists and maps that may be open are spent for each level of blocks, and
three more for the attributes of the last level. -/
theorem readsAs_toValue (absence : Absence) (schema : BlockSchema) :
    ∀ budget, schema.Keyed → 3 * schema.depth + 3 ≤ budget →
      (schema.toValue absence).ReadsAs (blockForm budget) schema.toForm := by
  induction schema using BlockSchema.inductionOn with
  | step schema inductionHypothesis =>
      intro budget keyed enough
      -- The block itself, the map of its block types and the record of a type open one each.
      obtain ⟨left, rfl⟩ : ∃ left, budget = left + 3 := ⟨budget - 3, by omega⟩
      rw [toValue_eq]
      refine Value.readsAs_record (by decide) (fun field => by cases field <;> rfl) ?_
        (build_entry absence schema (blockForm left))
      intro field value content written
      cases field with
      | attributes =>
          cases written
          exact Value.readsAs_map fun entry _ => entry.2.readsAs_toValue absence left
      | blockTypes =>
          cases written
          refine Value.readsAs_namedList keyed.nestedDistinct fun entry member => ?_
          have deeper := BlockSchema.depth_lt_of_mem member
          exact NestedSchema.readsAs_toValue
            (inductionHypothesis entry member left (keyed.inner member) (by omega))
      | description => exact Absence.readsAs_of_entry_text written
      | deprecated =>
          cases written
          exact Value.readsAs_flag _

end BlockSchema

/-! ## From forms to schemas -/

theorem nestingOf_text (typeName : String) (nesting : Nesting) :
    nestingOf typeName nesting.text = .ok nesting := by
  cases nesting <;> rfl

theorem NestedSchema.toSchema_toForm {nested : NestedSchema} {typeName : String}
    (own : nested.typeName = typeName)
    (inner : nested.block.toForm.toSchema = .ok nested.block) :
    nested.toForm.toSchema typeName = .ok nested := by
  obtain ⟨_, nesting, block, _, _⟩ := nested
  subst own
  rw [toForm, NestedForm.toSchema, nestingOf_text]
  simp only [bind, Except.bind, inner]
  rfl

theorem NestedSchema.toSchemas_toForms :
    ∀ {entries : List (String × NestedSchema)},
      (∀ entry ∈ entries, entry.2.toForm.toSchema entry.1 = .ok entry.2) →
      NestedForm.toSchemas (NestedSchema.toForms entries) = .ok entries
  | [], _ => rfl
  | (name, nested) :: rest, each => by
      have here := each (name, nested) List.mem_cons_self
      have later := NestedSchema.toSchemas_toForms fun entry member =>
        each entry (List.mem_cons_of_mem _ member)
      rw [NestedSchema.toForms, NestedForm.toSchemas, here]
      simp only [bind, Except.bind, later]
      rfl

/-- The form of a keyed schema makes the schema again. -/
theorem BlockSchema.toSchema_toForm (schema : BlockSchema) :
    schema.Keyed → schema.toForm.toSchema = .ok schema := by
  induction schema using BlockSchema.inductionOn with
  | step schema inductionHypothesis =>
      intro keyed
      have nestedAgain :
          NestedForm.toSchemas (NestedSchema.toForms schema.nested.entries)
            = .ok schema.nested.entries := by
        refine NestedSchema.toSchemas_toForms fun entry member => ?_
        exact NestedSchema.toSchema_toForm (keyed.nested_typeName member)
          (inductionHypothesis entry member (keyed.inner member))
      have attributesAgain :
          (schema.attributes.mapValues fun _ => AttributeSchema.toForm).mapValues
              AttributeForm.toSchema
            = schema.attributes := by
        have each : ∀ entry ∈ schema.attributes.entries,
            (entry.1, entry.2.toForm.toSchema entry.1) = id entry := by
          intro entry member
          have own := entry.2.toSchema_toForm
          rw [keyed.attribute_name member] at own
          rw [own]
          rfl
        apply NamedMap.ext
        rw [NamedMap.entries_mapValues, NamedMap.entries_mapValues, List.map_map]
        exact (List.map_congr_left each).trans (List.map_id _)
      obtain ⟨attributes, ⟨nested⟩, _, _⟩ := schema
      rw [toForm, BlockForm.toSchema, nestedAgain]
      simp only [bind, Except.bind, pure, Except.pure, attributesAgain]

/-! ## Documents -/

/-- A written schema of at most 41 levels is read back as it was, in whichever way its text
states what is absent. -/
theorem BlockSchema.ofText_toText (absence : Absence) (schema : BlockSchema)
    (keyed : schema.Keyed) (shallow : schema.depth ≤ 41) :
    BlockSchema.ofText (schema.toText absence) = .ok schema := by
  have shows := Node.shows_ofCharacters_render (schema.exact_toValue absence)
  have form : blockForm Json.openLimit (Node.ofCharacters (schema.toValue absence).render)
      = .ok schema.toForm :=
    schema.readsAs_toValue absence Json.openLimit keyed
      (by unfold Json.openLimit; omega) _ _ shows
  have document : documentForm (schema.toValue absence).render = .ok schema.toForm := by
    rw [documentForm, form]
    simp only [bind, Except.bind, shows.after?]
    rfl
  rw [ofText, toText, String.toList_ofList, document]
  exact schema.toSchema_toForm keyed

example :
    BlockSchema.toText .leftOut { deprecated := true }
      = "\x7b\"attributes\":\x7b\x7d,\"block_types\":\x7b\x7d,\"deprecated\":true\x7d" := by
  rfl

/-- A route with a path whose description needs escapes. -/
def routeSchema : BlockSchema :=
  { attributes :=
      { entries :=
          [("path",
            { name := "path"
              typeText := some "string"
              description := some "a \"quoted\" path,\n\x07 and \\"
              required := true })] } }

/-- A gateway with as many routes as can be counted. -/
def gatewaySchema : BlockSchema :=
  { nested :=
      ⟨[("route",
        { typeName := "route"
          nesting := .list
          block := routeSchema
          minItems := some 0
          maxItems := some 18446744073709551615 })]⟩
    description := some ""
    deprecated := true }

theorem routeSchema_keyed : routeSchema.Keyed := by
  refine .intro ?_ List.nodup_nil nofun nofun
  intro entry member
  cases List.mem_singleton.1 member
  rfl

theorem gatewaySchema_keyed : gatewaySchema.Keyed := by
  refine .intro nofun (List.pairwise_singleton _ _) ?_ ?_
  · intro entry member
    cases List.mem_singleton.1 member
    rfl
  · intro entry member
    cases List.mem_singleton.1 member
    exact routeSchema_keyed

theorem ofText_toText_gatewaySchema :
    gatewaySchema.Keyed ∧ gatewaySchema.depth ≤ 41 ∧
      BlockSchema.ofText (gatewaySchema.toText .null) = .ok gatewaySchema := by
  have shallow : gatewaySchema.depth ≤ 41 := by decide
  exact ⟨gatewaySchema_keyed, shallow,
    BlockSchema.ofText_toText .null gatewaySchema gatewaySchema_keyed shallow⟩

end SchemaBinding
