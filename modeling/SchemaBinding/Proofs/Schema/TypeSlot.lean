import SchemaBinding.Proofs.Json.Slot
import SchemaBinding.Proofs.Schema.Decoded

/-!
Contract: the types of the attributes in a document.

Owns:
- `BlockSchema.attributeIn?`, the attributes of a schema at any depth;
- `TypeSlot`, the places in a document where the types of these attributes stand; and
- `TypeSlot.refilled`, by which the type in such a place becomes the type of the attribute, and
  a type of the same text makes no difference to the schema.

Does not own: when types have the same text.
-/

set_option autoImplicit false

namespace SchemaBinding

open Json (ParseTree RecordLayout MapSlot Encloses)
open Json.ParseTree (IsMap IsOptional IsValue)

/-! ## Attributes at any depth -/

/-- The attribute of a name in the block that a path of block types leads to. -/
def BlockSchema.attributeIn? (schema : BlockSchema) : List String → String → Option AttributeSchema
  | [], name => schema.attribute? name
  | typeName :: place, name =>
      (schema.nested? typeName).bind fun nested => nested.block.attributeIn? place name

/-- The text of the type of an attribute. -/
def BlockSchema.typeTextIn? (schema : BlockSchema) (place : List String) (name : String) :
    Option String :=
  (schema.attributeIn? place name).bind AttributeSchema.typeText

/-- The place in a document where the type of an attribute stands. -/
inductive TypeSlot : List String → String → (ParseTree → ParseTree) → Prop where
  | here {name : String} {attributes entry type : ParseTree → ParseTree}
      (field : blockLayout.Slot BlockField.attributes attributes) (member : MapSlot name entry)
      (last : attributeLayout.Slot AttributeField.type type) :
      TypeSlot [] name fun value => attributes (entry (type value))
  | inside {typeName name : String} {place : List String}
      {blockTypes entry block deeper : ParseTree → ParseTree}
      (field : blockLayout.Slot BlockField.blockTypes blockTypes) (member : MapSlot typeName entry)
      (next : nestedLayout.Slot NestedField.block block) (later : TypeSlot place name deeper) :
      TypeSlot (typeName :: place) name fun value => blockTypes (entry (block (deeper value)))

namespace TypeSlot

variable {place : List String} {name : String} {hole : ParseTree → ParseTree}

theorem encloses (slot : TypeSlot place name hole) : Encloses hole := by
  induction slot with
  | here field member last => exact field.encloses.comp (member.encloses.comp last.encloses)
  | inside field member next _ inductionHypothesis =>
      exact field.encloses.comp (member.encloses.comp (next.encloses.comp inductionHypothesis))

theorem ne_null (slot : TypeSlot place name hole) (value : ParseTree) :
    hole value ≠ .word .null := by
  cases slot with
  | here field _ _ => exact field.ne_null _
  | inside field _ _ _ => exact field.ne_null _

end TypeSlot

/-! ## Records with another value in a place -/

section

variable {budget : Nat} {hole : ParseTree → ParseTree} {value : ParseTree}

theorem StatesAttribute.refilledType {form : AttributeForm}
    (slot : attributeLayout.Slot AttributeField.type hole) (notNull : value ≠ .word .null)
    (states : StatesAttribute budget (hole value) form) :
    ∃ rest type, IsValue rest value type ∧ form.type = some type ∧
      ∀ other image, other ≠ .word .null → IsValue rest other image →
        StatesAttribute budget (hole other) { form with type := some image } := by
  obtain ⟨rest, given, spent, gives, meant, others⟩ := states
  obtain ⟨isGiven, refilled⟩ := slot.gives attributeLayout_field?_name gives
  rw [isGiven] at meant
  generalize form.type = found at meant
  cases meant with
  | absent => exact absurd rfl notNull
  | present _ isValue =>
      refine ⟨rest, _, isValue, rfl, fun other image otherNotNull otherIsValue => ?_⟩
      exact ⟨rest, _, spent, refilled other, .present otherNotNull otherIsValue, others⟩

theorem StatesNested.refilledBlock {statesInner : ParseTree → BlockForm → Prop}
    {form : NestedForm} (slot : nestedLayout.Slot NestedField.block hole)
    (notNull : value ≠ .word .null) (states : StatesNested statesInner budget (hole value) form) :
    ∃ inner, statesInner value inner ∧ form.block = some inner ∧
      ∀ other image, other ≠ .word .null → statesInner other image →
        StatesNested statesInner budget (hole other) { form with block := some image } := by
  obtain ⟨rest, given, spent, gives, mode, meant, others⟩ := states
  obtain ⟨isGiven, refilled⟩ := slot.gives nestedLayout_field?_name gives
  rw [isGiven] at meant
  generalize form.block = found at meant
  cases meant with
  | absent => exact absurd rfl notNull
  | present _ statesHere =>
      refine ⟨_, statesHere, rfl, fun other image otherNotNull otherStates => ?_⟩
      exact ⟨rest, _, spent, refilled other, mode, .present otherNotNull otherStates, others⟩

/-- What a block of a document says in a field. -/
def BlockForm.content (form : BlockForm) : (field : BlockField) → field.Content
  | .attributes => form.attributes
  | .blockTypes => form.blockTypes
  | .description => form.description
  | .deprecated => form.deprecated

def BlockForm.withContent (form : BlockForm) : (field : BlockField) → field.Content → BlockForm
  | .attributes, attributes => { form with attributes }
  | .blockTypes, blockTypes => { form with blockTypes }
  | .description, description => { form with description }
  | .deprecated, deprecated => { form with deprecated }

section

variable {readInner : Json.Node → Except Json.Fault BlockForm}
  {contents : Json.Contents blockLayout} {form : BlockForm} {field : BlockField}

theorem BlockForm.content_of_build (built : (blockReader readInner).build contents = .ok form)
    {content : field.Content} (read : contents field = some content) :
    form.content field = content := by
  cases built
  cases field with
  | attributes | blockTypes | description | deprecated =>
      rw [BlockForm.content, read]
      rfl

theorem BlockForm.build_set (built : (blockReader readInner).build contents = .ok form)
    (content : field.Content) :
    (blockReader readInner).build (contents.set field content)
      = .ok (form.withContent field content) := by
  cases built
  cases field with
  | attributes | blockTypes | description | deprecated => rfl

end

theorem StatesBlock.refilled {form : BlockForm} {field : BlockField}
    (slot : blockLayout.Slot field hole) (states : StatesBlock budget (hole value) form) :
    ∃ rest, blockMeans (StatesBlock (budget - 3)) rest field value (form.content field) ∧
      ∀ other image, blockMeans (StatesBlock (budget - 3)) rest field other image →
        StatesBlock budget (hole other) (form.withContent field image) := by
  rw [statesBlock_eq, ← statesBlockOf_iff (blockForm 0)] at states
  obtain ⟨rest, contents, content, read, meant, built, refilled⟩ :=
    states.refilled slot blockLayout_field?_name
  rw [BlockForm.content_of_build built read]
  refine ⟨rest, meant, fun other image otherMeant => ?_⟩
  rw [statesBlock_eq, ← statesBlockOf_iff (blockForm 0)]
  exact refilled other image _ otherMeant (BlockForm.build_set built image)

end

/-! ## Look-ups in a schema and in its document -/

theorem NestedForm.lookup_toSchemas {entries : List (String × NestedForm)}
    {made : List (String × NestedSchema)} (typeName : String)
    (all : NestedForm.toSchemas entries = .ok made) :
    Option.Rel (fun form schema => form.toSchema typeName = .ok schema)
      (entries.lookup typeName) (made.lookup typeName) := by
  have matched := toSchemas_eq_ok_iff.1 all
  clear all
  induction matched with
  | nil => exact .none
  | @cons entry schema _ _ headMatched _ inductionHypothesis =>
      obtain ⟨_, form⟩ := entry
      obtain ⟨key, nested⟩ := schema
      obtain ⟨rfl, madeHere⟩ := headMatched
      rw [List.lookup_cons, List.lookup_cons]
      by_cases here : typeName = key
      · subst here
        rw [beq_self_eq_true]
        exact .some madeHere
      · rw [beq_eq_false_iff_ne.2 here]
        exact inductionHypothesis

theorem NestedForm.toSchemas_congr {entries others : List (String × NestedForm)}
    (same : entries.map (fun entry => (entry.1, entry.2.toSchema entry.1))
      = others.map fun entry => (entry.1, entry.2.toSchema entry.1)) :
    NestedForm.toSchemas entries = NestedForm.toSchemas others := by
  induction entries generalizing others with
  | nil =>
      rw [List.map_eq_nil_iff.1 same.symm]
  | cons entry entries inductionHypothesis =>
      cases others with
      | nil => cases same
      | cons other others =>
          rw [List.map_cons, List.map_cons, List.cons_eq_cons, Prod.mk.injEq] at same
          obtain ⟨⟨sameName, sameHere⟩, sameLater⟩ := same
          rw [NestedForm.toSchemas, NestedForm.toSchemas, sameHere, sameName,
            inductionHypothesis sameLater]

namespace BlockForm

variable {form : BlockForm} {schema : BlockSchema}

theorem attribute?_of_toSchema (made : form.toSchema = .ok schema) (name : String) :
    schema.attribute? name
      = (form.attributes.find? name).map (AttributeForm.toSchema name) := by
  obtain ⟨nested, _, rfl⟩ := toSchema_eq_ok_iff.1 made
  exact NamedList.lookup_map AttributeForm.toSchema name form.attributes.entries

theorem nested?_of_toSchema (made : form.toSchema = .ok schema) (typeName : String) :
    Option.Rel (fun own nested => own.toSchema typeName = .ok nested)
      (form.blockTypes.find? typeName) (schema.nested? typeName) := by
  obtain ⟨nested, madeNested, rfl⟩ := toSchema_eq_ok_iff.1 made
  exact NestedForm.lookup_toSchemas typeName madeNested

/-- An attribute that makes the same of its name may stand for another. -/
theorem toSchema_insertAttribute {name : String} {old new : AttributeForm}
    (found : form.attributes.find? name = some old)
    (same : new.toSchema name = old.toSchema name) :
    toSchema { form with attributes := form.attributes.insert name new } = form.toSchema := by
  have sameAttributes :
      (form.attributes.insert name new).mapValues AttributeForm.toSchema
        = form.attributes.mapValues AttributeForm.toSchema :=
    NamedMap.ext (NamedList.map_insert AttributeForm.toSchema found same)
  obtain ⟨attributes, ⟨blockTypes⟩, description, deprecated⟩ := form
  dsimp only at sameAttributes ⊢
  rw [toSchema, toSchema, sameAttributes]

/-- A nested block type that makes the same of its name may stand for another. -/
theorem toSchema_insertType {typeName : String} {old new : NestedForm}
    (found : form.blockTypes.find? typeName = some old)
    (same : new.toSchema typeName = old.toSchema typeName) :
    toSchema { form with blockTypes := form.blockTypes.insert typeName new } = form.toSchema := by
  have sameTypes := NestedForm.toSchemas_congr
    (NamedList.map_insert (fun name (own : NestedForm) => own.toSchema name) found same)
  obtain ⟨attributes, ⟨blockTypes⟩, description, deprecated⟩ := form
  dsimp only at sameTypes ⊢
  rw [NamedList.insert] at sameTypes ⊢
  rw [toSchema, toSchema, sameTypes]

end BlockForm

theorem NestedForm.toSchema_block {form : NestedForm} {old new : BlockForm}
    (present : form.block = some old) (same : new.toSchema = old.toSchema) (typeName : String) :
    NestedForm.toSchema typeName { form with block := some new } = form.toSchema typeName := by
  obtain ⟨mode, block, minItems, maxItems⟩ := form
  cases present
  rw [NestedForm.toSchema, NestedForm.toSchema]
  dsimp only
  rw [same]

theorem AttributeForm.toSchema_type {form : AttributeForm} {old new : Json.Value}
    (present : form.type = some old) (same : typeTextOf new = typeTextOf old) (name : String) :
    AttributeForm.toSchema name { form with type := some new } = form.toSchema name := by
  rw [AttributeForm.toSchema, AttributeForm.toSchema, present, Option.map_some, Option.map_some,
    same]

/-! ## Types in their places -/

/-- The type in a place becomes the type of its attribute, and a type of the same text leaves
the schema as it is. -/
theorem TypeSlot.refilled {place : List String} {name : String} {hole : ParseTree → ParseTree}
    (slot : TypeSlot place name hole) :
    ∀ {budget : Nat} {form : BlockForm} {tree : ParseTree}, tree ≠ .word .null →
      StatesBlock budget (hole tree) form →
        ∃ rest type, IsValue rest tree type ∧
          (∀ schema, form.toSchema = .ok schema →
            schema.typeTextIn? place name = some (typeTextOf type)) ∧
          ∀ other image, other ≠ .word .null → IsValue rest other image →
            typeTextOf image = typeTextOf type →
              ∃ refilled, StatesBlock budget (hole other) refilled ∧
                refilled.toSchema = form.toSchema := by
  induction slot with
  | here field member last =>
      intro budget form tree notNull states
      obtain ⟨_, (isMap : IsMap _ StatesAttribute _ form.attributes.toNamedList), exchanged⟩ :=
        states.refilled field
      obtain ⟨_, own, _, statesOwn, found, filed⟩ := member.files isMap
      obtain ⟨rest, type, isValue, present, retyped⟩ := statesOwn.refilledType last notNull
      refine ⟨rest, type, isValue, ?_, ?_⟩
      · intro schema made
        rw [BlockSchema.typeTextIn?, BlockSchema.attributeIn?,
          BlockForm.attribute?_of_toSchema made, found, Option.map_some, Option.bind_some,
          AttributeForm.toSchema, present, Option.map_some]
      · intro other image otherNotNull otherIsValue sameText
        have filedAgain := filed _ _ (retyped other image otherNotNull otherIsValue)
        exact ⟨_, exchanged _ (form.attributes.insert _ _) filedAgain,
          BlockForm.toSchema_insertAttribute found
            (AttributeForm.toSchema_type present sameText _)⟩
  | inside field member next later inductionHypothesis =>
      rename_i typeName _ _ _ _ _ _
      intro budget form tree notNull states
      obtain ⟨_, (isMap : IsMap _ (StatesNested _) _ form.blockTypes), exchanged⟩ :=
        states.refilled field
      obtain ⟨_, own, _, statesOwn, found, filed⟩ := member.files isMap
      obtain ⟨inner, statesInner, present, reblocked⟩ :=
        statesOwn.refilledBlock next (later.ne_null tree)
      obtain ⟨rest, type, isValue, typed, retyped⟩ := inductionHypothesis notNull statesInner
      refine ⟨rest, type, isValue, ?_, ?_⟩
      · intro schema made
        have related := BlockForm.nested?_of_toSchema made typeName
        rw [found] at related
        rw [BlockSchema.typeTextIn?, BlockSchema.attributeIn?]
        generalize schema.nested? typeName = nested? at related ⊢
        cases related with
        | some madeNested =>
            rcases (NestedForm.toSchema_eq_ok madeNested).2 with
              ⟨_, same, madeInner⟩ | ⟨absent, _⟩
            · cases present.symm.trans same
              exact typed _ madeInner
            · cases present.symm.trans absent
      · intro other image otherNotNull otherIsValue sameText
        obtain ⟨innerRefilled, statesRefilled, sameInner⟩ :=
          retyped other image otherNotNull otherIsValue sameText
        exact ⟨_, exchanged _ _
            (filed _ _ (reblocked _ innerRefilled (later.ne_null other) statesRefilled)),
          BlockForm.toSchema_insertType found (NestedForm.toSchema_block present sameInner _)⟩

end SchemaBinding
