import SchemaBinding.Proofs.Json.RecordMeaning
import SchemaBinding.Schema.Format

/-!
Contract: what a document states, told by the grammar alone.

Owns:
- `StatesAttribute`, `StatesNested` and `StatesBlock`, by which a value of the grammar states
  the records of a document, field by field and with their defaults;
- `Documents`, by which a text consists of one block and nothing else; and
- `documentForm_eq_ok_iff`, by which a text is read as what it documents, and as nothing if it
  documents nothing.

Does not own: the schema that is made of a document.
-/

set_option autoImplicit false

namespace SchemaBinding

open Json (ParseTree Reads RecordLayout IsRecord Contents Node Fault)
open Json.ParseTree (IsFlag IsText IsCount IsOptional IsValue IsMap)

/-! ## Fields with a default -/

/-- What is given for a field, or the default if nothing is. -/
def OrDefault {α : Type} (means : ParseTree → α → Prop) (default : α) :
    Option ParseTree → α → Prop
  | none, content => content = default
  | some tree, content => means tree content

theorem orDefault_getD {α : Type} {means : ParseTree → α → Prop} {given : Option ParseTree}
    {content : Option α} (meant : Option.Rel means given content) (default : α) :
    OrDefault means default given (content.getD default) := by
  cases meant with
  | none => rfl
  | some meant => exact meant

theorem orDefault_join {α : Type} {means : ParseTree → Option α → Prop}
    {given : Option ParseTree} {content : Option (Option α)}
    (meant : Option.Rel means given content) : OrDefault means none given content.join := by
  cases meant with
  | none => rfl
  | some meant => exact meant

theorem eq_default_or_exists {α : Type} {means : ParseTree → α → Prop} {default content : α}
    {given : Option ParseTree} (meant : OrDefault means default given content) :
    content = default ∨ ∃ tree, means tree content := by
  cases given with
  | none => exact .inl meant
  | some tree => exact .inr ⟨tree, meant⟩

theorem exists_of_orDefault {α : Type} {means : ParseTree → α → Prop} {default : α}
    {given : Option ParseTree} {found : α} (meant : OrDefault means default given found) :
    ∃ content, Option.Rel means given content ∧ content.getD default = found := by
  cases given with
  | none => exact ⟨none, .none, Eq.symm meant⟩
  | some tree => exact ⟨some found, .some meant, rfl⟩

theorem exists_join_of_orDefault {α : Type} {means : ParseTree → Option α → Prop}
    {given : Option ParseTree} {found : Option α} (meant : OrDefault means none given found) :
    ∃ content, Option.Rel means given content ∧ content.join = found := by
  cases given with
  | none => exact ⟨none, .none, Eq.symm meant⟩
  | some tree => exact ⟨some found, .some meant, rfl⟩

/-! ## The records of a document -/

/-- A value states an attribute. -/
def StatesAttribute (budget : Nat) (tree : ParseTree) (form : AttributeForm) : Prop :=
  ∃ (rest : Nat) (given : AttributeField → Option ParseTree),
    budget = rest + 1 ∧ attributeLayout.Gives tree given ∧
    OrDefault (IsOptional (IsValue rest)) none (given .type) form.type ∧
    OrDefault (IsOptional IsText) none (given .description) form.description ∧
    OrDefault IsFlag false (given .required) form.required ∧
    OrDefault IsFlag false (given .optional) form.optional ∧
    OrDefault IsFlag false (given .computed) form.computed ∧
    OrDefault IsFlag false (given .sensitive) form.sensitive ∧
    OrDefault IsFlag false (given .deprecated) form.deprecated

/-- A value states a nested block type. Its nesting has no default. -/
def StatesNested (statesBlock : ParseTree → BlockForm → Prop) (budget : Nat)
    (tree : ParseTree) (form : NestedForm) : Prop :=
  ∃ (rest : Nat) (given : NestedField → Option ParseTree),
    budget = rest + 1 ∧ nestedLayout.Gives tree given ∧
    (∃ mode, given .nestingMode = some mode ∧ IsText mode form.nestingMode) ∧
    OrDefault (IsOptional statesBlock) none (given .block) form.block ∧
    OrDefault (IsOptional IsCount) none (given .minItems) form.minItems ∧
    OrDefault (IsOptional IsCount) none (given .maxItems) form.maxItems

/-- A value states a block, given what states the blocks inside it. -/
def StatesBlockOf (statesInner : ParseTree → BlockForm → Prop) (budget : Nat)
    (tree : ParseTree) (form : BlockForm) : Prop :=
  ∃ (rest : Nat) (given : BlockField → Option ParseTree),
    budget = rest + 1 ∧ blockLayout.Gives tree given ∧
    OrDefault (fun map attributes => IsMap rest StatesAttribute map attributes.toNamedList) {}
      (given .attributes) form.attributes ∧
    OrDefault (IsMap rest (StatesNested statesInner)) {} (given .blockTypes) form.blockTypes ∧
    OrDefault (IsOptional IsText) none (given .description) form.description ∧
    OrDefault IsFlag false (given .deprecated) form.deprecated

/-- A value states a block where `budget` more lists and maps may be open. Three of them are
spent for each block inside: the map of block types, the type and the block of the type. -/
def StatesBlock : Nat → ParseTree → BlockForm → Prop
  | budget + 3 => StatesBlockOf (StatesBlock budget) (budget + 3)
  | budget => StatesBlockOf (fun _ _ => False) budget

/-- A text consists of one value, which states a block. -/
def Documents (source : List Char) (form : BlockForm) : Prop :=
  ∃ tree : ParseTree, tree.Spelled source ∧ StatesBlock Json.openLimit tree form

/-! ## Attributes -/

theorem attributeLayout_field?_name (field : attributeLayout.Field) :
    attributeLayout.field? (attributeLayout.name field) = some field := by
  cases field <;> rfl

/-- What a field of an attribute is read as. -/
def attributeMeans (budget : Nat) :
    (field : attributeLayout.Field) → ParseTree → attributeLayout.Content field → Prop
  | .type => IsOptional (IsValue budget)
  | .description => IsOptional IsText
  | .required | .optional | .computed | .sensitive | .deprecated => IsFlag

def attributeContents (type : Option (Option Json.Value)) (description : Option (Option String))
    (required optional computed sensitive deprecated : Option Bool) : Contents attributeLayout
  | .type => type
  | .description => description
  | .required => required
  | .optional => optional
  | .computed => computed
  | .sensitive => sensitive
  | .deprecated => deprecated

theorem statesAttribute_iff {budget : Nat} {tree : ParseTree} {form : AttributeForm} :
    IsRecord attributeMeans attributeReader.build budget tree form ↔
      StatesAttribute budget tree form := by
  constructor
  · rintro ⟨rest, given, contents, rfl, gives, meant, ⟨⟩⟩
    exact ⟨rest, given, rfl, gives, orDefault_join (meant .type),
      orDefault_join (meant .description), orDefault_getD (meant .required) false,
      orDefault_getD (meant .optional) false, orDefault_getD (meant .computed) false,
      orDefault_getD (meant .sensitive) false, orDefault_getD (meant .deprecated) false⟩
  · obtain ⟨type, description, required, optional, computed, sensitive, deprecated⟩ := form
    rintro ⟨rest, given, rfl, gives, typeMeant, descriptionMeant, requiredMeant, optionalMeant,
      computedMeant, sensitiveMeant, deprecatedMeant⟩
    obtain ⟨type, typeRead, rfl⟩ := exists_join_of_orDefault typeMeant
    obtain ⟨description, descriptionRead, rfl⟩ := exists_join_of_orDefault descriptionMeant
    obtain ⟨required, requiredRead, rfl⟩ := exists_of_orDefault requiredMeant
    obtain ⟨optional, optionalRead, rfl⟩ := exists_of_orDefault optionalMeant
    obtain ⟨computed, computedRead, rfl⟩ := exists_of_orDefault computedMeant
    obtain ⟨sensitive, sensitiveRead, rfl⟩ := exists_of_orDefault sensitiveMeant
    obtain ⟨deprecated, deprecatedRead, rfl⟩ := exists_of_orDefault deprecatedMeant
    refine ⟨rest, given, attributeContents type description required optional computed sensitive
      deprecated, rfl, gives, fun field => ?_, rfl⟩
    cases field with
    | type => exact typeRead
    | description => exact descriptionRead
    | required => exact requiredRead
    | optional => exact optionalRead
    | computed => exact computedRead
    | sensitive => exact sensitiveRead
    | deprecated => exact deprecatedRead

theorem reads_attribute (budget : Nat) :
    Reads (attributeReader.run budget) (StatesAttribute budget) := by
  have reads : ∀ budget field,
      Reads (attributeReader.read budget field) (attributeMeans budget field) := by
    intro budget field
    cases field with
    | type => exact Json.reads_optional (Json.reads_value budget)
    | description => exact Json.reads_optional Json.reads_text
    | required | optional | computed | sensitive | deprecated => exact Json.reads_flag
  exact (Json.reads_record (by decide) attributeLayout_field?_name reads budget).congr
    fun _ _ => statesAttribute_iff

/-! ## Nested block types -/

section

variable {statesBlock : ParseTree → BlockForm → Prop}

theorem nestedLayout_field?_name (field : nestedLayout.Field) :
    nestedLayout.field? (nestedLayout.name field) = some field := by
  cases field <;> rfl

/-- What a field of a nested block type is read as. -/
def nestedMeans (statesBlock : ParseTree → BlockForm → Prop) (_ : Nat) :
    (field : nestedLayout.Field) → ParseTree → nestedLayout.Content field → Prop
  | .nestingMode => IsText
  | .block => IsOptional statesBlock
  | .minItems | .maxItems => IsOptional IsCount

def nestedContents (nestingMode : String) (block : Option (Option BlockForm))
    (minItems maxItems : Option (Option UInt64)) : Contents nestedLayout
  | .nestingMode => some nestingMode
  | .block => block
  | .minItems => minItems
  | .maxItems => maxItems

theorem statesNested_iff (readBlock : Node → Except Fault BlockForm) {budget : Nat}
    {tree : ParseTree} {form : NestedForm} :
    IsRecord (nestedMeans statesBlock) (nestedReader readBlock).build budget tree form ↔
      StatesNested statesBlock budget tree form := by
  constructor
  · rintro ⟨rest, given, contents, rfl, gives, meant, built⟩
    have mode := meant .nestingMode
    unfold nestedReader at built
    dsimp only at built
    split at built
    · cases built
    · rename_i nestingMode found
      cases built
      rw [found] at mode
      cases modeGiven : given .nestingMode with
      | none =>
          rw [modeGiven] at mode
          cases mode
      | some tree =>
          rw [modeGiven] at mode
          cases mode with
          | some modeMeant =>
              exact ⟨rest, given, rfl, gives, ⟨tree, modeGiven, modeMeant⟩,
                orDefault_join (meant .block), orDefault_join (meant .minItems),
                orDefault_join (meant .maxItems)⟩
  · obtain ⟨nestingMode, block, minItems, maxItems⟩ := form
    rintro ⟨rest, given, rfl, gives, ⟨mode, modeGiven, modeMeant⟩, blockMeant, minMeant, maxMeant⟩
    obtain ⟨block, blockRead, rfl⟩ := exists_join_of_orDefault blockMeant
    obtain ⟨minItems, minRead, rfl⟩ := exists_join_of_orDefault minMeant
    obtain ⟨maxItems, maxRead, rfl⟩ := exists_join_of_orDefault maxMeant
    refine ⟨rest, given, nestedContents nestingMode block minItems maxItems, rfl, gives,
      fun field => ?_, rfl⟩
    cases field with
    | nestingMode =>
        rw [modeGiven]
        exact .some modeMeant
    | block => exact blockRead
    | minItems => exact minRead
    | maxItems => exact maxRead

theorem reads_nested {readBlock : Node → Except Fault BlockForm}
    (readsBlock : Reads readBlock statesBlock) (budget : Nat) :
    Reads ((nestedReader readBlock).run budget) (StatesNested statesBlock budget) := by
  have reads : ∀ budget field,
      Reads ((nestedReader readBlock).read budget field)
        (nestedMeans statesBlock budget field) := by
    intro budget field
    cases field with
    | nestingMode => exact Json.reads_text
    | block => exact Json.reads_optional readsBlock
    | minItems | maxItems => exact Json.reads_optional Json.reads_count
  exact (Json.reads_record (by decide) nestedLayout_field?_name reads budget).congr
    fun _ _ => statesNested_iff readBlock

end

/-! ## Blocks -/

section

variable {statesInner : ParseTree → BlockForm → Prop}

theorem blockLayout_field?_name (field : blockLayout.Field) :
    blockLayout.field? (blockLayout.name field) = some field := by
  cases field <;> rfl

/-- What a field of a block is read as. -/
def blockMeans (statesInner : ParseTree → BlockForm → Prop) (budget : Nat) :
    (field : blockLayout.Field) → ParseTree → blockLayout.Content field → Prop
  | .attributes => fun map attributes => IsMap budget StatesAttribute map attributes.toNamedList
  | .blockTypes => IsMap budget (StatesNested statesInner)
  | .description => IsOptional IsText
  | .deprecated => IsFlag

def blockContents (attributes : Option (NamedMap AttributeForm))
    (blockTypes : Option (NamedList NestedForm)) (description : Option (Option String))
    (deprecated : Option Bool) : Contents blockLayout
  | .attributes => attributes
  | .blockTypes => blockTypes
  | .description => description
  | .deprecated => deprecated

theorem statesBlockOf_iff (readInner : Node → Except Fault BlockForm) {budget : Nat}
    {tree : ParseTree} {form : BlockForm} :
    IsRecord (blockMeans statesInner) (blockReader readInner).build budget tree form ↔
      StatesBlockOf statesInner budget tree form := by
  constructor
  · rintro ⟨rest, given, contents, rfl, gives, meant, ⟨⟩⟩
    exact ⟨rest, given, rfl, gives, orDefault_getD (meant .attributes) {},
      orDefault_getD (meant .blockTypes) {}, orDefault_join (meant .description),
      orDefault_getD (meant .deprecated) false⟩
  · obtain ⟨attributes, blockTypes, description, deprecated⟩ := form
    rintro ⟨rest, given, rfl, gives, attributesMeant, typesMeant, descriptionMeant,
      deprecatedMeant⟩
    obtain ⟨attributes, attributesRead, rfl⟩ := exists_of_orDefault attributesMeant
    obtain ⟨blockTypes, typesRead, rfl⟩ := exists_of_orDefault typesMeant
    obtain ⟨description, descriptionRead, rfl⟩ := exists_join_of_orDefault descriptionMeant
    obtain ⟨deprecated, deprecatedRead, rfl⟩ := exists_of_orDefault deprecatedMeant
    refine ⟨rest, given, blockContents attributes blockTypes description deprecated, rfl, gives,
      fun field => ?_, rfl⟩
    cases field with
    | attributes => exact attributesRead
    | blockTypes => exact typesRead
    | description => exact descriptionRead
    | deprecated => exact deprecatedRead

theorem reads_blockOf {readInner : Node → Except Fault BlockForm}
    (readsInner : Reads readInner statesInner) (budget : Nat) :
    Reads ((blockReader readInner).run budget) (StatesBlockOf statesInner budget) := by
  have reads : ∀ budget field,
      Reads ((blockReader readInner).read budget field) (blockMeans statesInner budget field) := by
    intro budget field
    cases field with
    | attributes => exact Json.reads_map reads_attribute budget
    | blockTypes => exact Json.reads_namedList (reads_nested readsInner) budget
    | description => exact Json.reads_optional Json.reads_text
    | deprecated => exact Json.reads_flag
  exact (Json.reads_record (by decide) blockLayout_field?_name reads budget).congr
    fun _ _ => statesBlockOf_iff readInner

end

theorem reads_nothing (fault : Node → Fault) :
    Reads (fun node => (.error (fault node) : Except Fault BlockForm)) (fun _ _ => False) where
  presented _ _ := ⟨nofun, False.elim⟩
  unfinished _ _ := nofun

/-- A block is read as what it states, as deep as its budget lets it go. -/
theorem reads_block : ∀ budget : Nat, Reads (blockForm budget) (StatesBlock budget)
  | budget + 3 => reads_blockOf (reads_block budget) (budget + 3)
  | 0 => reads_blockOf (reads_nothing _) 0
  | 1 => reads_blockOf (reads_nothing _) 1
  | 2 => reads_blockOf (reads_nothing _) 2

/-- Nothing states a block where no map may be open. -/
theorem statesBlock_zero : StatesBlock 0 = fun _ _ => False := by
  funext tree form
  refine propext ⟨?_, False.elim⟩
  rintro ⟨_, _, ⟨⟩, _⟩

/-- A block leaves three lists and maps less for the blocks inside it, as far as there are
any. -/
theorem statesBlock_eq (budget : Nat) :
    StatesBlock budget = StatesBlockOf (StatesBlock (budget - 3)) budget := by
  match budget with
  | 0 => exact (congrArg (StatesBlockOf · 0) statesBlock_zero).symm
  | 1 => exact (congrArg (StatesBlockOf · 1) statesBlock_zero).symm
  | 2 => exact (congrArg (StatesBlockOf · 2) statesBlock_zero).symm
  | fewer + 3 => rfl

/-! ## Documents -/

theorem skipBlanks_eq_nil_iff {text : List Char} :
    Json.skipBlanks text = [] ↔ Json.Blank text :=
  List.dropWhile_eq_nil_iff

theorem documentForm_eq_ok_iff_read {source : List Char} {form : BlockForm} :
    documentForm source = .ok form ↔
      blockForm Json.openLimit (.ofCharacters source) = .ok form ∧
        Json.Blank ((Node.ofCharacters source).after?.getD []) := by
  unfold documentForm
  rw [Json.bind_eq_ok_iff]
  constructor
  · rintro ⟨own, read, finished⟩
    split at finished
    · rename_i nothing
      cases finished
      exact ⟨read, skipBlanks_eq_nil_iff.1 nothing⟩
    · cases finished
  · rintro ⟨read, blank⟩
    refine ⟨form, read, ?_⟩
    rw [skipBlanks_eq_nil_iff.2 blank]
    rfl

/-- However a value is spelled, its text is read as what the value states. -/
theorem documentForm_eq_ok_iff_of_spelled {tree : ParseTree} {source : List Char}
    (spelled : tree.Spelled source) {form : BlockForm} :
    documentForm source = .ok form ↔ StatesBlock Json.openLimit tree form := by
  obtain ⟨blanks, blank, presents⟩ := spelled.presents
  rw [documentForm_eq_ok_iff_read, (reads_block Json.openLimit).presented presents,
    presents.after?]
  exact and_iff_left blank

/-- A text is read as what it documents, and as nothing if it documents nothing. -/
theorem documentForm_eq_ok_iff {source : List Char} {form : BlockForm} :
    documentForm source = .ok form ↔ Documents source form := by
  constructor
  · intro found
    obtain ⟨read, blank⟩ := documentForm_eq_ok_iff_read.1 found
    cases Node.recognised_ofCharacters source with
    | unfinished cut => exact absurd read ((reads_block Json.openLimit).unfinished cut form)
    | whole spaced split presents =>
        rw [presents.after?] at blank
        exact ⟨_, ⟨_, _, spaced, blank, split⟩,
          ((reads_block Json.openLimit).presented presents form).1 read⟩
  · rintro ⟨tree, spelled, states⟩
    exact (documentForm_eq_ok_iff_of_spelled spelled).2 states

/-- A text documents one block at most. -/
theorem Documents.unique {source : List Char} {form other : BlockForm}
    (documents : Documents source form) (documentsOther : Documents source other) :
    form = other := by
  have read := documentForm_eq_ok_iff.2 documents
  rw [documentForm_eq_ok_iff.2 documentsOther] at read
  exact (Except.ok.inj read).symm

namespace BlockSchema

theorem ofText_of_documents {text : String} {form : BlockForm}
    (documents : Documents text.toList form) : ofText text = form.toSchema := by
  rw [ofText, documentForm_eq_ok_iff.2 documents]

theorem ofText_of_not_documents {text : String}
    (nothing : ¬ ∃ form, Documents text.toList form) :
    ∃ message, ofText text = .error (.json message) := by
  unfold ofText
  cases read : documentForm text.toList with
  | ok form => exact absurd ⟨form, documentForm_eq_ok_iff.1 read⟩ nothing
  | error fault => exact ⟨_, rfl⟩

theorem ofText_eq_ok_iff {text : String} {schema : BlockSchema} :
    ofText text = .ok schema ↔
      ∃ form, Documents text.toList form ∧ form.toSchema = .ok schema := by
  by_cases documented : ∃ form, Documents text.toList form
  · obtain ⟨form, documents⟩ := documented
    rw [ofText_of_documents documents]
    constructor
    · intro made
      exact ⟨form, documents, made⟩
    · rintro ⟨other, documentsOther, made⟩
      rw [documents.unique documentsOther]
      exact made
  · obtain ⟨message, refused⟩ := ofText_of_not_documents documented
    rw [refused]
    exact ⟨nofun, fun ⟨form, documents, _⟩ => absurd ⟨form, documents⟩ documented⟩

end BlockSchema

end SchemaBinding
