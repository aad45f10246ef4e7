import Mathlib.Logic.Relation
import SchemaBinding.Proofs.Json.Rearrangement
import SchemaBinding.Proofs.Schema.Statement

/-!
Contract: documents that differ in nothing that matters.

Owns:
- `Role`, what the values of a document stand for, and which values stand inside others;
- `Rewrites`, the changes of a document that keep its meaning: members of records in another
  order, members of unknown names, and one member in place of repeated ones;
- `Redrafted`, by which a text differs from another in blanks and one such change; and
- `BlockSchema.ofText_redrafted`, by which all these texts give one schema.

Does not own: changes that a document may notice, such as another order of attributes.
-/

set_option autoImplicit false

namespace SchemaBinding

open Json (ParseTree RecordLayout TextLexeme)
open Json.ParseTree (IsMap IsOptional)

/-! ## What values stand for -/

/-- What a value of a document stands for. -/
inductive Role where
  /-- The body of a block. -/
  | block
  /-- An attribute of a block. -/
  | attributeEntry
  /-- A nested block type. -/
  | nestedEntry
  /-- The attributes of a block under their names. -/
  | attributeMap
  /-- The nested block types of a block under their names. -/
  | nestedMap
  deriving DecidableEq, Repr

namespace Role

/-- The names of the fields, for records. The keys of the two maps may be any. -/
def fieldNames? : Role → Option (List String)
  | block => some ["attributes", "block_types", "description", "deprecated"]
  | attributeEntry =>
      some ["type", "description", "required", "optional", "computed", "sensitive", "deprecated"]
  | nestedEntry => some ["nesting_mode", "block", "min_items", "max_items"]
  | attributeMap | nestedMap => none

/-- What the value under a key stands for. -/
inductive Holds : Role → String → Role → Prop where
  | attributes : Holds block "attributes" attributeMap
  | blockTypes : Holds block "block_types" nestedMap
  | attributeEntry (name : String) : Holds attributeMap name attributeEntry
  | nestedEntry (typeName : String) : Holds nestedMap typeName nestedEntry
  | block : Holds nestedEntry "block" block

/-- What an item stands for, in a record that is written as a list. -/
inductive HoldsAt : Role → Nat → Role → Prop where
  | attributes : HoldsAt block 0 attributeMap
  | blockTypes : HoldsAt block 1 nestedMap
  | block : HoldsAt nestedEntry 1 block

end Role

/-! ## Changes -/

/-- A value written otherwise, with the same meaning for what it stands for. -/
inductive Rewrites : Role → ParseTree → ParseTree → Prop where
  /-- The members of a record in another order. -/
  | permuted {role : Role} {names : List String} {members others : List (TextLexeme × ParseTree)}
      (record : role.fieldNames? = some names) (permutation : members.Perm others) :
      Rewrites role (.map members) (.map others)
  /-- One more member of a record, anywhere, with a key that is no field and any value. -/
  | extended {role : Role} {names : List String} {before after : List (TextLexeme × ParseTree)}
      {key : TextLexeme} {name : String} (record : role.fieldNames? = some names)
      (decoded : key.text? = some name) (foreign : name ∉ names) (value : ParseTree) :
      Rewrites role (.map (before ++ after)) (.map (before ++ (key, value) :: after))
  /-- Of the members of a repeated key, those from an earlier one up to a later one become a
  single member, in the place of the earlier one and with the value of the later one. -/
  | merged {role : Role} {before middle after : List (TextLexeme × ParseTree)}
      {first last key : TextLexeme} {name : String} {value final : ParseTree}
      (map : role.fieldNames? = none) (firstNamed : first.text? = some name)
      (lastNamed : last.text? = some name) (named : key.text? = some name) :
      Rewrites role (.map (before ++ (first, value) :: (middle ++ (last, final) :: after)))
        (.map (before ++ (key, final) ::
          (middle.filter (·.1.text? != some name) ++ after)))
  /-- A change inside the value of a member. -/
  | inside {role inner : Role} {before after : List (TextLexeme × ParseTree)} {key : TextLexeme}
      {name : String} {value replaced : ParseTree} (decoded : key.text? = some name)
      (holds : role.Holds name inner) (change : Rewrites inner value replaced) :
      Rewrites role (.map (before ++ (key, value) :: after))
        (.map (before ++ (key, replaced) :: after))
  /-- A change inside an item of a record that is written as a list. -/
  | insideList {role inner : Role} {before after : List ParseTree} {value replaced : ParseTree}
      (holds : role.HoldsAt before.length inner) (change : Rewrites inner value replaced) :
      Rewrites role (.list (before ++ value :: after)) (.list (before ++ replaced :: after))

/-- A text that differs from another in blanks and in one change at most. -/
def Redrafted (text other : String) : Prop :=
  ∃ tree otherTree : ParseTree, tree.Spelled text.toList ∧ otherTree.Spelled other.toList ∧
    (tree = otherTree ∨ Rewrites .block tree otherTree)

/-! ## Meanings that are kept -/

namespace Role

/-- What is read of a value. -/
def Content : Role → Type
  | block => BlockForm
  | attributeEntry => AttributeForm
  | nestedEntry => NestedForm
  | attributeMap => NamedMap AttributeForm
  | nestedMap => NamedList NestedForm

/-- What a value states, where `budget` more lists and maps may be open and `inner` inside
the next block. -/
def States (inner budget : Nat) : (role : Role) → ParseTree → role.Content → Prop
  | block => StatesBlock budget
  | attributeEntry => StatesAttribute budget
  | nestedEntry => StatesNested (StatesBlock inner) budget
  | attributeMap => fun map attributes => IsMap budget StatesAttribute map attributes.toNamedList
  | nestedMap => IsMap budget (StatesNested (StatesBlock inner))

end Role

/-- What keeps the meaning of a value keeps it where the value is optional. -/
theorem Rewrites.isOptional {α : Type} {means : ParseTree → α → Prop} {role : Role}
    {value replaced : ParseTree} (change : Rewrites role value replaced)
    (kept : ∀ content, means value content → means replaced content) {content : Option α}
    (meant : IsOptional means value content) : IsOptional means replaced content := by
  have notNull : replaced ≠ .word .null := by
    rintro rfl
    cases change
  cases meant with
  | absent => cases change
  | present _ own => exact .present notNull (kept _ own)

/-- What a record states depends on nothing but what is given for its fields. -/
theorem Role.States.of_gives {role : Role} {names : List String} {tree other : ParseTree}
    (record : role.fieldNames? = some names)
    (gives : ∀ layout : RecordLayout, (∀ field, layout.name field ∈ names) →
      ∀ {given}, layout.Gives tree given → layout.Gives other given)
    {inner budget : Nat} {content : role.Content}
    (states : role.States inner budget tree content) :
    role.States inner budget other content := by
  cases role with
  | block =>
      cases record
      rw [Role.States, statesBlock_eq] at states ⊢
      obtain ⟨rest, given, spent, givesTree, meant⟩ := states
      exact ⟨rest, given, spent,
        gives blockLayout (fun field => by cases field <;> decide) givesTree, meant⟩
  | attributeEntry =>
      cases record
      obtain ⟨rest, given, spent, givesTree, meant⟩ := states
      exact ⟨rest, given, spent,
        gives attributeLayout (fun field => by cases field <;> decide) givesTree, meant⟩
  | nestedEntry =>
      cases record
      obtain ⟨rest, given, spent, givesTree, meant⟩ := states
      exact ⟨rest, given, spent,
        gives nestedLayout (fun field => by cases field <;> decide) givesTree, meant⟩
  | attributeMap => cases record
  | nestedMap => cases record

section

variable {value replaced tree other : ParseTree} {inner budget : Nat}

/-- A block states the same where one of its fields is written otherwise. -/
theorem StatesBlock.changed (field : BlockField) {form : BlockForm}
    (states : StatesBlock budget tree form)
    (changes : blockLayout.Changes field value replaced tree other)
    (kept : ∀ rest content, blockMeans (StatesBlock (budget - 3)) rest field value content →
      blockMeans (StatesBlock (budget - 3)) rest field replaced content) :
    StatesBlock budget other form := by
  rw [statesBlock_eq, ← statesBlockOf_iff (blockForm 0)] at states ⊢
  exact Json.IsRecord.changed states changes kept

/-- A nested block type states the same where its block is written otherwise. -/
theorem StatesNested.changedBlock {form : NestedForm}
    (states : StatesNested (StatesBlock inner) budget tree form)
    (changes : nestedLayout.Changes NestedField.block value replaced tree other)
    (kept : ∀ content, IsOptional (StatesBlock inner) value content →
      IsOptional (StatesBlock inner) replaced content) :
    StatesNested (StatesBlock inner) budget other form := by
  rw [← statesNested_iff (blockForm 0)] at states ⊢
  exact states.changed changes fun _ => kept

end

/-- A change keeps the meaning of the value, whatever the value stands for. -/
theorem Rewrites.states {role : Role} {tree other : ParseTree} (change : Rewrites role tree other) :
    ∀ (inner budget : Nat) (content : role.Content),
      role.States inner budget tree content → role.States inner budget other content := by
  induction change with
  | permuted record permutation =>
      intro inner budget content states
      exact states.of_gives record fun _ _ _ gives => gives.permuted permutation
  | extended record decoded foreign value =>
      intro inner budget content states
      exact states.of_gives record fun layout isField _ gives =>
        gives.extended decoded (fun field same => foreign (same ▸ isField field)) value
  | merged map firstNamed lastNamed named =>
      rename_i role _ _ _ _ _ _ _ _ _
      intro inner budget content states
      cases role with
      | block | attributeEntry | nestedEntry => cases map
      | attributeMap => exact IsMap.merged states firstNamed lastNamed named
      | nestedMap => exact IsMap.merged states firstNamed lastNamed named
  | inside decoded holds change inductionHypothesis =>
      intro inner budget content states
      cases holds with
      | attributes =>
          exact StatesBlock.changed .attributes states
            (.ofMap blockLayout_field?_name decoded) fun rest => inductionHypothesis 0 rest
      | blockTypes =>
          exact StatesBlock.changed .blockTypes states
            (.ofMap blockLayout_field?_name decoded) (inductionHypothesis (budget - 3))
      | attributeEntry => exact IsMap.inside states (inductionHypothesis inner)
      | nestedEntry => exact IsMap.inside states (inductionHypothesis inner)
      | block =>
          exact StatesNested.changedBlock states (.ofMap nestedLayout_field?_name decoded)
            fun _ => change.isOptional (inductionHypothesis 0 inner)
  | insideList holds change inductionHypothesis =>
      rename_i before after value replaced
      intro inner budget content states
      generalize place : before.length = index at holds
      cases holds with
      | attributes =>
          exact StatesBlock.changed .attributes states
            (.ofList blockLayout_field?_name place.symm) fun rest => inductionHypothesis 0 rest
      | blockTypes =>
          exact StatesBlock.changed .blockTypes states
            (.ofList blockLayout_field?_name place.symm) (inductionHypothesis (budget - 3))
      | block =>
          exact StatesNested.changedBlock states
            (.ofList nestedLayout_field?_name place.symm)
            fun _ => change.isOptional (inductionHypothesis 0 inner)

/-! ## Texts -/

/-- One redraft documents whatever the text before it does. -/
theorem Redrafted.documents {text other : String} (redrafted : Redrafted text other)
    {form : BlockForm} (documents : Documents text.toList form) :
    Documents other.toList form := by
  obtain ⟨tree, otherTree, spelled, otherSpelled, change⟩ := redrafted
  rw [← documentForm_eq_ok_iff, documentForm_eq_ok_iff_of_spelled spelled] at documents
  rcases change with rfl | change
  · exact ⟨_, otherSpelled, documents⟩
  · exact ⟨_, otherSpelled, change.states 0 Json.openLimit form documents⟩

theorem documents_of_redrafts {text other : String}
    (redrafts : Relation.ReflTransGen Redrafted text other) {form : BlockForm}
    (documents : Documents text.toList form) : Documents other.toList form := by
  induction redrafts with
  | refl => exact documents
  | tail _ redrafted inductionHypothesis => exact redrafted.documents inductionHypothesis

theorem BlockSchema.ofText_of_redrafts {text other : String} {schema : BlockSchema}
    (decoded : ofText text = .ok schema)
    (redrafts : Relation.ReflTransGen Redrafted text other) : ofText other = .ok schema := by
  obtain ⟨form, documents, made⟩ := ofText_eq_ok_iff.1 decoded
  exact ofText_eq_ok_iff.2 ⟨form, documents_of_redrafts redrafts documents, made⟩

/-- A text that gives a schema is spelled as a value, and however it is redrafted, it gives
the same schema. -/
theorem BlockSchema.ofText_redrafted {text : String} {schema : BlockSchema}
    (decoded : ofText text = .ok schema) :
    (∃ tree : ParseTree, tree.Spelled text.toList) ∧
      ∀ other, Relation.ReflTransGen Redrafted text other → ofText other = .ok schema := by
  obtain ⟨form, ⟨tree, spelled, _⟩, _⟩ := ofText_eq_ok_iff.1 decoded
  exact ⟨⟨tree, spelled⟩, fun other => ofText_of_redrafts decoded⟩

/-! ## A document and a redraft of it -/

namespace DiskDraft

def attributesKey : TextLexeme := .ofPlain ['a', 't', 't', 'r', 'i', 'b', 'u', 't', 'e', 's']

def descriptionKey : TextLexeme :=
  .ofPlain ['d', 'e', 's', 'c', 'r', 'i', 'p', 't', 'i', 'o', 'n']

def sizeKey : TextLexeme := .ofPlain ['s', 'i', 'z', 'e']

def nameKey : TextLexeme := .ofPlain ['n', 'a', 'm', 'e']

def requiredKey : TextLexeme := .ofPlain ['r', 'e', 'q', 'u', 'i', 'r', 'e', 'd']

def noteKey : TextLexeme := .ofPlain ['n', 'o', 't', 'e']

def required : ParseTree := .map [(requiredKey, .word (.flag true))]

/-- The size is declared twice, and is required the second time. -/
def first : ParseTree :=
  .map
    [(attributesKey, .map [(sizeKey, .map []), (nameKey, .map []), (sizeKey, required)]),
      (descriptionKey, .word .null)]

/-- The size is declared once. -/
def merged : ParseTree :=
  .map
    [(attributesKey, .map [(sizeKey, required), (nameKey, .map [])]),
      (descriptionKey, .word .null)]

def reordered : ParseTree :=
  .map
    [(descriptionKey, .word .null),
      (attributesKey, .map [(sizeKey, required), (nameKey, .map [])])]

def annotated : ParseTree :=
  .map
    [(descriptionKey, .word .null), (noteKey, .list [.list []]),
      (attributesKey, .map [(sizeKey, required), (nameKey, .map [])])]

def schema : BlockSchema :=
  { attributes :=
      { entries :=
          [("size", { name := "size", required := true }), ("name", { name := "name" })] } }

theorem decoded : BlockSchema.ofText (first.spread []) = .ok schema := by
  rw [BlockSchema.ofText, ParseTree.spread, String.toList_ofList]
  rfl

theorem redrafted_of_rewrites {tree other : ParseTree} (change : Rewrites .block tree other)
    {blanks otherBlanks : List Char} (blank : Json.Blank blanks)
    (otherBlank : Json.Blank otherBlanks) :
    Redrafted (tree.spread blanks) (other.spread otherBlanks) :=
  ⟨tree, other, tree.spelled_spread blank, other.spelled_spread otherBlank, .inr change⟩

theorem rewrites_merged : Rewrites .block first merged := by
  have inMap : Rewrites .attributeMap
      (.map [(sizeKey, .map []), (nameKey, .map []), (sizeKey, required)])
      (.map [(sizeKey, required), (nameKey, .map [])]) :=
    @Rewrites.merged .attributeMap [] [(nameKey, .map [])] [] sizeKey sizeKey sizeKey "size"
      (.map []) required rfl rfl rfl rfl
  exact @Rewrites.inside .block .attributeMap [] [(descriptionKey, .word .null)] attributesKey
    "attributes" _ _ rfl .attributes inMap

theorem rewrites_reordered : Rewrites .block merged reordered :=
  .permuted rfl (.swap _ _ [])

theorem rewrites_annotated : Rewrites .block reordered annotated :=
  @Rewrites.extended .block _ [(descriptionKey, .word .null)] _ noteKey "note" rfl rfl
    (by decide) _

end DiskDraft

section

open DiskDraft

/-- Merged, reordered, annotated and spread over many lines, the document gives the schema
that it gave at first. -/
theorem BlockSchema.ofText_redrafted_disk :
    ofText (first.spread []) = .ok schema ∧ ofText (annotated.spread ['\n', ' ']) = .ok schema := by
  have plain : Json.Blank [] := by decide
  have spacious : Json.Blank ['\n', ' '] := by decide
  have redrafts : Relation.ReflTransGen Redrafted (first.spread [])
      (annotated.spread ['\n', ' ']) :=
    .head (redrafted_of_rewrites rewrites_merged plain plain)
      (.head (redrafted_of_rewrites rewrites_reordered plain plain)
        (.single (redrafted_of_rewrites rewrites_annotated plain spacious)))
  exact ⟨decoded, (ofText_redrafted decoded).2 _ redrafts⟩

end

end SchemaBinding
