import SchemaBinding.Proofs.Schema.OpenLimit
import SchemaBinding.Proofs.Schema.Shape

/-!
Contract: what holds of every schema that is read from a text.

Owns:
- `BlockForm.toSchema_eq_ok_iff`, by which a schema is made of a document entry by entry;
- `BlockForm.depth`, which bounds the steps of that into one another;
- `BlockSchema.AtLevel`, the blocks at a given level of a schema; and
- `BlockSchema.ofText_keyed_bounded`, by which declarations stand under their own names at
  every level, and there are 42 levels at most; and
- `BlockSchema.ofText_deep_iff`, by which there are texts with that many levels.

Does not own: schemas that are built by hand, which may go to any depth.
-/

set_option autoImplicit false

namespace SchemaBinding

open Json (ParseTree TextLexeme)
open Json.ParseTree (IsMap IsOptional)

/-! ## From a document to a schema -/

theorem NestedForm.toSchemas_eq_ok_iff {entries : List (String × NestedForm)}
    {made : List (String × NestedSchema)} :
    NestedForm.toSchemas entries = .ok made ↔
      List.Forall₂ (fun entry schema => schema.1 = entry.1 ∧
        entry.2.toSchema entry.1 = .ok schema.2) entries made := by
  induction entries generalizing made with
  | nil =>
      constructor
      · rintro ⟨⟩
        exact .nil
      · rintro ⟨⟩
        rfl
  | cons entry entries inductionHypothesis =>
      obtain ⟨typeName, form⟩ := entry
      rw [NestedForm.toSchemas]
      simp only [Json.bind_eq_ok_iff, Json.return_eq_ok_iff, inductionHypothesis]
      constructor
      · rintro ⟨nested, madeHere, others, madeOthers, rfl⟩
        exact .cons ⟨rfl, madeHere⟩ madeOthers
      · rintro (_ | ⟨⟨sameName, madeHere⟩, madeOthers⟩)
        rename_i schema others
        obtain ⟨_, nested⟩ := schema
        cases sameName
        exact ⟨nested, madeHere, others, madeOthers, rfl⟩

theorem BlockForm.toSchema_eq_ok_iff {form : BlockForm} {schema : BlockSchema} :
    form.toSchema = .ok schema ↔
      ∃ nested, NestedForm.toSchemas form.blockTypes.entries = .ok nested ∧
        schema =
          { attributes := form.attributes.mapValues AttributeForm.toSchema
            nested := ⟨nested⟩
            description := form.description
            deprecated := form.deprecated } := by
  obtain ⟨attributes, ⟨blockTypes⟩, description, deprecated⟩ := form
  rw [BlockForm.toSchema, Json.bind_eq_ok_iff]
  constructor
  · rintro ⟨nested, made, ⟨⟩⟩
    exact ⟨nested, made, rfl⟩
  · rintro ⟨nested, made, rfl⟩
    exact ⟨nested, made, rfl⟩

theorem NestedForm.toSchema_eq_ok {typeName : String} {form : NestedForm}
    {schema : NestedSchema} (made : form.toSchema typeName = .ok schema) :
    schema.typeName = typeName ∧
      ((∃ inner, form.block = some inner ∧ inner.toSchema = .ok schema.block) ∨
        (form.block = none ∧ schema.block = {})) := by
  obtain ⟨mode, block, minItems, maxItems⟩ := form
  cases block with
  | some inner =>
      rw [NestedForm.toSchema] at made
      obtain ⟨nesting, _, madeRest⟩ := Json.bind_eq_ok_iff.1 made
      obtain ⟨own, madeInner, finished⟩ := Json.bind_eq_ok_iff.1 madeRest
      cases finished
      exact ⟨rfl, .inl ⟨inner, rfl, madeInner⟩⟩
  | none =>
      rw [NestedForm.toSchema] at made
      obtain ⟨nesting, _, madeRest⟩ := Json.bind_eq_ok_iff.1 made
      obtain ⟨own, madeInner, finished⟩ := Json.bind_eq_ok_iff.1 madeRest
      cases madeInner
      cases finished
      exact ⟨rfl, .inr ⟨rfl, rfl⟩⟩

/-- What stands in a schema has been made of what stands in its document. -/
theorem BlockForm.exists_of_mem_nested {form : BlockForm} {schema : BlockSchema}
    (made : form.toSchema = .ok schema) {entry : String × NestedSchema}
    (member : entry ∈ schema.nested.entries) :
    ∃ nestedForm, (entry.1, nestedForm) ∈ form.blockTypes.entries ∧
      nestedForm.toSchema entry.1 = .ok entry.2 := by
  obtain ⟨nested, madeNested, rfl⟩ := toSchema_eq_ok_iff.1 made
  obtain ⟨⟨typeName, nestedForm⟩, listed, sameName, madeHere⟩ :=
    Json.exists_mem_of_forall₂ (NestedForm.toSchemas_eq_ok_iff.1 madeNested) member
  dsimp only at sameName madeHere
  rw [sameName]
  exact ⟨nestedForm, listed, madeHere⟩

/-! ## What a document states about the blocks inside -/

namespace StatesBlock

variable {budget : Nat} {tree : ParseTree} {form : BlockForm}

theorem attributes_cases (states : StatesBlock budget tree form) :
    form.attributes = {} ∨
      ∃ value, IsMap (budget - 1) StatesAttribute value form.attributes.toNamedList := by
  rw [statesBlock_eq] at states
  obtain ⟨rest, _, rfl, _, attributes, _⟩ := states
  exact eq_default_or_exists attributes

theorem blockTypes_cases (states : StatesBlock budget tree form) :
    form.blockTypes = {} ∨
      ∃ value, IsMap (budget - 1) (StatesNested (StatesBlock (budget - 3))) value
        form.blockTypes := by
  rw [statesBlock_eq] at states
  obtain ⟨rest, _, rfl, _, _, blockTypes, _⟩ := states
  exact eq_default_or_exists blockTypes

theorem blockTypes_distinct (states : StatesBlock budget tree form) :
    form.blockTypes.Distinct := by
  rcases states.blockTypes_cases with empty | ⟨value, isMap⟩
  · rw [empty]
    exact List.nodup_nil
  · exact isMap.distinct

/-- A block inside has three lists and maps less. -/
theorem inner (states : StatesBlock budget tree form) {entry : String × NestedForm}
    (member : entry ∈ form.blockTypes.entries) {innerForm : BlockForm}
    (present : entry.2.block = some innerForm) :
    ∃ value, StatesBlock (budget - 3) value innerForm := by
  rcases states.blockTypes_cases with empty | ⟨_, isMap⟩
  · rw [empty] at member
    cases member
  · obtain ⟨_, _, _, nested⟩ := isMap.exists_of_mem member
    obtain ⟨_, _, _, _, _, block, _⟩ := nested
    rw [present] at block
    rcases eq_default_or_exists block with absent | ⟨value, meant⟩
    · cases absent
    · cases meant with
      | present _ states => exact ⟨value, states⟩

/-- Where one map may be open, that is the block itself: nothing stands in it. -/
theorem empty_of_one (states : StatesBlock 1 tree form) :
    form.attributes = {} ∧ form.blockTypes = {} := by
  constructor
  · rcases states.attributes_cases with empty | ⟨_, _, _, _, impossible, _⟩
    · exact empty
    · cases impossible
  · rcases states.blockTypes_cases with empty | ⟨_, _, _, _, impossible, _⟩
    · exact empty
    · cases impossible

end StatesBlock

/-! ## Depth -/

mutual

/-- How deep the making of a schema goes: the blocks of a document that stand in one another,
below the outermost one. -/
def BlockForm.depth : BlockForm → Nat
  | ⟨_, ⟨blockTypes⟩, _, _⟩ => NestedForm.deepest blockTypes

def NestedForm.depth : NestedForm → Nat
  | ⟨_, some inner, _, _⟩ => inner.depth + 1
  | ⟨_, none, _, _⟩ => 0

def NestedForm.deepest : List (String × NestedForm) → Nat
  | [] => 0
  | (_, form) :: rest => max form.depth (NestedForm.deepest rest)

end

theorem NestedForm.deepest_le {bound : Nat} :
    ∀ {entries : List (String × NestedForm)},
      (∀ entry ∈ entries, entry.2.depth ≤ bound) → NestedForm.deepest entries ≤ bound
  | [], _ => Nat.zero_le bound
  | entry :: rest, low => by
      rw [NestedForm.deepest]
      exact Nat.max_le.2 ⟨low entry List.mem_cons_self,
        NestedForm.deepest_le fun other member => low other (List.mem_cons_of_mem _ member)⟩

theorem NestedForm.depth_eq (form : NestedForm) :
    form.depth = match form.block with
      | some inner => inner.depth + 1
      | none => 0 := by
  obtain ⟨mode, block, minItems, maxItems⟩ := form
  cases block with
  | some inner => rw [NestedForm.depth]
  | none => rw [NestedForm.depth]

/-- Each block inside another takes three lists and maps, and the innermost takes one. -/
theorem StatesBlock.depth_le {budget : Nat} {tree : ParseTree} {form : BlockForm}
    (states : StatesBlock budget tree form) : 3 * form.depth + 1 ≤ budget := by
  induction budget using Nat.strongRecOn generalizing tree form with
  | ind budget inductionHypothesis =>
      have positive := states.pos
      have low : NestedForm.deepest form.blockTypes.entries ≤ (budget - 1) / 3 := by
        apply NestedForm.deepest_le
        intro entry member
        rw [NestedForm.depth_eq]
        cases block : entry.2.block with
        | none => exact Nat.zero_le _
        | some innerForm =>
            obtain ⟨value, inside⟩ := states.inner member block
            have lower := inductionHypothesis (budget - 3) (by omega) inside
            dsimp only
            omega
      have whole : form.depth = NestedForm.deepest form.blockTypes.entries := by
        obtain ⟨_, ⟨blockTypes⟩, _, _⟩ := form
        rw [BlockForm.depth]
      omega

/-! ## Names -/

theorem NestedForm.names_of_toSchemas {entries : List (String × NestedForm)}
    {made : List (String × NestedSchema)} (all : NestedForm.toSchemas entries = .ok made) :
    made.map Prod.fst = entries.map Prod.fst := by
  have matched := toSchemas_eq_ok_iff.1 all
  clear all
  induction matched with
  | nil => rfl
  | cons headMatched _ inductionHypothesis =>
      rw [List.map_cons, List.map_cons, headMatched.1, inductionHypothesis]

theorem BlockForm.types_of_toSchema {form : BlockForm} {schema : BlockSchema}
    (made : form.toSchema = .ok schema) : schema.nested.names = form.blockTypes.names := by
  obtain ⟨nested, madeNested, rfl⟩ := toSchema_eq_ok_iff.1 made
  exact NestedForm.names_of_toSchemas madeNested

/-- What is made of a document stands under its own name at every depth. -/
theorem StatesBlock.keyed {budget : Nat} {tree : ParseTree} {form : BlockForm}
    (states : StatesBlock budget tree form) {schema : BlockSchema}
    (made : form.toSchema = .ok schema) : schema.Keyed := by
  induction budget using Nat.strongRecOn generalizing tree form schema with
  | ind budget inductionHypothesis =>
      have positive := states.pos
      refine .intro ?_ ?_ ?_ ?_
      · intro entry member
        obtain ⟨nested, _, rfl⟩ := BlockForm.toSchema_eq_ok_iff.1 made
        obtain ⟨source, _, rfl⟩ := List.mem_map.1 member
        rfl
      · rw [NamedList.Distinct, BlockForm.types_of_toSchema made]
        exact states.blockTypes_distinct
      · intro entry member
        obtain ⟨nestedForm, _, madeHere⟩ := BlockForm.exists_of_mem_nested made member
        exact (NestedForm.toSchema_eq_ok madeHere).1
      · intro entry member
        obtain ⟨nestedForm, listed, madeHere⟩ := BlockForm.exists_of_mem_nested made member
        rcases (NestedForm.toSchema_eq_ok madeHere).2 with
          ⟨innerForm, present, madeInner⟩ | ⟨_, empty⟩
        · obtain ⟨value, inside⟩ := states.inner listed present
          exact inductionHypothesis (budget - 3) (by omega) inside madeInner
        · rw [empty]
          exact .intro nofun List.nodup_nil nofun nofun

/-! ## Levels -/

/-- A block that lies some levels below another one, which is at level zero. -/
inductive BlockSchema.AtLevel : Nat → BlockSchema → BlockSchema → Prop where
  | root {schema : BlockSchema} : AtLevel 0 schema schema
  | inside {level : Nat} {schema inner : BlockSchema} {entry : String × NestedSchema}
      (member : entry ∈ schema.nested.entries) (deeper : AtLevel level entry.2.block inner) :
      AtLevel (level + 1) schema inner

theorem BlockSchema.AtLevel.eq_root {level : Nat} {schema inner : BlockSchema}
    (found : AtLevel level schema inner) (empty : schema.nested.entries = []) :
    level = 0 ∧ inner = schema := by
  cases found with
  | root => exact ⟨rfl, rfl⟩
  | inside member _ =>
      rw [empty] at member
      cases member

/-- Where nothing stands in a document, nothing stands in its schema. -/
theorem BlockForm.entries_eq_nil {form : BlockForm} {schema : BlockSchema}
    (made : form.toSchema = .ok schema) (noAttributes : form.attributes = {})
    (noTypes : form.blockTypes = {}) :
    schema.attributes.entries = [] ∧ schema.nested.entries = [] := by
  have sameTypes := types_of_toSchema made
  rw [noTypes] at sameTypes
  obtain ⟨nested, _, rfl⟩ := toSchema_eq_ok_iff.1 made
  rw [noAttributes]
  exact ⟨rfl, List.map_eq_nil_iff.1 sameTypes⟩

/-- There are as many levels below a block as its budget has threes, and nothing stands in
the blocks of the last one. -/
theorem StatesBlock.atLevel {bound : Nat} {tree : ParseTree} {form : BlockForm}
    (states : StatesBlock (3 * bound + 1) tree form) {schema : BlockSchema}
    (made : form.toSchema = .ok schema) {level : Nat} {inner : BlockSchema}
    (found : BlockSchema.AtLevel level schema inner) :
    level ≤ bound ∧
      (level = bound → inner.attributes.entries = [] ∧ inner.nested.entries = []) := by
  induction bound generalizing tree form schema level with
  | zero =>
      obtain ⟨noAttributes, noTypes⟩ := states.empty_of_one
      have empty := BlockForm.entries_eq_nil made noAttributes noTypes
      obtain ⟨rfl, rfl⟩ := found.eq_root empty.2
      exact ⟨Nat.le_refl 0, fun _ => empty⟩
  | succ bound inductionHypothesis =>
      cases found with
      | root => exact ⟨Nat.zero_le _, nofun⟩
      | inside member deeper =>
          obtain ⟨nestedForm, listed, madeHere⟩ := BlockForm.exists_of_mem_nested made member
          rcases (NestedForm.toSchema_eq_ok madeHere).2 with
            ⟨innerForm, present, madeInner⟩ | ⟨_, empty⟩
          · obtain ⟨value, inside⟩ := states.inner listed present
            obtain ⟨low, last⟩ := inductionHypothesis inside madeInner deeper
            exact ⟨Nat.succ_le_succ low, fun same => last (Nat.succ.inj same)⟩
          · -- A type without a block has an empty one, whatever the budget is.
            rw [empty] at deeper
            obtain ⟨rfl, rfl⟩ := deeper.eq_root rfl
            exact ⟨Nat.succ_le_succ (Nat.zero_le bound), fun _ => ⟨rfl, rfl⟩⟩

/-! ## Texts -/

theorem BlockSchema.keyed_of_ofText {text : String} {schema : BlockSchema}
    (decoded : ofText text = .ok schema) : schema.Keyed := by
  obtain ⟨form, ⟨tree, _, states⟩, made⟩ := ofText_eq_ok_iff.1 decoded
  exact states.keyed made

theorem BlockSchema.ofText_atLevel {text : String} {schema : BlockSchema}
    (decoded : ofText text = .ok schema) {level : Nat} {inner : BlockSchema}
    (found : AtLevel level schema inner) :
    level ≤ 42 ∧
      (level = 42 → inner.attributes.entries = [] ∧ inner.nested.entries = []) := by
  obtain ⟨form, ⟨tree, _, states⟩, made⟩ := ofText_eq_ok_iff.1 decoded
  have bounded : StatesBlock (3 * 42 + 1) tree form := states
  exact bounded.atLevel made found

/-- A text that is read at all is read as a document of 42 levels at most, and so is the
schema made of it. In the schema every declaration stands under its own name at every level,
and nothing is declared at level 42. The limit is that of the lists and maps that are open
at once where values are read: the one with number 128 is refused. Members of unknown names
have no part in it: the same schema is read wherever such members come in, whatever their
values and however deep. -/
theorem BlockSchema.ofText_keyed_bounded (text : String) :
    (∀ form, documentForm text.toList = .ok form → form.depth ≤ 42) ∧
      (∀ tree depth, tree.Spelled text.toList → Role.block.Opens tree depth → 127 < depth →
        ∃ message, ofText text = .error (.json message)) ∧
      ∀ schema, ofText text = .ok schema →
        schema.Keyed ∧
        (∀ level inner, AtLevel level schema inner →
          level ≤ 42 ∧
            (level = 42 → inner.attributes.entries = [] ∧ inner.nested.entries = [])) ∧
        ∀ other, Relation.ReflTransGen Redrafted text other → ofText other = .ok schema := by
  refine ⟨?_, fun tree depth => ofText_of_opens, ?_⟩
  · intro form read
    obtain ⟨tree, _, states⟩ := documentForm_eq_ok_iff.1 read
    have low : 3 * form.depth + 1 ≤ 127 := states.depth_le
    omega
  · intro schema decoded
    exact ⟨keyed_of_ofText decoded, fun level inner => ofText_atLevel decoded,
      fun other => ofText_of_redrafts decoded⟩

/-! ## A document that goes as deep as it can -/

namespace DeepDraft

def blockTypesKey : TextLexeme :=
  .ofPlain ['b', 'l', 'o', 'c', 'k', '_', 't', 'y', 'p', 'e', 's']

def nestingModeKey : TextLexeme :=
  .ofPlain ['n', 'e', 's', 't', 'i', 'n', 'g', '_', 'm', 'o', 'd', 'e']

def blockKey : TextLexeme := .ofPlain ['b', 'l', 'o', 'c', 'k']

def partKey : TextLexeme := .ofPlain ['p', 'a', 'r', 't']

def setText : TextLexeme := .ofPlain ['s', 'e', 't']

def part (block : ParseTree) : ParseTree :=
  .map [(nestingModeKey, .text setText), (blockKey, block)]

/-- The document of parts inside parts. -/
def tree : Nat → ParseTree
  | 0 => .map []
  | levels + 1 => .map [(blockTypesKey, .map [(partKey, part (tree levels))])]

def partForm (block : BlockForm) : NestedForm :=
  ⟨"set", some block, none, none⟩

def form : Nat → BlockForm
  | 0 => ⟨{}, {}, none, false⟩
  | levels + 1 => ⟨{}, ⟨[("part", partForm (form levels))]⟩, none, false⟩

def partSchema (block : BlockSchema) : NestedSchema :=
  { typeName := "part", nesting := .set, block }

def schema : Nat → BlockSchema
  | 0 => {}
  | levels + 1 => { nested := ⟨[("part", partSchema (schema levels))]⟩ }

/-- What a part gives for its fields. -/
def givenByPart (block : ParseTree) : NestedField → Option ParseTree
  | .nestingMode => some (.text setText)
  | .block => some block
  | .minItems | .maxItems => none

/-- What a block with one part gives for its fields. -/
def givenByBlock (levels : Nat) : BlockField → Option ParseTree
  | .blockTypes => some (.map [(partKey, part (tree levels))])
  | .attributes | .description | .deprecated => none

theorem named_cons {key : TextLexeme} {value : ParseTree} {name : String}
    {members : List (TextLexeme × ParseTree)} (decoded : key.text? = some name)
    (named : ∀ member ∈ members, member.1.text? ≠ none) :
    ∀ member ∈ (key, value) :: members, member.1.text? ≠ none :=
  List.forall_mem_cons.2 ⟨Option.ne_none_iff_exists'.2 ⟨name, decoded⟩, named⟩

theorem gives_part (block : ParseTree) : nestedLayout.Gives (part block) (givenByPart block) :=
  .byName (named_cons rfl (named_cons rfl (List.forall_mem_nil _))) fun field => by
    cases field <;> rfl

theorem gives_block (levels : Nat) :
    blockLayout.Gives (tree (levels + 1)) (givenByBlock levels) :=
  .byName (named_cons rfl (List.forall_mem_nil _)) fun field => by cases field <;> rfl

theorem tree_ne_null (levels : Nat) : tree levels ≠ .word .null := by
  intro same
  cases levels with
  | zero => cases same
  | succ => cases same

/-- Each level takes three maps: the block, its map of types and the type. -/
theorem states (spare : Nat) :
    ∀ levels : Nat, StatesBlock (3 * levels + (spare + 1)) (tree levels) (form levels)
  | 0 => by
      rw [statesBlock_eq]
      exact ⟨spare, fun _ => none, Nat.zero_add _,
        .byName (List.forall_mem_nil _) fun _ => rfl, rfl, rfl, rfl, rfl⟩
  | levels + 1 => by
      have same : 3 * (levels + 1) + (spare + 1) = 3 * levels + (spare + 1) + 3 := by omega
      have inner := states spare levels
      rw [same]
      generalize 3 * levels + (spare + 1) = budget at inner
      have statesPart : StatesNested (StatesBlock budget) (budget + 1) (part (tree levels))
          (partForm (form levels)) :=
        ⟨budget, givenByPart (tree levels), rfl, gives_part (tree levels),
          ⟨_, rfl, setText, rfl, rfl⟩, .present (tree_ne_null levels) inner, rfl, rfl⟩
      have types : IsMap (budget + 2) (StatesNested (StatesBlock budget))
          (.map [(partKey, part (tree levels))]) ⟨[("part", partForm (form levels))]⟩ :=
        ⟨budget + 1, _, [("part", _)], rfl, rfl, .cons ⟨rfl, statesPart⟩ .nil, rfl⟩
      exact ⟨budget + 2, givenByBlock levels, rfl, gives_block levels, rfl, types, rfl, rfl⟩

theorem made_part {block : BlockForm} {own : BlockSchema} (made : block.toSchema = .ok own) :
    (partForm block).toSchema "part" = .ok (partSchema own) := by
  rw [partForm, NestedForm.toSchema]
  dsimp only
  rw [made]
  rfl

theorem made : ∀ levels : Nat, (form levels).toSchema = .ok (schema levels)
  | 0 => rfl
  | levels + 1 =>
      BlockForm.toSchema_eq_ok_iff.2
        ⟨_, NestedForm.toSchemas_eq_ok_iff.2 (.cons ⟨rfl, made_part (made levels)⟩ .nil), rfl⟩

theorem atLevel : ∀ levels : Nat, BlockSchema.AtLevel levels (schema levels) {}
  | 0 => .root
  | levels + 1 => .inside List.mem_cons_self (atLevel levels)

end DeepDraft

section

open DeepDraft

/-- The limit is reached: 42 parts inside parts are read, and no more than that. -/
theorem BlockSchema.ofText_deep_iff (levels : Nat) :
    ofText ((tree levels).spread []) = .ok (schema levels) ↔ levels ≤ 42 := by
  have spelled : (tree levels).Spelled ((tree levels).spread []).toList :=
    (tree levels).spelled_spread (by decide)
  constructor
  · intro decoded
    exact (ofText_atLevel decoded (atLevel levels)).1
  · intro low
    obtain ⟨spare, limit⟩ : ∃ spare, Json.openLimit = 3 * levels + (spare + 1) :=
      ⟨126 - 3 * levels, by unfold Json.openLimit; omega⟩
    have stated : StatesBlock Json.openLimit (tree levels) (form levels) := by
      rw [limit]
      exact states spare levels
    exact ofText_eq_ok_iff.2 ⟨form levels, ⟨tree levels, spelled, stated⟩, made levels⟩

/-- The schema of the deepest of these documents has a block at the last level, and every
part of it stands under its own name. -/
theorem BlockSchema.ofText_keyed_bounded_deep :
    ofText ((tree 42).spread []) = .ok (schema 42) ∧ AtLevel 42 (schema 42) {} ∧
      (schema 42).Keyed ∧ ∀ level inner, AtLevel level (schema 42) inner → level ≤ 42 := by
  have decoded := (ofText_deep_iff 42).2 (Nat.le_refl 42)
  obtain ⟨keyed, bounded, _⟩ := (ofText_keyed_bounded _).2.2 _ decoded
  exact ⟨decoded, atLevel 42, keyed, fun level inner found => (bounded level inner found).1⟩

end

end SchemaBinding
