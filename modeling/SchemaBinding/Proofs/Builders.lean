import SchemaBinding.Proofs.NamedList.Repetition
import SchemaBinding.Schema.Basic
import SchemaBinding.Tree.Basic

/-!
Contract: bodies and schemas that are built step by step.

Owns:
- `Addition`, one step of a builder, and `Body.addAll` and `BlockSchema.addAll`, a sequence
  of them;
- `NamedList.Keeps`, what a list of named values keeps of the values that were added to it; and
- `addAll_wellKeyed`, by which a body or a schema that is built in this way keeps each value
  under its own name, however its steps follow one another.

Does not own: lists that are filled without a builder. There a value may stand under a name
that is not its own.

A step of one kind leaves alone what steps of the other kind add to. So a sequence of steps
does what its steps of each kind do on their own, and the rest is read off that.
-/

set_option autoImplicit false

namespace SchemaBinding

/-! ## Steps -/

/-- One step of a builder. It adds an attribute, or else a block or a type of blocks. -/
inductive Addition (α β : Type) where
  | ofAttribute (added : α)
  | ofNested (added : β)

namespace Addition

section

variable {α β : Type}

/-- The attributes that are added, in the order of the steps. -/
def attributesOf : List (Addition α β) → List α
  | [] => []
  | ofAttribute added :: rest => added :: attributesOf rest
  | ofNested _ :: rest => attributesOf rest

/-- What is added besides attributes, in the order of the steps. -/
def nestedOf : List (Addition α β) → List β
  | [] => []
  | ofAttribute _ :: rest => nestedOf rest
  | ofNested added :: rest => added :: nestedOf rest

/-- The steps of either kind are the same in the same order, and only the turns that the two
kinds take may differ. -/
structure SameByKind (first second : List (Addition α β)) : Prop where
  attributes : attributesOf first = attributesOf second
  nested : nestedOf first = nestedOf second

theorem eq_nil_iff (steps : List (Addition α β)) :
    steps = [] ↔ attributesOf steps = [] ∧ nestedOf steps = [] := by
  cases steps with
  | nil => simp [attributesOf, nestedOf]
  | cons step rest =>
      cases step with
      | ofAttribute added => simp [attributesOf]
      | ofNested added => simp [nestedOf]

end

end Addition

open Addition

/-! ## Values under their own names -/

namespace NamedList

section

variable {α : Type} (name : α → String) (added : List α)

/-- Files values one after another, each under its own name. -/
def fileAll (list : NamedList α) : NamedList α :=
  list.insertAll (added.map fun value => (name value, value))

/-- The list keeps the values that were added: the last one of each name, in the place that
the first one of the name got. -/
structure Keeps (list : NamedList α) : Prop where
  distinct : list.Distinct
  /-- Each value stands under its own name. -/
  named : ∀ entry ∈ list.entries, entry.1 = name entry.2
  /-- The last value added under a name is found there, and nothing if there is none. -/
  find?_eq : ∀ key, list.find? key = (added.filter fun value => name value == key).getLast?
  /-- Names stand in the order in which they were first added. -/
  names_eq : list.names = (added.map name).eraseDups

theorem keeps_fileAll : Keeps name added (fileAll name added {}) where
  distinct := distinct_ofList _
  named := by
    intro entry member
    have filed := mem_of_mem_ofList member
    obtain ⟨value, _, rfl⟩ := List.mem_map.1 filed
    rfl
  find?_eq := by
    intro key
    have last := find?_ofList (added.map fun value => (name value, value)) key
    rw [List.filter_map, List.getLast?_map, Option.map_map] at last
    exact last.trans Option.map_id'
  names_eq := by
    have first := names_ofList (added.map fun value => (name value, value))
    rw [List.map_map] at first
    exact first

variable {name added}

theorem Keeps.isEmpty_iff {list : NamedList α} (kept : Keeps name added list) :
    list.isEmpty = true ↔ added = [] := by
  have sameNames := kept.names_eq
  rw [NamedList.isEmpty, List.isEmpty_iff, ← List.map_eq_nil_iff (f := Prod.fst)]
  show list.names = [] ↔ added = []
  rw [sameNames]
  cases added with
  | nil => simp
  | cons value rest => simp [List.eraseDups_cons]

end

end NamedList

namespace NamedMap

section

variable {α : Type} (name : α → String) (added : List α)

theorem toNamedList_fileAll (map : NamedMap α) :
    (map.fileAll name added).toNamedList = map.toNamedList.fileAll name added := by
  induction added generalizing map with
  | nil => rfl
  | cons value rest inductionHypothesis =>
      exact inductionHypothesis (map.insert (name value) value)

theorem keeps_fileAll : NamedList.Keeps name added (fileAll name added {}).toNamedList := by
  rw [toNamedList_fileAll]
  exact NamedList.keeps_fileAll name added

end

end NamedMap

/-! ## Sequences of steps -/

def Body.add (body : Body) : Addition Attribute Block → Body
  | .ofAttribute added => body.addAttribute added
  | .ofNested added => body.addBlock added

/-- Takes steps in order. -/
def Body.addAll (body : Body) (steps : List (Addition Attribute Block)) : Body :=
  steps.foldl Body.add body

def BlockSchema.add (schema : BlockSchema) :
    Addition AttributeSchema NestedSchema → BlockSchema
  | .ofAttribute added => schema.addAttribute added
  | .ofNested added => schema.addNested added

/-- Takes steps in order. -/
def BlockSchema.addAll (schema : BlockSchema)
    (steps : List (Addition AttributeSchema NestedSchema)) : BlockSchema :=
  steps.foldl BlockSchema.add schema

/-- Attributes are filed and blocks appended, each as if the others were not there. -/
theorem Body.addAll_eq (steps : List (Addition Attribute Block)) (body : Body) :
    body.addAll steps
      = { body with
          attributes := body.attributes.fileAll Attribute.name (attributesOf steps)
          blocks := body.blocks ++ nestedOf steps } := by
  induction steps generalizing body with
  | nil =>
      obtain ⟨attributes, blocks, span, endSpan⟩ := body
      simp [Body.addAll, attributesOf, nestedOf, NamedMap.fileAll]
  | cons step rest inductionHypothesis =>
      show (body.add step).addAll rest = _
      rw [inductionHypothesis]
      cases step with
      | ofAttribute added => rfl
      | ofNested added =>
          simp [Body.add, Body.addBlock, attributesOf, nestedOf]

/-- Attributes and types of blocks are filed, each as if the others were not there. -/
theorem BlockSchema.addAll_eq (steps : List (Addition AttributeSchema NestedSchema))
    (schema : BlockSchema) :
    schema.addAll steps
      = { schema with
          attributes := schema.attributes.fileAll AttributeSchema.name (attributesOf steps)
          nested := schema.nested.fileAll NestedSchema.typeName (nestedOf steps) } := by
  induction steps generalizing schema with
  | nil =>
      obtain ⟨attributes, nested, description, deprecated⟩ := schema
      rfl
  | cons step rest inductionHypothesis =>
      show (schema.add step).addAll rest = _
      rw [inductionHypothesis]
      cases step with
      | ofAttribute added => rfl
      | ofNested added => rfl

/-! ## What is built -/

/-- The body holds what the steps add: its attributes under their names, and all blocks in the
order in which they were added. -/
structure Body.BuiltBy (steps : List (Addition Attribute Block)) (body : Body) : Prop where
  attributes : body.attributes.Keeps Attribute.name (attributesOf steps)
  blocks : body.blocks = nestedOf steps
  isEmpty : body.isEmpty = true ↔ steps = []

/-- The schema declares what the steps add, attributes and types of blocks each under their
names, and asking for a name gives what was declared last. -/
structure BlockSchema.BuiltBy (steps : List (Addition AttributeSchema NestedSchema))
    (schema : BlockSchema) : Prop where
  attributes : schema.attributes.Keeps AttributeSchema.name (attributesOf steps)
  nested : schema.nested.Keeps NestedSchema.typeName (nestedOf steps)
  attribute? : ∀ name,
    schema.attribute? name
      = ((attributesOf steps).filter fun declared => declared.name == name).getLast?
  nested? : ∀ typeName,
    schema.nested? typeName
      = ((nestedOf steps).filter fun declared => declared.typeName == typeName).getLast?

theorem Body.builtBy_addAll (span : Span) (steps : List (Addition Attribute Block)) :
    ((Body.empty span).addAll steps).BuiltBy steps := by
  rw [Body.addAll_eq]
  have kept := NamedMap.keeps_fileAll Attribute.name (attributesOf steps)
  refine ⟨kept, List.nil_append _, ?_⟩
  rw [Addition.eq_nil_iff, Body.isEmpty, Bool.and_eq_true]
  apply and_congr kept.isEmpty_iff
  simp [Body.empty]

theorem BlockSchema.builtBy_addAll (steps : List (Addition AttributeSchema NestedSchema)) :
    (({} : BlockSchema).addAll steps).BuiltBy steps := by
  rw [BlockSchema.addAll_eq]
  have attributes := NamedMap.keeps_fileAll AttributeSchema.name (attributesOf steps)
  have nested := NamedList.keeps_fileAll NestedSchema.typeName (nestedOf steps)
  exact ⟨attributes, nested, attributes.find?_eq, nested.find?_eq⟩

/-- A body or a schema that is built from nothing keeps each value that was added under its
own name, the last of each name in the place of the first, and a body keeps all its blocks in
order. Whatever it is built from, the steps leave the rest of it alone, and steps that differ
only in the turns that the two kinds take build the same. -/
theorem addAll_wellKeyed :
    (∀ span steps, ((Body.empty span).addAll steps).BuiltBy steps) ∧
      (∀ steps, (({} : BlockSchema).addAll steps).BuiltBy steps) ∧
      (∀ (body : Body) steps,
        (body.addAll steps).span = body.span ∧ (body.addAll steps).endSpan = body.endSpan) ∧
      (∀ (schema : BlockSchema) steps,
        (schema.addAll steps).description = schema.description ∧
          (schema.addAll steps).deprecated = schema.deprecated) ∧
      (∀ first second, SameByKind first second →
        ∀ body : Body, body.addAll first = body.addAll second) ∧
      ∀ first second, SameByKind first second →
        ∀ schema : BlockSchema, schema.addAll first = schema.addAll second := by
  refine ⟨Body.builtBy_addAll, BlockSchema.builtBy_addAll, ?_, ?_, ?_, ?_⟩
  · intro body steps
    rw [Body.addAll_eq]
    exact ⟨rfl, rfl⟩
  · intro schema steps
    rw [BlockSchema.addAll_eq]
    exact ⟨rfl, rfl⟩
  · intro first second same body
    rw [Body.addAll_eq, Body.addAll_eq, same.attributes, same.nested]
  · intro first second same schema
    rw [BlockSchema.addAll_eq, BlockSchema.addAll_eq, same.attributes, same.nested]

/-! ## A body and a schema with a name given twice -/

/-- An attribute of which only the name and the text are of interest. -/
def plainAttribute (name text : String) : Attribute :=
  { name, expression := { text, span := default }
    span := default, nameSpan := default, equalsSpan := default }

def plainDisk : Block :=
  Block.unlabelled "disk" default (Body.empty default)

/-- The port is given a second time after the host, and the disks stand in between. -/
def portAroundDisks : List (Addition Attribute Block) :=
  [.ofAttribute (plainAttribute "port" "80"), .ofNested plainDisk,
    .ofAttribute (plainAttribute "host" "web"), .ofNested plainDisk,
    .ofAttribute (plainAttribute "port" "443")]

def portAfterDisks : List (Addition Attribute Block) :=
  [.ofNested plainDisk, .ofNested plainDisk, .ofAttribute (plainAttribute "port" "80"),
    .ofAttribute (plainAttribute "host" "web"), .ofAttribute (plainAttribute "port" "443")]

/-- The port is declared a second time after the disks. -/
def declaredAroundDisks : List (Addition AttributeSchema NestedSchema) :=
  [.ofAttribute { name := "port" },
    .ofNested { typeName := "disk", nesting := .list, block := {} },
    .ofAttribute { name := "port", required := true }]

def declaredAfterDisks : List (Addition AttributeSchema NestedSchema) :=
  [.ofNested { typeName := "disk", nesting := .list, block := {} },
    .ofAttribute { name := "port" }, .ofAttribute { name := "port", required := true }]

/-- The second port stands where the first one stood. -/
example :
    ((Body.empty default).addAll portAroundDisks).attributes.entries.map
        (fun entry => (entry.1, entry.2.expression.text))
      = [("port", "443"), ("host", "web")] := by
  decide

/-- It makes no difference whether the disks come in between or first. -/
theorem addAll_wellKeyed_disks :
    SameByKind portAroundDisks portAfterDisks ∧
      (Body.empty default).addAll portAroundDisks
        = (Body.empty default).addAll portAfterDisks ∧
      SameByKind declaredAroundDisks declaredAfterDisks ∧
      ({} : BlockSchema).addAll declaredAroundDisks
        = ({} : BlockSchema).addAll declaredAfterDisks := by
  have sameInBody : SameByKind portAroundDisks portAfterDisks := ⟨rfl, rfl⟩
  have sameInSchema : SameByKind declaredAroundDisks declaredAfterDisks := ⟨rfl, rfl⟩
  obtain ⟨_, _, _, _, bodies, schemas⟩ := addAll_wellKeyed
  exact ⟨sameInBody, bodies _ _ sameInBody _, sameInSchema, schemas _ _ sameInSchema _⟩

end SchemaBinding
