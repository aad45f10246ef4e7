import SchemaBinding.Proofs.Schema.Statement

/-!
Contract: which error a text is answered with.

Owns:
- `BlockForm.modes`, the nestings that a document names, outer ones before inner ones;
- `BlockForm.answers_toSchema`, by which the first of them that does not exist is blamed; and
- `BlockSchema.ofText_answers`, which tells the three answers to a text apart.

Does not own: the message for a text that is no document.
-/

set_option autoImplicit false

namespace SchemaBinding

/-! ## The nestings of a document -/

mutual

/-- The nestings that a block names, each with its type: a type comes before the types
inside it, and these before the next type. -/
def BlockForm.modes : BlockForm → List (String × String)
  | ⟨_, ⟨blockTypes⟩, _, _⟩ => NestedForm.modesOf blockTypes

def NestedForm.modes (typeName : String) : NestedForm → List (String × String)
  | ⟨mode, some inner, _, _⟩ => (typeName, mode) :: inner.modes
  | ⟨mode, none, _, _⟩ => [(typeName, mode)]

def NestedForm.modesOf : List (String × NestedForm) → List (String × String)
  | [] => []
  | (typeName, form) :: rest => form.modes typeName ++ NestedForm.modesOf rest

end

/-- The nestings that exist. -/
def knownModes : List String :=
  ["single", "group", "list", "set", "map"]

/-- A named nesting that does not exist. -/
def unknownMode (entry : String × String) : Bool :=
  !knownModes.contains entry.2

/-! ## Answers -/

/-- A result that blames the first of some nestings that does not exist, and that is there
if they all exist. -/
def Answers {α : Type} (result : Except SchemaError α) (modes : List (String × String)) : Prop :=
  match modes.find? unknownMode with
  | some (typeName, mode) => result = .error (.unknownNesting typeName mode)
  | none => ∃ found, result = .ok found

section

variable {α β : Type} {result : Except SchemaError α} {modes others : List (String × String)}

theorem answers_ok (found : α) : Answers (.ok found) [] :=
  ⟨found, rfl⟩

/-- Of two steps the second blames its nestings only if the first blames none. -/
theorem Answers.bind {next : α → Except SchemaError β} (answers : Answers result modes)
    (later : ∀ found, Answers (next found) others) :
    Answers (result >>= next) (modes ++ others) := by
  unfold Answers at answers ⊢
  rw [List.find?_append]
  cases first : modes.find? unknownMode with
  | some entry =>
      rw [first] at answers
      dsimp only at answers
      rw [answers]
      rfl
  | none =>
      rw [first] at answers
      obtain ⟨found, rfl⟩ := answers
      exact later found

theorem Answers.return {function : α → β} (answers : Answers result modes) :
    Answers (do return function (← result)) modes := by
  have answersBoth := answers.bind fun found => answers_ok (function found)
  rw [List.append_nil] at answersBoth
  exact answersBoth

end

section

variable {α : Type} {result : Except SchemaError α} {modes : List (String × String)}

theorem Answers.eq_unknownNesting_iff (answers : Answers result modes) {typeName mode : String} :
    result = .error (.unknownNesting typeName mode) ↔
      modes.find? unknownMode = some (typeName, mode) := by
  unfold Answers at answers
  cases first : modes.find? unknownMode with
  | some entry =>
      rw [first] at answers
      dsimp only at answers
      rw [answers, Except.error.injEq, SchemaError.unknownNesting.injEq, Option.some.injEq,
        Prod.ext_iff]
  | none =>
      rw [first] at answers
      obtain ⟨found, rfl⟩ := answers
      exact ⟨nofun, nofun⟩

theorem Answers.ne_json (answers : Answers result modes) (message : String) :
    result ≠ .error (.json message) := by
  unfold Answers at answers
  split at answers
  · rw [answers]
    exact nofun
  · obtain ⟨found, rfl⟩ := answers
    exact nofun

theorem Answers.exists_ok_iff (answers : Answers result modes) :
    (∃ found, result = .ok found) ↔ ∀ entry ∈ modes, entry.2 ∈ knownModes := by
  have allKnown : (∀ entry ∈ modes, entry.2 ∈ knownModes) ↔ modes.find? unknownMode = none := by
    simp [List.find?_eq_none, unknownMode]
  unfold Answers at answers
  rw [allKnown]
  cases first : modes.find? unknownMode with
  | some entry =>
      rw [first] at answers
      dsimp only at answers
      rw [answers]
      exact ⟨nofun, nofun⟩
  | none =>
      rw [first] at answers
      exact ⟨fun _ => rfl, fun _ => answers⟩

end

theorem ofText?_isSome (mode : String) :
    (Nesting.ofText? mode).isSome = knownModes.contains mode := by
  have texts : knownModes = Nesting.all.map Nesting.text := rfl
  rw [Bool.eq_iff_iff, Nesting.ofText?, List.find?_isSome, texts, List.contains_iff_mem,
    List.mem_map]
  simp only [beq_iff_eq]

theorem answers_nestingOf (typeName mode : String) :
    Answers (nestingOf typeName mode) [(typeName, mode)] := by
  have known := ofText?_isSome mode
  unfold nestingOf Answers
  rw [List.find?_singleton, unknownMode, ← known]
  cases Nesting.ofText? mode with
  | some nesting => exact ⟨nesting, rfl⟩
  | none => rfl

mutual

/-- The schema of a document is refused for the first nesting that does not exist, and for
nothing else. -/
theorem BlockForm.answers_toSchema : ∀ form : BlockForm, Answers form.toSchema form.modes
  | ⟨attributes, ⟨blockTypes⟩, description, deprecated⟩ => by
      rw [BlockForm.toSchema, BlockForm.modes]
      exact (NestedForm.answers_toSchemas blockTypes).return

theorem NestedForm.answers_toSchema (typeName : String) :
    ∀ form : NestedForm, Answers (form.toSchema typeName) (form.modes typeName)
  | ⟨mode, some inner, minItems, maxItems⟩ => by
      rw [NestedForm.toSchema, NestedForm.modes]
      exact (answers_nestingOf typeName mode).bind fun _ => inner.answers_toSchema.return
  | ⟨mode, none, minItems, maxItems⟩ => by
      rw [NestedForm.toSchema, NestedForm.modes]
      exact (answers_nestingOf typeName mode).return

theorem NestedForm.answers_toSchemas :
    ∀ entries : List (String × NestedForm),
      Answers (NestedForm.toSchemas entries) (NestedForm.modesOf entries)
  | [] => answers_ok _
  | (typeName, form) :: rest => by
      rw [NestedForm.toSchemas, NestedForm.modesOf]
      exact (form.answers_toSchema typeName).bind fun _ =>
        (NestedForm.answers_toSchemas rest).return

end

/-! ## Texts -/

namespace BlockSchema

/-- A text that documents nothing is answered with a complaint about the text, wherever it
names a nesting that does not exist. A text that documents a block is refused for the first
such nesting of the block, and gives a schema if there is none. -/
theorem ofText_answers (text : String) :
    ((∃ message, ofText text = .error (.json message)) ↔
        ¬ ∃ form, Documents text.toList form) ∧
      (∀ typeName mode, ofText text = .error (.unknownNesting typeName mode) ↔
        ∃ form, Documents text.toList form ∧
          form.modes.find? unknownMode = some (typeName, mode)) ∧
      ((∃ schema, ofText text = .ok schema) ↔
        ∃ form, Documents text.toList form ∧ ∀ entry ∈ form.modes, entry.2 ∈ knownModes) := by
  by_cases documented : ∃ form, Documents text.toList form
  · obtain ⟨form, documents⟩ := documented
    have answers := form.answers_toSchema
    rw [← ofText_of_documents documents] at answers
    refine ⟨⟨?_, fun nothing => absurd ⟨form, documents⟩ nothing⟩,
      fun typeName mode => ⟨?_, ?_⟩, ?_, ?_⟩
    · rintro ⟨message, refused⟩
      exact absurd refused (answers.ne_json message)
    · intro refused
      exact ⟨form, documents, answers.eq_unknownNesting_iff.1 refused⟩
    · rintro ⟨other, documentsOther, first⟩
      rw [documentsOther.unique documents] at first
      exact answers.eq_unknownNesting_iff.2 first
    · intro decoded
      exact ⟨form, documents, answers.exists_ok_iff.1 decoded⟩
    · rintro ⟨other, documentsOther, known⟩
      rw [documentsOther.unique documents] at known
      exact answers.exists_ok_iff.2 known
  · obtain ⟨message, refused⟩ := ofText_of_not_documents documented
    rw [refused]
    refine ⟨⟨fun _ => documented, fun _ => ⟨message, rfl⟩⟩,
      fun typeName mode => ⟨nofun, ?_⟩, nofun, ?_⟩
    · rintro ⟨form, documents, _⟩
      exact absurd ⟨form, documents⟩ documented
    · rintro ⟨form, documents, _⟩
      exact absurd ⟨form, documents⟩ documented

end BlockSchema

end SchemaBinding
