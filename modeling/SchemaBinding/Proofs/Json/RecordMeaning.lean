import Mathlib.Data.Option.Basic
import SchemaBinding.Json.Record
import SchemaBinding.Proofs.Json.AnyValue

/-!
Contract: what the readers of records find, told by the grammar alone.

Owns:
- `RecordLayout.Gives`, the values that a map or a list gives for the fields of a record;
- `IsRecord`, by which the values of the fields make a record; and
- `reads_record`, by which a reader finds what a record is.

Does not own: the fields of any particular record.

A reader fills in one field after another and complains about a field that it has filled in
already. Told at once, each field has at most one value, in whatever place it stands.
-/

set_option autoImplicit false

namespace SchemaBinding
namespace Json

open ParseTree

/-! ## Values of fields -/

/-- The values under a name, in the order of the text. -/
def valuesUnder (name : String) (members : List (TextLexeme × ParseTree)) : List ParseTree :=
  members.filterMap fun member => if member.1.text? = some name then some member.2 else none

theorem valuesUnder_append (name : String) (before after : List (TextLexeme × ParseTree)) :
    valuesUnder name (before ++ after) = valuesUnder name before ++ valuesUnder name after :=
  List.filterMap_append

theorem valuesUnder_cons (name : String) (key : TextLexeme) (tree : ParseTree)
    (members : List (TextLexeme × ParseTree)) :
    valuesUnder name ((key, tree) :: members)
      = if key.text? = some name then tree :: valuesUnder name members
        else valuesUnder name members := by
  rw [valuesUnder, List.filterMap_cons]
  by_cases same : key.text? = some name
  · rw [if_pos same, if_pos same]
    rfl
  · rw [if_neg same, if_neg same]
    rfl

/-- What a value gives for the fields of a record. As a map it gives each field at most once
and under its name, and each of its keys stands for some name. As a list it gives no more
than there are fields, each at its place. -/
inductive RecordLayout.Gives (layout : RecordLayout) :
    ParseTree → (layout.Field → Option ParseTree) → Prop where
  | byName {members : List (TextLexeme × ParseTree)} {given : layout.Field → Option ParseTree}
      (named : ∀ member ∈ members, member.1.text? ≠ none)
      (under : ∀ field, valuesUnder (layout.name field) members = (given field).toList) :
      Gives layout (.map members) given
  | byPlace {items : List ParseTree} {given : layout.Field → Option ParseTree}
      (fits : items.length ≤ layout.fields.length)
      (placed : ∀ field, items[layout.place field]? = given field) :
      Gives layout (.list items) given

section

variable {layout : RecordLayout} {α : Type}

/-- A record: what it gives for its fields means what the record is made of. -/
def IsRecord (means : Nat → (field : layout.Field) → ParseTree → layout.Content field → Prop)
    (build : Contents layout → Except layout.Field α) (budget : Nat) (tree : ParseTree)
    (record : α) : Prop :=
  ∃ rest given contents, budget = rest + 1 ∧ layout.Gives tree given ∧
    (∀ field, Option.Rel (means rest field) (given field) (contents field)) ∧
    build contents = .ok record

/-- How the content of a field changes with the values that are read for it. -/
def Filled (means : ParseTree → α → Prop) (before : Option α) :
    List ParseTree → Option α → Prop
  | [], after => after = before
  | tree :: others, after =>
      before = none ∧ others = [] ∧ ∃ content, means tree content ∧ after = some content

theorem filled_none_iff {means : ParseTree → α → Prop} {given : Option ParseTree}
    {content : Option α} :
    Filled means none given.toList content ↔ Option.Rel means given content := by
  cases given with
  | none =>
      constructor
      · rintro rfl
        exact .none
      · rintro ⟨⟩
        rfl
  | some tree =>
      constructor
      · rintro ⟨_, _, _, meant, rfl⟩
        exact .some meant
      · rintro ⟨meant⟩
        exact ⟨rfl, rfl, _, meant, rfl⟩

variable {means : (field : layout.Field) → ParseTree → layout.Content field → Prop}

/-- A field that nothing has been read for yet has at most one value. -/
theorem Filled.eq_toList {means : ParseTree → α → Prop} {values : List ParseTree}
    {content : Option α} (filled : Filled means none values content) :
    values = values.head?.toList := by
  cases values with
  | nil => rfl
  | cons tree others =>
      obtain ⟨_, rfl, _⟩ := filled
      rfl

/-- To read a first value for a field is to set the field and to go on from there. -/
theorem filled_set_iff {contents result : Contents layout} {field : layout.Field}
    (tree : ParseTree) (values : layout.Field → List ParseTree) :
    (contents field = none ∧ ∃ content, means field tree content ∧ ∀ other,
        Filled (means other) (contents.set field content other) (values other)
          (result other)) ↔
      ∀ other, Filled (means other) (contents other)
        (if field = other then tree :: values other else values other) (result other) := by
  constructor
  · rintro ⟨fresh, content, meant, filled⟩ other
    have here := filled other
    by_cases same : field = other
    · subst same
      rw [Contents.set_self] at here
      rw [if_pos rfl]
      cases later : values field with
      | nil =>
          rw [later] at here
          exact ⟨fresh, rfl, content, meant, here⟩
      | cons _ _ =>
          rw [later] at here
          cases here.1
    · rw [if_neg same]
      rw [contents.set_of_ne content same] at here
      exact here
  · intro filled
    have here := filled field
    rw [if_pos rfl] at here
    obtain ⟨fresh, nothingLater, content, meant, set⟩ := here
    refine ⟨fresh, content, meant, fun other => ?_⟩
    by_cases same : field = other
    · subst same
      rw [Contents.set_self, nothingLater]
      exact set
    · have there := filled other
      rw [if_neg same] at there
      rw [contents.set_of_ne content same]
      exact there

theorem filled_nil_iff {contents result : Contents layout} :
    (∀ field, Filled (means field) (contents field) [] (result field)) ↔ result = contents :=
  ⟨funext, fun same field => congrFun same field⟩

/-! ## Records as maps -/

/-- One member is read for its field, which nothing has been read for yet, or passed over. -/
theorem readMembers_cons_eq_ok_iff {reader : RecordReader layout α} {budget : Nat}
    {key : TextLiteral} {node : Node} {nodes : List Member} {contents result : Contents layout} :
    reader.readMembers budget (⟨key, node⟩ :: nodes) contents = .ok result ↔
      ∃ name, key.content = .ok name ∧
        match layout.field? name with
        | some field =>
            contents field = none ∧ ∃ content, reader.read budget field node = .ok content ∧
              reader.readMembers budget nodes (contents.set field content) = .ok result
        | none =>
            node.wellFormed = .ok () ∧ reader.readMembers budget nodes contents = .ok result := by
  rw [RecordReader.readMembers, bind_eq_ok_iff]
  refine exists_congr fun name => and_congr_right fun _ => ?_
  cases layout.field? name with
  | some field =>
      cases fresh : contents field with
      | some _ => simp [fresh]
      | none => simp [fresh, bind_eq_ok_iff]
  | none =>
      dsimp only
      rw [bind_eq_ok_iff]
      constructor
      · rintro ⟨_, passed, later⟩
        exact ⟨passed, later⟩
      · rintro ⟨passed, later⟩
        exact ⟨(), passed, later⟩

theorem RecordLayout.name_of_field? {name : String} {field : layout.Field}
    (found : layout.field? name = some field) : layout.name field = name := by
  have same := List.find?_some found
  exact beq_iff_eq.1 same

section

variable (named : ∀ field, layout.field? (layout.name field) = some field)

include named

theorem RecordLayout.name_inj {field other : layout.Field}
    (same : layout.name field = layout.name other) : field = other := by
  have found := named field
  rw [same, named other] at found
  exact (Option.some.inj found).symm

theorem RecordLayout.getElem?_place (field : layout.Field) :
    layout.fields[layout.place field]? = some field := by
  have listed : field ∈ layout.fields := List.mem_of_find?_eq_some (named field)
  have inside : layout.place field < layout.fields.length :=
    List.findIdx_lt_length_of_exists ⟨field, listed, beq_self_eq_true field⟩
  have there : (layout.fields[layout.place field] == field) = true :=
    List.findIdx_getElem (w := inside)
  rw [List.getElem?_eq_getElem inside, beq_iff_eq.1 there]

theorem RecordLayout.place_inj {field other : layout.Field}
    (same : layout.place field = layout.place other) : field = other := by
  have found := layout.getElem?_place named field
  rw [same, layout.getElem?_place named other] at found
  exact (Option.some.inj found).symm

theorem valuesUnder_cons_of_field? {name : String} {key : TextLexeme}
    (decoded : key.text? = some name) {field : layout.Field}
    (found : layout.field? name = some field) (tree : ParseTree)
    (members : List (TextLexeme × ParseTree)) (other : layout.Field) :
    valuesUnder (layout.name other) ((key, tree) :: members)
      = if field = other then tree :: valuesUnder (layout.name other) members
        else valuesUnder (layout.name other) members := by
  rw [valuesUnder_cons, decoded, ← RecordLayout.name_of_field? found]
  by_cases same : field = other
  · rw [if_pos same, same, if_pos rfl]
  · have apart : layout.name field ≠ layout.name other :=
      fun sameName => same (layout.name_inj named sameName)
    rw [if_neg same, if_neg (fun sameName => apart (Option.some.inj sameName))]

theorem valuesUnder_cons_of_none {name : String} {key : TextLexeme}
    (decoded : key.text? = some name) (missing : layout.field? name = none) (tree : ParseTree)
    (members : List (TextLexeme × ParseTree)) (other : layout.Field) :
    valuesUnder (layout.name other) ((key, tree) :: members)
      = valuesUnder (layout.name other) members := by
  have apart : name ≠ layout.name other := by
    rintro rfl
    rw [named] at missing
    cases missing
  rw [valuesUnder_cons, decoded, if_neg (fun same => apart (Option.some.inj same))]

variable {reader : RecordReader layout α} {budget : Nat}
  (reads : ∀ field, Reads (reader.read budget field) (means field))

include reads

/-- Members are read in their order, but what each field ends up with depends on its own
values alone. -/
theorem readMembers_eq_ok_iff {members : List (TextLexeme × ParseTree)} {nodes : List Member}
    (presented : Member.AllPresent nodes members) (contents result : Contents layout) :
    reader.readMembers budget nodes contents = .ok result ↔
      (∀ member ∈ members, member.1.text? ≠ none) ∧
        ∀ field, Filled (means field) (contents field)
          (valuesUnder (layout.name field) members) (result field) := by
  induction members generalizing nodes contents with
  | nil =>
      cases presented with
      | nil =>
          rw [RecordReader.readMembers]
          constructor
          · rintro ⟨⟩
            exact ⟨List.forall_mem_nil _, filled_nil_iff.2 rfl⟩
          · rintro ⟨_, filled⟩
            rw [filled_nil_iff.1 filled]
  | cons member members inductionHypothesis =>
      obtain ⟨key, tree⟩ := member
      cases presented with
      | cons first others =>
          simp only [readMembers_cons_eq_ok_iff, TextLexeme.content_literal_eq_ok_iff,
            List.forall_mem_cons]
          cases decoded : key.text? with
          | none => simp
          | some name =>
              simp only [Option.some.injEq, exists_eq_left', ne_eq, reduceCtorEq,
                not_false_eq_true, true_and]
              cases found : layout.field? name with
              | none =>
                  simp only [valuesUnder_cons_of_none named decoded found,
                    wellFormed_of_presents first, inductionHypothesis others, true_and]
              | some field =>
                  simp only [valuesUnder_cons_of_field? named decoded found, ← filled_set_iff,
                    (reads field).presented first, inductionHypothesis others]
                  constructor
                  · rintro ⟨fresh, content, meant, allNamed, filled⟩
                    exact ⟨allNamed, fresh, content, meant, filled⟩
                  · rintro ⟨allNamed, fresh, content, meant, filled⟩
                    exact ⟨fresh, content, meant, allNamed, filled⟩

end

section

variable {reader : RecordReader layout α} {budget : Nat} {last : Node}
  (rejected : ∀ field content, reader.read budget field last ≠ .ok content)

include rejected

theorem recordMembers_append_ne_ok (notPassed : last.wellFormed ≠ .ok ())
    (before : List Member) (key : TextLiteral) :
    ∀ contents result,
      reader.readMembers budget (before ++ [⟨key, last⟩]) contents ≠ .ok result := by
  induction before with
  | nil =>
      intro contents result read
      obtain ⟨name, _, step⟩ := readMembers_cons_eq_ok_iff.1 read
      split at step
      · obtain ⟨_, content, found, _⟩ := step
        exact rejected _ content found
      · exact notPassed step.1
  | cons first others inductionHypothesis =>
      obtain ⟨_, _⟩ := first
      intro contents result read
      obtain ⟨name, _, step⟩ := readMembers_cons_eq_ok_iff.1 read
      split at step
      · obtain ⟨_, _, _, readLater⟩ := step
        exact inductionHypothesis _ result readLater
      · exact inductionHypothesis _ result step.2

/-! ## Records as lists -/

theorem recordItems_append_ne_ok {ending : ListEnding} (before : List Node) :
    ∀ fields contents result,
      reader.readItems budget ending fields (before ++ [last]) contents ≠ .ok result := by
  induction before with
  | nil =>
      intro fields contents result read
      cases fields with
      | nil => cases read
      | cons field fields =>
          obtain ⟨content, found, _⟩ := bind_eq_ok_iff.1 read
          exact rejected field content found
  | cons first others inductionHypothesis =>
      intro fields contents result read
      cases fields with
      | nil => cases read
      | cons field fields =>
          obtain ⟨_, _, readLater⟩ := bind_eq_ok_iff.1 read
          exact inductionHypothesis _ _ result readLater

end

theorem recordItems_ne_ok {reader : RecordReader layout α} {budget : Nat} {ending : ListEnding}
    (notRead : ending.whenReading ≠ .ok ()) (notClosed : ending.whenClosing ≠ .ok ())
    (nodes : List Node) :
    ∀ fields contents result,
      reader.readItems budget ending fields nodes contents ≠ .ok result := by
  induction nodes with
  | nil =>
      intro fields contents result read
      cases fields with
      | nil =>
          obtain ⟨_, closed, _⟩ := bind_eq_ok_iff.1 read
          exact notClosed closed
      | cons field fields =>
          obtain ⟨_, found, _⟩ := bind_eq_ok_iff.1 read
          exact notRead found
  | cons node nodes inductionHypothesis =>
      intro fields contents result read
      cases fields with
      | nil => cases read
      | cons field fields =>
          obtain ⟨_, _, readLater⟩ := bind_eq_ok_iff.1 read
          exact inductionHypothesis _ _ result readLater

theorem getElem?_findIdx_cons {field : layout.Field} {fields : List layout.Field}
    (notLater : field ∉ fields) (item : ParseTree) {items : List ParseTree}
    (fits : items.length ≤ fields.length) (other : layout.Field) :
    ((item :: items)[(field :: fields).findIdx (· == other)]?).toList
      = if field = other then item :: (items[fields.findIdx (· == other)]?).toList
        else (items[fields.findIdx (· == other)]?).toList := by
  rw [List.findIdx_cons]
  by_cases same : field = other
  · subst same
    have absent : fields.findIdx (· == field) = fields.length := by
      rw [List.findIdx_eq_length]
      intro later member
      exact beq_eq_false_iff_ne.2 fun same => notLater (same ▸ member)
    rw [if_pos rfl, absent, List.getElem?_eq_none fits, beq_self_eq_true]
    rfl
  · rw [if_neg same, beq_eq_false_iff_ne.2 same]
    rfl

section

variable {reader : RecordReader layout α} {budget : Nat}
  (reads : ∀ field, Reads (reader.read budget field) (means field))

include reads

/-- Items are read in the order of the fields, none of which stands twice. -/
theorem recordItems_eq_ok_iff {after : Mark} (fields : List layout.Field) :
    ∀ {items : List ParseTree} {nodes : List Node}, Node.AllPresent nodes items →
      ∀ (contents result : Contents layout), fields.Nodup →
        (∀ field ∈ fields, contents field = none) →
        (reader.readItems budget (.closed after) fields nodes contents = .ok result ↔
          items.length ≤ fields.length ∧
            ∀ field, Filled (means field) (contents field)
              (items[fields.findIdx (· == field)]?).toList (result field)) := by
  induction fields with
  | nil =>
      intro items nodes presented contents result _ _
      cases presented with
      | nil =>
          constructor
          · rintro ⟨⟩
            exact ⟨Nat.le_refl _, filled_nil_iff.2 rfl⟩
          · rintro ⟨_, filled⟩
            rw [filled_nil_iff.1 filled]
            rfl
      | cons _ _ => exact ⟨nofun, fun ⟨tooMany, _⟩ => nomatch tooMany⟩
  | cons field fields inductionHypothesis =>
      intro items nodes presented contents result distinct fresh
      cases presented with
      | nil =>
          constructor
          · rintro ⟨⟩
            exact ⟨Nat.zero_le _, filled_nil_iff.2 rfl⟩
          · rintro ⟨_, filled⟩
            rw [filled_nil_iff.1 filled]
            rfl
      | cons first others =>
          obtain ⟨notLater, laterDistinct⟩ := List.nodup_cons.1 distinct
          have freshHere := fresh field List.mem_cons_self
          have stillFresh : ∀ (content : layout.Content field), ∀ other ∈ fields,
              contents.set field content other = none := by
            intro content other member
            rw [contents.set_of_ne content fun same => notLater (same ▸ member)]
            exact fresh other (List.mem_cons_of_mem _ member)
          rw [RecordReader.readItems]
          simp only [bind_eq_ok_iff, (reads field).presented first]
          constructor
          · rintro ⟨content, meant, readLater⟩
            obtain ⟨fits, filled⟩ := (inductionHypothesis others _ _ laterDistinct
              (stillFresh content)).1 readLater
            refine ⟨Nat.succ_le_succ fits, ?_⟩
            simp only [getElem?_findIdx_cons notLater _ fits]
            exact (filled_set_iff _ _).1 ⟨freshHere, content, meant, filled⟩
          · rintro ⟨tooFits, filled⟩
            have fits := Nat.le_of_succ_le_succ tooFits
            simp only [getElem?_findIdx_cons notLater _ fits] at filled
            obtain ⟨_, content, meant, filledLater⟩ := (filled_set_iff _ _).2 filled
            exact ⟨content, meant, (inductionHypothesis others _ _ laterDistinct
              (stillFresh content)).2 ⟨fits, filledLater⟩⟩

end

/-! ## Records -/

theorem finish_eq_ok_iff {reader : RecordReader layout α} {contents : Contents layout}
    {complaint : layout.Field → Reason} {after? : Option Mark} {record : α} :
    reader.finish contents complaint after? = .ok record ↔ reader.build contents = .ok record := by
  unfold RecordReader.finish
  cases reader.build contents with
  | ok own => exact Iff.rfl.trans (by simp)
  | error _ => exact ⟨nofun, nofun⟩

/-- What a reader of records accepts: a map or a list that it can read to the end. -/
theorem run_eq_ok_iff {reader : RecordReader layout α} {budget : Nat} {node : Node}
    {record : α} :
    reader.run budget node = .ok record ↔
      ∃ rest contents, budget = rest + 1 ∧ reader.build contents = .ok record ∧
        ((∃ start members ending, node = .map start members ending ∧
            reader.readMembers rest members .empty = .ok contents ∧
            ending.whenReading = .ok ()) ∨
          ∃ start items ending, node = .list start items ending ∧
            reader.readItems rest ending layout.fields items .empty = .ok contents) := by
  unfold RecordReader.run
  split
  · simp only [spend_eq_ok_iff, bind_eq_ok_iff, finish_eq_ok_iff]
    constructor
    · rintro ⟨rest, rfl, contents, read, _, ends, built⟩
      exact ⟨rest, contents, rfl, built, .inl ⟨_, _, _, rfl, read, ends⟩⟩
    · rintro ⟨rest, contents, rfl, built, ⟨_, _, _, ⟨⟩, read, ends⟩ | ⟨_, _, _, ⟨⟩, _⟩⟩
      exact ⟨rest, rfl, contents, read, (), ends, built⟩
  · simp only [spend_eq_ok_iff, bind_eq_ok_iff, finish_eq_ok_iff]
    constructor
    · rintro ⟨rest, rfl, contents, read, built⟩
      exact ⟨rest, contents, rfl, built, .inr ⟨_, _, _, rfl, read⟩⟩
    · rintro ⟨rest, contents, rfl, built, ⟨_, _, _, ⟨⟩, _⟩ | ⟨_, _, _, ⟨⟩, read⟩⟩
      exact ⟨rest, rfl, contents, read, built⟩
  · rename_i notMap notList
    constructor
    · intro read
      exact absurd read (Node.reject_ne_ok _ _ _)
    · rintro ⟨_, _, _, _, ⟨_, _, _, rfl, _⟩ | ⟨_, _, _, rfl, _⟩⟩
      · exact absurd rfl (notMap _ _ _)
      · exact absurd rfl (notList _ _ _)

section

variable {reader : RecordReader layout α} {budget : Nat}
  (reads : ∀ field, Reads (reader.read budget field) (means field))

include reads

theorem readMembers_empty_eq_ok_iff
    (named : ∀ field, layout.field? (layout.name field) = some field)
    {members : List (TextLexeme × ParseTree)} {nodes : List Member}
    (presented : Member.AllPresent nodes members) (contents : Contents layout) :
    reader.readMembers budget nodes .empty = .ok contents ↔
      ∃ given, layout.Gives (.map members) given ∧
        ∀ field, Option.Rel (means field) (given field) (contents field) := by
  rw [readMembers_eq_ok_iff named reads presented]
  constructor
  · rintro ⟨allNamed, filled⟩
    have single := fun field => (filled field).eq_toList
    refine ⟨_, .byName allNamed single, fun field => ?_⟩
    have here := filled field
    rw [single field] at here
    exact filled_none_iff.1 here
  · rintro ⟨given, ⟨allNamed, under⟩, meant⟩
    refine ⟨allNamed, fun field => ?_⟩
    rw [under field]
    exact filled_none_iff.2 (meant field)

theorem recordItems_empty_eq_ok_iff (distinct : layout.fields.Nodup)
    {items : List ParseTree} {nodes : List Node} {after : Mark}
    (presented : Node.AllPresent nodes items) (contents : Contents layout) :
    reader.readItems budget (.closed after) layout.fields nodes .empty = .ok contents ↔
      ∃ given, layout.Gives (.list items) given ∧
        ∀ field, Option.Rel (means field) (given field) (contents field) := by
  rw [recordItems_eq_ok_iff reads layout.fields presented .empty contents distinct
    fun _ _ => rfl]
  constructor
  · rintro ⟨fits, filled⟩
    exact ⟨_, .byPlace fits fun _ => rfl, fun field => filled_none_iff.1 (filled field)⟩
  · rintro ⟨given, ⟨_, _⟩ | ⟨fits, placed⟩, meant⟩
    refine ⟨fits, fun field => filled_none_iff.2 ?_⟩
    have here := meant field
    rw [← placed field] at here
    exact here

end

/-- A record is read as what it gives for its fields, in whatever order it gives them. -/
theorem reads_record {reader : RecordReader layout α}
    {means : Nat → (field : layout.Field) → ParseTree → layout.Content field → Prop}
    (distinct : layout.fields.Nodup)
    (named : ∀ field, layout.field? (layout.name field) = some field)
    (reads : ∀ budget field, Reads (reader.read budget field) (means budget field))
    (budget : Nat) : Reads (reader.run budget) (IsRecord means reader.build budget) where
  presented presents record := by
    rw [run_eq_ok_iff]
    cases presents with
    | map presented =>
        constructor
        · rintro ⟨rest, contents, rfl, built, ⟨_, _, _, ⟨⟩, read, _⟩ | ⟨_, _, _, ⟨⟩, _⟩⟩
          obtain ⟨given, gives, meant⟩ := (readMembers_empty_eq_ok_iff (reads rest) named
            presented contents).1 read
          exact ⟨rest, given, contents, rfl, gives, meant, built⟩
        · rintro ⟨rest, given, contents, rfl, gives, meant, built⟩
          have read := (readMembers_empty_eq_ok_iff (reads rest) named presented contents).2
            ⟨given, gives, meant⟩
          exact ⟨rest, contents, rfl, built, .inl ⟨_, _, _, rfl, read, rfl⟩⟩
    | list presented =>
        constructor
        · rintro ⟨rest, contents, rfl, built, ⟨_, _, _, ⟨⟩, _⟩ | ⟨_, _, _, ⟨⟩, read⟩⟩
          obtain ⟨given, gives, meant⟩ := (recordItems_empty_eq_ok_iff (reads rest) distinct
            presented contents).1 read
          exact ⟨rest, given, contents, rfl, gives, meant, built⟩
        · rintro ⟨rest, given, contents, rfl, gives, meant, built⟩
          exact ⟨rest, contents, rfl, built, .inr ⟨_, _, _, rfl,
            (recordItems_empty_eq_ok_iff (reads rest) distinct presented contents).2
              ⟨given, gives, meant⟩⟩⟩
    | word | number _ | text =>
        constructor
        · rintro ⟨_, _, _, _, ⟨_, _, _, ⟨⟩, _⟩ | ⟨_, _, _, ⟨⟩, _⟩⟩
        · rintro ⟨_, _, _, _, ⟨⟩, _⟩
  unfinished cut record read := by
    obtain ⟨rest, contents, _, _, ⟨_, _, _, rfl, readMembers, ends⟩ | ⟨_, _, _, rfl, readItems⟩⟩ :=
      run_eq_ok_iff.1 read
    · cases cut with
      | map cut notInside keyCut => exact MapEnding.whenReading_ne_ok cut notInside keyCut ends
      | member inside =>
          exact recordMembers_append_ne_ok
            (fun field content => (reads rest field).unfinished inside content)
            (wellFormed_ne_ok inside) _ _ _ _ readMembers
    · cases cut with
      | list cut notInside =>
          exact recordItems_ne_ok (ListEnding.whenReading_ne_ok cut notInside)
            (ListEnding.whenClosing_ne_ok cut notInside) _ _ _ _ readItems
      | item inside =>
          exact recordItems_append_ne_ok
            (fun field content => (reads rest field).unfinished inside content)
            _ _ _ _ readItems

end

end Json
end SchemaBinding
