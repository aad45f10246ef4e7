import SchemaBinding.Json.Record
import SchemaBinding.Proofs.Json.Node

/-!
Contract: what readers find in a tree that shows a value.

Owns:
- `Value.ReadsAs`, by which a reader finds one content in every tree of a value;
- the readers of flags, texts, counts and optional values on the values that they want;
- `Value.readsAs_map`, for maps whose keys are distinct; and
- `Value.readsAs_record`, for records written as maps in the order of their fields.

Does not own: trees that show no value, and values that a reader rejects.
-/

set_option autoImplicit false

namespace SchemaBinding
namespace Json

/-- Whoever reads a tree that shows `value` finds `content`. -/
def Value.ReadsAs {α : Type} (value : Value) (read : Node → Except Fault α) (content : α) :
    Prop :=
  ∀ node rest, Node.Shows node value rest → read node = .ok content

/-! ## Single values -/

theorem Value.readsAs_flag (flag : Bool) :
    (Value.flag flag).ReadsAs Node.readFlag flag := by
  intro node rest shows
  cases shows with
  | flag => rfl

theorem Value.readsAs_text (text : String) :
    (Value.text text).ReadsAs Node.readText text := by
  intro node rest shows
  cases shows with
  | text _ stands => exact stands

theorem Value.readsAs_value_text (budget : Nat) (text : String) :
    (Value.text text).ReadsAs (Node.readValue budget) (.text text) := by
  intro node rest shows
  cases shows with
  | text _ stands =>
      rw [Node.readValue, stands]
      rfl

/-- Counts of 64 bits are read over their whole range. -/
theorem Value.readsAs_count (count : UInt64) :
    (Value.number (.integer count.toNat)).ReadsAs Node.readCount count := by
  intro node rest shows
  cases shows with
  | number _ stands =>
      have nonnegative : (0 : Int) ≤ count.toNat := Int.natCast_nonneg _
      simp only [Node.readCount, stands, bind, Except.bind, if_pos nonnegative,
        Int.toNat_natCast, UInt64.ofNat_toNat]

theorem Value.readsAs_none {α : Type} (read : Node → Except Fault α) :
    Value.null.ReadsAs (Node.readOptional read) none := by
  intro node rest shows
  cases shows with
  | null => rfl

theorem readOptional_of_ne_null {α : Type} (read : Node → Except Fault α) {node : Node}
    (notNull : ∀ start after, node ≠ .word start .null after) :
    node.readOptional read = (read node).map some := by
  unfold Node.readOptional
  split
  · exact absurd rfl (notNull _ _)
  · rfl

theorem Value.readsAs_some {α : Type} {value : Value} {read : Node → Except Fault α}
    {content : α} (present : value ≠ .null) (reads : value.ReadsAs read content) :
    value.ReadsAs (Node.readOptional read) (some content) := by
  intro node rest shows
  have notNull : ∀ start after, node ≠ .word start .null after := by
    rintro start after rfl
    cases shows with
    | null => exact present rfl
  rw [readOptional_of_ne_null read notNull, reads node rest shows]
  rfl

/-! ## Maps with any keys -/

section

variable {α β : Type} {print : α → Value} {content : α → β} {read : Node → Except Fault β}

/-- Members of distinct names are filed one after another. -/
theorem readNamed_of_shown (items : List (String × α)) :
    ∀ (nodes : List Member) (sofar : NamedMap β),
      (sofar.names ++ items.map Prod.fst).Nodup →
      (∀ item ∈ items, (print item.2).ReadsAs read (content item.2)) →
      Member.AllShow nodes (items.map fun item => (item.1, print item.2)) →
      ∃ map, Member.readNamed read nodes sofar = .ok map ∧
        map.entries = sofar.entries ++ items.map fun item => (item.1, content item.2) := by
  induction items with
  | nil =>
      intro nodes sofar _ _ shown
      cases shown with
      | nil =>
          exact ⟨sofar, rfl, (List.append_nil _).symm⟩
  | cons item later inductionHypothesis =>
      intro nodes sofar distinct reads shown
      obtain ⟨name, value⟩ := item
      cases shown with
      | cons named first others =>
          have missing : name ∉ sofar.names := by
            intro member
            exact (List.nodup_append.1 distinct).2.2 name member name List.mem_cons_self rfl
          have filed := sofar.insert_of_not_mem (content value) missing
          have stillDistinct :
              ((sofar.insert name (content value)).names ++ later.map Prod.fst).Nodup := by
            rw [NamedMap.toNamedList_insert, NamedList.names_insert, if_neg missing,
              List.append_assoc]
            exact distinct
          have found := reads (name, value) List.mem_cons_self _ _ first
          obtain ⟨map, rest, entries⟩ := inductionHypothesis _ _ stillDistinct
            (fun item member => reads item (List.mem_cons_of_mem _ member)) others
          refine ⟨map, ?_, ?_⟩
          · rw [Member.readNamed, named]
            simp only [bind, Except.bind, found]
            exact rest
          · rw [entries]
            rw [NamedMap.toNamedList_insert, filed, List.append_assoc]
            rfl

/-- A map is read in its order, whatever its keys are. -/
theorem Value.readsAs_map {budget : Nat} {readInner : Nat → Node → Except Fault β}
    {map : NamedMap α}
    (reads : ∀ item ∈ map.entries,
      (print item.2).ReadsAs (readInner budget) (content item.2)) :
    (Value.map (map.entries.map fun item => (item.1, print item.2))).ReadsAs
      (Node.readMap (budget + 1) readInner) (map.mapValues fun _ => content) := by
  intro node rest shows
  cases shows with
  | map shown =>
      obtain ⟨found, read, entries⟩ := readNamed_of_shown map.entries _ {} map.distinct reads shown
      have same : found = map.mapValues fun _ => content := NamedMap.ext entries
      rw [Node.readMap, spend, read, same]
      rfl

/-- The list of a map is read in the same way. -/
theorem Value.readsAs_namedList {budget : Nat} {readInner : Nat → Node → Except Fault β}
    {list : NamedList α} (distinct : list.Distinct)
    (reads : ∀ item ∈ list.entries,
      (print item.2).ReadsAs (readInner budget) (content item.2)) :
    (Value.map (list.entries.map fun item => (item.1, print item.2))).ReadsAs
      (fun node => (node.readMap (budget + 1) readInner).map NamedMap.toNamedList)
      ⟨list.entries.map fun item => (item.1, content item.2)⟩ := by
  obtain ⟨map, rfl⟩ : ∃ map : NamedMap α, map.toNamedList = list :=
    ⟨{ toNamedList := list, distinct }, rfl⟩
  intro node rest shows
  exact congrArg (Except.map NamedMap.toNamedList) (Value.readsAs_map reads node rest shows)

end

/-! ## Records -/

section

variable {layout : RecordLayout} {α : Type}

/-- The members of a record that has some of its fields, in the order of the layout. -/
def RecordLayout.members (layout : RecordLayout)
    (entry : (field : layout.Field) → Option (Value × layout.Content field)) :
    List (String × Value) :=
  layout.fields.filterMap fun field =>
    (entry field).map fun pair => (layout.name field, pair.1)

/-- Reading fields that have not been read yet sets them, and leaves the others. -/
theorem readMembers_of_shown {reader : RecordReader layout α} {budget : Nat}
    {entry : (field : layout.Field) → Option (Value × layout.Content field)}
    (named : ∀ field, layout.field? (layout.name field) = some field)
    (reads : ∀ field value content, entry field = some (value, content) →
      value.ReadsAs (reader.read budget field) content)
    (fields : List layout.Field) :
    ∀ (nodes : List Member) (contents : Contents layout),
      fields.Nodup → (∀ field ∈ fields, contents field = none) →
      Member.AllShow nodes
        (fields.filterMap fun field =>
          (entry field).map fun pair => (layout.name field, pair.1)) →
      ∃ result, reader.readMembers budget nodes contents = .ok result ∧
        (∀ field ∈ fields, result field = (entry field).map Prod.snd) ∧
        ∀ field, field ∉ fields → result field = contents field := by
  induction fields with
  | nil =>
      intro nodes contents _ _ shown
      cases shown with
      | nil => exact ⟨contents, rfl, nofun, fun _ _ => rfl⟩
  | cons field later inductionHypothesis =>
      intro nodes contents distinct fresh shown
      obtain ⟨notLater, laterDistinct⟩ := List.nodup_cons.1 distinct
      have freshHere := fresh field List.mem_cons_self
      -- A field that is not written has no member, and it stays as unread as it was.
      cases written : entry field with
      | none =>
          rw [List.filterMap_cons, written] at shown
          obtain ⟨result, read, set, kept⟩ :=
            inductionHypothesis nodes contents laterDistinct
              (fun other member => fresh other (List.mem_cons_of_mem _ member)) shown
          refine ⟨result, read, ?_, ?_⟩
          · intro other member
            rcases List.mem_cons.1 member with rfl | inLater
            · rw [kept other notLater, freshHere, written]
              rfl
            · exact set other inLater
          · intro other outside
            exact kept other fun inLater => outside (List.mem_cons_of_mem _ inLater)
      | some pair =>
          obtain ⟨value, content⟩ := pair
          rw [List.filterMap_cons, written] at shown
          cases shown with
          | cons keyNamed first others =>
              have found := reads field value content written _ _ first
              have stillFresh :
                  ∀ other ∈ later, contents.set field content other = none := by
                intro other member
                have apart : field ≠ other := fun same => notLater (same ▸ member)
                rw [contents.set_of_ne content apart]
                exact fresh other (List.mem_cons_of_mem _ member)
              obtain ⟨result, read, set, kept⟩ :=
                inductionHypothesis _ (contents.set field content) laterDistinct stillFresh
                  others
              refine ⟨result, ?_, ?_, ?_⟩
              · rw [RecordReader.readMembers, keyNamed]
                simp only [bind, Except.bind, named field, freshHere,
                  Option.isSome_none, found]
                exact read
              · intro other member
                rcases List.mem_cons.1 member with rfl | inLater
                · rw [kept other notLater, contents.set_self, written]
                  rfl
                · exact set other inLater
              · intro other outside
                rw [List.mem_cons, not_or] at outside
                rw [kept other outside.2, contents.set_of_ne content (Ne.symm outside.1)]

/-- A record written as a map is made of the contents of its fields. -/
theorem Value.readsAs_record {reader : RecordReader layout α} {budget : Nat}
    {entry : (field : layout.Field) → Option (Value × layout.Content field)} {record : α}
    (distinct : layout.fields.Nodup)
    (named : ∀ field, layout.field? (layout.name field) = some field)
    (reads : ∀ field value content, entry field = some (value, content) →
      value.ReadsAs (reader.read budget field) content)
    (built : reader.build (fun field => (entry field).map Prod.snd) = .ok record) :
    (Value.map (layout.members entry)).ReadsAs (reader.run (budget + 1)) record := by
  intro node rest shows
  cases shows with
  | map shown =>
      obtain ⟨result, read, set, _⟩ :=
        readMembers_of_shown named reads layout.fields _ .empty distinct
          (fun _ _ => rfl) shown
      -- All fields of a layout are among those that it lists, so nothing is left over.
      have whole : result = fun field => (entry field).map Prod.snd := by
        funext field
        exact set field (List.mem_of_find?_eq_some (named field))
      rw [RecordReader.run, spend, read, whole]
      simp only [bind, Except.bind, MapEnding.whenReading, RecordReader.finish, built]

end

end Json
end SchemaBinding
