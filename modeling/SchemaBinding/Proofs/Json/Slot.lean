import SchemaBinding.Proofs.Json.Acceptance
import SchemaBinding.Proofs.Json.Rearrangement

/-!
Contract: records and maps of the grammar with one value left open.

Owns:
- `RecordLayout.Slot`, the place of a field in a record, and `MapSlot`, the place of the value
  that counts under a key of a map;
- what a record gives and is made of, and what a map files, whatever value is put into such a
  place; and
- `StandsIn`, by which one value of a text is exchanged without touching the rest of the text.

Does not own: where in a document such places are.
-/

set_option autoImplicit false

namespace SchemaBinding
namespace Json

open ParseTree

/-! ## Places for a value -/

/-- The place of a field in a record that is written as a map or as a list. -/
inductive RecordLayout.Slot (layout : RecordLayout) (field : layout.Field) :
    (ParseTree → ParseTree) → Prop where
  | member {before after : List (TextLexeme × ParseTree)} {key : TextLexeme}
      (decoded : key.text? = some (layout.name field)) :
      Slot layout field fun value => .map (before ++ (key, value) :: after)
  | item {before after : List ParseTree} (placed : layout.place field = before.length) :
      Slot layout field fun value => .list (before ++ value :: after)

/-- The place of the last member of a key. -/
inductive MapSlot (name : String) : (ParseTree → ParseTree) → Prop where
  | member {before after : List (TextLexeme × ParseTree)} {key : TextLexeme}
      (decoded : key.text? = some name) (last : ∀ member ∈ after, member.1.text? ≠ some name) :
      MapSlot name fun value => .map (before ++ (key, value) :: after)

section

variable {layout : RecordLayout} {field : layout.Field} {hole : ParseTree → ParseTree}
  {value : ParseTree}

/-- A record gives a field whatever value is in its place. -/
theorem RecordLayout.Slot.gives (slot : layout.Slot field hole)
    (named : ∀ field, layout.field? (layout.name field) = some field)
    {given : layout.Field → Option ParseTree} (gives : layout.Gives (hole value) given) :
    given field = some value ∧
      ∀ replaced, layout.Gives (hole replaced)
        fun other => if other = field then some replaced else given other := by
  cases slot with
  | member decoded => exact gives.refilledMap named decoded
  | item placed => exact gives.refilledList named placed

/-- A map files under a key what the value in its place means. -/
theorem MapSlot.files {α : Type} {means : Nat → ParseTree → α → Prop} {budget : Nat}
    {list : NamedList α} {name : String} (slot : MapSlot name hole)
    (isMap : IsMap budget means (hole value) list) :
    ∃ rest content, budget = rest + 1 ∧ means rest value content ∧
      list.find? name = some content ∧
      ∀ replaced image, means rest replaced image →
        IsMap budget means (hole replaced) (list.insert name image) := by
  cases slot with
  | member decoded last =>
      obtain ⟨rest, _, pairs, spent, ⟨⟩, matched, rfl⟩ := isMap
      obtain ⟨front, _, frontMatched, _ | ⟨⟨meantName, meant⟩, backMatched⟩, rfl⟩ :=
        forall₂_append_left_iff.1 matched
      rename_i pair back
      obtain ⟨pairName, content⟩ := pair
      obtain rfl : name = pairName := Option.some.inj (decoded.symm.trans meantName)
      have final : ∀ later ∈ back, later.1 ≠ name := by
        intro later member same
        obtain ⟨own, present, ownName, _⟩ := exists_mem_of_forall₂ backMatched member
        exact last own present (same ▸ ownName)
      obtain ⟨found, exchanged⟩ := NamedList.ofList_final front content final
      refine ⟨rest, content, spent, meant, found, fun replaced image meantImage => ?_⟩
      rw [exchanged image]
      exact ⟨rest, _, _, spent, rfl, forall₂_append_left_iff.2
        ⟨front, _, frontMatched, .cons ⟨decoded, meantImage⟩ backMatched, rfl⟩, rfl⟩

/-- A record is made of what the value in a place of a field means, and of what any other
value means that is put there. -/
theorem IsRecord.refilled {α : Type}
    {means : Nat → (field : layout.Field) → ParseTree → layout.Content field → Prop}
    {build : Contents layout → Except layout.Field α} {budget : Nat} {record : α}
    (slot : layout.Slot field hole)
    (named : ∀ field, layout.field? (layout.name field) = some field)
    (isRecord : IsRecord means build budget (hole value) record) :
    ∃ rest contents content, contents field = some content ∧ means rest field value content ∧
      build contents = .ok record ∧
      ∀ other image changed, means rest field other image →
        build (contents.set field image) = .ok changed →
          IsRecord means build budget (hole other) changed := by
  obtain ⟨rest, given, contents, spent, gives, meant, built⟩ := isRecord
  obtain ⟨isGiven, refilled⟩ := slot.gives named gives
  have meantHere := meant field
  rw [isGiven] at meantHere
  generalize read : contents field = own at meantHere
  cases meantHere with
  | @some _ content ownMeant =>
      refine ⟨rest, contents, content, read, ownMeant, built, ?_⟩
      intro other image changed imageMeant builtChanged
      refine ⟨rest, _, contents.set field image, spent, refilled other, fun target => ?_,
        builtChanged⟩
      by_cases same : target = field
      · subst same
        rw [if_pos rfl, Contents.set_self]
        exact .some imageMeant
      · rw [if_neg same, contents.set_of_ne image (Ne.symm same)]
        exact meant target

theorem RecordLayout.Slot.ne_null (slot : layout.Slot field hole) (value : ParseTree) :
    hole value ≠ .word .null := by
  cases slot with
  | member _ => simp
  | item _ => simp

end

/-! ## Texts around a value -/

/-- The tokens of the value in the place stand between two fixed runs of tokens, of which the
second one is not empty. -/
def Encloses (hole : ParseTree → ParseTree) : Prop :=
  ∃ front token back, ∀ value, (hole value).tokens = front ++ (value.tokens ++ token :: back)

theorem Encloses.comp {outer inner : ParseTree → ParseTree} (encloses : Encloses outer)
    (enclosesInner : Encloses inner) : Encloses fun value => outer (inner value) := by
  obtain ⟨front, token, back, written⟩ := encloses
  obtain ⟨innerFront, innerToken, innerBack, innerWritten⟩ := enclosesInner
  refine ⟨front ++ innerFront, innerToken, innerBack ++ token :: back, fun value => ?_⟩
  rw [written, innerWritten]
  simp only [List.append_assoc, List.cons_append]

theorem exists_itemTokens (before after : List ParseTree) :
    ∃ front back, ∀ value : ParseTree,
      itemTokens (before ++ value :: after) = front ++ (value.tokens ++ back) := by
  induction before with
  | nil =>
      cases after with
      | nil => exact ⟨[], [], fun value => (List.append_nil _).symm⟩
      | cons next others => exact ⟨[], [','] :: itemTokens (next :: others), fun _ => rfl⟩
  | cons first others inductionHypothesis =>
      obtain ⟨front, back, written⟩ := inductionHypothesis
      refine ⟨first.tokens ++ [','] :: front, back, fun value => ?_⟩
      rw [List.append_assoc]
      show itemTokens (first :: (others ++ value :: after))
        = first.tokens ++ [','] :: (front ++ (value.tokens ++ back))
      rw [← written]
      cases others with
      | nil => exact itemTokens_cons_cons first value after
      | cons next rest => exact itemTokens_cons_cons first next _

theorem exists_memberTokens (before after : List (TextLexeme × ParseTree)) (key : TextLexeme) :
    ∃ front back, ∀ value : ParseTree,
      memberTokens (before ++ (key, value) :: after) = front ++ (value.tokens ++ back) := by
  induction before with
  | nil =>
      cases after with
      | nil =>
          refine ⟨[key.characters, [':']], [], fun value => ?_⟩
          rw [List.append_nil]
          rfl
      | cons next others =>
          exact ⟨[key.characters, [':']], [','] :: memberTokens (next :: others), fun _ => rfl⟩
  | cons first others inductionHypothesis =>
      obtain ⟨firstKey, firstValue⟩ := first
      obtain ⟨front, back, written⟩ := inductionHypothesis
      refine ⟨firstKey.characters :: [':'] :: firstValue.tokens ++ [','] :: front, back,
        fun value => ?_⟩
      rw [List.append_assoc]
      show memberTokens ((firstKey, firstValue) :: (others ++ (key, value) :: after))
        = firstKey.characters :: [':'] :: firstValue.tokens
            ++ [','] :: (front ++ (value.tokens ++ back))
      rw [← written]
      cases others with
      | nil => exact memberTokens_cons_cons firstKey firstValue (key, value) after
      | cons next rest => exact memberTokens_cons_cons firstKey firstValue next _

theorem encloses_member (before after : List (TextLexeme × ParseTree)) (key : TextLexeme) :
    Encloses fun value => .map (before ++ (key, value) :: after) := by
  obtain ⟨front, back, written⟩ := exists_memberTokens before after key
  have follows : ∃ token more, back ++ [['\x7d']] = token :: more :=
    List.exists_cons_of_ne_nil (by simp)
  obtain ⟨token, more, follows⟩ := follows
  refine ⟨['\x7b'] :: front, token, more, fun value => ?_⟩
  rw [tokens, written, ← follows]
  simp only [List.append_assoc, List.cons_append]

theorem encloses_item (before after : List ParseTree) :
    Encloses fun value => .list (before ++ value :: after) := by
  obtain ⟨front, back, written⟩ := exists_itemTokens before after
  have follows : ∃ token more, back ++ [[']']] = token :: more :=
    List.exists_cons_of_ne_nil (by simp)
  obtain ⟨token, more, follows⟩ := follows
  refine ⟨['['] :: front, token, more, fun value => ?_⟩
  rw [tokens, written, ← follows]
  simp only [List.append_assoc, List.cons_append]

theorem RecordLayout.Slot.encloses {layout : RecordLayout} {field : layout.Field}
    {hole : ParseTree → ParseTree} (slot : layout.Slot field hole) : Encloses hole := by
  cases slot with
  | member _ => exact encloses_member _ _ _
  | item _ => exact encloses_item _ _

theorem MapSlot.encloses {name : String} {hole : ParseTree → ParseTree}
    (slot : MapSlot name hole) : Encloses hole := by
  cases slot with
  | member _ _ => exact encloses_member _ _ _

/-- The text of a value in a place stands between two others, and the text of any other value
may stand there instead. -/
structure StandsIn (hole : ParseTree → ParseTree) (value : ParseTree)
    (text before own after : List Char) : Prop where
  split : text = before ++ (own ++ after)
  spelled : value.Spelled own
  exchanged : ∀ other written, ParseTree.Spelled other written →
    (hole other).Spelled (before ++ (written ++ after))

theorem Encloses.exists_standsIn {hole : ParseTree → ParseTree} (encloses : Encloses hole)
    {value : ParseTree} {text : List Char} (spelled : (hole value).Spelled text) :
    ∃ before own after, StandsIn hole value text before own after := by
  obtain ⟨front, token, back, tokensOf⟩ := encloses
  obtain ⟨whole, blanks, spaced, blank, rfl⟩ := spelled
  rw [tokensOf] at spaced
  obtain ⟨before, _, frontSpaced, inside, rfl⟩ := spaced_append_iff.1 spaced
  obtain ⟨own, later, ownSpaced, behind, rfl⟩ := spaced_append_iff.1 inside
  obtain ⟨gap, more, gapBlank, moreSpaced, rfl⟩ := spaced_cons_iff.1 behind
  refine ⟨before, own, gap ++ (token ++ more) ++ blanks, by simp only [List.append_assoc],
    ⟨own, [], ownSpaced, List.forall_mem_nil _, (List.append_nil _).symm⟩, ?_⟩
  rintro other _ ⟨written, trailing, otherSpaced, trailingBlank, rfl⟩
  -- Blanks after the value stand before the token that follows it.
  have follows : Spaced (token :: back) (trailing ++ gap ++ (token ++ more)) :=
    .cons (List.forall_mem_append.2 ⟨trailingBlank, gapBlank⟩) moreSpaced
  refine ⟨before ++ (written ++ (trailing ++ gap ++ (token ++ more))), blanks, ?_, blank,
    by simp only [List.append_assoc]⟩
  rw [tokensOf]
  exact spaced_append_iff.2 ⟨before, _, frontSpaced,
    spaced_append_iff.2 ⟨written, _, otherSpaced, follows, rfl⟩, rfl⟩

end Json
end SchemaBinding
