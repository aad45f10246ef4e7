import SchemaBinding.Proofs.Json.CompactText
import SchemaBinding.Proofs.Schema.TypeSlot

/-!
Contract: the text of a type that is neither a text itself nor `null`.

Owns:
- `DeclaresType`, by which a document declares an attribute with such a type; and
- `BlockSchema.typeText_canonical`, by which two of these types have one text exactly when
  they are the same, and by which the text may stand in the place of the type.

Does not own: types that are given as texts, which are kept as they are.
-/

set_option autoImplicit false

namespace SchemaBinding

open Json (ParseTree TextLexeme NumberLexeme RecordLayout MapSlot StandsIn)
open Json.ParseTree (IsValue)

/-! ## Structured types -/

/-- Neither `null` nor a text. -/
def Json.ParseTree.Structured (tree : ParseTree) : Prop :=
  tree ≠ .word .null ∧ ∀ lexeme, tree ≠ .text lexeme

/-- Neither `null` nor a text. -/
def Json.Value.Structured (value : Json.Value) : Prop :=
  value ≠ .null ∧ ∀ text, value ≠ .text text

theorem Json.ParseTree.structured_iff {tree : ParseTree} {value : Json.Value}
    (stands : tree.value? = some value) : tree.Structured ↔ value.Structured := by
  cases tree with
  | word word =>
      cases word with
      | null =>
          cases stands
          simp [ParseTree.Structured, Json.Value.Structured]
      | flag =>
          cases stands
          simp [ParseTree.Structured, Json.Value.Structured]
  | number | text | list | map =>
      rw [value?, Option.map_eq_some_iff] at stands
      obtain ⟨_, _, rfl⟩ := stands
      simp [ParseTree.Structured, Json.Value.Structured]

theorem Json.Value.Structured.canonical {value : Json.Value} (structured : value.Structured) :
    value.canonical.Structured := by
  cases value with
  | null => exact absurd rfl structured.1
  | text text => exact absurd rfl (structured.2 text)
  | flag | number | list | map => simp [Json.Value.Structured, Json.Value.canonical]

theorem typeTextOf_of_structured {value : Json.Value} (structured : value.Structured) :
    typeTextOf value = String.ofList value.canonical.render := by
  cases value with
  | text text => exact absurd rfl (structured.2 text)
  | null | flag | number | list | map => rfl

/-- The canonical form of a type has the text of the type. -/
theorem typeTextOf_canonical {value : Json.Value} (structured : value.Structured) :
    typeTextOf value.canonical = typeTextOf value := by
  rw [typeTextOf_of_structured structured, typeTextOf_of_structured structured.canonical,
    Json.Value.canonical_canonical]

/-! ## Declared types -/

/-- A schema is decoded from a text that declares an attribute with a type which is neither
`null` nor a text, and in which every number is whole. -/
structure DeclaresType (text : String) (schema : BlockSchema) (place : List String)
    (name : String) (hole : ParseTree → ParseTree) (type : ParseTree) : Prop where
  decoded : BlockSchema.ofText text = .ok schema
  slot : TypeSlot place name hole
  spelled : (hole type).Spelled text.toList
  structured : type.Structured
  whole : type.WholeNumbers

namespace DeclaresType

variable {text : String} {schema : BlockSchema} {place : List String} {name : String}
  {hole : ParseTree → ParseTree} {type : ParseTree}

/-- The text of a declared type is the compact text of the canonical form of its value, and
whatever this text spells may stand in the place of the type. -/
theorem exists_canonical (declares : DeclaresType text schema place name hole type) :
    ∃ value rest, type.value? = some value ∧ value.canonical.Exact ∧
      value.canonical.FitsIn rest ∧
      schema.typeTextIn? place name = some (String.ofList value.canonical.render) ∧
      ∀ other rewritten, ParseTree.Spelled other value.canonical.render →
        (hole other).Spelled rewritten.toList → BlockSchema.ofText rewritten = .ok schema := by
  obtain ⟨form, documents, made⟩ := BlockSchema.ofText_eq_ok_iff.1 declares.decoded
  have states := (documentForm_eq_ok_iff_of_spelled declares.spelled).1
    (documentForm_eq_ok_iff.2 documents)
  obtain ⟨rest, value, isValue, typed, retyped⟩ :=
    declares.slot.refilled declares.structured.1 states
  have structured := (ParseTree.structured_iff isValue.2).1 declares.structured
  have exact := Json.Value.Exact.canonical value (declares.whole.exact isValue.2)
  have fits := isValue.fitsIn.canonical
  refine ⟨value, rest, isValue.2, exact, fits, ?_, ?_⟩
  · rw [typed schema made, typeTextOf_of_structured structured]
  · intro other rewritten spelled around
    have otherIsValue := ParseTree.isValue_of_spelled_render exact fits spelled
    have otherStructured := (ParseTree.structured_iff otherIsValue.2).2 structured.canonical
    obtain ⟨refilled, statesRefilled, same⟩ := retyped other _ otherStructured.1 otherIsValue
      (typeTextOf_canonical structured)
    exact BlockSchema.ofText_eq_ok_iff.2 ⟨refilled, ⟨_, around, statesRefilled⟩, same.trans made⟩

end DeclaresType

/-- Two types that are neither texts nor `null` have one text exactly when they are the same,
and where the text of such a type is written in the place of the type, the same schema is
decoded. -/
theorem BlockSchema.typeText_canonical {text : String} {schema : BlockSchema}
    {place : List String} {name : String} {hole : ParseTree → ParseTree} {type : ParseTree}
    (declares : DeclaresType text schema place name hole type) :
    ∃ typeText, schema.typeTextIn? place name = some typeText ∧
      (∀ otherText otherSchema otherPlace otherName otherHole otherType,
        DeclaresType otherText otherSchema otherPlace otherName otherHole otherType →
          ∃ otherTypeText, otherSchema.typeTextIn? otherPlace otherName = some otherTypeText ∧
            (typeText = otherTypeText ↔ type.SameValue otherType)) ∧
      (∃ before own after, StandsIn hole type text.toList before own after) ∧
      ∀ before own after, StandsIn hole type text.toList before own after →
        ofText (String.ofList (before ++ (typeText.toList ++ after))) = .ok schema := by
  obtain ⟨value, rest, stands, exact, fits, typed, retyped⟩ := declares.exists_canonical
  refine ⟨_, typed, ?_, declares.slot.encloses.exists_standsIn declares.spelled, ?_⟩
  · intro otherText otherSchema otherPlace otherName otherHole otherType declaresOther
    obtain ⟨other, otherRest, otherStands, otherExact, otherFits, otherTyped, _⟩ :=
      declaresOther.exists_canonical
    refine ⟨_, otherTyped, ?_, ?_⟩
    · intro sameText
      have sameCanonical := Json.Value.render_inj exact otherExact fits otherFits
        (String.ofList_injective sameText)
      exact ⟨value, other, stands, otherStands,
        Json.Value.canonical_eq_iff_same.1 sameCanonical⟩
    · rintro ⟨own, another, ownStands, anotherStands, same⟩
      cases stands.symm.trans ownStands
      cases otherStands.symm.trans anotherStands
      rw [Json.Value.canonical_eq_iff_same.2 same]
  · intro before own after standsIn
    obtain ⟨tree, spelled⟩ := ParseTree.exists_spelled_render exact fits
    apply retyped tree _ spelled
    rw [String.toList_ofList, String.toList_ofList]
    exact standsIn.exchanged tree _ spelled

/-! ## One type in two documents -/

namespace PortDraft

open DiskDraft (attributesKey)
open DeepDraft (setText)

def typeKey : TextLexeme := .ofPlain ['t', 'y', 'p', 'e']

def portKey : TextLexeme := .ofPlain ['p', 'o', 'r', 't']

def ruleKey : TextLexeme := .ofPlain ['r', 'u', 'l', 'e']

def toKey : TextLexeme := .ofPlain ['t', 'o']

def fromKey : TextLexeme := .ofPlain ['f', 'r', 'o', 'm']

def eighty : NumberLexeme where
  whole := ['8', '0']
  wholeValid := .inr (by simp [Json.Digits, Json.isDigit])
  fractionValid := List.forall_mem_nil _

def belowZero : NumberLexeme where
  negative := true
  whole := ['8']
  wholeValid := .inr (by simp [Json.Digits, Json.isDigit])
  fractionValid := List.forall_mem_nil _

/-- A type as it is written in the attribute of a block. -/
def plain : ParseTree :=
  .list [.text portKey, .map [(fromKey, .number belowZero), (toKey, .number eighty)]]

/-- The same type as it is written deeper: a key is repeated, and the keys change places. -/
def deep : ParseTree :=
  .list
    [.text portKey,
      .map [(toKey, .number belowZero), (toKey, .number eighty), (fromKey, .number belowZero)]]

def hole (value : ParseTree) : ParseTree :=
  .map [(attributesKey, .map [(portKey, .map [(typeKey, value)])])]

/-- The attribute stands in a nested block, and all records are written as lists. -/
def deepHole (value : ParseTree) : ParseTree :=
  .list
    [.map [],
      .map [(ruleKey, .list [.text setText, .list [.map [(portKey, .list [value])]]])]]

def typeText : String := "[\"port\",\x7b\"from\":-8,\"to\":80\x7d]"

def block : BlockSchema :=
  { attributes := { entries := [("port", { name := "port", typeText := some typeText })] } }

def schema : BlockSchema :=
  { nested := ⟨[("rule", { typeName := "rule", nesting := .set, block })]⟩ }

theorem whole_eighty : eighty.IsWhole where
  noFraction := rfl
  noExponent := rfl
  fits := by decide
  notNegativeZero := nofun

theorem whole_belowZero : belowZero.IsWhole where
  noFraction := rfl
  noExponent := rfl
  fits := by decide
  notNegativeZero := by decide

theorem whole_plain : plain.WholeNumbers := by
  refine .list (List.forall_mem_cons.2 ⟨.text portKey, List.forall_mem_singleton.2 (.map ?_)⟩)
  exact List.forall_mem_cons.2
    ⟨.number whole_belowZero, List.forall_mem_singleton.2 (.number whole_eighty)⟩

theorem whole_deep : deep.WholeNumbers := by
  refine .list (List.forall_mem_cons.2 ⟨.text portKey, List.forall_mem_singleton.2 (.map ?_)⟩)
  exact List.forall_mem_cons.2 ⟨.number whole_belowZero, List.forall_mem_cons.2
    ⟨.number whole_eighty, List.forall_mem_singleton.2 (.number whole_belowZero)⟩⟩

theorem declares : DeclaresType ((hole plain).spread []) block [] "port" hole plain where
  decoded := by
    rw [BlockSchema.ofText, ParseTree.spread, String.toList_ofList]
    rfl
  slot := by
    have attributes := @RecordLayout.Slot.member blockLayout .attributes [] [] attributesKey rfl
    have entry := @MapSlot.member "port" [] [] portKey rfl (List.forall_mem_nil _)
    have type := @RecordLayout.Slot.member attributeLayout .type [] [] typeKey rfl
    exact .here attributes entry type
  spelled := (hole plain).spelled_spread (by decide)
  structured := by simp [ParseTree.Structured, plain]
  whole := whole_plain

theorem declares_deep :
    DeclaresType ((deepHole deep).spread [' ']) schema ["rule"] "port" deepHole deep where
  decoded := by
    rw [BlockSchema.ofText, ParseTree.spread, String.toList_ofList]
    rfl
  slot := by
    have types := @RecordLayout.Slot.item blockLayout .blockTypes [.map []] [] rfl
    have rule := @MapSlot.member "rule" [] [] ruleKey rfl (List.forall_mem_nil _)
    have inner := @RecordLayout.Slot.item nestedLayout .block [.text setText] [] rfl
    have attributes := @RecordLayout.Slot.item blockLayout .attributes [] [] rfl
    have entry := @MapSlot.member "port" [] [] portKey rfl (List.forall_mem_nil _)
    have type := @RecordLayout.Slot.item attributeLayout .type [] [] rfl
    exact .inside types rule inner (.here attributes entry type)
  spelled := (deepHole deep).spelled_spread (by decide)
  structured := by simp [ParseTree.Structured, deep]
  whole := whole_deep

end PortDraft

section

open PortDraft

/-- The deeper type is the plain one, and its text is read back in its place. -/
theorem BlockSchema.typeText_canonical_port :
    DeclaresType ((hole plain).spread []) block [] "port" hole plain ∧
      DeclaresType ((deepHole deep).spread [' ']) schema ["rule"] "port" deepHole deep ∧
      deep.SameValue plain ∧
      ∃ before own after,
        StandsIn deepHole deep ((deepHole deep).spread [' ']).toList before own after ∧
          ofText (String.ofList (before ++ (typeText.toList ++ after))) = .ok schema := by
  obtain ⟨text, found, compared, ⟨before, own, after, standsIn⟩, again⟩ :=
    typeText_canonical declares_deep
  obtain ⟨other, otherFound, sameText⟩ := compared _ _ _ _ _ _ declares
  obtain rfl : typeText = text := Option.some.inj found
  obtain rfl : typeText = other := Option.some.inj otherFound
  exact ⟨declares, declares_deep, sameText.1 rfl, before, own, after, standsIn,
    again before own after standsIn⟩

end

end SchemaBinding
