import SchemaBinding.Proofs.Json.CanonicalValue
import SchemaBinding.Proofs.Json.Rearrangement
import SchemaBinding.Proofs.Json.Recognition

/-!
Contract: the compact text of a value stands for that value.

Owns:
- `ParseTree.WholeNumbers`, the values whose numbers are written as integers of 64 bits;
- `ParseTree.SameValue`, by which two values of the grammar stand for the same;
- `ParseTree.isValue_of_spelled_render`, by which whatever a compact text spells stands for
  the value that was written; and
- `Value.render_inj`, by which values of one text are one value.

Does not own: what a value is used for.

Floating-point numbers have no part here. Their texts are read as numbers next to them, which
nothing here relates.
-/

set_option autoImplicit false

namespace SchemaBinding
namespace Json

/-! ## Whole numbers -/

namespace NumberLexeme

/-- The integer that the digits before the point make up. -/
def integer (lexeme : NumberLexeme) : Int :=
  let magnitude := Nat.ofDigitChars 10 lexeme.whole 0
  if lexeme.negative then -magnitude else magnitude

/-- A number without fraction and exponent that fits into 64 bits, signed or unsigned, and is
no negative zero. -/
structure IsWhole (lexeme : NumberLexeme) : Prop where
  noFraction : lexeme.fraction = []
  noExponent : lexeme.exponent = none
  fits : FitsWord lexeme.integer
  notNegativeZero : lexeme.negative = true → lexeme.integer ≠ 0

theorem IsWhole.number?_eq {lexeme : NumberLexeme} (whole : lexeme.IsWhole) :
    lexeme.number? = some (.integer lexeme.integer) := by
  obtain ⟨noFraction, noExponent, ⟨lower, upper⟩, notNegativeZero⟩ := whole
  have limit : NumberLiteral.wordLimit = 18446744073709551616 := rfl
  unfold integer at *
  dsimp only at *
  rw [limit] at lower upper
  have fitsWord : Nat.ofDigitChars 10 lexeme.whole 0 < NumberLiteral.wordLimit := by
    cases sign : lexeme.negative with
    | false =>
        simp only [sign, Bool.false_eq_true, if_false] at upper
        omega
    | true =>
        simp only [sign, if_true] at lower
        omega
  have absorbed := NumberLiteral.absorb_of_lt lexeme.whole 0 fitsWord
  have value : (lexeme.literal []).value
      = NumberLiteral.integer lexeme.negative (Nat.ofDigitChars 10 lexeme.whole 0) [] := by
    simp [literal, NumberLiteral.value, NumberLiteral.valueAt, noFraction, noExponent, absorbed]
  rw [number?, value, NumberLiteral.integer]
  cases sign : lexeme.negative with
  | false => rfl
  | true =>
      have nonzero := notNegativeZero sign
      simp only [sign, if_true] at lower nonzero
      rw [if_pos rfl, if_pos (by omega)]
      rfl

end NumberLexeme

/-! ## Values of the grammar -/

namespace ParseTree

/-- Every number in the value is whole. -/
inductive WholeNumbers : ParseTree → Prop where
  | word (value : Word) : WholeNumbers (.word value)
  | number {lexeme : NumberLexeme} (whole : lexeme.IsWhole) : WholeNumbers (.number lexeme)
  | text (lexeme : TextLexeme) : WholeNumbers (.text lexeme)
  | list {items : List ParseTree} (each : ∀ item ∈ items, WholeNumbers item) :
      WholeNumbers (.list items)
  | map {members : List (TextLexeme × ParseTree)}
      (each : ∀ member ∈ members, WholeNumbers member.2) : WholeNumbers (.map members)

/-- The two stand for values that are the same. -/
def SameValue (first second : ParseTree) : Prop :=
  ∃ value other, first.value? = some value ∧ second.value? = some other ∧ value.Same other

theorem itemValues?_eq_some_iff : ∀ {items : List ParseTree} {values : List Value},
    itemValues? items = some values ↔
      List.Forall₂ (fun item value => item.value? = some value) items values
  | [], values => by
      rw [itemValues?, List.forall₂_nil_left_iff]
      exact ⟨fun same => (Option.some.inj same).symm, fun same => congrArg some same.symm⟩
  | item :: rest, values => by
      rw [itemValues?, List.forall₂_cons_left_iff]
      simp only [Option.bind_eq_bind, Option.bind_eq_some_iff, itemValues?_eq_some_iff]
      constructor
      · rintro ⟨value, stands, others, othersStand, ⟨⟩⟩
        exact ⟨value, others, stands, othersStand, rfl⟩
      · rintro ⟨value, others, stands, othersStand, rfl⟩
        exact ⟨value, stands, others, othersStand, rfl⟩

theorem memberValues?_eq_some_iff :
    ∀ {members : List (TextLexeme × ParseTree)} {values : List (String × Value)},
      memberValues? members = some values ↔
        List.Forall₂ (fun member named =>
          member.1.text? = some named.1 ∧ member.2.value? = some named.2) members values
  | [], values => by
      rw [memberValues?, List.forall₂_nil_left_iff]
      exact ⟨fun same => (Option.some.inj same).symm, fun same => congrArg some same.symm⟩
  | (key, tree) :: rest, values => by
      rw [memberValues?, List.forall₂_cons_left_iff]
      simp only [Option.bind_eq_bind, Option.bind_eq_some_iff, memberValues?_eq_some_iff]
      constructor
      · rintro ⟨name, named, value, stands, others, othersStand, ⟨⟩⟩
        exact ⟨(name, value), others, ⟨named, stands⟩, othersStand, rfl⟩
      · rintro ⟨⟨name, value⟩, others, ⟨named, stands⟩, othersStand, rfl⟩
        exact ⟨name, named, value, stands, others, othersStand, rfl⟩

section

variable {tree : ParseTree}

theorem exists_lexeme_of_value? {number : Number} (stands : tree.value? = some (.number number)) :
    ∃ lexeme, tree = .number lexeme ∧ lexeme.number? = some number := by
  cases tree with
  | number lexeme =>
      rw [value?, Option.map_eq_some_iff] at stands
      obtain ⟨_, found, ⟨⟩⟩ := stands
      exact ⟨lexeme, rfl, found⟩
  | word value => cases value <;> cases stands
  | text | list | map => simp [value?] at stands

theorem exists_items_of_value? {values : List Value}
    (stands : tree.value? = some (.list values)) :
    ∃ items, tree = .list items ∧
      List.Forall₂ (fun item value => item.value? = some value) items values := by
  cases tree with
  | list items =>
      rw [value?, Option.map_eq_some_iff] at stands
      obtain ⟨_, found, ⟨⟩⟩ := stands
      exact ⟨items, rfl, itemValues?_eq_some_iff.1 found⟩
  | word value => cases value <;> cases stands
  | number | text | map => simp [value?] at stands

theorem exists_members_of_value? {values : List (String × Value)}
    (stands : tree.value? = some (.map values)) :
    ∃ members, tree = .map members ∧
      List.Forall₂ (fun member named =>
        member.1.text? = some named.1 ∧ member.2.value? = some named.2) members values := by
  cases tree with
  | map members =>
      rw [value?, Option.map_eq_some_iff] at stands
      obtain ⟨_, found, ⟨⟩⟩ := stands
      exact ⟨members, rfl, memberValues?_eq_some_iff.1 found⟩
  | word value => cases value <;> cases stands
  | number | text | list => simp [value?] at stands

end

theorem itemsHeight_le_iff {budget : Nat} : ∀ {items : List ParseTree},
    itemsHeight items ≤ budget ↔ ∀ item ∈ items, item.height ≤ budget
  | [] => by simp [itemsHeight]
  | item :: rest => by
      rw [itemsHeight, Nat.max_le, List.forall_mem_cons, itemsHeight_le_iff]

theorem membersHeight_le_iff {budget : Nat} : ∀ {members : List (TextLexeme × ParseTree)},
    membersHeight members ≤ budget ↔ ∀ member ∈ members, member.2.height ≤ budget
  | [] => by simp [membersHeight]
  | (key, tree) :: rest => by
      rw [membersHeight, Nat.max_le, List.forall_mem_cons, membersHeight_le_iff]

end ParseTree

/-! ## Values that are read within a budget -/

namespace Value

/-- No more than `budget` lists and maps are open at once. -/
inductive FitsIn : Nat → Value → Prop where
  | null {budget : Nat} : FitsIn budget .null
  | flag {budget : Nat} (value : Bool) : FitsIn budget (.flag value)
  | number {budget : Nat} (value : Number) : FitsIn budget (.number value)
  | text {budget : Nat} (value : String) : FitsIn budget (.text value)
  | list {budget : Nat} {items : List Value} (each : ∀ item ∈ items, FitsIn budget item) :
      FitsIn (budget + 1) (.list items)
  | map {budget : Nat} {members : List (String × Value)}
      (each : ∀ member ∈ members, FitsIn budget member.2) : FitsIn (budget + 1) (.map members)

theorem FitsIn.mono {budget : Nat} {value : Value} (fits : value.FitsIn budget) :
    ∀ {more : Nat}, budget ≤ more → value.FitsIn more := by
  induction fits with
  | null => exact fun _ => .null
  | flag value => exact fun _ => .flag value
  | number value => exact fun _ => .number value
  | text value => exact fun _ => .text value
  | list _ inductionHypothesis =>
      intro more enough
      obtain ⟨fewer, rfl⟩ : ∃ fewer, more = fewer + 1 := ⟨more - 1, by omega⟩
      exact .list fun item member => inductionHypothesis item member (by omega)
  | map _ inductionHypothesis =>
      intro more enough
      obtain ⟨fewer, rfl⟩ : ∃ fewer, more = fewer + 1 := ⟨more - 1, by omega⟩
      exact .map fun member present => inductionHypothesis member present (by omega)

theorem FitsIn.canonical {budget : Nat} {value : Value} (fits : value.FitsIn budget) :
    value.canonical.FitsIn budget := by
  induction fits with
  | null => exact .null
  | flag value => exact .flag value
  | number value => exact .number value
  | text value => exact .text value
  | list _ inductionHypothesis =>
      rw [canonical_list]
      apply FitsIn.list
      intro item member
      obtain ⟨own, present, rfl⟩ := List.mem_map.1 member
      exact inductionHypothesis own present
  | map _ inductionHypothesis =>
      rw [Value.canonical]
      apply FitsIn.map
      intro member present
      rcases mem_sortMembers present with none | ⟨own, inMap, same⟩
      · cases none
      · rw [same]
        exact inductionHypothesis own inMap

theorem Exact.canonical (value : Value) : value.Exact → value.canonical.Exact := by
  induction value using inductionOn with
  | null | flag | number | text => exact id
  | list items inductionHypothesis =>
      rw [canonical_list, Exact, Exact, allExact_iff, allExact_iff]
      intro exact item member
      obtain ⟨own, present, rfl⟩ := List.mem_map.1 member
      exact inductionHypothesis own present (exact own present)
  | map members inductionHypothesis =>
      rw [Value.canonical, Exact, Exact, membersExact_iff, membersExact_iff]
      intro exact member present
      rcases mem_sortMembers present with none | ⟨own, inMap, same⟩
      · cases none
      · rw [same]
        exact inductionHypothesis own inMap (exact own inMap)

end Value

namespace ParseTree

theorem IsValue.fitsIn {value : Value} :
    ∀ {tree : ParseTree} {budget : Nat}, IsValue budget tree value → value.FitsIn budget := by
  induction value using Value.inductionOn with
  | null => exact fun _ => .null
  | flag value => exact fun _ => .flag value
  | number value => exact fun _ => .number value
  | text value => exact fun _ => .text value
  | list values inductionHypothesis =>
      rintro tree budget ⟨low, stands⟩
      obtain ⟨items, rfl, matched⟩ := exists_items_of_value? stands
      rw [height] at low
      obtain ⟨fewer, rfl⟩ : ∃ fewer, budget = fewer + 1 := ⟨budget - 1, by omega⟩
      have each := itemsHeight_le_iff.1 (Nat.le_of_succ_le_succ low)
      apply Value.FitsIn.list
      intro value member
      obtain ⟨item, present, here⟩ := exists_mem_of_forall₂ matched member
      exact inductionHypothesis value member ⟨each item present, here⟩
  | map values inductionHypothesis =>
      rintro tree budget ⟨low, stands⟩
      obtain ⟨members, rfl, matched⟩ := exists_members_of_value? stands
      rw [height] at low
      obtain ⟨fewer, rfl⟩ : ∃ fewer, budget = fewer + 1 := ⟨budget - 1, by omega⟩
      have each := membersHeight_le_iff.1 (Nat.le_of_succ_le_succ low)
      apply Value.FitsIn.map
      intro named member
      obtain ⟨own, present, _, here⟩ := exists_mem_of_forall₂ matched member
      exact inductionHypothesis named member ⟨each own present, here⟩

theorem WholeNumbers.exact {value : Value} :
    ∀ {tree : ParseTree}, tree.WholeNumbers → tree.value? = some value → value.Exact := by
  induction value using Value.inductionOn with
  | null | flag | text => exact fun _ _ => trivial
  | number value =>
      intro tree whole stands
      obtain ⟨lexeme, rfl, found⟩ := exists_lexeme_of_value? stands
      cases whole with
      | number isWhole =>
          rw [isWhole.number?_eq] at found
          cases found
          exact isWhole.fits
  | list values inductionHypothesis =>
      intro tree whole stands
      obtain ⟨items, rfl, matched⟩ := exists_items_of_value? stands
      cases whole with
      | list each =>
          apply Value.allExact_iff.2
          intro value member
          obtain ⟨item, present, here⟩ := exists_mem_of_forall₂ matched member
          exact inductionHypothesis value member (each item present) here
  | map values inductionHypothesis =>
      intro tree whole stands
      obtain ⟨members, rfl, matched⟩ := exists_members_of_value? stands
      cases whole with
      | map each =>
          apply Value.membersExact_iff.2
          intro named member
          obtain ⟨own, present, _, here⟩ := exists_mem_of_forall₂ matched member
          exact inductionHypothesis named member (each own present) here

end ParseTree

/-! ## Reading what is shown -/

mutual

theorem readValue_of_shows : ∀ {node : Node} {value : Value} {rest : Mark},
    node.Shows value rest → ∀ {budget : Nat}, value.FitsIn budget →
      node.readValue budget = .ok value
  | _, _, _, .null, _, _ => rfl
  | _, _, _, .flag, _, _ => rfl
  | _, _, _, .number _ stands, _, _ => by
      rw [Node.readValue, stands]
      rfl
  | _, _, _, .text _ stands, _, _ => by
      rw [Node.readValue, stands]
      rfl
  | _, _, _, .list shown, _, .list each => by
      rw [Node.readValue, spend, readValues_of_allShow shown each]
      rfl
  | _, _, _, .map shown, _, .map each => by
      rw [Node.readValue, spend, readMemberValues_of_allShow shown each]
      rfl

theorem readValues_of_allShow : ∀ {nodes : List Node} {values : List Value},
    Node.AllShow nodes values → ∀ {budget : Nat}, (∀ value ∈ values, value.FitsIn budget) →
      Node.readValues budget nodes = .ok values
  | _, _, .nil, _, _ => rfl
  | _, _, .cons first others, _, each => by
      obtain ⟨fits, othersFit⟩ := List.forall_mem_cons.1 each
      rw [Node.readValues, readValue_of_shows first fits, readValues_of_allShow others othersFit]
      rfl

theorem readMemberValues_of_allShow :
    ∀ {nodes : List Member} {values : List (String × Value)},
      Member.AllShow nodes values → ∀ {budget : Nat},
        (∀ named ∈ values, named.2.FitsIn budget) → Member.readValues budget nodes = .ok values
  | _, _, .nil, _, _ => rfl
  | _, _, .cons named first others, _, each => by
      obtain ⟨fits, othersFit⟩ := List.forall_mem_cons.1 each
      rw [Member.readValues, named, readValue_of_shows first fits,
        readMemberValues_of_allShow others othersFit]
      rfl

end

section

variable {value other : Value} {budget : Nat}

/-- Whatever the compact text of a value spells stands for that value. -/
theorem ParseTree.isValue_of_spelled_render {tree : ParseTree} (exact : value.Exact)
    (fits : value.FitsIn budget) (spelled : tree.Spelled value.render) :
    IsValue budget tree value := by
  obtain ⟨blanks, _, presents⟩ := spelled.presents
  rw [← readValue_eq_ok_iff presents]
  exact readValue_of_shows (Node.shows_ofCharacters_render exact) fits

theorem ParseTree.exists_spelled_render (exact : value.Exact) (fits : value.FitsIn budget) :
    ∃ tree : ParseTree, tree.Spelled value.render := by
  have shows := Node.shows_ofCharacters_render exact
  cases Node.recognised_ofCharacters value.render with
  | unfinished cut => exact absurd (readValue_of_shows shows fits) (readValue_ne_ok cut _ _)
  | whole spaced split presents =>
      rename_i tree written rest
      have ends : rest = [] :=
        Option.some.inj (presents.after?.symm.trans shows.after?)
      exact ⟨tree, written, rest, spaced, by rw [ends]; exact List.forall_mem_nil _, split⟩

/-- Values of one compact text are one value. -/
theorem Value.render_inj {otherBudget : Nat} (exact : value.Exact) (otherExact : other.Exact)
    (fits : value.FitsIn budget) (otherFits : other.FitsIn otherBudget)
    (same : value.render = other.render) : value = other := by
  have shows := Node.shows_ofCharacters_render exact
  have otherShows := Node.shows_ofCharacters_render otherExact
  rw [← same] at otherShows
  have read := readValue_of_shows shows (fits.mono (Nat.le_max_left budget otherBudget))
  rw [readValue_of_shows otherShows (otherFits.mono (Nat.le_max_right budget otherBudget))]
    at read
  exact (Except.ok.inj read).symm

end

end Json
end SchemaBinding
