import SchemaBinding.Proofs.Json.Meaning

/-!
Contract: values of which nothing is known.

Owns:
- `ParseTree.value?`, the value that is written, and `ParseTree.height`, the number of lists
  and maps that are open inside it at once;
- `reads_value`, by which a value is read if it is one and no higher than the budget; and
- `wellFormed_of_presents` and `wellFormed_ne_ok`, by which a value is passed over whenever
  it is written in full.

Does not own: who reads values and who passes over them.
-/

set_option autoImplicit false

namespace SchemaBinding
namespace Json

namespace ParseTree

mutual

/-- The value that is written, if its numbers are in range and its texts stand for one. -/
def value? : ParseTree → Option Value
  | .word .null => some .null
  | .word (.flag value) => some (.flag value)
  | .number lexeme => lexeme.number?.map .number
  | .text lexeme => lexeme.text?.map .text
  | .list items => (itemValues? items).map .list
  | .map members => (memberValues? members).map .map

def itemValues? : List ParseTree → Option (List Value)
  | [] => some []
  | item :: rest => do
      let value ← item.value?
      let values ← itemValues? rest
      return value :: values

def memberValues? : List (TextLexeme × ParseTree) → Option (List (String × Value))
  | [] => some []
  | (key, tree) :: rest => do
      let name ← key.text?
      let value ← tree.value?
      let values ← memberValues? rest
      return (name, value) :: values

end

mutual

/-- The number of lists and maps that are open at once, at most. -/
def height : ParseTree → Nat
  | .word _ | .number _ | .text _ => 0
  | .list items => itemsHeight items + 1
  | .map members => membersHeight members + 1

def itemsHeight : List ParseTree → Nat
  | [] => 0
  | item :: rest => max item.height (itemsHeight rest)

def membersHeight : List (TextLexeme × ParseTree) → Nat
  | [] => 0
  | (_, tree) :: rest => max tree.height (membersHeight rest)

end

def IsValue (budget : Nat) (tree : ParseTree) (value : Value) : Prop :=
  tree.height ≤ budget ∧ tree.value? = some value

end ParseTree

open ParseTree

/-! ## Reading -/

-- The budget varies, since each list and each map has one less for what it holds.
mutual

theorem readValue_eq_ok_iff : ∀ {tree : ParseTree} {node : Node} {rest : Mark},
    node.Presents tree rest → ∀ (budget : Nat) (value : Value),
      node.readValue budget = .ok value ↔ IsValue budget tree value
  | .word .null, _, _, .word, budget, value => by
      simp [Node.readValue, IsValue, height, value?]
  | .word (.flag flag), _, _, .word, budget, value => by
      simp [Node.readValue, IsValue, height, value?]
  | .number lexeme, _, _, .number stops, budget, value => by
      rw [Node.readValue, map_eq_ok_iff, IsValue, height, value?, Option.map_eq_some_iff]
      simp only [NumberLexeme.value_literal_eq_ok_iff lexeme stops, Nat.zero_le, true_and]
  | .text lexeme, _, _, .text, budget, value => by
      rw [Node.readValue, map_eq_ok_iff, IsValue, height, value?, Option.map_eq_some_iff]
      simp only [TextLexeme.content_literal_eq_ok_iff lexeme, Nat.zero_le, true_and]
  | .list items, _, _, .list presented, budget, value => by
      rw [Node.readValue, spend_eq_ok_iff, IsValue, height, value?, Option.map_eq_some_iff]
      simp only [bind_eq_ok_iff, ListEnding.whenReading, return_eq_ok_iff,
        readValues_eq_ok_iff presented]
      constructor
      · rintro ⟨fewer, rfl, values, ⟨low, found⟩, _, _, rfl⟩
        exact ⟨Nat.succ_le_succ low, values, found, rfl⟩
      · rintro ⟨low, values, found, rfl⟩
        exact ⟨budget - 1, by omega, values, ⟨by omega, found⟩, (), trivial, rfl⟩
  | .map members, _, _, .map presented, budget, value => by
      rw [Node.readValue, spend_eq_ok_iff, IsValue, height, value?, Option.map_eq_some_iff]
      simp only [bind_eq_ok_iff, MapEnding.whenReading, return_eq_ok_iff,
        readMemberValues_eq_ok_iff presented]
      constructor
      · rintro ⟨fewer, rfl, values, ⟨low, found⟩, _, _, rfl⟩
        exact ⟨Nat.succ_le_succ low, values, found, rfl⟩
      · rintro ⟨low, values, found, rfl⟩
        exact ⟨budget - 1, by omega, values, ⟨by omega, found⟩, (), trivial, rfl⟩

theorem readValues_eq_ok_iff : ∀ {items : List ParseTree} {nodes : List Node},
    Node.AllPresent nodes items → ∀ (budget : Nat) (values : List Value),
      Node.readValues budget nodes = .ok values ↔
        itemsHeight items ≤ budget ∧ itemValues? items = some values
  | [], _, .nil, budget, values => by
      simp [Node.readValues, itemsHeight, itemValues?]
  | item :: items, _, .cons first others, budget, values => by
      rw [Node.readValues, itemsHeight, itemValues?, Nat.max_le]
      simp only [bind_eq_ok_iff, return_eq_ok_iff, readValue_eq_ok_iff first, IsValue,
        readValues_eq_ok_iff others, Option.bind_eq_bind, Option.bind_eq_some_iff]
      constructor
      · rintro ⟨value, ⟨low, found⟩, later, ⟨laterLow, laterFound⟩, rfl⟩
        exact ⟨⟨low, laterLow⟩, value, found, later, laterFound, rfl⟩
      · rintro ⟨⟨low, laterLow⟩, value, found, later, laterFound, ⟨⟩⟩
        exact ⟨value, ⟨low, found⟩, later, ⟨laterLow, laterFound⟩, rfl⟩

theorem readMemberValues_eq_ok_iff :
    ∀ {members : List (TextLexeme × ParseTree)} {nodes : List Member},
      Member.AllPresent nodes members → ∀ (budget : Nat) (values : List (String × Value)),
        Member.readValues budget nodes = .ok values ↔
          membersHeight members ≤ budget ∧ memberValues? members = some values
  | [], _, .nil, budget, values => by
      simp [Member.readValues, membersHeight, memberValues?]
  | (key, tree) :: members, _, .cons first others, budget, values => by
      rw [Member.readValues, membersHeight, memberValues?, Nat.max_le]
      simp only [bind_eq_ok_iff, return_eq_ok_iff, readValue_eq_ok_iff first, IsValue,
        TextLexeme.content_literal_eq_ok_iff, readMemberValues_eq_ok_iff others,
        Option.bind_eq_bind, Option.bind_eq_some_iff]
      constructor
      · rintro ⟨name, named, value, ⟨low, found⟩, later, ⟨laterLow, laterFound⟩, rfl⟩
        exact ⟨⟨low, laterLow⟩, name, named, value, found, later, laterFound, rfl⟩
      · rintro ⟨⟨low, laterLow⟩, name, named, value, found, later, laterFound, ⟨⟩⟩
        exact ⟨name, named, value, ⟨low, found⟩, later, ⟨laterLow, laterFound⟩, rfl⟩

end

section

variable {budget : Nat} {last : Node} (rejected : ∀ value, last.readValue budget ≠ .ok value)

include rejected

theorem readValues_append_ne_ok (before : List Node) :
    ∀ values, Node.readValues budget (before ++ [last]) ≠ .ok values := by
  induction before with
  | nil =>
      intro values read
      obtain ⟨value, found, _⟩ := bind_eq_ok_iff.1 read
      exact rejected value found
  | cons first others inductionHypothesis =>
      intro values read
      obtain ⟨_, _, readLater⟩ := bind_eq_ok_iff.1 read
      obtain ⟨later, found, _⟩ := bind_eq_ok_iff.1 readLater
      exact inductionHypothesis later found

theorem readMemberValues_append_ne_ok (before : List Member) (key : TextLiteral) :
    ∀ values, Member.readValues budget (before ++ [⟨key, last⟩]) ≠ .ok values := by
  induction before with
  | nil =>
      intro values read
      obtain ⟨_, _, readValue⟩ := bind_eq_ok_iff.1 read
      obtain ⟨value, found, _⟩ := bind_eq_ok_iff.1 readValue
      exact rejected value found
  | cons first others inductionHypothesis =>
      obtain ⟨_, _⟩ := first
      intro values read
      obtain ⟨_, _, readValue⟩ := bind_eq_ok_iff.1 read
      obtain ⟨_, _, readLater⟩ := bind_eq_ok_iff.1 readValue
      obtain ⟨later, found, _⟩ := bind_eq_ok_iff.1 readLater
      exact inductionHypothesis later found

end

theorem readValue_ne_ok {node : Node} (unfinished : node.Unfinished) :
    ∀ (budget : Nat) (value : Value), node.readValue budget ≠ .ok value := by
  induction unfinished with
  | broken => exact nofun
  | number cut =>
      intro budget value read
      obtain ⟨number, found, _⟩ := map_eq_ok_iff.1 read
      exact NumberLiteral.value_ne_ok_of_cut cut number found
  | text cut =>
      intro budget value read
      obtain ⟨text, found, _⟩ := map_eq_ok_iff.1 read
      exact TextLiteral.content_ne_ok_of_cut cut text found
  | list cut notInside =>
      intro budget value read
      obtain ⟨_, _, readInside⟩ := spend_eq_ok_iff.1 read
      obtain ⟨_, _, readEnding⟩ := bind_eq_ok_iff.1 readInside
      obtain ⟨_, found, _⟩ := bind_eq_ok_iff.1 readEnding
      exact ListEnding.whenReading_ne_ok cut notInside found
  | item _ inductionHypothesis =>
      intro budget value read
      obtain ⟨fewer, _, readInside⟩ := spend_eq_ok_iff.1 read
      obtain ⟨values, found, _⟩ := bind_eq_ok_iff.1 readInside
      exact readValues_append_ne_ok (inductionHypothesis fewer) _ values found
  | map cut notInside keyCut =>
      intro budget value read
      obtain ⟨_, _, readInside⟩ := spend_eq_ok_iff.1 read
      obtain ⟨_, _, readEnding⟩ := bind_eq_ok_iff.1 readInside
      obtain ⟨_, found, _⟩ := bind_eq_ok_iff.1 readEnding
      exact MapEnding.whenReading_ne_ok cut notInside keyCut found
  | member _ inductionHypothesis =>
      intro budget value read
      obtain ⟨fewer, _, readInside⟩ := spend_eq_ok_iff.1 read
      obtain ⟨values, found, _⟩ := bind_eq_ok_iff.1 readInside
      exact readMemberValues_append_ne_ok (inductionHypothesis fewer) _ _ values found

theorem reads_value (budget : Nat) : Reads (Node.readValue budget) (IsValue budget) where
  presented presents := readValue_eq_ok_iff presents budget
  unfinished cut := readValue_ne_ok cut budget

/-! ## Values that are passed over -/

mutual

/-- Any value can be passed over, whatever its depth and its numbers are. -/
theorem wellFormed_of_presents : ∀ {tree : ParseTree} {node : Node} {rest : Mark},
    node.Presents tree rest → node.wellFormed = .ok ()
  | .word _, _, _, .word => by rw [Node.wellFormed]
  | .number _, _, _, .number _ => by
      rw [Node.wellFormed]
      rfl
  | .text lexeme, _, _, .text => by
      rw [Node.wellFormed]
      exact lexeme.wellFormed_literal _
  | .list _, _, _, .list presented => by
      rw [Node.wellFormed, allWellFormed_of_allPresent presented]
      rfl
  | .map _, _, _, .map presented => by
      rw [Node.wellFormed, membersWellFormed_of_allPresent presented]
      rfl

theorem allWellFormed_of_allPresent : ∀ {items : List ParseTree} {nodes : List Node},
    Node.AllPresent nodes items → Node.allWellFormed nodes = .ok ()
  | [], _, .nil => by rw [Node.allWellFormed]
  | _ :: _, _, .cons first others => by
      rw [Node.allWellFormed, wellFormed_of_presents first]
      exact allWellFormed_of_allPresent others

theorem membersWellFormed_of_allPresent :
    ∀ {members : List (TextLexeme × ParseTree)} {nodes : List Member},
      Member.AllPresent nodes members → Member.allWellFormed nodes = .ok ()
  | [], _, .nil => by rw [Member.allWellFormed]
  | (key, _) :: _, _, .cons first others => by
      rw [Member.allWellFormed, key.wellFormed_literal, wellFormed_of_presents first]
      exact membersWellFormed_of_allPresent others

end

theorem allWellFormed_append_ne_ok {last : Node} (rejected : last.wellFormed ≠ .ok ())
    (before : List Node) : Node.allWellFormed (before ++ [last]) ≠ .ok () := by
  induction before with
  | nil =>
      intro passed
      obtain ⟨_, found, _⟩ := bind_eq_ok_iff.1 passed
      exact rejected found
  | cons first others inductionHypothesis =>
      intro passed
      obtain ⟨_, _, passedLater⟩ := bind_eq_ok_iff.1 passed
      exact inductionHypothesis passedLater

theorem membersWellFormed_append_ne_ok {last : Node} (rejected : last.wellFormed ≠ .ok ())
    (before : List Member) (key : TextLiteral) :
    Member.allWellFormed (before ++ [⟨key, last⟩]) ≠ .ok () := by
  induction before with
  | nil =>
      intro passed
      obtain ⟨_, _, passedValue⟩ := bind_eq_ok_iff.1 passed
      obtain ⟨_, found, _⟩ := bind_eq_ok_iff.1 passedValue
      exact rejected found
  | cons first others inductionHypothesis =>
      obtain ⟨_, _⟩ := first
      intro passed
      obtain ⟨_, _, passedValue⟩ := bind_eq_ok_iff.1 passed
      obtain ⟨_, _, passedLater⟩ := bind_eq_ok_iff.1 passedValue
      exact inductionHypothesis passedLater

theorem wellFormed_ne_ok {node : Node} (unfinished : node.Unfinished) :
    node.wellFormed ≠ .ok () := by
  induction unfinished with
  | broken => exact nofun
  | number cut => exact NumberLiteral.wellFormed_ne_ok_of_cut cut
  | text cut => exact TextLiteral.wellFormed_ne_ok_of_cut cut
  | list cut notInside =>
      intro passed
      obtain ⟨_, _, found⟩ := bind_eq_ok_iff.1 passed
      exact ListEnding.whenPassing_ne_ok cut notInside found
  | item _ inductionHypothesis =>
      intro passed
      obtain ⟨_, found, _⟩ := bind_eq_ok_iff.1 passed
      exact allWellFormed_append_ne_ok inductionHypothesis _ found
  | map cut notInside keyCut =>
      intro passed
      obtain ⟨_, _, found⟩ := bind_eq_ok_iff.1 passed
      exact MapEnding.whenPassing_ne_ok cut notInside keyCut found
  | member _ inductionHypothesis =>
      intro passed
      obtain ⟨_, found, _⟩ := bind_eq_ok_iff.1 passed
      exact membersWellFormed_append_ne_ok inductionHypothesis _ _ found

end Json
end SchemaBinding
