import Mathlib.Data.List.Forall2
import SchemaBinding.Json.Reading
import SchemaBinding.Proofs.Json.Recognition
import SchemaBinding.Proofs.NamedList.Repetition

/-!
Contract: what the readers of values find, told by the grammar alone.

Owns:
- what a value of the grammar is as a flag, a text, a count, an optional value and a map
  with any keys; and
- `Reads`, by which a reader finds in every text what it should and rejects texts that break
  off, with one lemma for each reader.

Does not own: values of any kind, and records.

The meaning of a value does not say where it stands or what comes first in it. Readers go
from one end to the other and stop at the first fault, but whether there is a fault does not
depend on the way they go.
-/

set_option autoImplicit false

namespace SchemaBinding
namespace Json

/-! ## Readers and what they should find -/

/-- A reader finds in each presented value what the value means, and nothing elsewhere. -/
structure Reads {α : Type} (read : Node → Except Fault α) (means : ParseTree → α → Prop) :
    Prop where
  presented : ∀ {node : Node} {tree : ParseTree} {rest : Mark}, node.Presents tree rest →
    ∀ content, read node = .ok content ↔ means tree content
  unfinished : ∀ {node : Node}, node.Unfinished → ∀ content, read node ≠ .ok content

/-- What is meant may be told in other words. -/
theorem Reads.congr {α : Type} {read : Node → Except Fault α} {means others : ParseTree → α → Prop}
    (reads : Reads read means) (same : ∀ tree content, means tree content ↔ others tree content) :
    Reads read others where
  presented presents content := (reads.presented presents content).trans (same _ content)
  unfinished := reads.unfinished

namespace ParseTree

def IsFlag (tree : ParseTree) (flag : Bool) : Prop :=
  tree = .word (.flag flag)

def IsText (tree : ParseTree) (text : String) : Prop :=
  ∃ lexeme, tree = .text lexeme ∧ lexeme.text? = some text

def IsCount (tree : ParseTree) (count : UInt64) : Prop :=
  ∃ lexeme, tree = .number lexeme ∧ lexeme.number? = some (.integer count.toNat)

/-- `null` for an absent value, and otherwise the value. -/
inductive IsOptional {α : Type} (means : ParseTree → α → Prop) :
    ParseTree → Option α → Prop where
  | absent : IsOptional means (.word .null) none
  | present {tree : ParseTree} {content : α} (notNull : tree ≠ .word .null)
      (meant : means tree content) : IsOptional means tree (some content)

/-! ## Maps with any keys -/

/-- A map whose values all mean something, filed in the order of the text: of a repeated
key the first place and the last value remain. -/
def IsMap {α : Type} (budget : Nat) (means : Nat → ParseTree → α → Prop) (tree : ParseTree)
    (list : NamedList α) : Prop :=
  ∃ rest members pairs, budget = rest + 1 ∧ tree = .map members ∧
    List.Forall₂ (fun member pair => member.1.text? = some pair.1 ∧ means rest member.2 pair.2)
      members pairs ∧
    list = NamedList.ofList pairs

/-- No key stands twice in what is filed. -/
theorem IsMap.distinct {α : Type} {budget : Nat} {means : Nat → ParseTree → α → Prop}
    {tree : ParseTree} {list : NamedList α} (isMap : IsMap budget means tree list) :
    list.Distinct := by
  obtain ⟨_, _, pairs, _, _, _, rfl⟩ := isMap
  exact NamedList.distinct_ofList pairs

end ParseTree

open ParseTree

/-! ## What has been read -/

/-- A sequence succeeds when both of its parts do. -/
theorem bind_eq_ok_iff {ε α β : Type} {result : Except ε α} {next : α → Except ε β}
    {content : β} :
    (result >>= next) = .ok content ↔ ∃ found, result = .ok found ∧ next found = .ok content := by
  cases result with
  | error _ => exact ⟨nofun, nofun⟩
  | ok own =>
      constructor
      · intro read
        exact ⟨own, rfl, read⟩
      · rintro ⟨_, ⟨⟩, read⟩
        exact read

theorem map_eq_ok_iff {ε α β : Type} {result : Except ε α} {function : α → β} {content : β} :
    result.map function = .ok content ↔ ∃ found, result = .ok found ∧ function found = content := by
  cases result with
  | error _ => exact ⟨nofun, nofun⟩
  | ok own => simp [Except.map]

/-- What is read may be put into another form. -/
theorem Reads.map {α β : Type} {read : Node → Except Fault α} {means : ParseTree → α → Prop}
    {function : α → β} (reads : Reads read means) :
    Reads (fun node => (read node).map function)
      (fun tree content => ∃ own, means tree own ∧ function own = content) where
  presented presents content := by
    simp only [map_eq_ok_iff, reads.presented presents]
  unfinished cut content found := by
    obtain ⟨own, foundOwn, _⟩ := map_eq_ok_iff.1 found
    exact reads.unfinished cut own foundOwn

theorem Node.reject_ne_ok {α : Type} (wanted : Wanted) (node : Node) (content : α) :
    node.reject wanted ≠ .ok content := by
  unfold Node.reject
  cases node.found with
  | error _ => exact nofun
  | ok _ => exact nofun

/-- Who reads a text literal has come to its end. -/
theorem TextLiteral.closed_of_characters {ending : TextEnding} {pieces : List (Mark × Piece)}
    {text : List Char} (read : TextLiteral.characters ending pieces = .ok text) :
    ∃ rest, ending = .closed rest := by
  fun_induction TextLiteral.characters ending pieces generalizing text with
  | case1 rest closed => exact ⟨rest, closed⟩
  | case2 | case3 | case4 | case5 => cases read
  | case6 _ _ _ inductionHypothesis | case7 _ _ _ inductionHypothesis
  | case9 _ _ _ _ _ _ _ _ inductionHypothesis | case12 _ _ _ _ _ inductionHypothesis =>
      obtain ⟨later, readLater, _⟩ := bind_eq_ok_iff.1 read
      exact inductionHypothesis readLater
  | case8 | case10 | case11 => cases read

theorem TextLiteral.content_ne_ok_of_cut {literal : TextLiteral} (cut : literal.after? = none)
    (text : String) : literal.content ≠ .ok text := by
  intro read
  obtain ⟨characters, readCharacters, _⟩ := map_eq_ok_iff.1 read
  obtain ⟨rest, closed⟩ := closed_of_characters readCharacters
  rw [after?_eq_some_iff.2 closed] at cut
  cases cut

theorem TextLiteral.wellFormed_ne_ok_of_cut {literal : TextLiteral}
    (cut : literal.after? = none) : literal.wellFormed ≠ .ok () := by
  unfold after? at cut
  unfold wellFormed
  cases ending : literal.ending with
  | closed rest =>
      rw [ending] at cut
      cases cut
  | endOfSource | control _ | unknownEscape _ | badUnit _ => exact nofun

theorem NumberLiteral.value_ne_ok_of_cut {literal : NumberLiteral}
    (cut : literal.after? = none) (number : Number) : literal.value ≠ .ok number := by
  unfold after? at cut
  unfold value
  cases ending : literal.ending with
  | complete rest =>
      rw [ending] at cut
      cases cut
  | cutShort mark =>
      cases mark with
      | nil => exact nofun
      | cons _ _ => exact nofun

theorem NumberLiteral.wellFormed_ne_ok_of_cut {literal : NumberLiteral}
    (cut : literal.after? = none) : literal.wellFormed ≠ .ok () := by
  unfold after? at cut
  unfold wellFormed
  cases ending : literal.ending with
  | complete rest =>
      rw [ending] at cut
      cases cut
  | cutShort _ => exact nofun

theorem spend_eq_ok_iff {α : Type} {budget : Nat} {start : Mark}
    {read : Nat → Except Fault α} {content : α} :
    spend budget start read = .ok content ↔
      ∃ rest, budget = rest + 1 ∧ read rest = .ok content := by
  cases budget with
  | zero => exact ⟨nofun, fun ⟨_, impossible, _⟩ => nomatch impossible⟩
  | succ fewer =>
      constructor
      · intro read
        exact ⟨fewer, rfl, read⟩
      · rintro ⟨_, ⟨⟩, read⟩
        exact read

theorem return_eq_ok_iff {ε α : Type} {own content : α} :
    (return own : Except ε α) = .ok content ↔ own = content := by
  constructor
  · rintro ⟨⟩
    rfl
  · rintro rfl
    rfl

/-! ## Single values -/

theorem readFlag_eq_ok_iff {node : Node} {flag : Bool} :
    node.readFlag = .ok flag ↔ ∃ start after, node = .word start (.flag flag) after := by
  unfold Node.readFlag
  split
  · constructor
    · rintro ⟨⟩
      exact ⟨_, _, rfl⟩
    · rintro ⟨_, _, ⟨⟩⟩
      rfl
  · rename_i notFlag
    constructor
    · intro read
      exact absurd read (Node.reject_ne_ok _ _ _)
    · rintro ⟨_, _, rfl⟩
      exact absurd rfl (notFlag _ _ _)

theorem reads_flag : Reads Node.readFlag IsFlag where
  presented presents flag := by
    rw [readFlag_eq_ok_iff]
    cases presents with
    | word =>
        constructor
        · rintro ⟨_, _, ⟨⟩⟩
          rfl
        · rintro ⟨⟩
          exact ⟨_, _, rfl⟩
    | number _ | text | list _ | map _ => exact ⟨nofun, nofun⟩
  unfinished cut flag read := by
    obtain ⟨_, _, rfl⟩ := readFlag_eq_ok_iff.1 read
    cases cut

theorem readText_eq_ok_iff {node : Node} {text : String} :
    node.readText = .ok text ↔
      ∃ start literal, node = .text start literal ∧ literal.content = .ok text := by
  unfold Node.readText
  split
  · constructor
    · intro read
      exact ⟨_, _, rfl, read⟩
    · rintro ⟨_, _, ⟨⟩, read⟩
      exact read
  · rename_i notText
    constructor
    · intro read
      exact absurd read (Node.reject_ne_ok _ _ _)
    · rintro ⟨_, _, rfl, _⟩
      exact absurd rfl (notText _ _)

theorem reads_text : Reads Node.readText IsText where
  presented presents text := by
    rw [readText_eq_ok_iff]
    cases presents with
    | text =>
        constructor
        · rintro ⟨_, _, ⟨⟩, read⟩
          exact ⟨_, rfl, (TextLexeme.content_literal_eq_ok_iff _ _).1 read⟩
        · rintro ⟨_, ⟨⟩, stands⟩
          exact ⟨_, _, rfl, (TextLexeme.content_literal_eq_ok_iff _ _).2 stands⟩
    | word | number _ | list _ | map _ => exact ⟨nofun, nofun⟩
  unfinished cut text read := by
    obtain ⟨_, _, rfl, content⟩ := readText_eq_ok_iff.1 read
    cases cut with
    | text cut => exact TextLiteral.content_ne_ok_of_cut cut _ content

theorem readCount_eq_ok_iff {node : Node} {count : UInt64} :
    node.readCount = .ok count ↔
      ∃ start literal value, node = .number start literal ∧
        literal.value = .ok (.integer value) ∧ 0 ≤ value ∧ count = UInt64.ofNat value.toNat := by
  unfold Node.readCount
  split
  · rename_i start literal
    rw [bind_eq_ok_iff]
    constructor
    · rintro ⟨number, found, read⟩
      cases number with
      | decimal _ => exact absurd read (Node.reject_ne_ok _ _ _)
      | integer value =>
          dsimp only at read
          split at read
          · cases read
            exact ⟨_, _, value, rfl, found, ‹_›, rfl⟩
          · cases read
    · rintro ⟨_, _, value, ⟨⟩, found, positive, rfl⟩
      refine ⟨_, found, ?_⟩
      dsimp only
      rw [if_pos positive]
  · rename_i notNumber
    constructor
    · intro read
      exact absurd read (Node.reject_ne_ok _ _ _)
    · rintro ⟨_, _, _, rfl, _⟩
      exact absurd rfl (notNumber _ _)

theorem toNat_ofNat_of_lt {value : Int} (positive : 0 ≤ value)
    (fits : value < NumberLiteral.wordLimit) :
    ((UInt64.ofNat value.toNat).toNat : Int) = value := by
  have small : value.toNat < UInt64.size := by
    have limit : NumberLiteral.wordLimit = UInt64.size := rfl
    omega
  rw [UInt64.toNat_ofNat', Nat.mod_eq_of_lt small, Int.toNat_of_nonneg positive]

theorem reads_count : Reads Node.readCount IsCount where
  presented presents count := by
    rw [readCount_eq_ok_iff]
    cases presents with
    | number stops =>
        constructor
        · rintro ⟨_, _, value, ⟨⟩, found, positive, rfl⟩
          have stands := (NumberLexeme.value_literal_eq_ok_iff _ stops).1 found
          have fits := NumberLexeme.lt_of_number?_eq_integer stands
          refine ⟨_, rfl, ?_⟩
          rw [toNat_ofNat_of_lt positive fits]
          exact stands
        · rintro ⟨_, ⟨⟩, stands⟩
          refine ⟨_, _, _, rfl, (NumberLexeme.value_literal_eq_ok_iff _ stops).2 stands,
            Int.natCast_nonneg _, ?_⟩
          rw [Int.toNat_natCast, UInt64.ofNat_toNat]
    | word | text | list _ | map _ => exact ⟨nofun, nofun⟩
  unfinished cut count read := by
    obtain ⟨_, _, _, rfl, value, _⟩ := readCount_eq_ok_iff.1 read
    cases cut with
    | number cut => exact NumberLiteral.value_ne_ok_of_cut cut _ value

theorem readOptional_eq_ok_iff {α : Type} {read : Node → Except Fault α} {node : Node}
    {content : Option α} :
    node.readOptional read = .ok content ↔
      ((∃ start after, node = .word start .null after) ∧ content = none) ∨
        ((∀ start after, node ≠ .word start .null after) ∧
          ∃ own, read node = .ok own ∧ content = some own) := by
  unfold Node.readOptional
  split
  · constructor
    · rintro ⟨⟩
      exact .inl ⟨⟨_, _, rfl⟩, rfl⟩
    · rintro (⟨_, rfl⟩ | ⟨notNull, _⟩)
      · rfl
      · exact absurd rfl (notNull _ _)
  · rename_i notNull
    rw [map_eq_ok_iff]
    constructor
    · rintro ⟨own, found, rfl⟩
      exact .inr ⟨notNull, own, found, rfl⟩
    · rintro (⟨⟨_, _, rfl⟩, _⟩ | ⟨_, own, found, rfl⟩)
      · exact absurd rfl (notNull _ _)
      · exact ⟨own, found, rfl⟩

theorem reads_optional {α : Type} {read : Node → Except Fault α} {means : ParseTree → α → Prop}
    (reads : Reads read means) : Reads (Node.readOptional read) (IsOptional means) where
  presented {node tree rest} presents content := by
    rw [readOptional_eq_ok_iff]
    have sameNull : (∃ start after, node = .word start .null after) ↔ tree = .word .null := by
      cases presents with
      | word =>
          constructor
          · rintro ⟨_, _, ⟨⟩⟩
            rfl
          · rintro ⟨⟩
            exact ⟨_, _, rfl⟩
      | number _ | text | list _ | map _ => exact ⟨nofun, nofun⟩
    have notNull : (∀ start after, node ≠ .word start .null after) ↔ tree ≠ .word .null := by
      rw [Ne, ← sameNull]
      simp only [ne_eq, not_exists]
    rw [sameNull, notNull]
    simp only [reads.presented presents]
    constructor
    · rintro (⟨rfl, rfl⟩ | ⟨present, own, meant, rfl⟩)
      · exact .absent
      · exact .present present meant
    · rintro (_ | ⟨present, meant⟩)
      · exact .inl ⟨rfl, rfl⟩
      · exact .inr ⟨present, _, meant, rfl⟩
  unfinished cut content read := by
    rcases readOptional_eq_ok_iff.1 read with ⟨⟨_, _, rfl⟩, _⟩ | ⟨_, own, found, _⟩
    · cases cut
    · exact reads.unfinished cut own found

/-! ## Endings that break off -/

section

variable {ending : ListEnding}

theorem ListEnding.whenReading_ne_ok (cut : ending.after? = none) (notInside : ending ≠ .broken) :
    ending.whenReading ≠ .ok () := by
  cases ending with
  | closed _ => cases cut
  | broken => exact absurd rfl notInside
  | closedAfterComma _ | endAfterComma | endOfSource | unseparated _ => exact nofun

theorem ListEnding.whenPassing_ne_ok (cut : ending.after? = none) (notInside : ending ≠ .broken) :
    ending.whenPassing ≠ .ok () := by
  cases ending with
  | closed _ => cases cut
  | broken => exact absurd rfl notInside
  | closedAfterComma _ | endAfterComma | endOfSource | unseparated _ => exact nofun

theorem ListEnding.whenClosing_ne_ok (cut : ending.after? = none) (notInside : ending ≠ .broken) :
    ending.whenClosing ≠ .ok () := by
  cases ending with
  | closed _ => cases cut
  | broken => exact absurd rfl notInside
  | closedAfterComma _ | endAfterComma | endOfSource | unseparated _ => exact nofun

end

section

variable {ending : MapEnding}

theorem MapEnding.whenReading_ne_ok (cut : ending.after? = none) (notInside : ending ≠ .broken)
    (keyCut : ∀ key, ending = .brokenKey key → key.after? = none) :
    ending.whenReading ≠ .ok () := by
  cases ending with
  | closed _ => cases cut
  | broken => exact absurd rfl notInside
  | brokenKey key =>
      intro read
      obtain ⟨text, content, _⟩ := map_eq_ok_iff.1 read
      exact TextLiteral.content_ne_ok_of_cut (keyCut key rfl) text content
  | closedAfterComma _ | endAfterComma | endOfSource | unseparated _ | keyless _ => exact nofun

theorem MapEnding.whenPassing_ne_ok (cut : ending.after? = none) (notInside : ending ≠ .broken)
    (keyCut : ∀ key, ending = .brokenKey key → key.after? = none) :
    ending.whenPassing ≠ .ok () := by
  cases ending with
  | closed _ => cases cut
  | broken => exact absurd rfl notInside
  | brokenKey key => exact TextLiteral.wellFormed_ne_ok_of_cut (keyCut key rfl)
  | closedAfterComma _ | endAfterComma | endOfSource | unseparated _ | keyless _ => exact nofun

end

/-! ## Maps with any keys -/

section

variable {α : Type} {read : Node → Except Fault α} {means : ParseTree → α → Prop}

/-- Members are read one after another and filed as they come. -/
theorem readNamed_eq_ok_iff (reads : Reads read means)
    {members : List (TextLexeme × ParseTree)} {nodes : List Member}
    (presented : Member.AllPresent nodes members) (sofar map : NamedMap α) :
    Member.readNamed read nodes sofar = .ok map ↔
      ∃ pairs : List (String × α),
        List.Forall₂ (fun member pair => member.1.text? = some pair.1 ∧ means member.2 pair.2)
          members pairs ∧
        map.toNamedList = sofar.toNamedList.insertAll pairs := by
  induction members generalizing nodes sofar with
  | nil =>
      cases presented with
      | nil =>
          constructor
          · rintro ⟨⟩
            exact ⟨[], .nil, rfl⟩
          · rintro ⟨_, ⟨⟩, same⟩
            rw [Member.readNamed, NamedMap.toNamedList_inj.1 same]
  | cons member members inductionHypothesis =>
      cases presented with
      | cons first others =>
          rw [Member.readNamed]
          simp only [bind_eq_ok_iff, TextLexeme.content_literal_eq_ok_iff,
            reads.presented first, inductionHypothesis others]
          constructor
          · rintro ⟨name, named, content, meant, pairs, matched, same⟩
            exact ⟨(name, content) :: pairs, .cons ⟨named, meant⟩ matched, same⟩
          · rintro ⟨_, _ | ⟨⟨named, meant⟩, matched⟩, same⟩
            exact ⟨_, named, _, meant, _, matched, same⟩

theorem readNamed_append_ne_ok {last : Node} (rejected : ∀ content, read last ≠ .ok content)
    (before : List Member) (key : TextLiteral) :
    ∀ sofar list, Member.readNamed read (before ++ [⟨key, last⟩]) sofar ≠ .ok list := by
  induction before with
  | nil =>
      intro sofar list found
      obtain ⟨_, _, foundValue⟩ := bind_eq_ok_iff.1 found
      obtain ⟨content, readLast, _⟩ := bind_eq_ok_iff.1 foundValue
      exact rejected content readLast
  | cons first others inductionHypothesis =>
      obtain ⟨_, _⟩ := first
      intro sofar list found
      obtain ⟨_, _, foundValue⟩ := bind_eq_ok_iff.1 found
      obtain ⟨_, _, foundLater⟩ := bind_eq_ok_iff.1 foundValue
      exact inductionHypothesis _ list foundLater

end

section

variable {α : Type} {read : Nat → Node → Except Fault α} {means : Nat → ParseTree → α → Prop}

theorem readMap_eq_ok_iff {budget : Nat} {node : Node} {map : NamedMap α} :
    node.readMap budget read = .ok map ↔
      ∃ rest start members ending, budget = rest + 1 ∧ node = .map start members ending ∧
        Member.readNamed (read rest) members {} = .ok map ∧ ending.whenReading = .ok () := by
  unfold Node.readMap
  split
  · simp only [spend_eq_ok_iff, bind_eq_ok_iff, return_eq_ok_iff]
    constructor
    · rintro ⟨rest, rfl, _, named, _, ends, rfl⟩
      exact ⟨rest, _, _, _, rfl, rfl, named, ends⟩
    · rintro ⟨rest, _, _, _, rfl, ⟨⟩, named, ends⟩
      exact ⟨rest, rfl, map, named, (), ends, rfl⟩
  · rename_i notMap
    constructor
    · intro found
      exact absurd found (Node.reject_ne_ok _ _ _)
    · rintro ⟨_, _, _, _, _, rfl, _⟩
      exact absurd rfl (notMap _ _ _)

theorem reads_map (reads : ∀ budget, Reads (read budget) (means budget)) (budget : Nat) :
    Reads (Node.readMap budget read) fun tree map => IsMap budget means tree map.toNamedList where
  presented presents map := by
    rw [readMap_eq_ok_iff]
    cases presents with
    | map presented =>
        constructor
        · rintro ⟨rest, _, _, _, rfl, ⟨⟩, named, _⟩
          obtain ⟨pairs, matched, filed⟩ :=
            (readNamed_eq_ok_iff (reads rest) presented _ _).1 named
          exact ⟨rest, _, pairs, rfl, rfl, matched, filed⟩
        · rintro ⟨rest, _, pairs, rfl, ⟨⟩, matched, filed⟩
          exact ⟨rest, _, _, _, rfl, rfl,
            (readNamed_eq_ok_iff (reads rest) presented _ _).2 ⟨pairs, matched, filed⟩, rfl⟩
    | word | number _ | text | list _ =>
        constructor
        · rintro ⟨_, _, _, _, _, ⟨⟩, _⟩
        · rintro ⟨_, _, _, _, ⟨⟩, _⟩
  unfinished cut map found := by
    obtain ⟨rest, _, _, _, _, rfl, named, ends⟩ := readMap_eq_ok_iff.1 found
    cases cut with
    | map cut notInside keyCut => exact MapEnding.whenReading_ne_ok cut notInside keyCut ends
    | member inside =>
        exact readNamed_append_ne_ok ((reads rest).unfinished inside) _ _ _ _ named

/-- The list of a map is read as whatever the map files. -/
theorem reads_namedList (reads : ∀ budget, Reads (read budget) (means budget)) (budget : Nat) :
    Reads (fun node => (node.readMap budget read).map NamedMap.toNamedList)
      (IsMap budget means) := by
  apply (reads_map reads budget).map.congr
  intro tree list
  constructor
  · rintro ⟨map, isMap, rfl⟩
    exact isMap
  · intro isMap
    exact ⟨{ toNamedList := list, distinct := isMap.distinct }, isMap, rfl⟩

end

end Json
end SchemaBinding
