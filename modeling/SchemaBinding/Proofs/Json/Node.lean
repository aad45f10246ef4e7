import SchemaBinding.Proofs.Json.NumberLiteral
import SchemaBinding.Proofs.Json.TextLiteral

/-!
Contract: the tree of a value that has been written shows that value.

Owns:
- `Node.Shows`, what a tree without faults says, and where it ends;
- `Value.Exact`, the values whose numbers are integers of 64 bits; and
- `Node.shows_ofCharacters_render`, by which every exact value is shown by the tree of
  its text.

Does not own: what readers make of a tree.

Reading goes with steps to spare, so the proof only keeps count that each nested call
gets at least as many steps as its text has characters.
-/

set_option autoImplicit false

namespace SchemaBinding
namespace Json

/-! ## What a tree shows -/

mutual

/-- A tree without faults shows a value and ends before `rest`. -/
inductive Node.Shows : Node → Value → Mark → Prop where
  | null {start rest : Mark} : Node.Shows (.word start .null rest) .null rest
  | flag {start rest : Mark} {value : Bool} :
      Node.Shows (.word start (.flag value) rest) (.flag value) rest
  | number {start rest : Mark} {literal : NumberLiteral} {number : Number}
      (ends : literal.ending = .complete rest) (stands : literal.value = .ok number) :
      Node.Shows (.number start literal) (.number number) rest
  | text {start rest : Mark} {literal : TextLiteral} {text : String}
      (ends : literal.ending = .closed rest) (stands : literal.content = .ok text) :
      Node.Shows (.text start literal) (.text text) rest
  | list {start rest : Mark} {nodes : List Node} {items : List Value}
      (shown : Node.AllShow nodes items) :
      Node.Shows (.list start nodes (.closed rest)) (.list items) rest
  | map {start rest : Mark} {nodes : List Member} {members : List (String × Value)}
      (shown : Member.AllShow nodes members) :
      Node.Shows (.map start nodes (.closed rest)) (.map members) rest

inductive Node.AllShow : List Node → List Value → Prop where
  | nil : Node.AllShow [] []
  | cons {node : Node} {nodes : List Node} {value : Value} {values : List Value}
      {rest : Mark} (first : Node.Shows node value rest)
      (others : Node.AllShow nodes values) : Node.AllShow (node :: nodes) (value :: values)

inductive Member.AllShow : List Member → List (String × Value) → Prop where
  | nil : Member.AllShow [] []
  | cons {key : TextLiteral} {node : Node} {nodes : List Member} {name : String}
      {value : Value} {values : List (String × Value)} {rest : Mark}
      (named : key.content = .ok name) (first : Node.Shows node value rest)
      (others : Member.AllShow nodes values) :
      Member.AllShow (⟨key, node⟩ :: nodes) ((name, value) :: values)

end

theorem Node.Shows.after? {node : Node} {value : Value} {rest : Mark}
    (shows : node.Shows value rest) : node.after? = some rest := by
  cases shows with
  | null => rfl
  | flag => rfl
  | number ends _ => rw [Node.after?, NumberLiteral.after?_eq_some_iff.2 ends]
  | text ends _ => rw [Node.after?, TextLiteral.after?_eq_some_iff.2 ends]
  | list _ => rfl
  | map _ => rfl

/-! ## Values that are written exactly -/

mutual

/-- Every number in the value is an integer of 64 bits. -/
def Value.Exact : Value → Prop
  | .number (.integer value) => FitsWord value
  | .number (.decimal _) => False
  | .list items => Value.AllExact items
  | .map members => Value.MembersExact members
  | .null | .flag _ | .text _ => True

def Value.AllExact : List Value → Prop
  | [] => True
  | item :: rest => item.Exact ∧ Value.AllExact rest

def Value.MembersExact : List (String × Value) → Prop
  | [] => True
  | (_, value) :: rest => value.Exact ∧ Value.MembersExact rest

end

theorem Value.allExact_iff :
    ∀ {items : List Value}, Value.AllExact items ↔ ∀ item ∈ items, item.Exact
  | [] => by simp [Value.AllExact]
  | item :: rest => by
      rw [Value.AllExact, List.forall_mem_cons, Value.allExact_iff]

theorem Value.membersExact_iff :
    ∀ {members : List (String × Value)},
      Value.MembersExact members ↔ ∀ member ∈ members, member.2.Exact
  | [] => by simp [Value.MembersExact]
  | (name, value) :: rest => by
      rw [Value.MembersExact, List.forall_mem_cons, Value.membersExact_iff]

theorem Value.membersExact_append {first second : List (String × Value)} :
    Value.MembersExact (first ++ second) ↔
      Value.MembersExact first ∧ Value.MembersExact second := by
  simp only [Value.membersExact_iff, List.forall_mem_append]

/-! ## How written values start -/

/-- What a value may start with, as far as its surroundings tell: no blank, and not the
end of a list. -/
def startsValue (character : Char) : Bool :=
  !isBlank character && character != ']'

/-- Where a number starts, nothing else can start. -/
theorem ne_of_startsNumber {character other : Char}
    (starts : NumberLiteral.startsNumber character = true)
    (cannot : NumberLiteral.startsNumber other = false) : character ≠ other := by
  rintro rfl
  rw [starts] at cannot
  cases cannot

theorem startsValue_of_startsNumber {character : Char}
    (starts : NumberLiteral.startsNumber character = true) :
    startsValue character = true := by
  have space : character ≠ ' ' := ne_of_startsNumber starts rfl
  have newline : character ≠ '\n' := ne_of_startsNumber starts rfl
  have tab : character ≠ '\t' := ne_of_startsNumber starts rfl
  have carriage : character ≠ '\r' := ne_of_startsNumber starts rfl
  have bracket : character ≠ ']' := ne_of_startsNumber starts rfl
  simp [startsValue, isBlank, *]

theorem Value.render_eq_cons (value : Value) (exact : value.Exact) :
    ∃ first more, value.render = first :: more ∧ startsValue first = true := by
  cases value with
  | null => exact ⟨_, _, rfl, rfl⟩
  | flag value => cases value <;> exact ⟨_, _, rfl, rfl⟩
  | text text => exact ⟨_, _, rfl, rfl⟩
  | list items => exact ⟨_, _, rfl, rfl⟩
  | map members => exact ⟨_, _, rfl, rfl⟩
  | number number =>
      cases number with
      | decimal _ => exact exact.elim
      | integer value =>
          obtain ⟨first, more, written, starts⟩ := NumberLiteral.renderNumber_eq_cons value
          exact ⟨first, more, written, startsValue_of_startsNumber starts⟩

/-! ## One step of reading -/

theorem skipBlanks_of_startsValue {first : Char} (more : List Char)
    (starts : startsValue first = true) : skipBlanks (first :: more) = first :: more := by
  rw [startsValue, Bool.and_eq_true, Bool.not_eq_true'] at starts
  rw [skipBlanks, List.dropWhile_cons, if_neg (by rw [starts.1]; decide)]

theorem ne_bracket_of_startsValue {first : Char} (starts : startsValue first = true) :
    first ≠ ']' := by
  rw [startsValue, Bool.and_eq_true, bne_iff_ne] at starts
  exact starts.2

theorem ofScalar_of_startsNumber {first : Char} (more : List Char)
    (starts : NumberLiteral.startsNumber first = true) :
    Node.ofScalar (first :: more)
      = .number (first :: more) (.ofCharacters (first :: more)) := by
  have number : first = '-' ∨ isDigit first = true := by
    simpa [NumberLiteral.startsNumber] using starts
  rw [Node.ofScalar, if_pos number]
  · exact ne_of_startsNumber starts rfl
  · exact ne_of_startsNumber starts rfl
  · exact ne_of_startsNumber starts rfl
  · exact ne_of_startsNumber starts rfl

theorem readNode_of_startsNumber (fuel : Nat) {first : Char} (more : List Char)
    (starts : NumberLiteral.startsNumber first = true) :
    readNode (fuel + 1) (first :: more)
      = .number (first :: more) (.ofCharacters (first :: more)) := by
  have notList : first ≠ '[' := ne_of_startsNumber starts rfl
  have notMap : first ≠ '\x7b' := ne_of_startsNumber starts rfl
  rw [readNode, skipBlanks_of_startsValue more (startsValue_of_startsNumber starts)]
  split
  · rename_i same
    exact absurd (List.cons.inj same).1 notList
  · rename_i same
    exact absurd (List.cons.inj same).1 notMap
  · exact ofScalar_of_startsNumber more starts

/-- The items of a list go on from the first one. -/
theorem readNode_list (fuel : Nat) {text rest more : List Char} {first : Char}
    (opens : skipBlanks text = '[' :: rest) (inside : skipBlanks rest = first :: more)
    (notClosed : first ≠ ']') :
    readNode (fuel + 1) text
      = .list ('[' :: rest) (readItems fuel (first :: more)).1
          (readItems fuel (first :: more)).2 := by
  rw [readNode, opens]
  simp only [inside]
  split
  · rename_i same
    cases same
  · rename_i same
    exact absurd (List.cons.inj same).1 notClosed
  · rfl

section

variable {fuel : Nat} {text after later rest more : List Char}

theorem readItems_last (ends : (readNode fuel text).after? = some after)
    (closes : skipBlanks after = ']' :: rest) :
    readItems (fuel + 1) text = ([readNode fuel text], .closed rest) := by
  rw [readItems, ends]
  simp only [closes]

theorem readItems_more {first : Char} (ends : (readNode fuel text).after? = some after)
    (comma : skipBlanks after = ',' :: later) (inside : skipBlanks later = first :: more)
    (notClosed : first ≠ ']') :
    readItems (fuel + 1) text
      = (readNode fuel text :: (readItems fuel (first :: more)).1,
          (readItems fuel (first :: more)).2) := by
  rw [readItems, ends]
  simp only [comma, inside]
  split
  · rename_i same
    cases same
  · rename_i same
    exact absurd (List.cons.inj same).1 notClosed
  · rfl

theorem readNode_map (fuel : Nat) (opens : skipBlanks text = '\x7b' :: rest)
    (inside : skipBlanks rest = '"' :: more) :
    readNode (fuel + 1) text
      = .map ('\x7b' :: rest) (readMembers fuel more).1 (readMembers fuel more).2 := by
  rw [readNode, opens]
  simp only [inside]

/-- A member of a map: its key, already opened, and its value. -/
theorem readMembers_last {afterKey value : List Char}
    (keyEnds : (TextLiteral.ofCharacters text).after? = some afterKey)
    (colon : skipBlanks afterKey = ':' :: value)
    (ends : (readNode fuel value).after? = some after)
    (closes : skipBlanks after = '\x7d' :: rest) :
    readMembers (fuel + 2) text
      = ([⟨.ofCharacters text, readNode fuel value⟩], .closed rest) := by
  have read : readMemberValue (fuel + 1) (':' :: value) = readNode fuel value := rfl
  rw [readMembers, keyEnds]
  simp only [colon, read, ends, closes]

theorem readMembers_more {afterKey value : List Char}
    (keyEnds : (TextLiteral.ofCharacters text).after? = some afterKey)
    (colon : skipBlanks afterKey = ':' :: value)
    (ends : (readNode fuel value).after? = some after)
    (comma : skipBlanks after = ',' :: later) (inside : skipBlanks later = '"' :: more) :
    readMembers (fuel + 2) text
      = (⟨.ofCharacters text, readNode fuel value⟩ :: (readMembers (fuel + 1) more).1,
          (readMembers (fuel + 1) more).2) := by
  have read : readMemberValue (fuel + 1) (':' :: value) = readNode fuel value := rfl
  rw [readMembers, keyEnds]
  simp only [colon, read, ends, comma, inside]

end

/-! ## The text of items and members -/

theorem renderItems_cons_cons (item next : Value) (others : List Value) :
    Value.renderItems (item :: next :: others)
      = item.render ++ ',' :: Value.renderItems (next :: others) :=
  rfl

theorem renderMembers_cons_cons (name : String) (value : Value) (next : String × Value)
    (others : List (String × Value)) :
    Value.renderMembers ((name, value) :: next :: others)
      = Value.renderText name ++ ':' :: value.render ++ ',' ::
          Value.renderMembers (next :: others) :=
  rfl

theorem renderItems_cons_append {item : Value} (exact : item.Exact) (items : List Value)
    (rest : List Char) :
    ∃ first more,
      Value.renderItems (item :: items) ++ rest = first :: more ∧
        startsValue first = true := by
  obtain ⟨first, more, written, starts⟩ := item.render_eq_cons exact
  cases items with
  | nil =>
      refine ⟨first, more ++ rest, ?_, starts⟩
      rw [Value.renderItems, written, List.cons_append]
  | cons next others =>
      refine ⟨first, more ++ ',' :: Value.renderItems (next :: others) ++ rest, ?_, starts⟩
      rw [renderItems_cons_cons, written, List.cons_append, List.cons_append]

theorem renderMembers_cons_append (member : String × Value)
    (members : List (String × Value)) (rest : List Char) :
    ∃ text, Value.renderMembers (member :: members) ++ rest = '"' :: text := by
  obtain ⟨name, value⟩ := member
  cases members with
  | nil => exact ⟨_, rfl⟩
  | cons next others => exact ⟨_, rfl⟩

theorem render_length_pos {value : Value} (exact : value.Exact) :
    0 < value.render.length := by
  obtain ⟨first, more, written, _⟩ := value.render_eq_cons exact
  rw [written, List.length_cons]
  exact Nat.succ_pos _

theorem renderText_length (text : String) : 2 ≤ (Value.renderText text).length := by
  rw [Value.renderText, List.length_append, List.length_cons, List.length_singleton]
  omega

/-! ## Reading what has been written -/

-- Each nested call has one step less, and its text has lost at least the character that
-- led to the call. Members lose two steps, one for the colon, but a key takes two quotes.
mutual

theorem shows_readNode_render : ∀ (value : Value) (fuel : Nat) (rest : Mark),
    value.Exact → endsNumber rest = true → value.render.length ≤ fuel →
      (readNode fuel (value.render ++ rest)).Shows value rest
  | value, 0, _, exact, _, enough => by
      have positive := render_length_pos exact
      omega
  | .null, _ + 1, _, _, _, _ => .null
  | .flag true, _ + 1, _, _, _, _ => .flag
  | .flag false, _ + 1, _, _, _, _ => .flag
  | .number (.integer number), fuel + 1, rest, exact, ends, _ => by
      obtain ⟨first, more, written, starts⟩ := NumberLiteral.renderNumber_eq_cons number
      obtain ⟨complete, stands⟩ := NumberLiteral.ofCharacters_renderNumber exact ends
      rw [written, List.cons_append] at complete stands
      rw [Value.render, written, List.cons_append, readNode_of_startsNumber fuel _ starts]
      exact .number complete stands
  | .text text, fuel + 1, rest, _, _, _ => by
      obtain ⟨more, written, closed, stands⟩ :=
        TextLiteral.ofCharacters_renderText text rest
      rw [Value.render, written]
      exact .text closed stands
  | .list [], _ + 1, _, _, _, _ => .list .nil
  | .list (item :: items), fuel + 1, rest, exact, _, enough => by
      rw [Value.render, List.length_append, List.length_cons, List.length_singleton]
        at enough
      obtain ⟨nodes, read, shown⟩ :=
        allShow_readItems_render (item :: items) fuel rest (List.cons_ne_nil _ _) exact
          (by omega)
      obtain ⟨first, more, written, starts⟩ :=
        renderItems_cons_append exact.1 items (']' :: rest)
      have text : (Value.list (item :: items)).render ++ rest = '[' :: first :: more := by
        rw [Value.render, List.cons_append, List.cons_append, List.append_assoc, ← written]
        rfl
      rw [written] at read
      rw [text, readNode_list fuel rfl (skipBlanks_of_startsValue more starts)
        (ne_bracket_of_startsValue starts), read]
      exact .list shown
  | .map [], _ + 1, _, _, _, _ => .map .nil
  | .map (member :: members), fuel + 1, rest, exact, _, enough => by
      rw [Value.render, List.length_append, List.length_cons, List.length_singleton]
        at enough
      obtain ⟨more, written⟩ := renderMembers_cons_append member members ('\x7d' :: rest)
      obtain ⟨nodes, read, shown⟩ :=
        allShow_readMembers_render (member :: members) fuel more rest (List.cons_ne_nil _ _)
          exact written (by omega)
      have text :
          (Value.map (member :: members)).render ++ rest = '\x7b' :: '"' :: more := by
        rw [Value.render, List.cons_append, List.cons_append, List.append_assoc, ← written]
        rfl
      rw [text, readNode_map fuel rfl rfl, read]
      exact .map shown

theorem allShow_readItems_render : ∀ (items : List Value) (fuel : Nat) (rest : Mark),
    items ≠ [] → Value.AllExact items → (Value.renderItems items).length < fuel →
      ∃ nodes,
        readItems fuel (Value.renderItems items ++ ']' :: rest) = (nodes, .closed rest) ∧
          Node.AllShow nodes items
  | [], _, _, nonempty, _, _ => absurd rfl nonempty
  | [item], fuel + 1, rest, _, exact, enough => by
      rw [Value.renderItems] at enough ⊢
      have shows :=
        shows_readNode_render item fuel (']' :: rest) exact.1 rfl (Nat.le_of_lt_succ enough)
      exact ⟨_, readItems_last shows.after? rfl, .cons shows .nil⟩
  | item :: next :: others, fuel + 1, rest, _, exact, enough => by
      rw [renderItems_cons_cons, List.length_append, List.length_cons] at enough
      have positive := render_length_pos exact.1
      obtain ⟨first, more, written, starts⟩ :=
        renderItems_cons_append exact.2.1 others (']' :: rest)
      have shows :=
        shows_readNode_render item fuel (',' :: first :: more) exact.1 rfl (by omega)
      obtain ⟨nodes, read, shown⟩ :=
        allShow_readItems_render (next :: others) fuel rest (List.cons_ne_nil _ _) exact.2
          (by omega)
      rw [written] at read
      rw [renderItems_cons_cons, List.append_assoc, List.cons_append, written,
        readItems_more shows.after? rfl (skipBlanks_of_startsValue more starts)
          (ne_bracket_of_startsValue starts), read]
      exact ⟨_, rfl, .cons shows shown⟩

theorem allShow_readMembers_render :
    ∀ (members : List (String × Value)) (fuel : Nat) (text : List Char) (rest : Mark),
      members ≠ [] → Value.MembersExact members →
        Value.renderMembers members ++ '\x7d' :: rest = '"' :: text →
        (Value.renderMembers members).length ≤ fuel →
        ∃ nodes,
          readMembers fuel text = (nodes, .closed rest) ∧ Member.AllShow nodes members
  | [], _, _, _, nonempty, _, _, _ => absurd rfl nonempty
  | [(name, value)], fuel, text, rest, _, exact, written, enough => by
      have keyLength := renderText_length name
      rw [Value.renderMembers, List.length_append, List.length_cons] at enough
      obtain ⟨fewer, rfl⟩ : ∃ fewer, fuel = fewer + 2 := ⟨fuel - 2, by omega⟩
      obtain ⟨more, opened, closed, stands⟩ :=
        TextLiteral.ofCharacters_renderText name (':' :: (value.render ++ '\x7d' :: rest))
      rw [Value.renderMembers, List.append_assoc, List.cons_append, opened] at written
      cases written
      have shows :=
        shows_readNode_render value fewer ('\x7d' :: rest) exact.1 rfl (by omega)
      have keyEnds := TextLiteral.after?_eq_some_iff.2 closed
      exact ⟨_, readMembers_last keyEnds rfl shows.after? rfl, .cons stands shows .nil⟩
  | (name, value) :: next :: others, fuel, text, rest, _, exact, written, enough => by
      have keyLength := renderText_length name
      rw [renderMembers_cons_cons, List.length_append, List.length_append, List.length_cons,
        List.length_cons] at enough
      obtain ⟨fewer, rfl⟩ : ∃ fewer, fuel = fewer + 2 := ⟨fuel - 2, by omega⟩
      obtain ⟨later, follows⟩ := renderMembers_cons_append next others ('\x7d' :: rest)
      obtain ⟨more, opened, closed, stands⟩ :=
        TextLiteral.ofCharacters_renderText name
          (':' :: (value.render ++ ',' :: '"' :: later))
      rw [renderMembers_cons_cons, List.append_assoc, List.append_assoc, List.cons_append,
        List.cons_append, follows, opened] at written
      cases written
      have shows :=
        shows_readNode_render value fewer (',' :: '"' :: later) exact.1 rfl (by omega)
      obtain ⟨nodes, read, shown⟩ :=
        allShow_readMembers_render (next :: others) (fewer + 1) later rest
          (List.cons_ne_nil _ _) exact.2 follows (by omega)
      have keyEnds := TextLiteral.after?_eq_some_iff.2 closed
      rw [readMembers_more keyEnds rfl shows.after? rfl rfl, read]
      exact ⟨_, rfl, .cons stands shows shown⟩

end

/-- The tree of the text of an exact value shows the value and ends with the text. -/
theorem Node.shows_ofCharacters_render {value : Value} (exact : value.Exact) :
    (Node.ofCharacters value.render).Shows value [] := by
  have shows := shows_readNode_render value (readingSteps value.render) [] exact rfl
    (by unfold readingSteps; omega)
  rw [List.append_nil] at shows
  exact shows

end Json
end SchemaBinding
