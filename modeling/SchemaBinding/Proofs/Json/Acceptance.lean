import SchemaBinding.Proofs.Json.ParseTree

/-!
Contract: reading a text that spells a value.

Owns:
- `Node.Presents`, by which a tree with places presents a value of the grammar; and
- `ParseTree.Spelled.presents`, by which a text that spells a value is read as a tree that
  presents it.

Does not own: texts that spell no value.

A text that spells a value is read whatever the value is: lists and maps may be nested to
any depth and numbers may be of any size.
-/

set_option autoImplicit false

namespace SchemaBinding
namespace Json

/-! ## Trees that present a value -/

mutual

/-- A tree presents a value of the grammar and ends before `rest`. -/
inductive Node.Presents : Node → ParseTree → Mark → Prop where
  | word {start rest : Mark} {value : Word} :
      Node.Presents (.word start value rest) (.word value) rest
  | number {start rest : Mark} {lexeme : NumberLexeme} (stops : rest.takeWhile isDigit = []) :
      Node.Presents (.number start (lexeme.literal rest)) (.number lexeme) rest
  | text {start rest : Mark} {lexeme : TextLexeme} :
      Node.Presents (.text start (lexeme.literal rest)) (.text lexeme) rest
  | list {start rest : Mark} {nodes : List Node} {items : List ParseTree}
      (presented : Node.AllPresent nodes items) :
      Node.Presents (.list start nodes (.closed rest)) (.list items) rest
  | map {start rest : Mark} {nodes : List Member} {members : List (TextLexeme × ParseTree)}
      (presented : Member.AllPresent nodes members) :
      Node.Presents (.map start nodes (.closed rest)) (.map members) rest

inductive Node.AllPresent : List Node → List ParseTree → Prop where
  | nil : Node.AllPresent [] []
  | cons {node : Node} {nodes : List Node} {item : ParseTree} {items : List ParseTree}
      {rest : Mark} (first : Node.Presents node item rest)
      (others : Node.AllPresent nodes items) : Node.AllPresent (node :: nodes) (item :: items)

inductive Member.AllPresent : List Member → List (TextLexeme × ParseTree) → Prop where
  | nil : Member.AllPresent [] []
  | cons {key : TextLexeme} {node : Node} {nodes : List Member} {value : ParseTree}
      {members : List (TextLexeme × ParseTree)} {afterKey rest : Mark}
      (first : Node.Presents node value rest) (others : Member.AllPresent nodes members) :
      Member.AllPresent (⟨key.literal afterKey, node⟩ :: nodes) ((key, value) :: members)

end

theorem Node.Presents.after? {node : Node} {tree : ParseTree} {rest : Mark}
    (presents : node.Presents tree rest) : node.after? = some rest := by
  cases presents with
  | word => rfl
  | number _ => rfl
  | text => exact TextLexeme.after?_literal _ rest
  | list _ => rfl
  | map _ => rfl

/-! ## The head of spaced tokens -/

section

variable {first : Char} {more : List Char} {tokens : List (List Char)} {text : List Char}

/-- Tokens need no blanks before them. -/
theorem Spaced.cons_unblanked (token : List Char) (later : Spaced tokens text) :
    Spaced (token :: tokens) (token ++ text) :=
  .cons (List.forall_mem_nil _) later

/-- Behind the blanks stands the first token, and then the others. -/
theorem Spaced.skipBlanks_append (spaced : Spaced ((first :: more) :: tokens) text)
    (notBlank : isBlank first = false) :
    ∃ later, Spaced tokens later ∧
      (∀ rest, skipBlanks (text ++ rest) = first :: (more ++ later ++ rest)) ∧
      more.length + later.length < text.length := by
  obtain ⟨blanks, later, blank, others, rfl⟩ := spaced_cons_iff.1 spaced
  refine ⟨later, others, fun rest => ?_, ?_⟩
  · rw [List.append_assoc, Json.skipBlanks_append blank, List.cons_append, List.cons_append,
      skipBlanks_of_not_blank notBlank]
  · rw [List.length_append, List.length_append, List.length_cons]
    omega

/-- The same tokens without the blanks before them. -/
theorem Spaced.exists_unblanked (spaced : Spaced ((first :: more) :: tokens) text)
    (notBlank : isBlank first = false) :
    ∃ trimmed, Spaced ((first :: more) :: tokens) (first :: trimmed) ∧
      (∀ rest, skipBlanks (text ++ rest) = first :: (trimmed ++ rest)) ∧
      trimmed.length < text.length := by
  obtain ⟨later, others, starting, shorter⟩ := spaced.skipBlanks_append notBlank
  refine ⟨more ++ later, .cons_unblanked _ others, starting, ?_⟩
  rw [List.length_append]
  exact shorter

/-- A text that starts with its first token goes on with the others. -/
theorem Spaced.of_cons (spaced : Spaced ((first :: more) :: tokens) (first :: text))
    (notBlank : isBlank first = false) : ∃ later, Spaced tokens later ∧ text = more ++ later := by
  obtain ⟨later, others, starting, _⟩ := spaced.skipBlanks_append notBlank
  have whole := starting []
  rw [List.append_nil, List.append_nil, skipBlanks_of_not_blank notBlank] at whole
  exact ⟨later, others, (List.cons.inj whole).2⟩

/-! ## Numbers before other tokens -/

theorem endsNumber_of_isBlank {character : Char} (blank : isBlank character = true) :
    endsNumber (character :: text) = true := by
  simp only [isBlank, Bool.or_eq_true, beq_iff_eq] at blank
  rcases blank with ((rfl | rfl) | rfl) | rfl
  · rfl
  · rfl
  · rfl
  · rfl

theorem endsNumber_blanks {blanks : List Char} (blank : Blank blanks) :
    endsNumber blanks = true := by
  cases blanks with
  | nil => rfl
  | cons character _ => exact endsNumber_of_isBlank (blank character List.mem_cons_self)

/-- A number does not go on in the token after it. -/
theorem Spaced.endsNumber (spaced : Spaced ((first :: more) :: tokens) text)
    (ends : endsNumber [first] = true) (rest : List Char) :
    Json.endsNumber (text ++ rest) = true := by
  obtain ⟨blanks, later, blank, _, rfl⟩ := spaced_cons_iff.1 spaced
  cases blanks with
  | nil => exact ends
  | cons character _ => exact endsNumber_of_isBlank (blank character List.mem_cons_self)

end

/-! ## Reading what is spelled -/

theorem readNode_append_of_blank {blanks : List Char} (blank : Blank blanks) (fuel : Nat)
    (text : List Char) : readNode (fuel + 1) (blanks ++ text) = readNode (fuel + 1) text := by
  rw [readNode, readNode, skipBlanks_append blank]

theorem itemTokens_cons_cons (item next : ParseTree) (others : List ParseTree) :
    ParseTree.itemTokens (item :: next :: others)
      = item.tokens ++ [','] :: ParseTree.itemTokens (next :: others) :=
  rfl

theorem memberTokens_cons_cons (key : TextLexeme) (value : ParseTree)
    (next : TextLexeme × ParseTree) (others : List (TextLexeme × ParseTree)) :
    ParseTree.memberTokens ((key, value) :: next :: others)
      = key.characters :: [':'] :: value.tokens
          ++ [','] :: ParseTree.memberTokens (next :: others) :=
  rfl

theorem itemTokens_cons_eq_cons (item : ParseTree) (items : List ParseTree) :
    ∃ first more tokens, ParseTree.itemTokens (item :: items) = (first :: more) :: tokens ∧
      startsValue first = true := by
  obtain ⟨first, more, tokens, written, starts⟩ := item.tokens_eq_cons
  cases items with
  | nil => exact ⟨first, more, tokens, written, starts⟩
  | cons next others =>
      exact ⟨first, more, _, by rw [itemTokens_cons_cons, written, List.cons_append], starts⟩

theorem memberTokens_cons_eq_cons (key : TextLexeme) (value : ParseTree)
    (members : List (TextLexeme × ParseTree)) :
    ∃ tokens, ParseTree.memberTokens ((key, value) :: members) = key.characters :: tokens := by
  cases members with
  | nil => exact ⟨_, rfl⟩
  | cons next others => exact ⟨_, rfl⟩

theorem isBlank_of_startsValue {first : Char} (starts : startsValue first = true) :
    isBlank first = false := by
  rw [startsValue, Bool.and_eq_true, Bool.not_eq_true'] at starts
  exact starts.1

/-- A text whose quote has been opened is read as the literal of its lexeme. -/
theorem TextLexeme.ofCharacters_append (lexeme : TextLexeme) (later rest : List Char) :
    TextLiteral.ofCharacters (lexeme.written ++ ['"'] ++ later ++ rest)
      = lexeme.literal (later ++ rest) := by
  rw [literal, List.append_assoc, List.append_assoc]
  rfl

/-- A single token has nothing before it but blanks. -/
theorem Spaced.exists_blank {token text : List Char} (spaced : Spaced [token] text) :
    ∃ blanks, Blank blanks ∧ text = blanks ++ token := by
  obtain ⟨blanks, later, blank, nothing, rfl⟩ := spaced_cons_iff.1 spaced
  cases nothing
  exact ⟨blanks, blank, by rw [List.append_nil]⟩

section

variable {text : List Char}

theorem presents_word {value : Word} (fuel : Nat) (rest : List Char)
    (spaced : Spaced (ParseTree.word value).tokens text) :
    (readNode (fuel + 1) (text ++ rest)).Presents (.word value) rest := by
  rw [ParseTree.tokens] at spaced
  obtain ⟨blanks, blank, rfl⟩ := spaced.exists_blank
  rw [List.append_assoc, readNode_append_of_blank blank]
  cases value with
  | null => exact .word
  | flag value =>
      cases value with
      | true => exact .word
      | false => exact .word

theorem presents_number {lexeme : NumberLexeme} (fuel : Nat) {rest : List Char}
    (spaced : Spaced (ParseTree.number lexeme).tokens text) (ends : endsNumber rest = true) :
    (readNode (fuel + 1) (text ++ rest)).Presents (.number lexeme) rest := by
  rw [ParseTree.tokens] at spaced
  obtain ⟨blanks, blank, rfl⟩ := spaced.exists_blank
  obtain ⟨first, more, written, starts⟩ := lexeme.characters_eq_cons
  have literal := lexeme.ofCharacters_append ends
  rw [written, List.cons_append] at literal
  rw [List.append_assoc, readNode_append_of_blank blank, written, List.cons_append,
    readNode_of_startsNumber fuel _ starts, literal]
  exact .number (stops_of_endsNumber ends)

theorem presents_text {lexeme : TextLexeme} (fuel : Nat) (rest : List Char)
    (spaced : Spaced (ParseTree.text lexeme).tokens text) :
    (readNode (fuel + 1) (text ++ rest)).Presents (.text lexeme) rest := by
  rw [ParseTree.tokens] at spaced
  obtain ⟨blanks, blank, rfl⟩ := spaced.exists_blank
  have literal := lexeme.ofCharacters_append [] rest
  rw [List.append_nil, List.nil_append] at literal
  have read : readNode (fuel + 1) (lexeme.characters ++ rest)
      = .text (lexeme.characters ++ rest) (lexeme.literal rest) := by
    rw [← literal]
    rfl
  rw [List.append_assoc, readNode_append_of_blank blank, read]
  exact .text

theorem presents_emptyList (fuel : Nat) (rest : List Char)
    (spaced : Spaced (ParseTree.list []).tokens text) :
    (readNode (fuel + 1) (text ++ rest)).Presents (.list []) rest := by
  rw [ParseTree.tokens] at spaced
  obtain ⟨inside, bracket, opens, _⟩ := spaced.skipBlanks_append rfl
  obtain ⟨later, nothing, closes, _⟩ := bracket.skipBlanks_append rfl
  cases nothing
  have read : readNode (fuel + 1) (text ++ rest)
      = .list ('[' :: (inside ++ rest)) [] (.closed rest) := by
    rw [readNode, opens]
    simp only [List.nil_append, closes]
  rw [read]
  exact .list .nil

theorem presents_emptyMap (fuel : Nat) (rest : List Char)
    (spaced : Spaced (ParseTree.map []).tokens text) :
    (readNode (fuel + 1) (text ++ rest)).Presents (.map []) rest := by
  rw [ParseTree.tokens] at spaced
  obtain ⟨inside, brace, opens, _⟩ := spaced.skipBlanks_append rfl
  obtain ⟨later, nothing, closes, _⟩ := brace.skipBlanks_append rfl
  cases nothing
  have read : readNode (fuel + 1) (text ++ rest)
      = .map ('\x7b' :: (inside ++ rest)) [] (.closed rest) := by
    rw [readNode, opens]
    simp only [List.nil_append, closes]
  rw [read]
  exact .map .nil

end

/-- A member whose opening quote has been read: the rest of its key, a colon and its value,
with `others` behind them. -/
theorem Spaced.exists_member {key : TextLexeme} {value others : List (List Char)}
    {text : List Char}
    (spaced : Spaced ((key.characters :: [':'] :: value) ++ others) ('"' :: text)) :
    ∃ afterKey front back, Spaced value front ∧ Spaced others back ∧
      (∀ rest, TextLiteral.ofCharacters (text ++ rest) = key.literal (afterKey ++ rest)) ∧
      (∀ rest, skipBlanks (afterKey ++ rest) = ':' :: (front ++ (back ++ rest))) ∧
      front.length + back.length + 2 ≤ text.length := by
  rw [List.cons_append, List.cons_append, TextLexeme.characters_eq] at spaced
  obtain ⟨afterKey, colonSpaced, rfl⟩ := spaced.of_cons rfl
  obtain ⟨afterColon, behindColon, colon, shorter⟩ := colonSpaced.skipBlanks_append rfl
  obtain ⟨front, back, valueSpaced, othersSpaced, rfl⟩ := spaced_append_iff.1 behindColon
  refine ⟨afterKey, front, back, valueSpaced, othersSpaced, key.ofCharacters_append afterKey,
    fun rest => ?_, ?_⟩
  · rw [colon rest, List.nil_append, List.append_assoc]
  · simp only [List.length_append, List.length_cons, List.length_nil] at shorter ⊢
    omega

-- The induction is on the value. There are enough steps for it, since each step has at least
-- one character of the text to itself.
mutual

theorem presents_readNode : ∀ (tree : ParseTree) (fuel : Nat) (text rest : List Char),
    Spaced tree.tokens text → endsNumber rest = true → text.length ≤ fuel →
      (readNode fuel (text ++ rest)).Presents tree rest
  | tree, 0, text, rest, spaced, _, enough => by
      obtain ⟨first, more, tokens, written, starts⟩ := tree.tokens_eq_cons
      rw [written] at spaced
      obtain ⟨later, _, _, shorter⟩ :=
        spaced.skipBlanks_append (isBlank_of_startsValue starts)
      omega
  | .word _, fuel + 1, _, rest, spaced, _, _ => presents_word fuel rest spaced
  | .number _, fuel + 1, _, _, spaced, ends, _ => presents_number fuel spaced ends
  | .text _, fuel + 1, _, rest, spaced, _, _ => presents_text fuel rest spaced
  | .list [], fuel + 1, _, rest, spaced, _, _ => presents_emptyList fuel rest spaced
  | .list (item :: items), fuel + 1, text, rest, spaced, _, enough => by
      rw [ParseTree.tokens] at spaced
      obtain ⟨inside, itemsSpaced, opens, shorter⟩ := spaced.skipBlanks_append rfl
      obtain ⟨first, more, tokens, written, starts⟩ := itemTokens_cons_eq_cons item items
      rw [written, List.cons_append] at itemsSpaced
      obtain ⟨trimmed, unblanked, starting, fewer⟩ :=
        itemsSpaced.exists_unblanked (isBlank_of_startsValue starts)
      rw [← List.cons_append, ← written] at unblanked
      obtain ⟨nodes, read, presented⟩ := allPresent_readItems (item :: items) fuel
        (first :: trimmed) rest (List.cons_ne_nil _ _) unblanked
        (by rw [List.length_cons]; omega)
      rw [List.cons_append] at read
      rw [readNode_list fuel (opens rest) (starting rest) (ne_bracket_of_startsValue starts),
        read]
      exact .list presented
  | .map [], fuel + 1, _, rest, spaced, _, _ => presents_emptyMap fuel rest spaced
  | .map ((key, value) :: members), fuel + 1, text, rest, spaced, _, enough => by
      rw [ParseTree.tokens] at spaced
      obtain ⟨inside, membersSpaced, opens, shorter⟩ := spaced.skipBlanks_append rfl
      obtain ⟨tokens, written⟩ := memberTokens_cons_eq_cons key value members
      rw [written, List.cons_append, TextLexeme.characters_eq] at membersSpaced
      obtain ⟨trimmed, unblanked, starting, fewer⟩ := membersSpaced.exists_unblanked rfl
      rw [← TextLexeme.characters_eq, ← List.cons_append, ← written] at unblanked
      obtain ⟨nodes, read, presented⟩ := allPresent_readMembers ((key, value) :: members) fuel
        trimmed rest (List.cons_ne_nil _ _) unblanked (by omega)
      rw [readNode_map fuel (opens rest) (starting rest), read]
      exact .map presented

theorem allPresent_readItems :
    ∀ (items : List ParseTree) (fuel : Nat) (text rest : List Char),
      items ≠ [] → Spaced (ParseTree.itemTokens items ++ [[']']]) text → text.length ≤ fuel →
        ∃ nodes, readItems fuel (text ++ rest) = (nodes, .closed rest) ∧
          Node.AllPresent nodes items
  | [], _, _, _, nonempty, _, _ => absurd rfl nonempty
  | [item], fuel, text, rest, _, spaced, enough => by
      rw [ParseTree.itemTokens] at spaced
      obtain ⟨front, back, itemSpaced, bracket, rfl⟩ := spaced_append_iff.1 spaced
      obtain ⟨later, nothing, closes, shorter⟩ := bracket.skipBlanks_append rfl
      cases nothing
      rw [List.length_append] at enough
      obtain ⟨fewer, rfl⟩ : ∃ fewer, fuel = fewer + 1 := ⟨fuel - 1, by omega⟩
      have presents := presents_readNode item fewer front (back ++ rest) itemSpaced
        (bracket.endsNumber rfl rest) (by omega)
      rw [List.append_assoc, readItems_last presents.after? (closes rest)]
      exact ⟨_, rfl, .cons presents .nil⟩
  | item :: next :: others, fuel, text, rest, _, spaced, enough => by
      rw [itemTokens_cons_cons, List.append_assoc, List.cons_append] at spaced
      obtain ⟨front, back, itemSpaced, behind, rfl⟩ := spaced_append_iff.1 spaced
      obtain ⟨later, othersSpaced, comma, shorter⟩ := behind.skipBlanks_append rfl
      obtain ⟨first, more, tokens, written, starts⟩ := itemTokens_cons_eq_cons next others
      rw [written, List.cons_append] at othersSpaced
      obtain ⟨trimmed, unblanked, starting, fewerLeft⟩ :=
        othersSpaced.exists_unblanked (isBlank_of_startsValue starts)
      rw [← List.cons_append, ← written] at unblanked
      rw [List.length_append] at enough
      obtain ⟨fewer, rfl⟩ : ∃ fewer, fuel = fewer + 1 := ⟨fuel - 1, by omega⟩
      have presents := presents_readNode item fewer front (back ++ rest) itemSpaced
        (behind.endsNumber rfl rest) (by omega)
      obtain ⟨nodes, read, presented⟩ := allPresent_readItems (next :: others) fewer
        (first :: trimmed) rest (List.cons_ne_nil _ _) unblanked
        (by rw [List.length_cons]; omega)
      rw [List.cons_append] at read
      rw [List.append_assoc, readItems_more presents.after? (comma rest) (starting rest)
        (ne_bracket_of_startsValue starts), read]
      exact ⟨_, rfl, .cons presents presented⟩

theorem allPresent_readMembers :
    ∀ (members : List (TextLexeme × ParseTree)) (fuel : Nat) (text rest : List Char),
      members ≠ [] → Spaced (ParseTree.memberTokens members ++ [['\x7d']]) ('"' :: text) →
        text.length ≤ fuel →
        ∃ nodes, readMembers fuel (text ++ rest) = (nodes, .closed rest) ∧
          Member.AllPresent nodes members
  | [], _, _, _, nonempty, _, _ => absurd rfl nonempty
  | [(key, value)], fuel, text, rest, _, spaced, enough => by
      obtain ⟨afterKey, front, back, valueSpaced, brace, keyRead, colon, shorter⟩ :=
        spaced.exists_member
      obtain ⟨later, nothing, closes, _⟩ := brace.skipBlanks_append rfl
      cases nothing
      obtain ⟨fewer, rfl⟩ : ∃ fewer, fuel = fewer + 2 := ⟨fuel - 2, by omega⟩
      have presents := presents_readNode value fewer front (back ++ rest) valueSpaced
        (brace.endsNumber rfl rest) (by omega)
      have keyEnds := key.after?_literal (afterKey ++ rest)
      rw [← keyRead] at keyEnds
      rw [readMembers_last keyEnds (colon rest) presents.after? (closes rest), keyRead]
      exact ⟨_, rfl, .cons presents .nil⟩
  | (key, value) :: (nextKey, next) :: others, fuel, text, rest, _, spaced, enough => by
      rw [memberTokens_cons_cons, List.append_assoc] at spaced
      obtain ⟨afterKey, front, back, valueSpaced, behind, keyRead, colon, shorter⟩ :=
        spaced.exists_member
      rw [List.cons_append] at behind
      obtain ⟨later, othersSpaced, comma, fewerLeft⟩ := behind.skipBlanks_append rfl
      obtain ⟨tokens, written⟩ := memberTokens_cons_eq_cons nextKey next others
      rw [written, List.cons_append, TextLexeme.characters_eq] at othersSpaced
      obtain ⟨trimmed, unblanked, starting, fewest⟩ := othersSpaced.exists_unblanked rfl
      rw [← TextLexeme.characters_eq, ← List.cons_append, ← written] at unblanked
      rw [List.length_nil, Nat.zero_add] at fewerLeft
      obtain ⟨fewer, rfl⟩ : ∃ fewer, fuel = fewer + 2 := ⟨fuel - 2, by omega⟩
      have presents := presents_readNode value fewer front (back ++ rest) valueSpaced
        (behind.endsNumber rfl rest) (by omega)
      obtain ⟨nodes, read, presented⟩ := allPresent_readMembers ((nextKey, next) :: others)
        (fewer + 1) trimmed rest (List.cons_ne_nil _ _) unblanked (by omega)
      have keyEnds := key.after?_literal (afterKey ++ rest)
      rw [← keyRead] at keyEnds
      rw [readMembers_more keyEnds (colon rest) presents.after? (comma rest) (starting rest),
        keyRead, read]
      exact ⟨_, rfl, .cons presents presented⟩

end

/-- A text that spells a value is read as a tree that presents it. -/
theorem ParseTree.Spelled.presents {tree : ParseTree} {text : List Char}
    (spelled : tree.Spelled text) :
    ∃ blanks, Blank blanks ∧ (Node.ofCharacters text).Presents tree blanks := by
  obtain ⟨written, blanks, spaced, blank, rfl⟩ := spelled
  refine ⟨blanks, blank, presents_readNode tree _ written blanks spaced
    (endsNumber_blanks blank) ?_⟩
  rw [readingSteps, List.length_append]
  omega

end Json
end SchemaBinding
