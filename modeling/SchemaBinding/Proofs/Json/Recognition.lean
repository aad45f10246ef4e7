import SchemaBinding.Proofs.Json.Acceptance

/-!
Contract: reading any text against the grammar.

Owns:
- `Node.Unfinished`, the trees that break off somewhere;
- `Node.Recognised`, what may be found at the head of a text; and
- `Node.recognised_ofCharacters`, by which the tree of a text presents a value that the text
  starts with, or breaks off.

Does not own: what readers make of a tree.
-/

set_option autoImplicit false

namespace SchemaBinding
namespace Json

/-! ## Trees that break off -/

/-- Trees that break off. What stands where they do so is rejected by every reader. -/
inductive Node.Unfinished : Node → Prop where
  | broken {start : Mark} {fault : Fault} : Node.Unfinished (.broken start fault)
  | number {start : Mark} {literal : NumberLiteral} (cut : literal.after? = none) :
      Node.Unfinished (.number start literal)
  | text {start : Mark} {literal : TextLiteral} (cut : literal.after? = none) :
      Node.Unfinished (.text start literal)
  | list {start : Mark} {nodes : List Node} {ending : ListEnding}
      (cut : ending.after? = none) (notInside : ending ≠ .broken) :
      Node.Unfinished (.list start nodes ending)
  | item {start : Mark} {before : List Node} {last : Node} (inside : Node.Unfinished last) :
      Node.Unfinished (.list start (before ++ [last]) .broken)
  | map {start : Mark} {nodes : List Member} {ending : MapEnding}
      (cut : ending.after? = none) (notInside : ending ≠ .broken)
      (keyCut : ∀ key, ending = .brokenKey key → key.after? = none) :
      Node.Unfinished (.map start nodes ending)
  | member {start : Mark} {before : List Member} {key : TextLiteral} {last : Node}
      (inside : Node.Unfinished last) :
      Node.Unfinished (.map start (before ++ [⟨key, last⟩]) .broken)

namespace Node.Unfinished

theorem after? {node : Node} (unfinished : node.Unfinished) : node.after? = none := by
  cases unfinished with
  | broken => rfl
  | number cut => exact cut
  | text cut => exact cut
  | list cut _ => exact cut
  | item _ => rfl
  | map cut _ _ => exact cut
  | member _ => rfl

theorem singleItem {start : Mark} {last : Node} (inside : last.Unfinished) :
    Unfinished (.list start [last] .broken) := by
  rw [← List.nil_append [last]]
  exact .item inside

theorem singleMember {start : Mark} {key : TextLiteral} {last : Node}
    (inside : last.Unfinished) : Unfinished (.map start [⟨key, last⟩] .broken) := by
  rw [← List.nil_append [_]]
  exact .member inside

/-- What precedes the break does not matter. -/
theorem list_cons {start : Mark} {nodes : List Node} {ending : ListEnding}
    (unfinished : Unfinished (.list start nodes ending)) (node : Node) :
    Unfinished (.list start (node :: nodes) ending) := by
  cases unfinished with
  | list cut notInside => exact .list cut notInside
  | item inside =>
      rw [← List.cons_append]
      exact .item inside

theorem map_cons {start : Mark} {nodes : List Member} {ending : MapEnding}
    (unfinished : Unfinished (.map start nodes ending)) (member : Member) :
    Unfinished (.map start (member :: nodes) ending) := by
  cases unfinished with
  | map cut notInside keyCut => exact .map cut notInside keyCut
  | member inside =>
      rw [← List.cons_append]
      exact .member inside

end Node.Unfinished

/-- What reading finds at the head of a text: a value whole, or a tree that breaks off. -/
inductive Node.Recognised (text : List Char) (node : Node) : Prop where
  | whole {tree : ParseTree} {written rest : List Char} (spaced : Spaced tree.tokens written)
      (split : text = written ++ rest) (presents : node.Presents tree rest)
  | unfinished (cut : node.Unfinished)

/-- The same for the value of a member, which starts with its colon. -/
inductive Node.ValueRecognised (text : List Char) (node : Node) : Prop where
  | whole {tree : ParseTree} {written rest : List Char} (spaced : Spaced tree.tokens written)
      (split : text = ':' :: (written ++ rest)) (presents : node.Presents tree rest)
  | unfinished (cut : node.Unfinished)

/-- The same for the items of a list, up to the end of the list. -/
inductive Node.ItemsRecognised (text : List Char) : List Node × ListEnding → Prop where
  | whole {nodes : List Node} {item : ParseTree} {items : List ParseTree}
      {written rest : List Char}
      (spaced : Spaced (ParseTree.itemTokens (item :: items) ++ [[']']]) written)
      (split : text = written ++ rest) (presented : Node.AllPresent nodes (item :: items)) :
      Node.ItemsRecognised text (nodes, .closed rest)
  | unfinished {nodes : List Node} {ending : ListEnding}
      (cut : ∀ start, Node.Unfinished (.list start nodes ending)) :
      Node.ItemsRecognised text (nodes, ending)

/-- The same for the members of a map, from the first key up to the end of the map. -/
inductive Member.AllRecognised (text : List Char) : List Member × MapEnding → Prop where
  | whole {nodes : List Member} {member : TextLexeme × ParseTree}
      {members : List (TextLexeme × ParseTree)} {written rest : List Char}
      (spaced : Spaced (ParseTree.memberTokens (member :: members) ++ [['\x7d']]) written)
      (split : text = written ++ rest) (presented : Member.AllPresent nodes (member :: members)) :
      Member.AllRecognised text (nodes, .closed rest)
  | unfinished {nodes : List Member} {ending : MapEnding}
      (cut : ∀ start, Node.Unfinished (.map start nodes ending)) :
      Member.AllRecognised text (nodes, ending)

/-! ## Putting tokens together -/

/-- Blanks before the first token do not matter. -/
theorem Spaced.of_skipBlanks {token text written rest : List Char} {tokens : List (List Char)}
    (spaced : Spaced (token :: tokens) written) (split : skipBlanks text = written ++ rest) :
    ∃ whole, Spaced (token :: tokens) whole ∧ text = whole ++ rest := by
  obtain ⟨blanks, later, blank, laterSpaced, rfl⟩ := spaced_cons_iff.1 spaced
  obtain ⟨others, otherBlank, before⟩ := exists_blank_of_skipBlanks text
  refine ⟨others ++ blanks ++ (token ++ later),
    .cons (List.forall_mem_append.2 ⟨otherBlank, blank⟩) laterSpaced, ?_⟩
  rw [before, split]
  simp only [List.append_assoc]

/-- A token of one character joins the tokens before it with those after it. -/
theorem Spaced.join {written after later rest : List Char} {tokens others : List (List Char)}
    {character : Char} (spaced : Spaced tokens written) (othersSpaced : Spaced others later)
    (joined : skipBlanks after = character :: (later ++ rest)) :
    ∃ whole, Spaced (tokens ++ [character] :: others) whole ∧ written ++ after = whole ++ rest := by
  obtain ⟨back, backSpaced, rfl⟩ :=
    (othersSpaced.cons_unblanked [character]).of_skipBlanks joined
  exact ⟨_, spaced_append_iff.2 ⟨written, back, spaced, backSpaced, rfl⟩,
    (List.append_assoc _ _ _).symm⟩

/-- A value of a single token is spelled by the token. -/
theorem ParseTree.spaced_of_tokens {tree : ParseTree} {token : List Char}
    (single : tree.tokens = [token]) : Spaced tree.tokens token := by
  have spaced := Spaced.cons_unblanked token .nil
  rw [List.append_nil] at spaced
  rw [single]
  exact spaced

namespace Node.Recognised

/-- Blanks in front do not matter. -/
theorem of_skipBlanks {text : List Char} {node : Node}
    (recognised : Recognised (skipBlanks text) node) : Recognised text node := by
  cases recognised with
  | whole spaced split presents =>
      rename_i tree written rest
      obtain ⟨first, more, tokens, starting, _⟩ := tree.tokens_eq_cons
      rw [starting] at spaced
      obtain ⟨whole, wholeSpaced, split⟩ := spaced.of_skipBlanks split
      rw [← starting] at wholeSpaced
      exact .whole wholeSpaced split presents
  | unfinished cut => exact .unfinished cut

end Node.Recognised

/-! ## Values without others inside -/

theorem eq_append_of_takeLetters {letters text : List Char} {after : Mark}
    (taken : takeLetters letters text = .ok after) : text = letters ++ after := by
  fun_induction takeLetters letters text with
  | case1 text =>
      cases taken
      rfl
  | case2 => cases taken
  | case3 letter letters rest inductionHypothesis =>
      rw [List.cons_append, ← inductionHypothesis taken]
  | case4 => cases taken

section

open ParseTree (spaced_of_tokens)

theorem recognised_ofWord {value : Word} {first : Char} {letters : List Char}
    (written : value.characters = first :: letters) (rest : List Char) :
    Node.Recognised (first :: rest) (.ofWord (first :: rest) letters value) := by
  have spaced := spaced_of_tokens (ParseTree.tokens.eq_1 value)
  unfold Node.ofWord
  cases taken : takeLetters letters ((first :: rest).drop 1) with
  | error _ => exact .unfinished .broken
  | ok after =>
      have split := eq_append_of_takeLetters taken
      rw [List.drop_one, List.tail_cons] at split
      refine .whole spaced ?_ .word
      rw [written, split, List.cons_append]

theorem recognised_text (start rest : List Char) :
    Node.Recognised ('"' :: rest) (.text start (.ofCharacters rest)) := by
  cases ends : (TextLiteral.ofCharacters rest).after? with
  | none => exact .unfinished (.text ends)
  | some after =>
      obtain ⟨lexeme, split, literal⟩ := TextLexeme.exists_literal_of_after? ends
      have spaced := spaced_of_tokens (ParseTree.tokens.eq_3 lexeme)
      rw [literal]
      refine .whole spaced ?_ .text
      rw [split, TextLexeme.characters_eq, List.cons_append, List.append_assoc]
      rfl

theorem recognised_number (start text : List Char) :
    Node.Recognised text (.number start (.ofCharacters text)) := by
  cases ends : (NumberLiteral.ofCharacters text).after? with
  | none => exact .unfinished (.number ends)
  | some after =>
      obtain ⟨lexeme, split, stops, literal⟩ :=
        NumberLexeme.exists_literal_of_complete (NumberLiteral.after?_eq_some_iff.1 ends)
      have spaced := spaced_of_tokens (ParseTree.tokens.eq_2 lexeme)
      rw [literal]
      exact .whole spaced split (.number stops)

end

theorem recognised_ofScalar (text : List Char) : Node.Recognised text (.ofScalar text) := by
  unfold Node.ofScalar
  split
  · exact .unfinished .broken
  · exact recognised_ofWord rfl _
  · exact recognised_ofWord rfl _
  · exact recognised_ofWord rfl _
  · exact recognised_text _ _
  · split
    · exact recognised_number _ _
    · exact .unfinished .broken

/-! ## Items and members -/

section

variable {node : Node} {tree : ParseTree} {text written after later : List Char}

theorem Node.ItemsRecognised.last (spaced : Spaced tree.tokens written)
    (split : text = written ++ after) (presents : node.Presents tree after)
    (closes : skipBlanks after = ']' :: later) :
    Node.ItemsRecognised text ([node], .closed later) := by
  obtain ⟨whole, wholeSpaced, joined⟩ := spaced.join .nil closes
  rw [← ParseTree.itemTokens.eq_2] at wholeSpaced
  exact .whole wholeSpaced (split.trans joined) (.cons presents .nil)

theorem Node.ItemsRecognised.more {found : List Node × ListEnding}
    (spaced : Spaced tree.tokens written) (split : text = written ++ after)
    (presents : node.Presents tree after) (comma : skipBlanks after = ',' :: later)
    (others : Node.ItemsRecognised (skipBlanks later) found) :
    Node.ItemsRecognised text (node :: found.1, found.2) := by
  cases others with
  | unfinished cut => exact .unfinished fun start => (cut start).list_cons node
  | whole othersSpaced othersSplit presented =>
      rename_i item items _ _
      obtain ⟨first, more, tokens, starting, _⟩ := itemTokens_cons_eq_cons item items
      rw [starting, List.cons_append] at othersSpaced
      obtain ⟨back, backSpaced, rfl⟩ := othersSpaced.of_skipBlanks othersSplit
      rw [← List.cons_append, ← starting] at backSpaced
      obtain ⟨whole, wholeSpaced, joined⟩ := spaced.join backSpaced comma
      rw [← List.cons_append, ← List.append_assoc, ← itemTokens_cons_cons] at wholeSpaced
      exact .whole wholeSpaced (split.trans joined) (.cons presents presented)

/-- The head of a member: its key, a colon and its value. -/
theorem exists_spaced_member {afterKey rest : List Char} (key : TextLexeme)
    (spaced : Spaced tree.tokens written)
    (colon : skipBlanks afterKey = ':' :: (written ++ rest)) :
    ∃ whole, Spaced (key.characters :: [':'] :: tree.tokens) whole ∧
      key.characters ++ afterKey = whole ++ rest := by
  obtain ⟨back, backSpaced, rfl⟩ := (spaced.cons_unblanked [':']).of_skipBlanks colon
  exact ⟨_, backSpaced.cons_unblanked key.characters, (List.append_assoc _ _ _).symm⟩

section

variable {key : TextLexeme} {afterKey : Mark}

theorem Member.AllRecognised.last
    (spaced : Spaced (key.characters :: [':'] :: tree.tokens) written)
    (split : text = written ++ after) (presents : node.Presents tree after)
    (closes : skipBlanks after = '\x7d' :: later) :
    Member.AllRecognised text ([⟨key.literal afterKey, node⟩], .closed later) := by
  obtain ⟨whole, wholeSpaced, joined⟩ := spaced.join .nil closes
  rw [← ParseTree.memberTokens.eq_2] at wholeSpaced
  exact .whole wholeSpaced (split.trans joined) (.cons presents .nil)

theorem Member.AllRecognised.more {found : List Member × MapEnding}
    (spaced : Spaced (key.characters :: [':'] :: tree.tokens) written)
    (split : text = written ++ after) (presents : node.Presents tree after)
    (comma : skipBlanks after = ',' :: later)
    (others : Member.AllRecognised (skipBlanks later) found) :
    Member.AllRecognised text (⟨key.literal afterKey, node⟩ :: found.1, found.2) := by
  cases others with
  | unfinished cut => exact .unfinished fun start => (cut start).map_cons _
  | whole othersSpaced othersSplit presented =>
      rename_i member members _ _
      obtain ⟨nextKey, next⟩ := member
      obtain ⟨tokens, starting⟩ := memberTokens_cons_eq_cons nextKey next members
      rw [starting, List.cons_append] at othersSpaced
      obtain ⟨back, backSpaced, rfl⟩ := othersSpaced.of_skipBlanks othersSplit
      rw [← List.cons_append, ← starting] at backSpaced
      obtain ⟨whole, wholeSpaced, joined⟩ := spaced.join backSpaced comma
      rw [← List.cons_append, ← List.append_assoc, ← memberTokens_cons_cons] at wholeSpaced
      exact .whole wholeSpaced (split.trans joined) (.cons presents presented)

end

end

/-! ## Lists and maps -/

namespace Node.Recognised

variable {start rest after : List Char}

theorem emptyList (closes : skipBlanks rest = ']' :: after) :
    Recognised ('[' :: rest) (.list start [] (.closed after)) := by
  obtain ⟨back, bracket, rfl⟩ := (Spaced.nil.cons_unblanked [']']).of_skipBlanks closes
  have spaced : Spaced (ParseTree.list []).tokens (['['] ++ back) :=
    bracket.cons_unblanked ['[']
  exact .whole spaced rfl (.list .nil)

theorem list {found : List Node × ListEnding}
    (inside : Node.ItemsRecognised (skipBlanks rest) found) :
    Recognised ('[' :: rest) (.list start found.1 found.2) := by
  cases inside with
  | unfinished cut => exact .unfinished (cut start)
  | whole itemsSpaced split presented =>
      rename_i item items _ _
      obtain ⟨first, more, tokens, starting, _⟩ := itemTokens_cons_eq_cons item items
      rw [starting, List.cons_append] at itemsSpaced
      obtain ⟨back, backSpaced, rfl⟩ := itemsSpaced.of_skipBlanks split
      rw [← List.cons_append, ← starting] at backSpaced
      have spaced := backSpaced.cons_unblanked ['[']
      rw [← ParseTree.tokens.eq_4] at spaced
      exact .whole spaced rfl (.list presented)

theorem emptyMap (closes : skipBlanks rest = '\x7d' :: after) :
    Recognised ('\x7b' :: rest) (.map start [] (.closed after)) := by
  obtain ⟨back, brace, rfl⟩ := (Spaced.nil.cons_unblanked ['\x7d']).of_skipBlanks closes
  have spaced : Spaced (ParseTree.map []).tokens (['\x7b'] ++ back) :=
    brace.cons_unblanked ['\x7b']
  exact .whole spaced rfl (.map .nil)

theorem map {found : List Member × MapEnding}
    (inside : Member.AllRecognised (skipBlanks rest) found) :
    Recognised ('\x7b' :: rest) (.map start found.1 found.2) := by
  cases inside with
  | unfinished cut => exact .unfinished (cut start)
  | whole membersSpaced split presented =>
      rename_i member members _ _
      obtain ⟨tokens, starting⟩ := memberTokens_cons_eq_cons member.1 member.2 members
      rw [starting, List.cons_append] at membersSpaced
      obtain ⟨back, backSpaced, rfl⟩ := membersSpaced.of_skipBlanks split
      rw [← List.cons_append, ← starting] at backSpaced
      have spaced := backSpaced.cons_unblanked ['\x7b']
      rw [← ParseTree.tokens.eq_5] at spaced
      exact .whole spaced rfl (.map presented)

end Node.Recognised

/-! ## Reading any text -/

mutual

theorem recognised_readNode : ∀ (fuel : Nat) (text : List Char),
    Node.Recognised text (readNode fuel text)
  | 0, _ => .unfinished .broken
  | fuel + 1, text => by
      apply Node.Recognised.of_skipBlanks
      rw [readNode]
      split
      · rename_i rest opens
        rw [opens]
        split
        · exact .unfinished (.list rfl nofun)
        · rename_i after closes
          exact .emptyList closes
        · exact .list (recognised_readItems fuel (skipBlanks rest))
      · rename_i rest opens
        rw [opens]
        split
        · exact .unfinished (.map rfl nofun nofun)
        · rename_i after closes
          exact .emptyMap closes
        · rename_i more quote
          have inside := allRecognised_readMembers fuel more
          rw [← quote] at inside
          exact .map inside
        · exact .unfinished (.map rfl nofun nofun)
      · exact recognised_ofScalar _

theorem recognised_readItems : ∀ (fuel : Nat) (text : List Char),
    Node.ItemsRecognised text (readItems fuel text)
  | 0, _ => .unfinished fun _ => .list rfl nofun
  | fuel + 1, text => by
      rw [readItems]
      cases recognised_readNode fuel text with
      | unfinished cut =>
          rw [cut.after?]
          exact .unfinished fun _ => .singleItem cut
      | whole spaced split presents =>
          rw [presents.after?]
          dsimp only
          split
          · exact .unfinished fun _ => .list rfl nofun
          · rename_i closes
            exact .last spaced split presents closes
          · rename_i later comma
            split
            · exact .unfinished fun _ => .list rfl nofun
            · exact .unfinished fun _ => .list rfl nofun
            · exact .more spaced split presents comma (recognised_readItems fuel _)
          · exact .unfinished fun _ => .list rfl nofun

theorem allRecognised_readMembers : ∀ (fuel : Nat) (text : List Char),
    Member.AllRecognised ('"' :: text) (readMembers fuel text)
  | 0, _ => .unfinished fun _ => .map rfl nofun nofun
  | fuel + 1, text => by
      rw [readMembers]
      cases keyEnds : (TextLiteral.ofCharacters text).after? with
      | none =>
          refine .unfinished fun _ => .map rfl nofun ?_
          intro key same
          cases same
          exact keyEnds
      | some afterKey =>
          obtain ⟨key, keySplit, literal⟩ := TextLexeme.exists_literal_of_after? keyEnds
          dsimp only
          cases recognised_readMemberValue fuel (skipBlanks afterKey) with
          | unfinished cut =>
              rw [cut.after?]
              exact .unfinished fun _ => .singleMember cut
          | whole valueSpaced colon presents =>
              rename_i tree _ rest
              rw [presents.after?, literal]
              obtain ⟨written, spaced, joined⟩ := exists_spaced_member key valueSpaced colon
              have split : '"' :: text = written ++ rest := by
                rw [← joined, keySplit, TextLexeme.characters_eq, List.cons_append,
                  List.append_assoc]
                rfl
              dsimp only
              split
              · exact .unfinished fun _ => .map rfl nofun nofun
              · rename_i closes
                exact .last spaced split presents closes
              · rename_i later comma
                split
                · exact .unfinished fun _ => .map rfl nofun nofun
                · exact .unfinished fun _ => .map rfl nofun nofun
                · rename_i more quote
                  have others := allRecognised_readMembers fuel more
                  rw [← quote] at others
                  exact .more spaced split presents comma others
                · exact .unfinished fun _ => .map rfl nofun nofun
              · exact .unfinished fun _ => .map rfl nofun nofun

theorem recognised_readMemberValue : ∀ (fuel : Nat) (text : List Char),
    Node.ValueRecognised text (readMemberValue fuel text)
  | 0, _ => .unfinished .broken
  | fuel + 1, text => by
      unfold readMemberValue
      split
      · exact .unfinished .broken
      · rename_i rest
        cases recognised_readNode fuel rest with
        | whole spaced split presents => exact .whole spaced (congrArg _ split) presents
        | unfinished cut => exact .unfinished cut
      · exact .unfinished .broken

end

/-- Whatever a text says, its tree presents a value that the text starts with, or it
breaks off. -/
theorem Node.recognised_ofCharacters (text : List Char) :
    Node.Recognised text (Node.ofCharacters text) :=
  recognised_readNode _ text

end Json
end SchemaBinding
