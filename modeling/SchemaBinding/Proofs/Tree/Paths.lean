import SchemaBinding.Tree.Basic

/-!
Contract: paths of indices to the blocks of a tree.

Owns:
- `Block.at?`, the block at the end of a path;
- `Block.SameTypes`, which relates trees with the same types at the same paths;
- `Block.exists_at?_ne`, by which two paths are told apart by what stands there; and
- `Block.descendants`, all blocks below a block.

Does not own: anything about schemas.

A block may occur several times in one tree, so an occurrence is known by its path and
not by the block that stands there. Two paths are told apart all the same, in a tree of
the same types where one of the two blocks has another span.
-/

set_option autoImplicit false

namespace SchemaBinding

namespace Block

/-- The block that a path leads to: each index chooses from the body of one block the
next. -/
def at? (block : Block) : List Nat → Option Block
  | [] => some block
  | index :: deeper => (block.body.blocks[index]?).bind fun child => child.at? deeper

theorem at?_cons_eq_some_iff {block source : Block} {index : Nat} {deeper : List Nat} :
    block.at? (index :: deeper) = some source ↔
      ∃ child, block.body.blocks[index]? = some child ∧ child.at? deeper = some source :=
  Option.bind_eq_some_iff

theorem at?_singleton (block : Block) (index : Nat) :
    block.at? [index] = block.body.blocks[index]? := by
  rw [at?]
  cases block.body.blocks[index]? with
  | none => rfl
  | some child => rfl

end Block

/-! ## All blocks below one -/

mutual

/-- The blocks below a block at any depth, each as often as it occurs. -/
def Block.descendants : Block → List Block
  | ⟨_, _, ⟨_, blocks, _, _⟩, _, _, _, _⟩ => Block.withDescendants blocks

/-- Blocks, each with all blocks below it. -/
def Block.withDescendants : List Block → List Block
  | [] => []
  | block :: rest => block :: block.descendants ++ Block.withDescendants rest

end

namespace Block

theorem withDescendants_eq (blocks : List Block) :
    withDescendants blocks = blocks.flatMap fun child => child :: child.descendants := by
  induction blocks with
  | nil => rfl
  | cons block rest inductionHypothesis =>
      rw [withDescendants, inductionHypothesis, List.flatMap_cons]

theorem descendants_eq (block : Block) :
    block.descendants = block.body.blocks.flatMap fun child => child :: child.descendants := by
  obtain ⟨_, _, ⟨_, blocks, _, _⟩, _, _, _, _⟩ := block
  rw [descendants, withDescendants_eq]

/-! ## Trees with the same types -/

/-- The two trees have blocks at the same paths, and of the same types. -/
def SameTypes (first second : Block) : Prop :=
  ∀ path, (first.at? path).map Block.typeName = (second.at? path).map Block.typeName

namespace SameTypes

variable {first second : Block}

protected theorem refl (block : Block) : block.SameTypes block :=
  fun _ => rfl

theorem names (same : first.SameTypes second) :
    first.body.blocks.map Block.typeName = second.body.blocks.map Block.typeName := by
  apply List.ext_getElem?
  intro index
  have atIndex := same [index]
  rw [at?_singleton, at?_singleton] at atIndex
  rw [List.getElem?_map, List.getElem?_map, atIndex]

/-- Below the same index the same types stand again. -/
theorem child (same : first.SameTypes second) {index : Nat} {inFirst inSecond : Block}
    (here : first.body.blocks[index]? = some inFirst)
    (there : second.body.blocks[index]? = some inSecond) : inFirst.SameTypes inSecond := by
  intro path
  have below := same (index :: path)
  rw [at?, at?, here, there] at below
  exact below

end SameTypes

/-! ## Telling paths apart -/

/-- The tree with another span for the type name at the end of a path. -/
def stampAt (span : Span) : List Nat → Block → Block
  | [], block => { block with typeSpan := span }
  | index :: deeper, block =>
      { block with
        body := { block.body with
          blocks := block.body.blocks.modify index (stampAt span deeper) } }

theorem at?_stampAt_cons (span : Span) (index other : Nat) (deeper path : List Nat)
    (block : Block) :
    (stampAt span (index :: deeper) block).at? (other :: path)
      = (block.body.blocks[other]?).bind fun child =>
          (if index = other then stampAt span deeper child else child).at? path := by
  show ((block.body.blocks.modify index (stampAt span deeper))[other]?).bind _ = _
  rw [List.getElem?_modify]
  cases block.body.blocks[other]? with
  | none => rfl
  | some child => rfl

theorem sameTypes_stampAt (span : Span) (path : List Nat) :
    ∀ block : Block, (stampAt span path block).SameTypes block := by
  induction path with
  | nil =>
      intro block other
      cases other with
      | nil => rfl
      | cons index deeper => rfl
  | cons index deeper inductionHypothesis =>
      intro block other
      cases other with
      | nil => rfl
      | cons otherIndex otherDeeper =>
          rw [at?_stampAt_cons, at?]
          cases block.body.blocks[otherIndex]? with
          | none => rfl
          | some child =>
              by_cases sameIndex : index = otherIndex
              · simp only [Option.bind_some, if_pos sameIndex]
                exact inductionHypothesis child otherDeeper
              · simp only [Option.bind_some, if_neg sameIndex]

/-- The new span is seen at the end of the path and nowhere else. -/
theorem typeSpan_at?_stampAt (span : Span) (path : List Nat) :
    ∀ (block : Block) (other : List Nat),
      ((stampAt span path block).at? other).map Block.typeSpan
        = if path = other then (block.at? other).map fun _ => span
          else (block.at? other).map Block.typeSpan := by
  induction path with
  | nil =>
      intro block other
      cases other with
      | nil => rfl
      | cons index deeper => rfl
  | cons index deeper inductionHypothesis =>
      intro block other
      cases other with
      | nil => rfl
      | cons otherIndex otherDeeper =>
          rw [at?_stampAt_cons, at?]
          cases block.body.blocks[otherIndex]? with
          | none => exact (ite_self none).symm
          | some child =>
              by_cases sameIndex : index = otherIndex
              · simp only [Option.bind_some, sameIndex, if_true, List.cons.injEq, true_and]
                exact inductionHypothesis child otherDeeper
              · simp only [Option.bind_some, sameIndex, if_false, List.cons.injEq, false_and]

theorem exists_span_ne (seen : Option Span) : ∃ fresh : Span, some fresh ≠ seen := by
  cases seen with
  | none => exact ⟨default, Option.some_ne_none _⟩
  | some span =>
      refine ⟨{ span with file := span.file.push 'x' }, fun same => ?_⟩
      have sameFile : span.file.push 'x' = span.file := congrArg Span.file (Option.some.inj same)
      have sameLength : span.file.length + 1 = span.file.length := by
        rw [← String.length_push, sameFile]
      omega

/-- Different paths are told apart in some tree of the same types: the one where the
first of them has a type name span that the second has not. -/
theorem exists_at?_ne {block source : Block} {first second : List Nat}
    (different : first ≠ second) (here : block.at? first = some source) :
    ∃ other : Block, other.SameTypes block ∧ other.at? first ≠ other.at? second := by
  obtain ⟨fresh, freshSpan⟩ := exists_span_ne ((block.at? second).map Block.typeSpan)
  refine ⟨stampAt fresh first block, sameTypes_stampAt fresh first block, fun same => ?_⟩
  have spans := congrArg (Option.map Block.typeSpan) same
  rw [typeSpan_at?_stampAt, typeSpan_at?_stampAt, if_pos rfl, if_neg different, here] at spans
  exact freshSpan spans

end Block

end SchemaBinding
