import SchemaBinding.Binding.Basic

/-!
Contract: what stands under a cursor in a bound block.

Owns:
- the questions whether a place lies in the body, the labels or an attribute of
  a bound block; and
- `BoundBlock.blockAt`, the descent to the innermost known block around a place.

Does not own: any assumption that spans nest or keep apart. Where several
candidates hold the place, the first one counts: declared attributes before
undeclared ones, and nested blocks by group and then in source order.
-/

set_option autoImplicit false

namespace SchemaBinding

namespace BoundBlock

/-- From the type name to the closing brace, for a present block. -/
def span? (bound : BoundBlock) : Option Span :=
  bound.source.map Block.span

/-- Whether a place lies in the whole block. -/
def contains (bound : BoundBlock) (position : Position) : Bool :=
  bound.span?.any (·.contains position)

/-- Whether a place lies in the body, braces included. -/
def inBody (bound : BoundBlock) (position : Position) : Bool :=
  bound.source.any (·.body.span.contains position)

/-- The first label around a place. An absent block has its labels nowhere. -/
def labelAt (bound : BoundBlock) (position : Position) : Option Label :=
  if bound.isPresent then bound.labels.find? (·.contains position) else none

def inLabels (bound : BoundBlock) (position : Position) : Bool :=
  (bound.labelAt position).isSome

/-- The attributes of the block itself: the declared ones, then the others. -/
def attributes (bound : BoundBlock) : List Attribute :=
  bound.knownAttributes.values.map BoundAttribute.source
    ++ bound.unknownAttributes.values

/-- The first attribute of the block itself around a place. -/
def attributeAt (bound : BoundBlock) (position : Position) : Option Attribute :=
  bound.attributes.find? (·.span.contains position)

def inAttribute (bound : BoundBlock) (position : Position) : Bool :=
  (bound.attributeAt position).isSome

end BoundBlock

mutual

/-- The innermost known nested block around a place, found by going at each level
into the first nested block that holds it. There is none when no nested block of
the first level holds the place, even if the block itself does. -/
def BoundBlock.blockAt : BoundBlock → Position → Option BoundBlock
  | ⟨_, _, _, _, _, ⟨groups⟩, _⟩, position => BoundGroup.blockAt groups position

/-- The search of `BoundBlock.blockAt` through groups, in their order. -/
def BoundGroup.blockAt : List (String × BoundGroup) → Position → Option BoundBlock
  | [], _ => none
  | (_, ⟨_, blocks⟩) :: rest, position =>
      (BoundBlock.innermostAt blocks position).or (BoundGroup.blockAt rest position)

/-- The search of `BoundBlock.blockAt` through the blocks of one group. -/
def BoundBlock.innermostAt : List BoundBlock → Position → Option BoundBlock
  | [], _ => none
  | block :: rest, position =>
      if block.contains position then some ((block.blockAt position).getD block)
      else BoundBlock.innermostAt rest position

end

/-! ## The descent by levels -/

theorem BoundBlock.innermostAt_eq (position : Position) :
    ∀ blocks : List BoundBlock,
      BoundBlock.innermostAt blocks position
        = (blocks.find? fun block => block.contains position).map fun block =>
            (block.blockAt position).getD block
  | [] => rfl
  | block :: rest => by
      rw [BoundBlock.innermostAt, BoundBlock.innermostAt_eq position rest, List.find?_cons]
      cases block.contains position with
      | true => rfl
      | false => rfl

theorem BoundGroup.blockAt_eq (position : Position) :
    ∀ groups : List (String × BoundGroup),
      BoundGroup.blockAt groups position
        = (((groups.map Prod.snd).flatMap BoundGroup.blocks).find? fun block =>
            block.contains position).map fun block => (block.blockAt position).getD block
  | [] => rfl
  | (_, ⟨_, blocks⟩) :: rest => by
      rw [BoundGroup.blockAt, BoundBlock.innermostAt_eq, BoundGroup.blockAt_eq position rest,
        List.map_cons, List.flatMap_cons, List.find?_append, Option.map_or]

/-- The innermost block around a place: the first nested block that holds the place, or
what is found inside that one. -/
theorem BoundBlock.blockAt_eq (bound : BoundBlock) (position : Position) :
    bound.blockAt position
      = (bound.nestedBlocks.find? fun block => block.contains position).map fun block =>
          (block.blockAt position).getD block := by
  obtain ⟨_, _, _, _, _, ⟨groups⟩, _⟩ := bound
  rw [BoundBlock.blockAt, BoundGroup.blockAt_eq]
  rfl

end SchemaBinding
