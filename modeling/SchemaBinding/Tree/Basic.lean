import SchemaBinding.NamedMap
import SchemaBinding.Source.Span

/-!
Contract: the tree of one configuration file, as its reader hands it over.

Owns:
- `Label`, `Expression`, `Attribute`, `Body` and `Block`;
- the steps that build bodies and blocks; and
- the spans that are derived from others: braces, header and whole block.

Does not own: the reading of configuration text. Spans are taken as given, and
none is assumed to lie inside another.

A body files each attribute under a name. The names stand in order of first
addition, and a second attribute of one name takes the place of the first. Blocks
of one type may repeat and keep their order.
-/

set_option autoImplicit false

namespace SchemaBinding

/-- A label of a block with the place where it stands. -/
structure Label where
  /-- What the position of the label is called, empty when unknown. -/
  name : String := ""
  /-- The label as written, without quotes. -/
  value : String
  span : Span
  deriving DecidableEq, Repr, Inhabited

namespace Label

def contains (label : Label) (position : Position) : Bool :=
  label.span.contains position

end Label

/-- The right side of an attribute. Only its text and its place are known. -/
structure Expression where
  text : String
  span : Span
  deriving DecidableEq, Repr, Inhabited

/-- An attribute `name = expression`. -/
structure Attribute where
  name : String
  expression : Expression
  /-- From the start of the name to the end of the expression. -/
  span : Span
  nameSpan : Span
  equalsSpan : Span
  deriving DecidableEq, Repr, Inhabited

mutual

/-- What stands between, and with, the braces of a block. -/
structure Body where
  attributes : NamedMap Attribute
  blocks : List Block
  /-- From the opening brace to just after the closing brace. -/
  span : Span
  /-- A span of no width at the end of the body. -/
  endSpan : Span

/-- A block: its type name, its labels and its body. There may be more labels
than label spans, or fewer, when the source was malformed. -/
structure Block where
  typeName : String
  labelValues : List String
  body : Body
  typeSpan : Span
  labelSpans : List Span
  openBrace : Span
  closeBrace : Span

end

namespace Body

/-- The body of a given span with nothing in it. -/
def empty (span : Span) : Body :=
  { attributes := {}
    blocks := []
    span
    endSpan := Span.emptyAt span.file span.stop }

/-- Files an attribute under its own name. -/
def addAttribute (body : Body) (added : Attribute) : Body :=
  { body with attributes := body.attributes.insert added.name added }

def addBlock (body : Body) (block : Block) : Body :=
  { body with blocks := body.blocks ++ [block] }

def isEmpty (body : Body) : Bool :=
  body.attributes.isEmpty && body.blocks.isEmpty

/-- The opening and the closing brace: the first and the last byte of the body,
for a body that runs from its opening to its closing brace. -/
def braces (body : Body) : Span × Span :=
  ({ file := body.span.file
     start := body.span.start
     stop := body.span.start.advance 1 },
   { file := body.span.file
     start := body.span.stop.retreat 1
     stop := body.span.stop })

end Body

/-- The header of a block: its type name and the labels that have a span. -/
def headerSpan (typeSpan : Span) (labelSpans : List Span) : Span :=
  match labelSpans.getLast? with
  | some last => Span.between typeSpan last
  | none => typeSpan

namespace Block

/-- The block without labels whose braces stand at the edges of its body. -/
def unlabelled (typeName : String) (typeSpan : Span) (body : Body) : Block :=
  { typeName
    labelValues := []
    body
    typeSpan
    labelSpans := []
    openBrace := body.braces.1
    closeBrace := body.braces.2 }

def addLabel (block : Block) (value : String) (span : Span) : Block :=
  { block with
    labelValues := block.labelValues ++ [value]
    labelSpans := block.labelSpans ++ [span] }

/-- From the type name to the closing brace. -/
def span (block : Block) : Span :=
  Span.between block.typeSpan block.closeBrace

def header (block : Block) : Span :=
  headerSpan block.typeSpan block.labelSpans

/-- The labels that have a span, in the order in which they stand. -/
def labels (block : Block) : List Label :=
  List.zipWith (fun value span => { value, span }) block.labelValues block.labelSpans

end Block

/-! ## Induction over nested blocks -/

theorem Block.sizeOf_lt_of_mem {block child : Block} (member : child ∈ block.body.blocks) :
    sizeOf child < sizeOf block := by
  obtain ⟨_, _, ⟨_, blocks, _, _⟩, _, _, _, _⟩ := block
  have inList : sizeOf child < sizeOf blocks := List.sizeOf_lt_of_mem member
  simp only [Block.mk.sizeOf_spec, Body.mk.sizeOf_spec]
  omega

/-- What holds of a block whenever it holds of the blocks in its body holds of every
block. -/
@[elab_as_elim]
theorem Block.inductionOn {motive : Block → Prop} (block : Block)
    (step : ∀ block : Block, (∀ child ∈ block.body.blocks, motive child) → motive block) :
    motive block :=
  step block fun child _ => Block.inductionOn child step
termination_by sizeOf block
decreasing_by exact Block.sizeOf_lt_of_mem ‹_›

/-! ## Equality up to the order of attributes

Two trees are alike when they differ in nothing but the order in which bodies
file their attributes. The order of blocks and of labels counts. -/

mutual

def Body.alike : Body → Body → Bool
  | ⟨attributes, blocks, span, endSpan⟩, other =>
      attributes.alike (· == ·) other.attributes.toNamedList
        && Block.allAlike blocks other.blocks
        && span == other.span
        && endSpan == other.endSpan

def Block.alike : Block → Block → Bool
  | ⟨typeName, labelValues, body, typeSpan, labelSpans, openBrace, closeBrace⟩, other =>
      typeName == other.typeName
        && labelValues == other.labelValues
        && body.alike other.body
        && typeSpan == other.typeSpan
        && labelSpans == other.labelSpans
        && openBrace == other.openBrace
        && closeBrace == other.closeBrace

def Block.allAlike : List Block → List Block → Bool
  | [], [] => true
  | first :: rest, other :: others => first.alike other && Block.allAlike rest others
  | _, _ => false

end

instance : BEq Body := ⟨Body.alike⟩

instance : BEq Block := ⟨Block.alike⟩

end SchemaBinding
