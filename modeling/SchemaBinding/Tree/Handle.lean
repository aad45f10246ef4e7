import SchemaBinding.Tree.Basic

/-!
Contract: blocks whose body may come from any configuration format.

Owns:
- `BodyHandle` and `BlockHandle`, which a look-up across formats hands out;
- the recovery of a full `Block` from a handle; and
- `FormatMismatch`, the one way in which that recovery fails.

Does not own: the reading of the other formats. Of their bodies only the format
is known here.

A handle knows no braces. They are recovered from the span of a native body,
which starts with the opening brace and ends with the closing one.
-/

set_option autoImplicit false

namespace SchemaBinding

/-- Where a body comes from. -/
inductive BodyFormat where
  | native
  | json
  | merged
  | empty
  deriving DecidableEq, Repr, Inhabited

namespace BodyFormat

def text : BodyFormat → String
  | native => "native"
  | json => "json"
  | merged => "merged"
  | empty => "empty"

end BodyFormat

/-- A body whose format is known only when it is looked at. -/
inductive BodyHandle where
  /-- A body of the native format, with all its spans. -/
  | native (body : Body)
  /-- A body written as JSON. -/
  | json (span : Span)
  /-- Several bodies seen as one. -/
  | merged (bodies : List BodyHandle)
  /-- No content at all. -/
  | empty

namespace BodyHandle

def format : BodyHandle → BodyFormat
  | native _ => .native
  | json _ => .json
  | merged _ => .merged
  | empty => .empty

def native? : BodyHandle → Option Body
  | native body => some body
  | _ => none

end BodyHandle

/-- A block as a look-up across formats shows it. -/
structure BlockHandle where
  typeName : String
  labelValues : List String
  body : BodyHandle
  /-- The type name and the labels added so far. -/
  header : Span
  typeSpan : Span
  labelSpans : List Span

namespace BlockHandle

def unlabelled (typeName : String) (typeSpan : Span) (body : BodyHandle) : BlockHandle :=
  { typeName
    labelValues := []
    body
    header := typeSpan
    typeSpan
    labelSpans := [] }

/-- Appends a label and extends the header to its end. -/
def addLabel (handle : BlockHandle) (value : String) (span : Span) : BlockHandle :=
  { handle with
    labelValues := handle.labelValues ++ [value]
    header := Span.between handle.typeSpan span
    labelSpans := handle.labelSpans ++ [span] }

end BlockHandle

/-- A body that is not of the native format, so that its braces are unknown. -/
structure FormatMismatch where
  format : BodyFormat
  typeName : String
  typeSpan : Span
  deriving DecidableEq, Repr, Inhabited

namespace FormatMismatch

def message (mismatch : FormatMismatch) : String :=
  "invalid configuration format: " ++ mismatch.format.text ++ " body in block `"
    ++ mismatch.typeName ++ "`"

end FormatMismatch

namespace BlockHandle

/-- The block behind a handle, with its braces at the edges of its body. -/
def toBlock (handle : BlockHandle) : Except FormatMismatch Block :=
  match handle.body with
  | .native body =>
      .ok
        { typeName := handle.typeName
          labelValues := handle.labelValues
          body
          typeSpan := handle.typeSpan
          labelSpans := handle.labelSpans
          openBrace := body.braces.1
          closeBrace := body.braces.2 }
  | other =>
      .error
        { format := other.format
          typeName := handle.typeName
          typeSpan := handle.typeSpan }

/-- As `toBlock`, where an absent handle gives an absent block. -/
def toBlock? : Option BlockHandle → Except FormatMismatch (Option Block)
  | none => .ok none
  | some handle => handle.toBlock.map some

end BlockHandle

/-! ## Equality up to the order of attributes -/

mutual

def BodyHandle.alike : BodyHandle → BodyHandle → Bool
  | .native body, .native other => body == other
  | .json span, .json other => span == other
  | .merged bodies, .merged others => BodyHandle.allAlike bodies others
  | .empty, .empty => true
  | _, _ => false

def BodyHandle.allAlike : List BodyHandle → List BodyHandle → Bool
  | [], [] => true
  | first :: rest, other :: others => first.alike other && BodyHandle.allAlike rest others
  | _, _ => false

end

instance : BEq BodyHandle := ⟨BodyHandle.alike⟩

instance : BEq BlockHandle where
  beq first second :=
    first.typeName == second.typeName
      && first.labelValues == second.labelValues
      && first.body == second.body
      && first.header == second.header
      && first.typeSpan == second.typeSpan
      && first.labelSpans == second.labelSpans

end SchemaBinding
