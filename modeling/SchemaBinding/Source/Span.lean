import SchemaBinding.Source.Position

/-!
Contract: half-open stretches of one named source file.

Owns:
- `Span`, a file name with a start and an end; and
- the questions asked of spans, all of them answered by byte offsets.

Does not own: the text itself. A span may be empty, inverted or reach past the
end of its file; nothing here assumes otherwise.
-/

set_option autoImplicit false

namespace SchemaBinding

/-- The stretch of `file` from `start` up to, and not including, `stop`. -/
structure Span where
  file : String
  start : Position
  stop : Position
  deriving DecidableEq, Repr, Inhabited

namespace Span

/-- The span of the bytes from `start` to `stop` of a file with text `source`. -/
def ofOffsets (file source : String) (start stop : Nat) : Span :=
  { file
    start := Position.atOffset source start
    stop := Position.atOffset source stop }

/-- The span of no width at a place. -/
def emptyAt (file : String) (position : Position) : Span :=
  { file, start := position, stop := position }

/-- From the start of the first span to the end of the second, in the file of
the first. -/
def between (first second : Span) : Span :=
  { file := first.file, start := first.start, stop := second.stop }

def containsOffset (span : Span) (offset : Nat) : Bool :=
  span.start.byte ≤ offset && offset < span.stop.byte

/-- Whether a place lies in the span. Only its byte offset matters. -/
def contains (span : Span) (position : Position) : Bool :=
  span.containsOffset position.byte

/-- Whether two spans of one file share a byte. -/
def overlaps (first second : Span) : Bool :=
  first.file == second.file
    && first.start.byte < second.stop.byte
    && second.start.byte < first.stop.byte

def isEmpty (span : Span) : Bool :=
  span.stop.byte ≤ span.start.byte

/-- The length in bytes, zero for an inverted span. -/
def length (span : Span) : Nat :=
  span.stop.byte - span.start.byte

/-- The first byte and the byte after the last as 32-bit words. There is no such
pair for an inverted span or for one that reaches past the words' range. -/
def words? (span : Span) : Option (UInt32 × UInt32) :=
  if span.start.byte < UInt32.size ∧ span.stop.byte < UInt32.size
      ∧ span.start.byte ≤ span.stop.byte then
    some (UInt32.ofNat span.start.byte, UInt32.ofNat span.stop.byte)
  else none

/-- A span as a reader sees it: `file:line:column-line:column`. -/
def text (span : Span) : String :=
  s!"{span.file}:{span.start.text}-{span.stop.text}"

end Span

end SchemaBinding
