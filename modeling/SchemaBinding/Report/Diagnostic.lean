import SchemaBinding.Binding.Basic
import SchemaBinding.Tree.Handle

/-!
Contract: what is reported to the author of a configuration.

Owns:
- `Severity`, `Diagnostic` and the codes of this library;
- one diagnostic for each kind of finding; and
- the order in which diagnostics are shown.

Does not own: the walk that finds them, and their rendering.
-/

set_option autoImplicit false

namespace SchemaBinding

inductive Severity where
  | error
  | warning
  | info
  | hint
  deriving DecidableEq, Repr

namespace Severity

instance : Inhabited Severity := ⟨error⟩

def text : Severity → String
  | error => "error"
  | warning => "warning"
  | info => "info"
  | hint => "hint"

/-- The number under which editors know a severity, the gravest being one. -/
def level : Severity → Nat
  | error => 1
  | warning => 2
  | info => 3
  | hint => 4

end Severity

/-- A message about a stretch of a source file. -/
structure Diagnostic where
  span : Span
  severity : Severity := .error
  code : Option String := none
  message : String
  deriving DecidableEq, Repr, Inhabited

namespace Diagnostic

/-! ## Codes

Codes from `H0001` belong to binding, and codes from `H0101` to the recovery of
blocks from handles. -/

/-- An attribute that the schema does not declare. -/
def unknownAttributeCode : String := "H0001"

/-- A nested block whose type the schema does not declare. -/
def unknownBlockCode : String := "H0002"

/-- A body that is not of the native format. -/
def formatMismatchCode : String := "H0101"

/-! ## Findings -/

/-- An undeclared attribute, reported at its name. -/
def unknownAttribute (severity : Severity) (parent : String) (found : Attribute) :
    Diagnostic :=
  { span := found.nameSpan
    severity
    code := some unknownAttributeCode
    message := s!"unexpected attribute '{found.name}' in block '{parent}'" }

/-- An undeclared nested block, reported at its type name. -/
def unknownBlock (severity : Severity) (parent : String) (found : Block) :
    Diagnostic :=
  { span := found.typeSpan
    severity
    code := some unknownBlockCode
    message := s!"unexpected block '{found.typeName}' in block '{parent}'" }

/-- A block that could not be recovered, reported at its type name. -/
def formatMismatch (mismatch : FormatMismatch) : Diagnostic :=
  { span := mismatch.typeSpan
    severity := .error
    code := some formatMismatchCode
    message := mismatch.message }

/-! ## Order -/

/-- Whether the first diagnostic may be shown before the second: by file name, in
the order of code points, and then by start. -/
def mayPrecede (first second : Diagnostic) : Bool :=
  decide (first.span.file < second.span.file)
    || (first.span.file == second.span.file
      && decide (first.span.start ≤ second.span.start))

/-- Diagnostics as they are shown. Those of one file that start at one place keep
their order. -/
def inOrder (diagnostics : List Diagnostic) : List Diagnostic :=
  diagnostics.mergeSort mayPrecede

end Diagnostic

end SchemaBinding
