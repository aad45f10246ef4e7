import SchemaBinding.Report.Diagnostic

/-!
Contract: the diagnostics of bound blocks.

Owns:
- `ReportOptions`;
- `BoundBlock.findings`, everything undeclared in a bound block; and
- `Collector`, which gathers findings from several sources and shows them in
  order.

Does not own: binding. A block without a schema has no findings, since there is
nothing to hold it against, and an absent block has none either.
-/

set_option autoImplicit false

namespace SchemaBinding

/-- What is collected, and how grave it is. -/
structure ReportOptions where
  attributeSeverity : Severity := .error
  blockSeverity : Severity := .error
  /-- Whether known nested blocks are searched too. -/
  recursive : Bool := true
  deriving DecidableEq, Repr, Inhabited

/-- The findings of one block itself: its undeclared attributes, then its
undeclared nested blocks, each in source order. -/
def ownFindings (options : ReportOptions) (parent : String)
    (attributes : NamedMap Attribute) (blocks : List Block) : List Diagnostic :=
  attributes.values.map (Diagnostic.unknownAttribute options.attributeSeverity parent)
    ++ blocks.map (Diagnostic.unknownBlock options.blockSeverity parent)

mutual

/-- The findings of a bound block: its own, and then those of its known nested
blocks, group by group, when the options ask for them. -/
def BoundBlock.findings (options : ReportOptions) : BoundBlock → List Diagnostic
  | ⟨some source, _, some _, _, unknown, ⟨groups⟩, unknownBlocks⟩ =>
      ownFindings options source.typeName unknown unknownBlocks
        ++ if options.recursive then BoundGroup.findings options groups else []
  | _ => []

def BoundGroup.findings (options : ReportOptions) :
    List (String × BoundGroup) → List Diagnostic
  | [] => []
  | (_, ⟨_, blocks⟩) :: rest =>
      BoundBlock.allFindings options blocks ++ BoundGroup.findings options rest

def BoundBlock.allFindings (options : ReportOptions) :
    List BoundBlock → List Diagnostic
  | [] => []
  | block :: rest =>
      block.findings options ++ BoundBlock.allFindings options rest

end

theorem BoundBlock.allFindings_eq_flatMap (options : ReportOptions) :
    ∀ blocks : List BoundBlock,
      BoundBlock.allFindings options blocks = blocks.flatMap (BoundBlock.findings options)
  | [] => rfl
  | block :: rest => by
      rw [BoundBlock.allFindings, BoundBlock.allFindings_eq_flatMap options rest,
        List.flatMap_cons]

theorem BoundGroup.findings_eq_flatMap (options : ReportOptions) :
    ∀ groups : List (String × BoundGroup),
      BoundGroup.findings options groups
        = ((groups.map Prod.snd).flatMap BoundGroup.blocks).flatMap
            (BoundBlock.findings options)
  | [] => rfl
  | (_, ⟨_, blocks⟩) :: rest => by
      rw [BoundGroup.findings, BoundBlock.allFindings_eq_flatMap,
        BoundGroup.findings_eq_flatMap options rest, List.map_cons, List.flatMap_cons,
        List.flatMap_append]

/-- The findings of a bound block that is present and has a schema. -/
theorem BoundBlock.findings_eq {bound : BoundBlock} {source : Block} {schema : BlockSchema}
    (options : ReportOptions) (present : bound.source = some source)
    (declared : bound.schema = some schema) :
    bound.findings options
      = ownFindings options source.typeName bound.unknownAttributes bound.unknownBlocks
        ++ if options.recursive then
            bound.nestedBlocks.flatMap (BoundBlock.findings options)
          else [] := by
  obtain ⟨_, _, _, _, _, ⟨groups⟩, _⟩ := bound
  cases present
  cases declared
  rw [BoundBlock.findings, BoundGroup.findings_eq_flatMap]
  rfl

/-- The findings of a bound block in the order in which they are shown. -/
def BoundBlock.diagnostics (bound : BoundBlock) (options : ReportOptions) :
    List Diagnostic :=
  Diagnostic.inOrder (bound.findings options)

/-- Diagnostics gathered so far, in the order in which they were added. -/
structure Collector where
  options : ReportOptions := {}
  diagnostics : List Diagnostic := []
  deriving DecidableEq, Repr, Inhabited

namespace Collector

def addAll (collector : Collector) (added : List Diagnostic) : Collector :=
  { collector with diagnostics := collector.diagnostics ++ added }

def add (collector : Collector) (added : Diagnostic) : Collector :=
  collector.addAll [added]

/-- Adds an undeclared attribute of a block of type `parent`. -/
def addUnknownAttribute (collector : Collector) (parent : String) (found : Attribute) :
    Collector :=
  collector.add (.unknownAttribute collector.options.attributeSeverity parent found)

/-- Adds an undeclared nested block of a block of type `parent`. -/
def addUnknownBlock (collector : Collector) (parent : String) (found : Block) :
    Collector :=
  collector.add (.unknownBlock collector.options.blockSeverity parent found)

def addFormatMismatch (collector : Collector) (mismatch : FormatMismatch) : Collector :=
  collector.add (.formatMismatch mismatch)

/-- Adds the findings of a bound block. -/
def collect (collector : Collector) (bound : BoundBlock) : Collector :=
  collector.addAll (bound.findings collector.options)

/-- What has been gathered, in the order in which it is shown. -/
def finish (collector : Collector) : List Diagnostic :=
  Diagnostic.inOrder collector.diagnostics

end Collector

end SchemaBinding
