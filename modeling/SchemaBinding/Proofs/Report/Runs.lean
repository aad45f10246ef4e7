import SchemaBinding.Proofs.Report.Order
import SchemaBinding.Report.Collector

/-!
Contract: what a collector holds after any sequence of calls.

Owns:
- `Collector.Step`, one call of a collector, and `Collector.run`, a sequence of them;
- `BoundBlock.steps`, the calls that collecting a bound block comes down to; and
- `Collector.run_gathers`, by which a run gathers what its steps report one by one, and sorts
  it in the end.

Does not own: what the findings of a bound block are.

No step reads what was gathered before it. Every call comes down to `Collector.addAll`, so
all that is said here follows from how two additions make one.
-/

set_option autoImplicit false

namespace SchemaBinding

namespace Collector

/-- One call of a collector. -/
inductive Step where
  | add (added : Diagnostic)
  | unknownAttribute (parent : String) (found : Attribute)
  | unknownBlock (parent : String) (found : Block)
  | formatMismatch (mismatch : FormatMismatch)
  | collect (bound : BoundBlock)

def perform (collector : Collector) : Step → Collector
  | .add added => collector.add added
  | .unknownAttribute parent found => collector.addUnknownAttribute parent found
  | .unknownBlock parent found => collector.addUnknownBlock parent found
  | .formatMismatch mismatch => collector.addFormatMismatch mismatch
  | .collect bound => collector.collect bound

def run (collector : Collector) (steps : List Step) : Collector :=
  steps.foldl perform collector

/-- A collector that holds nothing yet. -/
def fresh (options : ReportOptions) : Collector :=
  { options }

/-- What a step adds to a fresh collector. -/
def Step.alone (options : ReportOptions) (step : Step) : List Diagnostic :=
  ((fresh options).perform step).diagnostics

/-! ## Additions -/

section

variable (collector : Collector)

@[simp]
theorem options_addAll (added : List Diagnostic) :
    (collector.addAll added).options = collector.options :=
  rfl

@[simp]
theorem diagnostics_addAll (added : List Diagnostic) :
    (collector.addAll added).diagnostics = collector.diagnostics ++ added :=
  rfl

theorem addAll_nil : collector.addAll [] = collector := by
  rw [addAll, List.append_nil]

theorem addAll_addAll (added more : List Diagnostic) :
    (collector.addAll added).addAll more = collector.addAll (added ++ more) := by
  unfold addAll
  rw [List.append_assoc]

/-! ## Steps and runs -/

/-- A step adds what it adds alone, whatever the collector holds. -/
theorem perform_eq (step : Step) :
    collector.perform step = collector.addAll (step.alone collector.options) := by
  cases step with
  | add added => rfl
  | unknownAttribute parent found => rfl
  | unknownBlock parent found => rfl
  | formatMismatch mismatch => rfl
  | collect bound => rfl

theorem run_eq (steps : List Step) :
    collector.run steps
      = collector.addAll (steps.flatMap (Step.alone collector.options)) := by
  induction steps generalizing collector with
  | nil => exact collector.addAll_nil.symm
  | cons step rest inductionHypothesis =>
      show (collector.perform step).run rest = _
      rw [inductionHypothesis, perform_eq, options_addAll, addAll_addAll, List.flatMap_cons]

end

end Collector

/-! ## Collecting as a run -/

/-- The calls that collecting a bound block comes down to, when it is present and has a
schema: one for each of its unknown attributes and blocks, and one for each known nested
block when these are searched too. -/
def BoundBlock.steps (options : ReportOptions) (bound : BoundBlock) : List Collector.Step :=
  match bound.source, bound.schema with
  | some source, some _ =>
      bound.unknownAttributes.values.map (.unknownAttribute source.typeName)
        ++ bound.unknownBlocks.map (.unknownBlock source.typeName)
        ++ if options.recursive then bound.nestedBlocks.map .collect else []
  | _, _ => []

theorem BoundBlock.findings_eq_flatMap_steps (bound : BoundBlock) (options : ReportOptions) :
    bound.findings options = (bound.steps options).flatMap (Collector.Step.alone options) := by
  cases present : bound.source with
  | none =>
      obtain ⟨_, _, _, _, _, ⟨_⟩, _⟩ := bound
      cases present
      rfl
  | some source =>
      cases declared : bound.schema with
      | none =>
          obtain ⟨_, _, _, _, _, ⟨_⟩, _⟩ := bound
          cases present
          cases declared
          rfl
      | some schema =>
          rw [BoundBlock.findings_eq options present declared, BoundBlock.steps, present,
            declared]
          rw [ownFindings, List.map_eq_flatMap, List.map_eq_flatMap, List.flatMap_append,
            List.flatMap_append, List.flatMap_map, List.flatMap_map]
          cases options.recursive with
          | false => rfl
          | true =>
              rw [if_pos rfl, if_pos rfl, List.flatMap_map]
              rfl

theorem Collector.collect_eq_run (collector : Collector) (bound : BoundBlock) :
    collector.collect bound = collector.run (bound.steps collector.options) := by
  rw [Collector.run_eq, Collector.collect, BoundBlock.findings_eq_flatMap_steps]

/-! ## Every run -/

namespace Collector

theorem diagnostics_run_fresh (options : ReportOptions) (steps : List Step) :
    ((fresh options).run steps).diagnostics = steps.flatMap (Step.alone options) := by
  rw [run_eq, diagnostics_addAll]
  rfl

theorem options_run (collector : Collector) (steps : List Step) :
    (collector.run steps).options = collector.options := by
  rw [run_eq, options_addAll]

/-- A run from a fresh collector gathers what each of its steps adds alone, in the order of
the steps; what a later part of a run adds does not depend on the earlier part, and leaves
it as it was. Collecting a bound block is itself a run. What is shown in the end is the same
diagnostics in the order of their places, and those of one place in the order in which they
were added. -/
theorem run_gathers (options : ReportOptions) (steps : List Step) :
    ((fresh options).run steps).diagnostics = steps.flatMap (Step.alone options) ∧
      (∀ later, ((fresh options).run (steps ++ later)).diagnostics
        = ((fresh options).run steps).diagnostics
          ++ ((fresh options).run later).diagnostics) ∧
      (∀ bound, ((fresh options).run steps).collect bound
        = ((fresh options).run steps).run (bound.steps options)) ∧
      ((fresh options).run steps).finish.Perm ((fresh options).run steps).diagnostics ∧
      (((fresh options).run steps).finish.map Diagnostic.place).Pairwise (· ≤ ·) ∧
      ∀ place, ((fresh options).run steps).finish.filter (·.place == place)
        = ((fresh options).run steps).diagnostics.filter (·.place == place) := by
  have shown :
      StableSort ((fresh options).run steps).diagnostics ((fresh options).run steps).finish :=
    inOrder_stableSort _
  refine ⟨diagnostics_run_fresh options steps, ?_, ?_, shown.same, shown.places,
    shown.filter_place⟩
  · intro later
    rw [diagnostics_run_fresh, diagnostics_run_fresh, diagnostics_run_fresh,
      List.flatMap_append]
  · intro bound
    rw [collect_eq_run, options_run]
    rfl

end Collector

end SchemaBinding
