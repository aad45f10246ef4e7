import SchemaBinding.Proofs.Report.Runs

/-!
Contract: collectors whose calls come in another order.

Owns:
- `finish_run`, by which a run shows what its steps report, in order; and
- `Collector.runs_interleave`, by which the order of the steps shows in nothing but the order
  of diagnostics that start at one place, and collecting bound blocks together shows what
  collecting each of them alone shows, put in order once more.

Does not own: what a step reports, which is settled for each step by itself.
-/

set_option autoImplicit false

namespace SchemaBinding

/-- The same diagnostics found in another order start at the same places when shown. -/
theorem inOrder_places_eq {found other : List Diagnostic} (same : found.Perm other) :
    (Diagnostic.inOrder found).map Diagnostic.place
      = (Diagnostic.inOrder other).map Diagnostic.place := by
  apply List.Perm.eq_of_pairwise ?_ (inOrder_stableSort found).places
    (inOrder_stableSort other).places ((inOrder_perm same).map Diagnostic.place)
  intro first second _ _ forward backward
  obtain ⟨earlier, rfl⟩ := Diagnostic.exists_place_eq first
  obtain ⟨later, rfl⟩ := Diagnostic.exists_place_eq second
  apply Diagnostic.ties_iff_place_eq.1
  exact Diagnostic.ties_of_mayPrecede (Diagnostic.mayPrecede_iff_place_le.2 forward)
    (Diagnostic.mayPrecede_iff_place_le.2 backward)

namespace Collector

theorem finish_run (options : ReportOptions) (steps : List Step) :
    ((fresh options).run steps).finish
      = Diagnostic.inOrder (steps.flatMap (Step.alone options)) :=
  congrArg Diagnostic.inOrder (diagnostics_run_fresh options steps)

theorem alone_collect (options : ReportOptions) (bound : BoundBlock) :
    (Step.collect bound).alone options = bound.findings options :=
  rfl

/-- Collecting bound blocks one after another sorts what each of them alone shows. -/
theorem stableSort_run_collect (options : ReportOptions) (bounds : List BoundBlock) :
    StableSort (bounds.flatMap fun bound => bound.diagnostics options)
      ((fresh options).run (bounds.map .collect)).finish := by
  have together :
      ((fresh options).run (bounds.map .collect)).finish
        = Diagnostic.inOrder (bounds.flatMap (BoundBlock.findings options)) := by
    rw [finish_run, List.flatMap_map]
    simp only [alone_collect]
  -- What is shown of each block and what is found in it are the same but for the order, and
  -- ties are in the same order, so the two concatenations are sorted alike.
  have fromShown :=
    inOrder_stableSort (bounds.flatMap fun bound => bound.diagnostics options)
  have fromFound : StableSort (bounds.flatMap (BoundBlock.findings options)) _ :=
    fromShown.flatMap fun bound _ => inOrder_stableSort (bound.findings options)
  rw [together, (inOrder_stableSort _).unique fromFound]
  exact fromShown

/-- Runs of the same steps in different orders show the same diagnostics, at the same places
one by one, and in the same order unless two of them start at one place. Bound blocks that
are collected together show the stable sort, which is one list, of what they show when each
is collected alone. -/
theorem runs_interleave (options : ReportOptions) :
    (∀ steps others : List Step, steps.Perm others →
      ((fresh options).run steps).finish.Perm ((fresh options).run others).finish ∧
        ((fresh options).run steps).finish.map Diagnostic.place
          = ((fresh options).run others).finish.map Diagnostic.place ∧
        (Untied ((fresh options).run steps).diagnostics →
          ((fresh options).run steps).finish = ((fresh options).run others).finish)) ∧
      ∀ (bounds : List BoundBlock) (shown : List Diagnostic),
        StableSort (bounds.flatMap fun bound => bound.diagnostics options) shown ↔
          shown = ((fresh options).run (bounds.map .collect)).finish := by
  constructor
  · intro steps others same
    have reported :
        (steps.flatMap (Step.alone options)).Perm (others.flatMap (Step.alone options)) :=
      same.flatMap_right _
    rw [finish_run, finish_run, diagnostics_run_fresh]
    exact ⟨inOrder_perm reported, inOrder_places_eq reported, inOrder_eq_of_untied reported⟩
  · intro bounds shown
    have sorted := stableSort_run_collect options bounds
    constructor
    · intro another
      exact another.unique sorted
    · rintro rfl
      exact sorted

/-! ## Calls in two orders -/

/-- A place on the first line. -/
def spotAt (file : String) (byte : Nat) : Span :=
  Span.emptyAt file { line := 1, column := byte + 1, byte }

/-- A block whose spans are all taken to be the place of its type name. -/
def spotBlock (typeName : String) (place : Span) (attributes : List Attribute)
    (blocks : List Block) : Block :=
  Block.unlabelled typeName place
    { Body.empty place with
      attributes := NamedMap.fileAll Attribute.name attributes {}
      blocks }

def spotAttribute (name : String) (place : Span) : Attribute :=
  { (default : Attribute) with name, nameSpan := place }

/-- A zone with its record. Neither `serial` of the zone nor `class` of the record is
declared. -/
def boundZone : BoundBlock :=
  bindBlock
    (some
      (spotBlock "zone" (spotAt "dns.conf" 20) [spotAttribute "serial" (spotAt "dns.conf" 26)]
        [spotBlock "record" (spotAt "dns.conf" 40)
          [spotAttribute "class" (spotAt "dns.conf" 48)] []]))
    [] (some { nested := ⟨[("record", { typeName := "record", nesting := .set, block := {} })]⟩ })

/-- A message, an undeclared attribute, an undeclared block, a block that could not be
recovered and a bound block with its nested block, in two files. -/
def scatteredSteps : List Step :=
  [.add { span := spotAt "main.conf" 9, severity := .hint, message := "late" },
    .unknownAttribute "server" (spotAttribute "port" (spotAt "main.conf" 4)),
    .collect boundZone,
    .unknownBlock "server" (spotBlock "disk" (spotAt "main.conf" 2) [] []),
    .formatMismatch { format := .json, typeName := "zone", typeSpan := spotAt "dns.conf" 7 }]

/-- What they report starts at six different places, so it is shown in one order. -/
theorem scatteredSteps_interleave :
    scatteredSteps.Perm scatteredSteps.reverse ∧
      Untied ((fresh {}).run scatteredSteps).diagnostics ∧
      ((fresh {}).run scatteredSteps).finish
        = ((fresh {}).run scatteredSteps.reverse).finish := by
  have same : scatteredSteps.Perm scatteredSteps.reverse := (List.reverse_perm _).symm
  have untied : Untied ((fresh {}).run scatteredSteps).diagnostics := by decide
  exact ⟨same, untied, ((runs_interleave {}).1 _ _ same).2.2 untied⟩

end Collector

end SchemaBinding
