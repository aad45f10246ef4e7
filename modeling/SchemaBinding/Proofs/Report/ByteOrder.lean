import SchemaBinding.Proofs.Report.Walk
import SchemaBinding.Proofs.Source.ReadingOrder

/-!
Contract: the order of diagnostics as positions in the bytes of their files.

Owns:
- `Span.Measured` and `Block.Measured`, spans that were measured in the texts of their
  files; and
- `diagnostics_byteOrdered`, by which diagnostics at measured spans stand in the order of
  their bytes.

Does not own: the order in which diagnostics are sorted. That one compares lines and
columns before bytes, and agrees with bytes only where one text lies behind both.
-/

set_option autoImplicit false

namespace SchemaBinding

/-- The span of some stretch of its file, where `texts` tells the text of each file. -/
def Span.Measured (texts : String → String) (span : Span) : Prop :=
  ∃ start stop, span = Span.ofOffsets span.file (texts span.file) start stop

/-- All names of attributes and all type names have measured spans, at every depth. -/
inductive Block.Measured (texts : String → String) : Block → Prop where
  | intro {block : Block}
      (typeName : block.typeSpan.Measured texts)
      (attributes : ∀ assignment ∈ block.body.attributes.values,
        assignment.nameSpan.Measured texts)
      (nested : ∀ child ∈ block.body.blocks, Block.Measured texts child) :
      Block.Measured texts block

/-- Shown in the order of bytes: by file name, and within a file by the byte at which the
span starts. -/
def Diagnostic.ByteOrdered (shown : List Diagnostic) : Prop :=
  shown.Pairwise fun first second =>
    first.span.file < second.span.file ∨
      (first.span.file = second.span.file ∧
        first.span.start.byte ≤ second.span.start.byte)

section

variable {texts : String → String}

/-! ## Where findings are reported -/

theorem Block.Measured.typeName {block : Block} (measured : block.Measured texts) :
    block.typeSpan.Measured texts := by
  cases measured with
  | intro typeName _ _ => exact typeName

/-- A walk through a measured tree reports at measured spans only. -/
theorem measured_of_mem_walk (options : ReportOptions) (block : Block) :
    ∀ (schema : BlockSchema), block.Measured texts →
      ∀ diagnostic ∈ block.walk options schema, diagnostic.span.Measured texts := by
  induction block using Block.inductionOn with
  | step block inductionHypothesis =>
      intro schema measured diagnostic reported
      cases measured with
      | intro _ attributes nested =>
          rw [Block.walk_eq, ownFindings, List.mem_append, List.mem_append] at reported
          rcases reported with (ownAttribute | ownBlock) | inside
          · obtain ⟨assignment, listed, rfl⟩ := List.mem_map.1 ownAttribute
            obtain ⟨entry, filed, rfl⟩ := List.mem_map.1 listed
            have member := (List.mem_filter.1 filed).1
            exact attributes entry.2 (List.mem_map_of_mem member)
          · obtain ⟨child, listed, rfl⟩ := List.mem_map.1 ownBlock
            have member := (List.mem_filter.1 listed).1
            exact (nested child member).typeName
          · by_cases recursive : options.recursive = true
            · rw [if_pos recursive] at inside
              obtain ⟨child, grouped, walked⟩ := List.mem_flatMap.1 inside
              have member := (mem_groupedBlocks.1 grouped).1
              cases declared : schema.nested.find? child.typeName with
              | none => simp [declared] at walked
              | some declaration =>
                  rw [declared] at walked
                  exact inductionHypothesis child member declaration.block
                    (nested child member) diagnostic walked
            · simp [recursive] at inside

theorem measured_of_mem_findings (options : ReportOptions) {block : Option Block}
    (labels : List Label) (schema : Option BlockSchema)
    (measured : ∀ present, block = some present → present.Measured texts) :
    ∀ diagnostic ∈ (bindBlock block labels schema).findings options,
      diagnostic.span.Measured texts := by
  intro diagnostic found
  cases block with
  | none => cases found
  | some present =>
      cases schema with
      | none => cases found
      | some declared =>
          have walked : diagnostic ∈ present.walk options declared := by
            rw [← findings_bindPresent options present labels declared]
            exact found
          exact measured_of_mem_walk options present declared (measured present rfl)
            diagnostic walked

/-! ## The order of measured diagnostics -/

/-- Of two measured diagnostics the one shown first starts at no later byte. -/
theorem byte_le_of_mayPrecede {first second : Diagnostic}
    (firstMeasured : first.span.Measured texts) (secondMeasured : second.span.Measured texts)
    (order : first.mayPrecede second = true) :
    first.span.file < second.span.file ∨
      (first.span.file = second.span.file ∧
        first.span.start.byte ≤ second.span.start.byte) := by
  rcases Diagnostic.mayPrecede_iff.1 order with earlierFile | ⟨sameFile, start⟩
  · exact Or.inl earlierFile
  · obtain ⟨offset, _, firstStart⟩ := firstMeasured
    obtain ⟨otherOffset, _, secondStart⟩ := secondMeasured
    right
    refine ⟨sameFile, ?_⟩
    rw [firstStart, secondStart, ← sameFile] at start ⊢
    exact Position.byte_le_of_atOffset_le start

/-- Where every name and every type name of a tree was measured in the text of its file,
diagnostics come in the order of bytes, for any schema and any options. -/
theorem diagnostics_byteOrdered (options : ReportOptions) (block : Option Block)
    (labels : List Label) (schema : Option BlockSchema)
    (measured : ∀ present, block = some present → present.Measured texts) :
    Diagnostic.ByteOrdered ((bindBlock block labels schema).diagnostics options) := by
  have sorted :=
    inOrder_stableSort ((bindBlock block labels schema).findings options)
  have shownMeasured :
      ∀ diagnostic ∈ (bindBlock block labels schema).diagnostics options,
        diagnostic.span.Measured texts := by
    intro diagnostic shown
    have found := sorted.same.mem_iff.1 shown
    exact measured_of_mem_findings options labels schema measured diagnostic found
  refine sorted.ordered.imp_of_mem ?_
  intro first second firstShown secondShown order
  exact byte_le_of_mayPrecede (shownMeasured first firstShown)
    (shownMeasured second secondShown) order

end

/-! ## A server in two lines -/

def serverText : String := "server \x7b\n  é = 1 port \x7b\x7d\n\x7d"

def serverSpan (start stop : Nat) : Span :=
  Span.ofOffsets "main.conf" serverText start stop

/-- An attribute and, after it on the same line, a block. The name of the attribute has
two bytes. -/
def serverBlock : Block :=
  Block.unlabelled "server" (serverSpan 0 6)
    (((Body.empty (serverSpan 7 27)).addAttribute
        { (default : Attribute) with name := "é", nameSpan := serverSpan 11 13 }).addBlock
      (Block.unlabelled "port" (serverSpan 18 22) (Body.empty (serverSpan 23 25))))

theorem serverBlock_measured : serverBlock.Measured fun _ => serverText := by
  refine .intro ⟨0, 6, rfl⟩ ?_ ?_
  · intro assignment member
    cases List.mem_singleton.1 member
    exact ⟨11, 13, rfl⟩
  · intro child member
    cases List.mem_singleton.1 member
    exact .intro ⟨18, 22, rfl⟩ nofun nofun

/-- Against a schema that declares nothing, the attribute is reported before the block. -/
theorem serverBlock_byteOrdered :
    (∀ present, some serverBlock = some present →
        present.Measured fun _ => serverText) ∧
      Diagnostic.ByteOrdered
        ((bindBlock (some serverBlock) [] (some {})).diagnostics {}) := by
  have measured : ∀ present, some serverBlock = some present →
      present.Measured fun _ => serverText := by
    intro present same
    cases same
    exact serverBlock_measured
  exact ⟨measured, diagnostics_byteOrdered {} (some serverBlock) [] (some {}) measured⟩

end SchemaBinding
