import SchemaBinding.Proofs.Binding.Pairing
import SchemaBinding.Proofs.Report.Walk

/-!
Contract: what the options of a report change, and what they leave alone.

Owns:
- `ownReports`, what is reported of a block itself, whatever stands inside its nested blocks;
- `Diagnostic.SameReport`, one report under two choices of severities; and
- `diagnostics_byOptions`, by which looking into nested blocks only adds reports, and
  severities show in nothing but themselves.

Does not own: the place of a report among others. Reports of nested blocks may stand between
those of the block itself, also where they start at one place.
-/

set_option autoImplicit false

namespace SchemaBinding

/-- The same options, where nested blocks are left alone. -/
def ReportOptions.shallow (options : ReportOptions) : ReportOptions :=
  { options with recursive := false }

/-- The same options, where known nested blocks are looked into. -/
def ReportOptions.deep (options : ReportOptions) : ReportOptions :=
  { options with recursive := true }

@[simp]
theorem ReportOptions.recursive_shallow (options : ReportOptions) :
    options.shallow.recursive = false :=
  rfl

@[simp]
theorem ReportOptions.recursive_deep (options : ReportOptions) :
    options.deep.recursive = true :=
  rfl

/-- What a block is itself reported for: its undeclared attributes and then its undeclared
nested blocks. Nothing is reported without a block or without a schema. -/
def ownReports (options : ReportOptions) : Option Block → Option BlockSchema → List Diagnostic
  | some block, some schema =>
      ((block.body.attributes.entries.filter fun entry =>
          !schema.attributes.contains entry.1).map fun entry =>
            .unknownAttribute options.attributeSeverity block.typeName entry.2)
        ++ (block.body.blocks.filter fun child =>
          !schema.nested.contains child.typeName).map
            (.unknownBlock options.blockSeverity block.typeName)
  | _, _ => []

namespace Diagnostic

/-- The code is one of the two codes of undeclared parts, and the severity is what the options
say of such parts. -/
def Graded (options : ReportOptions) (diagnostic : Diagnostic) : Prop :=
  (diagnostic.code = some "H0001" ∧ diagnostic.severity = options.attributeSeverity) ∨
    (diagnostic.code = some "H0002" ∧ diagnostic.severity = options.blockSeverity)

/-- One report under two choices of options: all the same but for the severity, which is on
either side the one of the options there. -/
structure SameReport (first second : ReportOptions) (diagnostic other : Diagnostic) : Prop where
  span : diagnostic.span = other.span
  code : diagnostic.code = other.code
  message : diagnostic.message = other.message
  graded : diagnostic.Graded first
  otherGraded : other.Graded second

variable {first second : ReportOptions}

theorem SameReport.unknownAttribute (parent : String) (found : Attribute) :
    SameReport first second (.unknownAttribute first.attributeSeverity parent found)
      (.unknownAttribute second.attributeSeverity parent found) where
  span := rfl
  code := rfl
  message := rfl
  graded := Or.inl ⟨rfl, rfl⟩
  otherGraded := Or.inl ⟨rfl, rfl⟩

theorem SameReport.unknownBlock (parent : String) (found : Block) :
    SameReport first second (.unknownBlock first.blockSeverity parent found)
      (.unknownBlock second.blockSeverity parent found) where
  span := rfl
  code := rfl
  message := rfl
  graded := Or.inr ⟨rfl, rfl⟩
  otherGraded := Or.inr ⟨rfl, rfl⟩

end Diagnostic

/-! ## Severities -/

section

variable {first second : ReportOptions}

theorem ownFindings_sameReport (parent : String) (attributes : NamedMap Attribute)
    (blocks : List Block) :
    List.Forall₂ (Diagnostic.SameReport first second)
      (ownFindings first parent attributes blocks)
      (ownFindings second parent attributes blocks) := by
  unfold ownFindings
  apply List.rel_append
  · rw [List.forall₂_map_left_iff, List.forall₂_map_right_iff, List.forall₂_same]
    intro found _
    exact .unknownAttribute parent found
  · rw [List.forall₂_map_left_iff, List.forall₂_map_right_iff, List.forall₂_same]
    intro found _
    exact .unknownBlock parent found

/-- Walks under options that agree on nested blocks report the same, one by one. -/
theorem walk_sameReport (sameDepth : first.recursive = second.recursive) (block : Block) :
    ∀ schema : BlockSchema,
      List.Forall₂ (Diagnostic.SameReport first second) (block.walk first schema)
        (block.walk second schema) := by
  induction block using Block.inductionOn with
  | step block inductionHypothesis =>
      intro schema
      rw [Block.walk_eq, Block.walk_eq, ← sameDepth]
      apply List.rel_append
      · exact ownFindings_sameReport _ _ _
      · cases first.recursive with
        | false => exact .nil
        | true =>
            apply forall₂_flatMap
            intro child grouped
            have member := (mem_groupedBlocks.1 grouped).1
            cases schema.nested.find? child.typeName with
            | none => exact .nil
            | some nested => exact inductionHypothesis child member nested.block

theorem findings_sameReport (sameDepth : first.recursive = second.recursive)
    (labels : List Label) :
    ∀ (block : Option Block) (schema : Option BlockSchema),
      List.Forall₂ (Diagnostic.SameReport first second)
        ((bindBlock block labels schema).findings first)
        ((bindBlock block labels schema).findings second)
  | none, _ => .nil
  | some _, none => .nil
  | some block, some schema => by
      show List.Forall₂ _ ((bindPresent block labels schema).findings first)
        ((bindPresent block labels schema).findings second)
      rw [findings_bindPresent, findings_bindPresent]
      exact walk_sameReport sameDepth block schema

end

/-! ## Nested blocks -/

section

variable (options : ReportOptions) (labels : List Label)

theorem findings_shallow :
    ∀ (block : Option Block) (schema : Option BlockSchema),
      (bindBlock block labels schema).findings options.shallow
        = ownReports options block schema
  | none, _ => rfl
  | some _, none => rfl
  | some block, some schema => by
      show (bindPresent block labels schema).findings options.shallow = _
      rw [findings_bindPresent, Block.walk_eq, ownReports, ownFindings, NamedList.values,
        unknownAttributes, List.map_map]
      exact List.append_nil _

/-- Looking into nested blocks adds their findings after those of the block itself. -/
theorem findings_deep :
    ∀ (block : Option Block) (schema : Option BlockSchema),
      (bindBlock block labels schema).findings options.deep
        = (bindBlock block labels schema).findings options.shallow
          ++ (bindBlock block labels schema).nestedBlocks.flatMap
              (BoundBlock.findings options.deep)
  | none, _ => rfl
  | some _, none => rfl
  | some block, some schema => by
      have source := bindPresent_source block labels schema
      have against := bindPresent_schema block labels schema
      have shallow := BoundBlock.findings_eq options.shallow source against
      have deep := BoundBlock.findings_eq options.deep source against
      rw [options.recursive_shallow, if_neg Bool.false_ne_true, List.append_nil] at shallow
      rw [options.recursive_deep, if_pos rfl] at deep
      show (bindPresent block labels schema).findings options.deep
        = (bindPresent block labels schema).findings options.shallow ++ _
      rw [deep, shallow]
      rfl

theorem diagnostics_deep_perm (block : Option Block) (schema : Option BlockSchema) :
    ((bindBlock block labels schema).diagnostics options.deep).Perm
      ((bindBlock block labels schema).diagnostics options.shallow
        ++ (bindBlock block labels schema).nestedBlocks.flatMap fun nested =>
            nested.diagnostics options.deep) := by
  unfold BoundBlock.diagnostics
  apply (inOrder_stableSort _).same.trans
  rw [findings_deep]
  apply List.Perm.append
  · exact (inOrder_stableSort _).same.symm
  · exact .flatMap_left _ fun nested _ => (inOrder_stableSort _).same.symm

end

/-- Where nested blocks are left alone, what is shown are the reports of the block itself, in
the order in which they are shown among all others, and what is missing is what each known
nested block shows. Options that differ in severities only show the same reports one by one,
each with the severity that goes with its code. -/
theorem diagnostics_byOptions (block : Option Block) (labels : List Label)
    (schema : Option BlockSchema) :
    (∀ options : ReportOptions,
      StableSort (ownReports options block schema)
          ((bindBlock block labels schema).diagnostics options.shallow) ∧
        ((bindBlock block labels schema).diagnostics options.shallow).Sublist
          ((bindBlock block labels schema).diagnostics options.deep) ∧
        ((bindBlock block labels schema).diagnostics options.deep).Perm
          ((bindBlock block labels schema).diagnostics options.shallow
            ++ (bindBlock block labels schema).nestedBlocks.flatMap fun nested =>
                nested.diagnostics options.deep)) ∧
      ∀ first second : ReportOptions, first.recursive = second.recursive →
        List.Forall₂ (Diagnostic.SameReport first second)
          ((bindBlock block labels schema).diagnostics first)
          ((bindBlock block labels schema).diagnostics second) := by
  constructor
  · intro options
    refine ⟨?_, ?_, diagnostics_deep_perm options labels block schema⟩
    · rw [← findings_shallow options labels block schema]
      exact inOrder_stableSort _
    · apply inOrder_sublist
      rw [findings_deep]
      exact List.sublist_append_left _ _
  · intro first second sameDepth
    apply inOrder_forall₂ fun _ _ same => same.span
    exact findings_sameReport sameDepth labels block schema

/-- The undeclared port of the server and the undeclared mount in its disk are hints where
the options say so, and nothing else is. -/
theorem serverOutline_byOptions :
    ({} : ReportOptions).recursive
        = { attributeSeverity := .info, blockSeverity := .hint : ReportOptions }.recursive ∧
      List.Forall₂
        (Diagnostic.SameReport {} { attributeSeverity := .info, blockSeverity := .hint })
        ((bindBlock (some serverOutline) [] (some serverSchema)).diagnostics {})
        ((bindBlock (some serverOutline) [] (some serverSchema)).diagnostics
          { attributeSeverity := .info, blockSeverity := .hint }) :=
  ⟨rfl, (diagnostics_byOptions (some serverOutline) [] (some serverSchema)).2 {} _ rfl⟩

end SchemaBinding
