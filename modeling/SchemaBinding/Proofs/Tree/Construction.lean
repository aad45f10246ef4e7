import SchemaBinding.Tree.Handle

/-!
Contract: blocks and handles that are built label by label.

Owns:
- `addLabels`, the labels of a sequence added one after another, to a block and to a
  handle;
- `Block.toHandle`, what a look-up across formats shows of a block;
- `BlockHandle.Matches`, which relates a handle and a block built side by side; and
- `toBlock?_addLabels`, by which recovery turns the one into the other.

Does not own: braces, which a handle does not have and recovery takes from the body.

A handle extends its header with each label, whereas a block computes its header from the
last of its label spans. The two agree after any number of labels, whatever their spans.
-/

set_option autoImplicit false

namespace SchemaBinding

/-! ## Label after label -/

/-- Adds labels in order, each given by its value and its span. -/
def Block.addLabels (block : Block) (labels : List (String × Span)) : Block :=
  labels.foldl (fun block label => block.addLabel label.1 label.2) block

/-- Adds labels in order, each given by its value and its span. -/
def BlockHandle.addLabels (handle : BlockHandle) (labels : List (String × Span)) :
    BlockHandle :=
  labels.foldl (fun handle label => handle.addLabel label.1 label.2) handle

/-- Strips a block down to what a handle knows: its type, its body and the labels that
have a span. -/
def Block.toHandle (block : Block) : BlockHandle :=
  (BlockHandle.unlabelled block.typeName block.typeSpan (.native block.body)).addLabels
    (block.labelValues.zip block.labelSpans)

/-- Adding labels appends to the two lists of labels and leaves the rest alone. -/
theorem Block.addLabels_eq (labels : List (String × Span)) :
    ∀ block : Block,
      block.addLabels labels
        = { block with
            labelValues := block.labelValues ++ labels.map Prod.fst
            labelSpans := block.labelSpans ++ labels.map Prod.snd } := by
  induction labels with
  | nil =>
      rintro ⟨_, values, _, _, spans, _, _⟩
      simp [Block.addLabels]
  | cons label rest inductionHypothesis =>
      intro block
      show (block.addLabel label.1 label.2).addLabels rest = _
      rw [inductionHypothesis]
      simp [Block.addLabel]

/-! ## Side by side -/

/-- The handle shows the block: the block is what is recovered from it, and the header
that it has kept is the one that the block computes. -/
structure BlockHandle.Matches (handle : BlockHandle) (block : Block) : Prop where
  recovered : handle.toBlock = .ok block
  header : handle.header = block.header

namespace BlockHandle

/-- A block is recovered just from a native body, and then it takes over all of the
handle but its header. -/
theorem toBlock_eq_ok_iff {handle : BlockHandle} {block : Block} :
    handle.toBlock = .ok block ↔
      handle.body = .native block.body ∧
        block.typeName = handle.typeName ∧
        block.typeSpan = handle.typeSpan ∧
        block.labelValues = handle.labelValues ∧
        block.labelSpans = handle.labelSpans ∧
        (block.openBrace, block.closeBrace) = block.body.braces := by
  obtain ⟨typeName, labelValues, format, header, typeSpan, labelSpans⟩ := handle
  obtain ⟨ownName, ownValues, body, ownSpan, ownSpans, openBrace, closeBrace⟩ := block
  cases format with
  | native native =>
      simp only [toBlock, Except.ok.injEq, Block.mk.injEq, BodyHandle.native.injEq]
      constructor
      · rintro ⟨rfl, rfl, rfl, rfl, rfl, rfl, rfl⟩
        exact ⟨rfl, rfl, rfl, rfl, rfl, rfl⟩
      · rintro ⟨rfl, rfl, rfl, rfl, rfl, braces⟩
        cases braces
        exact ⟨rfl, rfl, rfl, rfl, rfl, rfl, rfl⟩
  | json span => simp [toBlock]
  | merged bodies => simp [toBlock]
  | empty => simp [toBlock]

theorem toBlock?_of_toBlock {handle : BlockHandle} {block : Block}
    (recovered : handle.toBlock = .ok block) : toBlock? (some handle) = .ok (some block) := by
  rw [toBlock?, recovered]
  rfl

theorem Matches.unlabelled (typeName : String) (typeSpan : Span) (body : Body) :
    (BlockHandle.unlabelled typeName typeSpan (.native body)).Matches
      (Block.unlabelled typeName typeSpan body) where
  recovered := rfl
  header := rfl

/-- A label added on both sides keeps handle and block together. -/
theorem Matches.addLabel {handle : BlockHandle} {block : Block}
    (matched : handle.Matches block) (value : String) (span : Span) :
    (handle.addLabel value span).Matches (block.addLabel value span) := by
  obtain ⟨body, typeName, typeSpan, values, spans, braces⟩ :=
    toBlock_eq_ok_iff.1 matched.recovered
  constructor
  · apply toBlock_eq_ok_iff.2
    simp only [BlockHandle.addLabel, Block.addLabel]
    exact ⟨body, typeName, typeSpan, by rw [values], by rw [spans], braces⟩
  · -- The block finds the new span at the end of its list, where the handle had it in hand.
    show Span.between handle.typeSpan span
      = headerSpan block.typeSpan (block.labelSpans ++ [span])
    rw [headerSpan, List.getLast?_concat, typeSpan]

theorem Matches.addLabels (labels : List (String × Span)) :
    ∀ {handle : BlockHandle} {block : Block}, handle.Matches block →
      (handle.addLabels labels).Matches (block.addLabels labels) := by
  induction labels with
  | nil =>
      intro handle block matched
      exact matched
  | cons label rest inductionHypothesis =>
      intro handle block matched
      have stepped := matched.addLabel label.1 label.2
      exact inductionHypothesis stepped

theorem toBlock?_eq_error_iff {handle : BlockHandle} :
    (∃ mismatch, toBlock? (some handle) = .error mismatch) ↔ handle.body.native? = none := by
  obtain ⟨_, _, format, _, _, _⟩ := handle
  cases format with
  | native body => simp [toBlock?, toBlock, BodyHandle.native?, Except.map]
  | json span => simp [toBlock?, toBlock, BodyHandle.native?, Except.map]
  | merged bodies => simp [toBlock?, toBlock, BodyHandle.native?, Except.map]
  | empty => simp [toBlock?, toBlock, BodyHandle.native?, Except.map]

theorem exists_toBlock_of_native {handle : BlockHandle} {native : Body}
    (isNative : handle.body.native? = some native) :
    ∃ block, handle.toBlock = .ok block ∧ block.body = native := by
  obtain ⟨_, _, format, _, _, _⟩ := handle
  cases format with
  | native body =>
      cases isNative
      exact ⟨_, rfl, rfl⟩
  | json span => cases isNative
  | merged bodies => cases isNative
  | empty => cases isNative

end BlockHandle

/-! ## Built from labels -/

section

variable (typeName : String) (typeSpan : Span) (body : Body) (labels : List (String × Span))

theorem labels_addLabels_unlabelled :
    ((Block.unlabelled typeName typeSpan body).addLabels labels).labels
      = labels.map fun label => { value := label.1, span := label.2 } := by
  rw [Block.addLabels_eq, Block.labels]
  simp only [Block.unlabelled, List.nil_append]
  rw [List.zipWith_map, List.zipWith_self]

theorem toHandle_addLabels_unlabelled :
    ((Block.unlabelled typeName typeSpan body).addLabels labels).toHandle
      = (BlockHandle.unlabelled typeName typeSpan (.native body)).addLabels labels := by
  rw [Block.addLabels_eq, Block.toHandle]
  simp only [Block.unlabelled, List.nil_append]
  rw [List.zip_map', List.map_id']

/-- A handle built label by label gives back the block built in the same way. At every
step the two have one header, the block has just the labels added, and stripping it leads
to the handle again. Of any handle the recovery fails exactly when the body is not native,
and else it keeps type, labels and body as they are, matching or not. -/
theorem toBlock?_addLabels :
    BlockHandle.toBlock?
          (some ((BlockHandle.unlabelled typeName typeSpan (.native body)).addLabels labels))
        = .ok (some ((Block.unlabelled typeName typeSpan body).addLabels labels)) ∧
      (∀ count,
        ((BlockHandle.unlabelled typeName typeSpan (.native body)).addLabels
            (labels.take count)).header
          = ((Block.unlabelled typeName typeSpan body).addLabels
              (labels.take count)).header) ∧
      ((Block.unlabelled typeName typeSpan body).addLabels labels).labels
        = labels.map (fun label => { value := label.1, span := label.2 }) ∧
      ((Block.unlabelled typeName typeSpan body).addLabels labels).toHandle
        = (BlockHandle.unlabelled typeName typeSpan (.native body)).addLabels labels ∧
      ∀ handle : BlockHandle,
        ((∃ mismatch, BlockHandle.toBlock? (some handle) = .error mismatch) ↔
          handle.body.native? = none) ∧
        ∀ native, handle.body.native? = some native →
          ∃ block,
            BlockHandle.toBlock? (some handle) = .ok (some block) ∧
              block.typeName = handle.typeName ∧
              block.typeSpan = handle.typeSpan ∧
              block.labelValues = handle.labelValues ∧
              block.labelSpans = handle.labelSpans ∧
              block.body = native := by
  have built (added : List (String × Span)) :
      ((BlockHandle.unlabelled typeName typeSpan (.native body)).addLabels added).Matches
        ((Block.unlabelled typeName typeSpan body).addLabels added) :=
    (BlockHandle.Matches.unlabelled typeName typeSpan body).addLabels added
  refine ⟨?_, ?_, labels_addLabels_unlabelled typeName typeSpan body labels,
    toHandle_addLabels_unlabelled typeName typeSpan body labels, ?_⟩
  · exact BlockHandle.toBlock?_of_toBlock (built labels).recovered
  · intro count
    exact (built (labels.take count)).header
  · intro handle
    refine ⟨BlockHandle.toBlock?_eq_error_iff, ?_⟩
    intro native isNative
    obtain ⟨block, recovered, ownBody⟩ := BlockHandle.exists_toBlock_of_native isNative
    obtain ⟨_, ownName, ownSpan, values, spans, _⟩ :=
      BlockHandle.toBlock_eq_ok_iff.1 recovered
    exact ⟨block, BlockHandle.toBlock?_of_toBlock recovered, ownName, ownSpan, values, spans,
      ownBody⟩

end

/-- Two labels with one span between them, as a malformed source leaves them. -/
def danglingHandle : BlockHandle :=
  { typeName := "disk"
    labelValues := ["data", "spare"]
    body := .native (Body.empty default)
    header := default
    typeSpan := default
    labelSpans := [default] }

/-- A handle with more labels than label spans is recovered with both. -/
theorem danglingHandle_recovered :
    danglingHandle.body.native? = some (Body.empty default) ∧
      ∃ block,
        BlockHandle.toBlock? (some danglingHandle) = .ok (some block) ∧
          block.typeName = danglingHandle.typeName ∧
          block.typeSpan = danglingHandle.typeSpan ∧
          block.labelValues = danglingHandle.labelValues ∧
          block.labelSpans = danglingHandle.labelSpans ∧
          block.body = Body.empty default :=
  ⟨rfl, ((toBlock?_addLabels "disk" default (Body.empty default) []).2.2.2.2
    danglingHandle).2 _ rfl⟩

end SchemaBinding
