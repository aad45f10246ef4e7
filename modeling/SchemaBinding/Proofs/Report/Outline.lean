import SchemaBinding.Proofs.Binding.Pairing
import SchemaBinding.Proofs.Report.Walk

/-!
Contract: what of a tree may show in its diagnostics, and what never does.

Owns:
- `Block.SameOutline`, two blocks that agree on names, and on the places of names, as far as
  a schema declares what is nested; and
- `diagnostics_opaque`, by which nothing else shows.

Does not own: the bound tree, in which all the rest of the source can be found.

Labels, expressions, spans of bodies, braces and whole attributes are opaque, and so is all
that stands in a block of undeclared type: its type name is reported and nothing inside it.
-/

set_option autoImplicit false

namespace SchemaBinding

/-! ## Outlines -/

/-- Two attributes filed under one name, which have one name at one place. -/
structure SameHeading (entry other : String × Attribute) : Prop where
  key : entry.1 = other.1
  name : entry.2.name = other.2.name
  nameSpan : entry.2.nameSpan = other.2.nameSpan

/-- Two blocks of one type, with the type name at one place. -/
structure SameMention (block other : Block) : Prop where
  typeName : block.typeName = other.typeName
  typeSpan : block.typeSpan = other.typeSpan

/-- The two have one type name, attributes with the same headings and nested blocks with the
same mentions, and wherever the schema declares the type of a nested block its outline is
the same on both sides too, as far as the declared schema goes. -/
inductive Block.SameOutline : BlockSchema → Block → Block → Prop where
  | intro {schema : BlockSchema} {first second : Block}
      (typeName : first.typeName = second.typeName)
      (attributes : List.Forall₂ SameHeading first.body.attributes.entries
        second.body.attributes.entries)
      (mentions : List.Forall₂ SameMention first.body.blocks second.body.blocks)
      (declared : ∀ child other,
        (child, other) ∈ first.body.blocks.zip second.body.blocks →
          ∀ nested, schema.nested.find? child.typeName = some nested →
            Block.SameOutline nested.block child other) :
      Block.SameOutline schema first second

/-- A nested block and the block that stands in its place on the other side. -/
structure OutlinedTogether (parent : Block) (schema : BlockSchema) (child other : Block) :
    Prop where
  member : child ∈ parent.body.blocks
  mention : SameMention child other
  declared :
    ∀ nested, schema.nested.find? child.typeName = some nested →
      child.SameOutline nested.block other

theorem OutlinedTogether.typeName_eq {parent : Block} {schema : BlockSchema}
    (child other : Block) (pair : OutlinedTogether parent schema child other) :
    child.typeName = other.typeName :=
  pair.mention.typeName

namespace Block.SameOutline

variable {schema : BlockSchema} {first second : Block}

theorem typeName (same : first.SameOutline schema second) :
    first.typeName = second.typeName := by
  cases same with
  | intro typeName _ _ _ => exact typeName

theorem attributes (same : first.SameOutline schema second) :
    List.Forall₂ SameHeading first.body.attributes.entries second.body.attributes.entries := by
  cases same with
  | intro _ attributes _ _ => exact attributes

theorem nested (same : first.SameOutline schema second) :
    List.Forall₂ (OutlinedTogether first schema) first.body.blocks second.body.blocks := by
  cases same with
  | intro _ _ mentions declared =>
      obtain ⟨sameLength, mentioned⟩ := List.forall₂_iff_zip.1 mentions
      refine List.forall₂_iff_zip.2 ⟨sameLength, ?_⟩
      intro child other pair
      exact ⟨(List.of_mem_zip pair).1, mentioned pair, declared child other pair⟩

/-! ## Reports -/

theorem unknownAttributes_reports (same : first.SameOutline schema second)
    (severity : Severity) (parent : String) :
    (unknownAttributes first.body.attributes schema.attributes).values.map
        (Diagnostic.unknownAttribute severity parent)
      = (unknownAttributes second.body.attributes schema.attributes).values.map
          (Diagnostic.unknownAttribute severity parent) := by
  have undeclared :
      List.Forall₂ SameHeading
        (unknownAttributes first.body.attributes schema.attributes).entries
        (unknownAttributes second.body.attributes schema.attributes).entries := by
    refine List.rel_filter ?_ same.attributes
    intro entry other heading
    show (!schema.attributes.contains entry.1) = true
      ↔ (!schema.attributes.contains other.1) = true
    rw [heading.key]
  unfold NamedList.values
  rw [List.map_map, List.map_map]
  apply map_eq_of_forall₂ ?_ undeclared
  intro entry other heading
  show Diagnostic.unknownAttribute severity parent entry.2
    = Diagnostic.unknownAttribute severity parent other.2
  unfold Diagnostic.unknownAttribute
  rw [heading.name, heading.nameSpan]

theorem unknownBlocks_reports (same : first.SameOutline schema second)
    (severity : Severity) (parent : String) :
    (unknownBlocks first.body.blocks schema.nested).map
        (Diagnostic.unknownBlock severity parent)
      = (unknownBlocks second.body.blocks schema.nested).map
          (Diagnostic.unknownBlock severity parent) := by
  apply map_eq_of_forall₂ ?_
    (unknownBlocks_forall₂ OutlinedTogether.typeName_eq (fun _ => rfl) same.nested)
  intro child other pair
  unfold Diagnostic.unknownBlock
  rw [pair.mention.typeName, pair.mention.typeSpan]

end Block.SameOutline

/-- A walk looks at nothing but the outline. -/
theorem walk_eq_of_sameOutline (options : ReportOptions) (block : Block) :
    ∀ {schema : BlockSchema} {second : Block}, block.SameOutline schema second →
      block.walk options schema = second.walk options schema := by
  induction block using Block.inductionOn with
  | step block inductionHypothesis =>
      intro schema second same
      rw [Block.walk_eq, Block.walk_eq, ownFindings, ownFindings, same.typeName,
        same.unknownAttributes_reports, same.unknownBlocks_reports]
      congr 2
      rw [List.flatMap_def, List.flatMap_def]
      apply congrArg List.flatten
      apply map_eq_of_forall₂ ?_
        (groupedBlocks_forall₂ OutlinedTogether.typeName_eq (fun _ => rfl) same.nested)
      intro child other pair
      rw [← pair.mention.typeName]
      cases found : schema.nested.find? child.typeName with
      | none => rfl
      | some nested => exact inductionHypothesis child pair.member (pair.declared nested found)

/-- Blocks that have the same outline along what a schema declares have the same diagnostics
when they are bound against it, whatever their labels are, and whatever else they hold. -/
theorem diagnostics_opaque (options : ReportOptions) (schema : Option BlockSchema)
    (first second : Block) (labels otherLabels : List Label)
    (same : ∀ declared, schema = some declared → first.SameOutline declared second) :
    (bindBlock (some first) labels schema).diagnostics options
      = (bindBlock (some second) otherLabels schema).diagnostics options := by
  apply congrArg Diagnostic.inOrder
  cases schema with
  | none => rfl
  | some declared =>
      show (bindPresent first labels declared).findings options
        = (bindPresent second otherLabels declared).findings options
      rw [findings_bindPresent, findings_bindPresent]
      exact walk_eq_of_sameOutline options first (same declared rfl)

/-! ## A server with more in its port -/

/-- The server with an attribute and a disk inside its port, a path in its mount, labels and
another value of its name. -/
def fullServerOutline : Block :=
  let port := outline "port" ["speed"] [outline "disk" ["size"] []]
  let disk := outline "disk" [] [outline "mount" ["path"] [], partitionOutline]
  let server := outline "server" [] [outline "disk" [] [], port, disk.addLabel "data" default]
  { server.addLabel "main" default with
    body := server.body.addAttribute
      { (default : Attribute) with
        name := "name"
        expression := { text := "primary", span := default } } }

theorem serverOutline_sameOutline :
    serverOutline.SameOutline serverSchema fullServerOutline := by
  refine .intro rfl (.cons ⟨rfl, rfl, rfl⟩ .nil)
    (.cons ⟨rfl, rfl⟩ (.cons ⟨rfl, rfl⟩ (.cons ⟨rfl, rfl⟩ .nil))) ?_
  intro child other pair nested found
  rcases List.mem_cons.1 pair with here | pair
  · cases here
    cases found
    exact .intro rfl .nil .nil nofun
  rcases List.mem_cons.1 pair with here | pair
  · cases here
    cases found
  · cases List.mem_singleton.1 pair
    cases found
    refine .intro rfl .nil (.cons ⟨rfl, rfl⟩ (.cons ⟨rfl, rfl⟩ .nil)) ?_
    intro child other pair nested found
    rcases List.mem_cons.1 pair with here | pair
    · cases here
      cases found
    · cases List.mem_singleton.1 pair
      cases found
      exact .intro rfl (List.forall₂_same.2 fun _ _ => ⟨rfl, rfl, rfl⟩) .nil nofun

/-- The port and the mount are reported by their types on both sides, and nothing inside
them is. -/
theorem serverOutline_opaque :
    (∀ declared, some serverSchema = some declared →
        serverOutline.SameOutline declared fullServerOutline) ∧
      (bindBlock (some serverOutline) [] (some serverSchema)).diagnostics {}
        = (bindBlock (some fullServerOutline) fullServerOutline.labels
            (some serverSchema)).diagnostics {} := by
  have same : ∀ declared, some serverSchema = some declared →
      serverOutline.SameOutline declared fullServerOutline := by
    intro declared here
    cases here
    exact serverOutline_sameOutline
  exact ⟨same, diagnostics_opaque {} (some serverSchema) serverOutline fullServerOutline []
    fullServerOutline.labels same⟩

end SchemaBinding
