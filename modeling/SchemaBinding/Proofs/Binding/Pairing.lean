import Mathlib.Data.List.Forall2
import SchemaBinding.Proofs.Binding.Grouping

/-!
Contract: two lists whose members go together one by one.

Owns:
- what a relation between members says of images, searches and parts of the two lists; and
- `groupedBlocks_forall₂`, by which blocks that go together in the order of the source still
  do so group by group.

Does not own: any one relation. Where groups are compared it only has to keep type names.
-/

set_option autoImplicit false

namespace SchemaBinding

/-! ## Members -/

section

variable {α β γ : Type} {related : α → β → Prop} {items : List α} {others : List β}

theorem map_eq_of_forall₂ {image : α → γ} {otherImage : β → γ}
    (same : ∀ item other, related item other → image item = otherImage other)
    (together : List.Forall₂ related items others) :
    items.map image = others.map otherImage := by
  induction together with
  | nil => rfl
  | cons here _ inductionHypothesis =>
      rw [List.map_cons, List.map_cons, same _ _ here, inductionHypothesis]

theorem rel_find?_of_forall₂ {test : α → Bool} {otherTest : β → Bool}
    (same : ∀ item other, related item other → test item = otherTest other)
    (together : List.Forall₂ related items others) :
    Option.Rel related (items.find? test) (others.find? otherTest) := by
  induction together with
  | nil => exact .none
  | @cons item other _ _ here _ inductionHypothesis =>
      rw [List.find?_cons, List.find?_cons, same item other here]
      cases otherTest other with
      | true => exact .some here
      | false => exact inductionHypothesis

theorem rel_bind {δ : Type} {result : γ → δ → Prop} {found : Option α} {otherFound : Option β}
    {next : α → Option γ} {otherNext : β → Option δ}
    (each : ∀ item other, related item other → Option.Rel result (next item) (otherNext other))
    (together : Option.Rel related found otherFound) :
    Option.Rel result (found.bind next) (otherFound.bind otherNext) := by
  cases together with
  | none => exact .none
  | some here => exact each _ _ here

/-- Parts that are the same up to order for each two members make up lists that are. -/
theorem flatMap_perm_of_forall₂ {parts : α → List γ} {otherParts : β → List γ}
    (each : ∀ item other, related item other → (parts item).Perm (otherParts other))
    (together : List.Forall₂ related items others) :
    (items.flatMap parts).Perm (others.flatMap otherParts) := by
  induction together with
  | nil => exact .nil
  | cons here _ inductionHypothesis =>
      rw [List.flatMap_cons, List.flatMap_cons]
      exact (each _ _ here).append inductionHypothesis

theorem forall₂_flatMap {keys : List γ} {parts : γ → List α} {otherParts : γ → List β}
    (together : ∀ key ∈ keys, List.Forall₂ related (parts key) (otherParts key)) :
    List.Forall₂ related (keys.flatMap parts) (keys.flatMap otherParts) := by
  induction keys with
  | nil => exact .nil
  | cons key rest inductionHypothesis =>
      rw [List.flatMap_cons, List.flatMap_cons]
      apply List.rel_append
      · exact together key List.mem_cons_self
      · exact inductionHypothesis fun other member =>
          together other (List.mem_cons_of_mem key member)

theorem beq_of_rel [BEq α] {found other : Option α}
    (together : Option.Rel (fun item another => (item == another) = true) found other) :
    (found == other) = true := by
  cases together with
  | none => rfl
  | some same => exact same

end

/-! ## Blocks -/

section

variable {related : Block → Block → Prop} {blocks others : List Block}

/-- A test of the types lets blocks through together. -/
theorem filter_typeName_forall₂ (keep otherKeep : String → Bool)
    (sameType : ∀ child other, related child other → child.typeName = other.typeName)
    (same : ∀ typeName, keep typeName = otherKeep typeName)
    (together : List.Forall₂ related blocks others) :
    List.Forall₂ related (blocks.filter fun child => keep child.typeName)
      (others.filter fun child => otherKeep child.typeName) := by
  refine List.rel_filter ?_ together
  intro child other pair
  show keep child.typeName = true ↔ otherKeep other.typeName = true
  rw [sameType child other pair, same]

theorem blocksOfType_forall₂
    (sameType : ∀ child other, related child other → child.typeName = other.typeName)
    (together : List.Forall₂ related blocks others) (typeName : String) :
    List.Forall₂ related (blocksOfType blocks typeName) (blocksOfType others typeName) :=
  filter_typeName_forall₂ (· == typeName) (· == typeName) sameType (fun _ => rfl) together

variable {declared otherDeclared : NamedList NestedSchema}

theorem unknownBlocks_forall₂
    (sameType : ∀ child other, related child other → child.typeName = other.typeName)
    (sameDeclared : ∀ typeName, declared.contains typeName = otherDeclared.contains typeName)
    (together : List.Forall₂ related blocks others) :
    List.Forall₂ related (unknownBlocks blocks declared)
      (unknownBlocks others otherDeclared) := by
  have sameUnknown : ∀ typeName,
      (!declared.contains typeName) = !otherDeclared.contains typeName := by
    intro typeName
    rw [sameDeclared]
  exact filter_typeName_forall₂ (!declared.contains ·) (!otherDeclared.contains ·) sameType
    sameUnknown together

/-- Groups open in the order of the source, which the two lists have in common. -/
theorem declaredTypes_eq
    (sameType : ∀ child other, related child other → child.typeName = other.typeName)
    (sameDeclared : ∀ typeName, declared.contains typeName = otherDeclared.contains typeName)
    (together : List.Forall₂ related blocks others) :
    ((declaredBlocks blocks declared).map Block.typeName).eraseDups
      = ((declaredBlocks others otherDeclared).map Block.typeName).eraseDups := by
  have kept :=
    filter_typeName_forall₂ declared.contains otherDeclared.contains sameType sameDeclared
      together
  exact congrArg List.eraseDups (map_eq_of_forall₂ sameType kept)

theorem groupedBlocks_forall₂
    (sameType : ∀ child other, related child other → child.typeName = other.typeName)
    (sameDeclared : ∀ typeName, declared.contains typeName = otherDeclared.contains typeName)
    (together : List.Forall₂ related blocks others) :
    List.Forall₂ related (groupedBlocks blocks declared)
      (groupedBlocks others otherDeclared) := by
  unfold groupedBlocks
  rw [declaredTypes_eq sameType sameDeclared together]
  exact forall₂_flatMap fun typeName _ => blocksOfType_forall₂ sameType together typeName

end

end SchemaBinding
