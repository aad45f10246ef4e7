import Mathlib.Data.List.Nodup
import Mathlib.Data.List.Perm.Subperm
import SchemaBinding.NamedList

/-!
Contract: lists of named values compared up to the order of their entries.

Owns:
- what a reordering of the entries leaves as it is: distinctness and look-ups;
- `NamedList.alike`, told by look-ups, and for values that have nothing to reorder in turn
  as a permutation of the entries; and
- `each_found_iff`, the same for values that are related in some way of their own.

Does not own: lists in which a name stands twice. Their look-ups depend on the order.
-/

set_option autoImplicit false

namespace SchemaBinding

namespace NamedList

section

variable {α : Type} {first second : NamedList α}

/-! ## Reordering -/

theorem Distinct.entries_nodup (distinct : first.Distinct) : first.entries.Nodup :=
  List.Nodup.of_map Prod.fst distinct

theorem Distinct.of_perm (distinct : first.Distinct)
    (reordered : first.entries.Perm second.entries) : second.Distinct :=
  (reordered.map Prod.fst).nodup_iff.1 distinct

/-- What is found under a name does not depend on the order of the entries. -/
theorem find?_eq_of_perm (distinct : first.Distinct)
    (reordered : first.entries.Perm second.entries) (name : String) :
    first.find? name = second.find? name := by
  apply Option.ext
  intro value
  rw [← distinct.mem_entries_iff, ← (distinct.of_perm reordered).mem_entries_iff]
  exact reordered.mem_iff

/-! ## Equality up to order -/

theorem alike_eq_true_iff {same : α → α → Bool} :
    first.alike same second = true ↔
      first.size = second.size ∧
        ∀ entry ∈ first.entries, ∃ value,
          second.find? entry.1 = some value ∧ same entry.2 value = true := by
  rw [alike, Bool.and_eq_true, beq_iff_eq, List.all_eq_true]
  apply and_congr_right
  intro _
  refine forall_congr' fun entry => imp_congr_right fun _ => ?_
  cases second.find? entry.1 with
  | none => simp
  | some value => simp

/-- Where as many names of one list are all found in another, the lists have the same
names. -/
theorem names_perm_of_found {β : Type} {other : NamedList β} (distinct : first.Distinct)
    (size : first.size = other.size)
    (found : ∀ entry ∈ first.entries, ∃ value, other.find? entry.1 = some value) :
    first.names.Perm other.names := by
  have present : first.names ⊆ other.names := by
    intro name member
    obtain ⟨entry, listed, rfl⟩ := List.mem_map.1 member
    obtain ⟨value, foundHere⟩ := found entry listed
    exact List.mem_map.2 ⟨(entry.1, value), mem_entries_of_find? foundHere, rfl⟩
  apply (List.subperm_of_subset distinct present).perm_of_length_le
  rw [names, names, List.length_map, List.length_map]
  exact Nat.le_of_eq size.symm

/-- To find for each entry a related value in a list of the same size is to have the same
names, with related values wherever both lists have one. -/
theorem each_found_iff {β : Type} (distinct : first.Distinct) (other : NamedList β)
    (related : α → β → Prop) :
    (first.size = other.size ∧
        ∀ entry ∈ first.entries, ∃ value,
          other.find? entry.1 = some value ∧ related entry.2 value) ↔
      first.names.Perm other.names ∧
        ∀ name value image, first.find? name = some value → other.find? name = some image →
          related value image := by
  constructor
  · rintro ⟨size, each⟩
    constructor
    · apply names_perm_of_found distinct size
      intro entry member
      obtain ⟨value, found, _⟩ := each entry member
      exact ⟨value, found⟩
    · intro name value image found foundOther
      obtain ⟨own, foundOwn, here⟩ := each (name, value) (mem_entries_of_find? found)
      rw [foundOther] at foundOwn
      cases foundOwn
      exact here
  · rintro ⟨sameNames, each⟩
    constructor
    · have lengths := sameNames.length_eq
      rw [names, names, List.length_map, List.length_map] at lengths
      exact lengths
    · intro entry member
      have found := distinct.mem_entries_iff.1 member
      obtain ⟨image, foundOther⟩ := exists_find?_of_names_subset sameNames.subset found
      exact ⟨image, foundOther, each entry.1 entry.2 image found foundOther⟩

/-- Lists of plain values are alike exactly when their entries are the same up to order. -/
theorem alike_iff_perm [BEq α] [LawfulBEq α] (distinct : first.Distinct) :
    first.alike (· == ·) second = true ↔ first.entries.Perm second.entries := by
  rw [alike_eq_true_iff]
  constructor
  · rintro ⟨size, found⟩
    have present : first.entries ⊆ second.entries := by
      intro entry member
      obtain ⟨value, foundHere, same⟩ := found entry member
      rw [← eq_of_beq same] at foundHere
      exact mem_entries_of_find? foundHere
    apply (List.subperm_of_subset distinct.entries_nodup present).perm_of_length_le
    exact Nat.le_of_eq size.symm
  · intro reordered
    refine ⟨reordered.length_eq, fun entry member => ⟨entry.2, ?_, beq_self_eq_true _⟩⟩
    rw [← find?_eq_of_perm distinct reordered]
    exact distinct.mem_entries_iff.1 member

end

end NamedList

end SchemaBinding
