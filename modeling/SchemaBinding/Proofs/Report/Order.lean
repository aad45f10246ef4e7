import Mathlib.Data.List.Forall2
import Mathlib.Data.List.Nodup
import Mathlib.Data.List.Perm.Basic
import Mathlib.Data.Prod.Lex
import SchemaBinding.Report.Diagnostic

/-!
Contract: the order in which diagnostics are shown.

Owns:
- `mayPrecede` as a total preorder, whose ties are the diagnostics of one file that
  start at one place;
- `StableSort`, what it means to bring diagnostics into that order and to leave ties
  as they are;
- `inOrder_stableSort`, which says so of `Diagnostic.inOrder`;
- `StableSort.unique`, by which there is one such order, and `StableSort.flatMap`, by which
  parts may be brought into it beforehand;
- `inOrder_sublist`, by which whatever is left out leaves the order of the others alone;
- `inOrder_forall₂`, by which nothing but spans counts for the order; and
- `Untied`, diagnostics that start at places of their own: by `inOrder_eq_of_untied` they
  are shown in one order, in whatever order they were found.

Does not own: the sorting algorithm, which is that of the standard library.
-/

set_option autoImplicit false

namespace SchemaBinding

namespace Diagnostic

/-! ## A total preorder -/

theorem mayPrecede_iff {first second : Diagnostic} :
    first.mayPrecede second = true ↔
      first.span.file < second.span.file ∨
        (first.span.file = second.span.file ∧ first.span.start ≤ second.span.start) := by
  simp [mayPrecede]

private theorem file_trichotomy (first second : String) :
    first < second ∨ first = second ∨ second < first := by
  by_cases before : first < second
  · exact Or.inl before
  · by_cases after : second < first
    · exact Or.inr (Or.inr after)
    · exact Or.inr
        (Or.inl (String.le_antisymm (String.not_lt.1 after) (String.not_lt.1 before)))

theorem mayPrecede_total (first second : Diagnostic) :
    (first.mayPrecede second || second.mayPrecede first) = true := by
  rw [Bool.or_eq_true, mayPrecede_iff, mayPrecede_iff]
  rcases file_trichotomy first.span.file second.span.file with before | same | after
  · exact Or.inl (Or.inl before)
  · rcases Position.le_total first.span.start second.span.start with start | start
    · exact Or.inl (Or.inr ⟨same, start⟩)
    · exact Or.inr (Or.inr ⟨same.symm, start⟩)
  · exact Or.inr (Or.inl after)

theorem mayPrecede_trans (first second third : Diagnostic)
    (earlier : first.mayPrecede second = true) (later : second.mayPrecede third = true) :
    first.mayPrecede third = true := by
  rw [mayPrecede_iff] at *
  rcases earlier with before | ⟨same, start⟩
  · rcases later with beforeThird | ⟨sameThird, _⟩
    · exact Or.inl (String.lt_trans before beforeThird)
    · exact Or.inl (sameThird ▸ before)
  · rcases later with beforeThird | ⟨sameThird, startThird⟩
    · exact Or.inl (same ▸ beforeThird)
    · exact Or.inr ⟨same.trans sameThird, Position.le_trans start startThird⟩

/-- Whether two diagnostics start at one place of one file. -/
def ties (first second : Diagnostic) : Bool :=
  first.span.file == second.span.file && first.span.start == second.span.start

theorem ties_iff {first second : Diagnostic} :
    first.ties second = true ↔
      first.span.file = second.span.file ∧ first.span.start = second.span.start := by
  simp [ties]

theorem mayPrecede_of_ties {first second third : Diagnostic}
    (withSecond : first.ties second = true) (withThird : first.ties third = true) :
    second.mayPrecede third = true := by
  rw [ties_iff] at *
  rw [mayPrecede_iff, ← withSecond.1, ← withSecond.2, ← withThird.1, ← withThird.2]
  exact Or.inr ⟨rfl, (Position.le_total _ _).elim id id⟩

/-- Where either of two diagnostics may be shown first they start at one place. -/
theorem ties_of_mayPrecede {first second : Diagnostic}
    (forward : first.mayPrecede second = true) (backward : second.mayPrecede first = true) :
    first.ties second = true := by
  rw [mayPrecede_iff] at forward backward
  rw [ties_iff]
  rcases forward with before | ⟨same, start⟩
  · rcases backward with after | ⟨same, _⟩
    · exact absurd (String.lt_trans before after) (String.lt_irrefl _)
    · exact absurd (same ▸ before) (String.lt_irrefl _)
  · rcases backward with after | ⟨_, startBack⟩
    · exact absurd (same ▸ after) (String.lt_irrefl _)
    · exact ⟨same, Position.le_antisymm start startBack⟩

/-- Where a diagnostic starts: file, line, column and byte. -/
def place (diagnostic : Diagnostic) : String ×ₗ Nat ×ₗ Nat ×ₗ Nat :=
  let start := diagnostic.span.start
  toLex (diagnostic.span.file, toLex (start.line, toLex (start.column, start.byte)))

/-- The order of diagnostics is the lexicographic order of their places. -/
theorem mayPrecede_iff_place_le {first second : Diagnostic} :
    first.mayPrecede second = true ↔ first.place ≤ second.place := by
  unfold place
  rw [mayPrecede_iff, Position.le_iff, Prod.Lex.toLex_le_toLex, Prod.Lex.toLex_le_toLex,
    Prod.Lex.toLex_le_toLex]

theorem ties_iff_place_eq {first second : Diagnostic} :
    first.ties second = true ↔ first.place = second.place := by
  rw [ties_iff, Position.ext_iff]
  simp [place]

/-- Any place is that of some diagnostic. -/
theorem exists_place_eq (place : String ×ₗ Nat ×ₗ Nat ×ₗ Nat) :
    ∃ diagnostic : Diagnostic, diagnostic.place = place :=
  let ⟨file, line, column, byte⟩ := place
  ⟨{ (default : Diagnostic) with
      span := { (default : Span) with file, start := { line, column, byte } } }, rfl⟩

end Diagnostic

/-! ## Stable sorting -/

/-- The same diagnostics in the order in which they are shown, where those that
start at one place keep the order in which they were found. -/
structure StableSort (found shown : List Diagnostic) : Prop where
  same : shown.Perm found
  ordered : shown.Pairwise fun first second => first.mayPrecede second = true
  stable :
    ∀ diagnostic : Diagnostic,
      shown.filter diagnostic.ties = found.filter diagnostic.ties

theorem inOrder_stableSort (found : List Diagnostic) :
    StableSort found (Diagnostic.inOrder found) where
  same := List.mergeSort_perm found _
  ordered :=
    List.pairwise_mergeSort Diagnostic.mayPrecede_trans Diagnostic.mayPrecede_total found
  stable := by
    intro diagnostic
    -- The ties of one diagnostic are in order already, so sorting keeps them as a
    -- sublist; there is no room for anything else among the ties of the result.
    have alreadyOrdered :
        (found.filter diagnostic.ties).Pairwise fun first second =>
          first.mayPrecede second = true := by
      refine List.pairwise_of_forall_mem_list ?_
      intro first firstMember second secondMember
      exact Diagnostic.mayPrecede_of_ties (List.mem_filter.1 firstMember).2
        (List.mem_filter.1 secondMember).2
    have kept : (found.filter diagnostic.ties).Sublist (Diagnostic.inOrder found) :=
      List.sublist_mergeSort Diagnostic.mayPrecede_trans Diagnostic.mayPrecede_total
        alreadyOrdered List.filter_sublist
    have among :
        (found.filter diagnostic.ties).Sublist
          ((Diagnostic.inOrder found).filter diagnostic.ties) := by
      simpa using kept.filter diagnostic.ties
    have sameLength :=
      ((List.mergeSort_perm found Diagnostic.mayPrecede).filter diagnostic.ties).length_eq
    exact (among.eq_of_length sameLength.symm).symm

/-- Two orders of the same diagnostics are one when they agree on every class of ties. -/
theorem eq_of_ordered {first second : List Diagnostic}
    (ordered : first.Pairwise fun earlier later => earlier.mayPrecede later = true)
    (otherOrdered : second.Pairwise fun earlier later => earlier.mayPrecede later = true)
    (same : first.Perm second)
    (ties : ∀ diagnostic : Diagnostic,
      first.filter diagnostic.ties = second.filter diagnostic.ties) :
    first = second := by
  induction first generalizing second with
  | nil => exact same.nil_eq
  | cons head rest inductionHypothesis =>
      cases second with
      | nil => exact absurd same List.not_perm_cons_nil
      | cons otherHead otherRest =>
          rw [List.pairwise_cons] at ordered otherOrdered
          have ownTie : head.ties head = true := Diagnostic.ties_iff.2 ⟨rfl, rfl⟩
          -- Each head stands in the other list too, so neither may come after the other.
          have headsTie : head.ties otherHead = true := by
            rcases List.mem_cons.1 (same.mem_iff.1 List.mem_cons_self) with here | later
            · rw [← here]
              exact ownTie
            · rcases List.mem_cons.1 (same.mem_iff.2 List.mem_cons_self) with here | otherLater
              · rw [here]
                exact ownTie
              · exact Diagnostic.ties_of_mayPrecede (ordered.1 _ otherLater)
                  (otherOrdered.1 _ later)
          have sameHead : head = otherHead := by
            have tied := ties head
            rw [List.filter_cons_of_pos ownTie, List.filter_cons_of_pos headsTie] at tied
            exact (List.cons.inj tied).1
          subst sameHead
          congr 1
          apply inductionHypothesis ordered.2 otherOrdered.2 same.cons_inv
          intro diagnostic
          have tied := ties diagnostic
          by_cases withHead : diagnostic.ties head = true
          · rw [List.filter_cons_of_pos withHead, List.filter_cons_of_pos withHead] at tied
            exact (List.cons.inj tied).2
          · rw [List.filter_cons_of_neg withHead, List.filter_cons_of_neg withHead] at tied
            exact tied

namespace StableSort

theorem unique {found first second : List Diagnostic} (sorted : StableSort found first)
    (other : StableSort found second) : first = second :=
  eq_of_ordered sorted.ordered other.ordered (sorted.same.trans other.same.symm)
    fun diagnostic => (sorted.stable diagnostic).trans (other.stable diagnostic).symm

/-- What has been brought into order part by part is sorted as what was found. -/
theorem flatMap {α : Type} {parts : List α} {found shown : α → List Diagnostic}
    {all : List Diagnostic} (each : ∀ part ∈ parts, StableSort (found part) (shown part))
    (sorted : StableSort (parts.flatMap shown) all) : StableSort (parts.flatMap found) all where
  same :=
    sorted.same.trans (.flatMap_left parts fun part member => (each part member).same)
  ordered := sorted.ordered
  stable diagnostic := by
    rw [sorted.stable, List.filter_flatMap, List.filter_flatMap]
    exact List.flatMap_congr fun part member => (each part member).stable diagnostic

end StableSort

/-! ## Sorting part of what was found -/

/-- A diagnostic found first is shown before all that it may precede, and after the others. -/
theorem inOrder_cons (first : Diagnostic) (rest : List Diagnostic) :
    Diagnostic.inOrder (first :: rest)
        = ((Diagnostic.inOrder rest).filter fun other => !first.mayPrecede other)
          ++ first :: (Diagnostic.inOrder rest).filter first.mayPrecede ∧
      Diagnostic.inOrder rest
        = ((Diagnostic.inOrder rest).filter fun other => !first.mayPrecede other)
          ++ (Diagnostic.inOrder rest).filter first.mayPrecede := by
  obtain ⟨before, after, whole, others, early⟩ :=
    List.mergeSort_cons Diagnostic.mayPrecede_trans Diagnostic.mayPrecede_total first rest
  have late : ∀ other ∈ after, first.mayPrecede other = true := by
    have ordered := (inOrder_stableSort (first :: rest)).ordered
    rw [Diagnostic.inOrder, whole, List.pairwise_append, List.pairwise_cons] at ordered
    exact ordered.2.1.1
  have lateIsNotEarly : ∀ other ∈ after, ¬ (!first.mayPrecede other) = true := by
    intro other member
    simp [late other member]
  have earlyIsNotLate : ∀ other ∈ before, ¬ first.mayPrecede other = true := by
    intro other member
    simpa using early other member
  rw [Diagnostic.inOrder, Diagnostic.inOrder, whole, others, List.filter_append,
    List.filter_append, List.filter_eq_self.2 early, List.filter_eq_self.2 late,
    List.filter_eq_nil_iff.2 lateIsNotEarly, List.filter_eq_nil_iff.2 earlyIsNotLate,
    List.append_nil, List.nil_append]
  exact ⟨rfl, rfl⟩

/-- Where less is found, the rest is shown in the same order. -/
theorem inOrder_sublist {found other : List Diagnostic} (part : found.Sublist other) :
    (Diagnostic.inOrder found).Sublist (Diagnostic.inOrder other) := by
  induction part with
  | slnil => exact List.Sublist.refl _
  | cons added _ inductionHypothesis =>
      obtain ⟨whole, others⟩ := inOrder_cons added _
      rw [whole]
      apply List.Sublist.middle
      rw [← others]
      exact inductionHypothesis
  | cons_cons shared _ inductionHypothesis =>
      rw [(inOrder_cons shared _).1, (inOrder_cons shared _).1]
      apply List.Sublist.append
      · exact inductionHypothesis.filter _
      · exact (inductionHypothesis.filter _).cons_cons shared

/-! ## Sorting two lists alike -/

/-- Sorting pairs of diagnostics with one span each sorts both sides. -/
theorem exists_inOrder_pairs {pairs : List (Diagnostic × Diagnostic)}
    (sameSpan : ∀ pair ∈ pairs, pair.1.span = pair.2.span) :
    ∃ sorted : List (Diagnostic × Diagnostic), sorted.Perm pairs ∧
      Diagnostic.inOrder (pairs.map Prod.fst) = sorted.map Prod.fst ∧
      Diagnostic.inOrder (pairs.map Prod.snd) = sorted.map Prod.snd := by
  refine ⟨pairs.mergeSort fun pair another => pair.1.mayPrecede another.1,
    List.mergeSort_perm pairs _, ?_, ?_⟩
  · refine (List.map_mergeSort ?_).symm
    intro pair _ another _
    rfl
  · refine (List.map_mergeSort ?_).symm
    intro pair member another otherMember
    unfold Diagnostic.mayPrecede
    rw [sameSpan pair member, sameSpan another otherMember]

/-- Diagnostics that go together with others of the same spans do so when shown. -/
theorem inOrder_forall₂ {related : Diagnostic → Diagnostic → Prop}
    (sameSpan : ∀ diagnostic other, related diagnostic other → diagnostic.span = other.span)
    {found others : List Diagnostic} (together : List.Forall₂ related found others) :
    List.Forall₂ related (Diagnostic.inOrder found) (Diagnostic.inOrder others) := by
  obtain ⟨sameLength, each⟩ := List.forall₂_iff_zip.1 together
  obtain ⟨sorted, same, first, second⟩ :=
    exists_inOrder_pairs fun pair member => sameSpan pair.1 pair.2 (each member)
  rw [List.map_fst_zip (Nat.le_of_eq sameLength)] at first
  rw [List.map_snd_zip (Nat.le_of_eq sameLength.symm)] at second
  rw [first, second, List.forall₂_map_left_iff, List.forall₂_map_right_iff, List.forall₂_same]
  intro pair member
  exact each (same.mem_iff.1 member)

/-! ## Sorting by place -/

namespace StableSort

variable {found shown : List Diagnostic}

theorem places (sorted : StableSort found shown) :
    (shown.map Diagnostic.place).Pairwise (· ≤ ·) := by
  rw [List.pairwise_map]
  exact sorted.ordered.imp Diagnostic.mayPrecede_iff_place_le.1

theorem filter_place (sorted : StableSort found shown)
    (place : String ×ₗ Nat ×ₗ Nat ×ₗ Nat) :
    shown.filter (·.place == place) = found.filter (·.place == place) := by
  obtain ⟨representative, rfl⟩ := Diagnostic.exists_place_eq place
  have sameTest :
      (fun diagnostic : Diagnostic => diagnostic.place == representative.place)
        = representative.ties := by
    funext diagnostic
    rw [Bool.eq_iff_iff, beq_iff_eq, Diagnostic.ties_iff_place_eq, eq_comm]
  rw [sameTest]
  exact sorted.stable representative

end StableSort

theorem inOrder_perm {found other : List Diagnostic} (same : found.Perm other) :
    (Diagnostic.inOrder found).Perm (Diagnostic.inOrder other) :=
  ((inOrder_stableSort found).same.trans same).trans (inOrder_stableSort other).same.symm

/-- No two of the diagnostics start at one place. -/
def Untied (diagnostics : List Diagnostic) : Prop :=
  (diagnostics.map Diagnostic.place).Nodup

theorem untied_iff {diagnostics : List Diagnostic} :
    Untied diagnostics ↔
      diagnostics.Pairwise fun first second => first.ties second = false := by
  rw [Untied, List.Nodup, List.pairwise_map]
  apply iff_of_eq
  congr
  funext first second
  rw [Ne, ← Diagnostic.ties_iff_place_eq, Bool.not_eq_true]

instance (diagnostics : List Diagnostic) : Decidable (Untied diagnostics) :=
  decidable_of_iff' _ untied_iff

theorem Untied.of_perm {found other : List Diagnostic} (untied : Untied found)
    (same : found.Perm other) : Untied other :=
  (same.map Diagnostic.place).nodup_iff.1 untied

/-- The same diagnostics found in another order are shown in the same order, unless two of
them start at one place. -/
theorem inOrder_eq_of_untied {found other : List Diagnostic} (same : found.Perm other)
    (untied : Untied found) :
    Diagnostic.inOrder found = Diagnostic.inOrder other := by
  apply List.Perm.eq_of_pairwise ?_ (inOrder_stableSort found).ordered
    (inOrder_stableSort other).ordered (inOrder_perm same)
  intro first second firstMember secondMember forward backward
  rw [(inOrder_stableSort found).same.mem_iff] at firstMember
  rw [(inOrder_stableSort other).same.mem_iff, ← same.mem_iff] at secondMember
  have samePlace : first.place = second.place :=
    Diagnostic.ties_iff_place_eq.1 (Diagnostic.ties_of_mayPrecede forward backward)
  exact List.inj_on_of_nodup_map untied firstMember secondMember samePlace

end SchemaBinding
