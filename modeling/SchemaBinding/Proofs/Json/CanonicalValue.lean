import Mathlib.Data.List.Nodup
import Mathlib.Data.List.Perm.Basic
import SchemaBinding.Json.Value
import SchemaBinding.Proofs.NamedList.Reordering

/-!
Contract: canonical values as representatives of the values that are the same.

Owns:
- `Value.inductionOn`, induction over the values inside a value;
- `Value.Same`, by which two values are the same whatever the order of members and whatever
  stands under a key before its last member; and
- `Value.canonical_eq_iff_same`, by which just these values have one canonical form.

Does not own: texts of values.

A map in canonical form is sorted by its keys and has no key twice. Such a map is told by
its look-ups, and these are the look-ups of the last members of the map before.
-/

set_option autoImplicit false

namespace SchemaBinding
namespace Json
namespace Value

/-- What holds of lists and maps whenever it holds of the values in them, and of all other
values, holds of every value. -/
@[elab_as_elim]
theorem inductionOn {motive : Value → Prop} (value : Value)
    (null : motive .null) (flag : ∀ value, motive (.flag value))
    (number : ∀ value, motive (.number value)) (text : ∀ value, motive (.text value))
    (list : ∀ items, (∀ item ∈ items, motive item) → motive (.list items))
    (map : ∀ members, (∀ member ∈ members, motive member.2) → motive (.map members)) :
    motive value :=
  match value with
  | .null => null
  | .flag value => flag value
  | .number value => number value
  | .text value => text value
  | .list items =>
      list items fun item _ => inductionOn item null flag number text list map
  | .map members =>
      map members fun member _ => inductionOn member.2 null flag number text list map
termination_by sizeOf value
decreasing_by
  · have smaller := List.sizeOf_lt_of_mem ‹_ ∈ items›
    simp only [Value.list.sizeOf_spec]
    omega
  · have smaller := List.sizeOf_lt_of_mem ‹_ ∈ members›
    obtain ⟨_, _⟩ := member
    simp only [Value.map.sizeOf_spec, Prod.mk.sizeOf_spec] at *
    omega

/-! ## Values that are the same -/

/-- The last value under a key. -/
def under? (key : String) (members : List (String × Value)) : Option Value :=
  members.reverse.lookup key

/-- Lists are the same item by item, and maps when they have the same keys and the same last
value under each of them. -/
inductive Same : Value → Value → Prop where
  | null : Same .null .null
  | flag (value : Bool) : Same (.flag value) (.flag value)
  | number (value : Number) : Same (.number value) (.number value)
  | text (value : String) : Same (.text value) (.text value)
  | list {items others : List Value} (length : items.length = others.length)
      (each : ∀ (index : Nat) (item other : Value), items[index]? = some item →
        others[index]? = some other → Same item other) : Same (.list items) (.list others)
  | map {members others : List (String × Value)}
      (keys : ∀ key, (under? key members).isSome = (under? key others).isSome)
      (each : ∀ (key : String) (value other : Value), under? key members = some value →
        under? key others = some other → Same value other) : Same (.map members) (.map others)

theorem lookup_cons_eq (sought key : String) (value : Value) (rest : List (String × Value)) :
    ((key, value) :: rest).lookup sought
      = if sought = key then some value else rest.lookup sought := by
  by_cases same : sought = key
  · simp [same]
  · simp [same, List.lookup_cons, beq_eq_false_iff_ne.2 same]

theorem under?_cons (key name : String) (value : Value) (rest : List (String × Value)) :
    under? key ((name, value) :: rest)
      = (under? key rest).or (if key = name then some value else none) := by
  rw [under?, under?, List.reverse_cons, List.lookup_append, lookup_cons_eq]
  rfl

theorem mem_of_under? {key : String} {value : Value} {members : List (String × Value)}
    (found : under? key members = some value) : (key, value) ∈ members := by
  obtain ⟨before, after, split, _⟩ := List.lookup_eq_some_iff.1 found
  rw [← List.mem_reverse, split]
  exact List.mem_append_right before List.mem_cons_self

/-! ## Sorted members -/

/-- The keys ascend, so that none stands twice. -/
def SortedByKey (members : List (String × Value)) : Prop :=
  members.Pairwise fun first second => first.1 < second.1

theorem SortedByKey.distinct {members : List (String × Value)} (sorted : SortedByKey members) :
    NamedList.Distinct ⟨members⟩ := by
  unfold NamedList.Distinct NamedList.names List.Nodup
  rw [List.pairwise_map]
  apply sorted.imp
  intro first second ascends same
  rw [same] at ascends
  exact String.lt_irrefl _ ascends

/-- Where no key stands twice, the last value under a key is the first. -/
theorem SortedByKey.under?_eq {members : List (String × Value)} (sorted : SortedByKey members)
    (key : String) : under? key members = members.lookup key := by
  have reversed := NamedList.find?_eq_of_perm sorted.distinct members.reverse_perm.symm key
  exact reversed.symm

/-- Sorted members are told by what is found under each key. -/
theorem SortedByKey.eq_of_lookup {first second : List (String × Value)}
    (sorted : SortedByKey first) (otherSorted : SortedByKey second)
    (same : ∀ key, first.lookup key = second.lookup key) : first = second := by
  have samePairs : ∀ member, member ∈ first ↔ member ∈ second := by
    rintro ⟨key, value⟩
    have here : (key, value) ∈ first ↔ first.lookup key = some value :=
      sorted.distinct.mem_entries_iff
    have there : (key, value) ∈ second ↔ second.lookup key = some value :=
      otherSorted.distinct.mem_entries_iff
    rw [here, there, same key]
  have permutation : first.Perm second :=
    (List.perm_ext_iff_of_nodup sorted.distinct.entries_nodup
      otherSorted.distinct.entries_nodup).2 samePairs
  apply List.Perm.eq_of_pairwise ?_ sorted otherSorted permutation
  intro earlier later _ _ forward backward
  exact absurd (String.lt_trans forward backward) (String.lt_irrefl _)

theorem mem_insertSorted {key : String} {value : Value} {member : String × Value} :
    ∀ {members : List (String × Value)}, member ∈ insertSorted key value members →
      member = (key, value) ∨ member ∈ members
  | [], here => .inl (List.mem_singleton.1 here)
  | (other, old) :: rest, here => by
      unfold insertSorted at here
      split at here
      · rcases List.mem_cons.1 here with first | later
        · exact .inl first
        · exact .inr (List.mem_cons_of_mem _ later)
      · split at here
        · exact List.mem_cons.1 here
        · rcases List.mem_cons.1 here with first | later
          · exact .inr (first ▸ List.mem_cons_self)
          · exact (mem_insertSorted later).imp_right (List.mem_cons_of_mem _)

theorem SortedByKey.insertSorted {key : String} {value : Value} :
    ∀ {members : List (String × Value)}, SortedByKey members →
      SortedByKey (Value.insertSorted key value members)
  | [], _ => List.pairwise_singleton _ _
  | (other, old) :: rest, sorted => by
      obtain ⟨ascends, restSorted⟩ := List.pairwise_cons.1 sorted
      unfold Value.insertSorted
      split
      · rename_i same
        subst same
        exact List.pairwise_cons.2 ⟨ascends, restSorted⟩
      · split
        · rename_i before
          apply List.pairwise_cons.2
          refine ⟨?_, sorted⟩
          intro member present
          rcases List.mem_cons.1 present with rfl | later
          · exact before
          · exact String.lt_trans before (ascends member later)
        · rename_i apart notBefore
          have after : other < key := by
            by_contra notAfter
            exact apart (String.le_antisymm (String.not_lt.1 notAfter)
              (String.not_lt.1 notBefore))
          apply List.pairwise_cons.2
          refine ⟨?_, SortedByKey.insertSorted restSorted⟩
          intro member present
          rcases mem_insertSorted present with rfl | later
          · exact after
          · exact ascends member later

theorem lookup_insertSorted (key : String) (value : Value) (sought : String) :
    ∀ members : List (String × Value),
      (insertSorted key value members).lookup sought
        = if sought = key then some value else members.lookup sought
  | [] => lookup_cons_eq sought key value []
  | (other, old) :: rest => by
      unfold insertSorted
      split
      · rename_i same
        subst same
        rw [lookup_cons_eq, lookup_cons_eq]
        by_cases same : sought = key <;> simp [same]
      · split
        · exact lookup_cons_eq sought key value _
        · rename_i apart _
          rw [lookup_cons_eq, lookup_cons_eq, lookup_insertSorted key value sought rest]
          by_cases same : sought = key
          · simp [same, apart]
          · simp [same]

theorem SortedByKey.sortMembers :
    ∀ {members sorted : List (String × Value)}, SortedByKey sorted →
      SortedByKey (Value.sortMembers sorted members)
  | [], _, ascends => ascends
  | (_, _) :: _, _, ascends => by
      rw [Value.sortMembers]
      exact SortedByKey.sortMembers ascends.insertSorted

/-- Under each key the last value remains, in canonical form. -/
theorem lookup_sortMembers (key : String) :
    ∀ members sorted : List (String × Value),
      (sortMembers sorted members).lookup key
        = ((under? key members).map canonical).or (sorted.lookup key)
  | [], _ => rfl
  | (name, value) :: rest, sorted => by
      rw [sortMembers, lookup_sortMembers key rest, lookup_insertSorted, under?_cons]
      cases under? key rest with
      | some last => rfl
      | none =>
          by_cases same : key = name
          · simp [same]
          · simp [same]

theorem mem_sortMembers {member : String × Value} :
    ∀ {members sorted : List (String × Value)}, member ∈ sortMembers sorted members →
      member ∈ sorted ∨ ∃ own ∈ members, member.2 = own.2.canonical
  | [], _, here => .inl here
  | (name, value) :: rest, sorted, here => by
      rw [sortMembers] at here
      rcases mem_sortMembers here with early | ⟨own, present, same⟩
      · rcases mem_insertSorted early with rfl | before
        · exact .inr ⟨(name, value), List.mem_cons_self, rfl⟩
        · exact .inl before
      · exact .inr ⟨own, List.mem_cons_of_mem _ present, same⟩

/-! ## Canonical forms -/

theorem canonicalItems_eq_map : ∀ items : List Value, canonicalItems items = items.map canonical
  | [] => rfl
  | item :: rest => by
      rw [canonicalItems, canonicalItems_eq_map rest, List.map_cons]

theorem canonical_list (items : List Value) :
    (list items).canonical = .list (items.map canonical) := by
  rw [canonical, canonicalItems_eq_map]

theorem sortedByKey_sortMembers (members : List (String × Value)) :
    SortedByKey (sortMembers [] members) :=
  SortedByKey.sortMembers List.Pairwise.nil

theorem lookup_sortMembers_nil (key : String) (members : List (String × Value)) :
    (sortMembers [] members).lookup key = (under? key members).map canonical := by
  rw [lookup_sortMembers]
  exact Option.or_none

theorem Same.canonical_eq {first second : Value} (same : first.Same second) :
    first.canonical = second.canonical := by
  induction same with
  | null | flag | number | text => rfl
  | list length _ inductionHypothesis =>
      rename_i items others _
      rw [canonical_list, canonical_list]
      congr 1
      apply List.ext_getElem?
      intro index
      rw [List.getElem?_map, List.getElem?_map]
      cases here : items[index]? with
      | none =>
          have beyond : others.length ≤ index := by
            rw [← length]
            exact List.getElem?_eq_none_iff.1 here
          rw [List.getElem?_eq_none_iff.2 beyond]
      | some item =>
          have within : index < others.length := by
            rw [← length]
            exact (List.getElem?_eq_some_iff.1 here).1
          have there := List.getElem?_eq_getElem within
          rw [there]
          exact congrArg some (inductionHypothesis index item _ here there)
  | map keys _ inductionHypothesis =>
      rename_i members others _
      rw [canonical, canonical]
      congr 1
      apply (sortedByKey_sortMembers members).eq_of_lookup (sortedByKey_sortMembers others)
      intro key
      rw [lookup_sortMembers_nil, lookup_sortMembers_nil]
      have present := keys key
      cases here : under? key members with
      | none =>
          rw [here] at present
          cases there : under? key others with
          | none => rfl
          | some other =>
              rw [there] at present
              cases present
      | some value =>
          rw [here] at present
          cases there : under? key others with
          | none =>
              rw [there] at present
              cases present
          | some other =>
              exact congrArg some (inductionHypothesis key value other here there)

theorem same_of_canonical_eq (first : Value) :
    ∀ {second : Value}, first.canonical = second.canonical → first.Same second := by
  induction first using inductionOn with
  | null | flag | number | text =>
      intro second equal
      cases second <;> cases equal
      constructor
  | list items inductionHypothesis =>
      intro second equal
      cases second with
      | list others =>
          rw [canonical_list, canonical_list] at equal
          have images : items.map canonical = others.map canonical := Value.list.inj equal
          have length := congrArg List.length images
          rw [List.length_map, List.length_map] at length
          refine .list length fun index item other here there => ?_
          have image := congrArg (·[index]?) images
          simp only [List.getElem?_map, here, there, Option.map_some, Option.some.injEq] at image
          exact inductionHypothesis item (List.mem_of_getElem? here) image
      | null | flag | number | text | map => cases equal
  | map members inductionHypothesis =>
      intro second equal
      cases second with
      | map others =>
          have images : sortMembers [] members = sortMembers [] others := Value.map.inj equal
          have found : ∀ key,
              (under? key members).map canonical = (under? key others).map canonical := by
            intro key
            rw [← lookup_sortMembers_nil, ← lookup_sortMembers_nil, images]
          refine .map (fun key => ?_) fun key value other here there => ?_
          · have present := congrArg Option.isSome (found key)
            rw [Option.isSome_map, Option.isSome_map] at present
            exact present
          · have image := found key
            rw [here, there] at image
            exact inductionHypothesis (key, value) (mem_of_under? here) (Option.some.inj image)
      | null | flag | number | text | list => cases equal

/-- Values have one canonical form just when they are the same. -/
theorem canonical_eq_iff_same {first second : Value} :
    first.canonical = second.canonical ↔ first.Same second :=
  ⟨same_of_canonical_eq first, Same.canonical_eq⟩

/-- What is in canonical form stays as it is. -/
theorem canonical_canonical (value : Value) : value.canonical.canonical = value.canonical := by
  induction value using inductionOn with
  | null | flag | number | text => rfl
  | list items inductionHypothesis =>
      rw [canonical_list, canonical_list, List.map_map]
      congr 1
      exact List.map_congr_left inductionHypothesis
  | map members inductionHypothesis =>
      rw [canonical, canonical]
      congr 1
      have sorted := sortedByKey_sortMembers members
      apply (sortedByKey_sortMembers (sortMembers [] members)).eq_of_lookup sorted
      intro key
      rw [lookup_sortMembers_nil, sorted.under?_eq, lookup_sortMembers_nil, Option.map_map]
      cases here : under? key members with
      | none => rfl
      | some value =>
          exact congrArg some (inductionHypothesis (key, value) (mem_of_under? here))

end Value

end Json
end SchemaBinding
