import SchemaBinding.Proofs.Json.RecordMeaning
import SchemaBinding.Proofs.NamedList.Repetition

/-!
Contract: changes that records and maps do not notice.

Owns:
- what a record gives for its fields, when its members change places, when members of other
  names come in, and when the value of one field is written otherwise or replaced; and
- what a map files, when one of its values is written otherwise and when the members of a
  repeated key come down to one.

Does not own: where in a document records and maps stand.
-/

set_option autoImplicit false

namespace SchemaBinding
namespace Json

open ParseTree

/-! ## Records -/

section

variable {layout : RecordLayout} {members others before after : List (TextLexeme × ParseTree)}
  {key : TextLexeme} {name : String} {value replaced : ParseTree}
  {given : layout.Field → Option ParseTree}

namespace RecordLayout.Gives

/-- The order of the members of a record does not matter. -/
theorem permuted (gives : layout.Gives (.map members) given) (permutation : members.Perm others) :
    layout.Gives (.map others) given := by
  cases gives with
  | byName named under =>
      refine .byName (fun member present => named member (permutation.mem_iff.2 present)) ?_
      intro field
      have values := permutation.filterMap
        fun member => if member.1.text? = some (layout.name field) then some member.2 else none
      rw [← valuesUnder, ← valuesUnder, under field] at values
      cases here : given field with
      | none =>
          rw [here] at values
          exact values.symm.eq_nil
      | some tree =>
          rw [here] at values
          exact List.perm_singleton.1 values.symm

/-- Members of other names do not matter. -/
theorem extended (gives : layout.Gives (.map (before ++ after)) given)
    (decoded : key.text? = some name) (foreign : ∀ field, layout.name field ≠ name)
    (value : ParseTree) : layout.Gives (.map (before ++ (key, value) :: after)) given := by
  cases gives with
  | byName named under =>
      refine .byName ?_ fun field => ?_
      · rw [List.forall_mem_append, List.forall_mem_cons]
        rw [List.forall_mem_append] at named
        refine ⟨named.1, ?_, named.2⟩
        rw [decoded]
        exact nofun
      · have apart : key.text? ≠ some (layout.name field) := by
          rw [decoded]
          exact fun same => foreign field (Option.some.inj same).symm
        rw [valuesUnder_append, valuesUnder_cons, if_neg apart, ← valuesUnder_append]
        exact under field

end RecordLayout.Gives

namespace RecordLayout.Gives

variable {target : layout.Field}

/-- The member of a field is the only one, so nothing stands for the field before it or
after it. -/
theorem eq_of_under (decoded : key.text? = some (layout.name target))
    (under : valuesUnder (layout.name target) (before ++ (key, value) :: after)
      = (given target).toList) :
    given target = some value ∧ valuesUnder (layout.name target) before = [] ∧
      valuesUnder (layout.name target) after = [] := by
  rw [valuesUnder_append, valuesUnder_cons, if_pos decoded] at under
  have length := congrArg List.length under
  rw [List.length_append, List.length_cons] at length
  have single := (given target).length_toList_le
  have nothingBefore : valuesUnder (layout.name target) before = [] :=
    List.length_eq_zero_iff.1 (by omega)
  have nothingAfter : valuesUnder (layout.name target) after = [] :=
    List.length_eq_zero_iff.1 (by omega)
  rw [nothingBefore, nothingAfter] at under
  cases here : given target with
  | none =>
      rw [here] at under
      cases under
  | some tree =>
      rw [here] at under
      cases under
      exact ⟨rfl, nothingBefore, nothingAfter⟩

/-- A member of a field gives the field its value, and any other value in its place. -/
theorem refilledMap (named : ∀ field, layout.field? (layout.name field) = some field)
    (decoded : key.text? = some (layout.name target))
    (gives : layout.Gives (.map (before ++ (key, value) :: after)) given) :
    given target = some value ∧
      ∀ replaced, layout.Gives (.map (before ++ (key, replaced) :: after))
        fun field => if field = target then some replaced else given field := by
  cases gives with
  | byName decodedAll under =>
      obtain ⟨isGiven, nothingBefore, nothingAfter⟩ := eq_of_under decoded (under target)
      refine ⟨isGiven, fun replaced => .byName ?_ fun field => ?_⟩
      · rw [List.forall_mem_append, List.forall_mem_cons] at decodedAll ⊢
        exact decodedAll
      · by_cases same : field = target
        · subst same
          rw [if_pos rfl, valuesUnder_append, valuesUnder_cons, if_pos decoded, nothingBefore,
            nothingAfter]
          rfl
        · have apart : key.text? ≠ some (layout.name field) := by
            rw [decoded]
            exact fun sameName => same (layout.name_inj named (Option.some.inj sameName).symm)
          have values := under field
          rw [valuesUnder_append, valuesUnder_cons, if_neg apart] at values
          rw [if_neg same, valuesUnder_append, valuesUnder_cons, if_neg apart]
          exact values

/-- An item at the place of a field does the same. -/
theorem refilledList {before after : List ParseTree}
    (named : ∀ field, layout.field? (layout.name field) = some field)
    (placed : layout.place target = before.length)
    (gives : layout.Gives (.list (before ++ value :: after)) given) :
    given target = some value ∧
      ∀ replaced, layout.Gives (.list (before ++ replaced :: after))
        fun field => if field = target then some replaced else given field := by
  cases gives with
  | byPlace fits isGiven =>
      refine ⟨?_, fun replaced => .byPlace ?_ fun field => ?_⟩
      · rw [← isGiven target, placed, List.getElem?_append_right (Nat.le_refl _), Nat.sub_self]
        rfl
      · rw [List.length_append, List.length_cons] at fits ⊢
        exact fits
      · rcases Nat.lt_trichotomy (layout.place field) before.length with earlier | here | later
        · have apart : field ≠ target := by
            rintro rfl
            omega
          rw [if_neg apart, ← isGiven field, List.getElem?_append_left earlier,
            List.getElem?_append_left earlier]
        · rw [if_pos (layout.place_inj named (here.trans placed.symm)), here,
            List.getElem?_append_right (Nat.le_refl _), Nat.sub_self]
          rfl
        · have apart : field ≠ target := by
            rintro rfl
            omega
          obtain ⟨further, place⟩ := Nat.exists_eq_add_of_lt later
          have behind : layout.place field - before.length = further + 1 := by omega
          rw [if_neg apart, ← isGiven field, List.getElem?_append_right (Nat.le_of_lt later),
            List.getElem?_append_right (Nat.le_of_lt later), behind, List.getElem?_cons_succ,
            List.getElem?_cons_succ]

end RecordLayout.Gives

/-- Where one record gives a value for a field, another one gives another value, and for the
other fields the two give the same. -/
def RecordLayout.Changes (layout : RecordLayout) (target : layout.Field)
    (value replaced tree other : ParseTree) : Prop :=
  ∀ given, layout.Gives tree given → ∃ otherGiven, layout.Gives other otherGiven ∧
    ∀ field, otherGiven field = given field ∨
      (field = target ∧ given field = some value ∧ otherGiven field = some replaced)

namespace RecordLayout.Changes

variable {target : layout.Field}

theorem of_refilled (isGiven : given target = some value) (field : layout.Field) :
    (if field = target then some replaced else given field) = given field ∨
      (field = target ∧ given field = some value ∧
        (if field = target then some replaced else given field) = some replaced) := by
  by_cases same : field = target
  · subst same
    exact .inr ⟨rfl, isGiven, if_pos rfl⟩
  · exact .inl (if_neg same)

/-- The value of a field is written otherwise in a map. -/
theorem ofMap (named : ∀ field, layout.field? (layout.name field) = some field)
    (decoded : key.text? = some (layout.name target)) :
    layout.Changes target value replaced (.map (before ++ (key, value) :: after))
      (.map (before ++ (key, replaced) :: after)) := by
  intro given gives
  obtain ⟨isGiven, refilled⟩ := gives.refilledMap named decoded
  exact ⟨_, refilled replaced, of_refilled isGiven⟩

/-- The value of a field is written otherwise in a list. -/
theorem ofList {before after : List ParseTree}
    (named : ∀ field, layout.field? (layout.name field) = some field)
    (placed : layout.place target = before.length) :
    layout.Changes target value replaced (.list (before ++ value :: after))
      (.list (before ++ replaced :: after)) := by
  intro given gives
  obtain ⟨isGiven, refilled⟩ := gives.refilledList named placed
  exact ⟨_, refilled replaced, of_refilled isGiven⟩

end RecordLayout.Changes

/-- A record stays what it is where the value of one field is written otherwise, in a way
that means the same for the field. -/
theorem IsRecord.changed {α : Type} {target : layout.Field}
    {means : Nat → (field : layout.Field) → ParseTree → layout.Content field → Prop}
    {build : Contents layout → Except layout.Field α} {budget : Nat} {tree other : ParseTree}
    {record : α} (isRecord : IsRecord means build budget tree record)
    (changes : layout.Changes target value replaced tree other)
    (kept : ∀ rest content, means rest target value content → means rest target replaced content) :
    IsRecord means build budget other record := by
  obtain ⟨rest, given, contents, spent, gives, meant, built⟩ := isRecord
  obtain ⟨otherGiven, otherGives, changed⟩ := changes given gives
  refine ⟨rest, otherGiven, contents, spent, otherGives, fun field => ?_, built⟩
  have meantHere := meant field
  rcases changed field with same | ⟨rfl, wasGiven, nowGiven⟩
  · rw [same]
    exact meantHere
  · rw [wasGiven] at meantHere
    rw [nowGiven]
    cases content : contents field with
    | none =>
        rw [content] at meantHere
        cases meantHere
    | some own =>
        rw [content] at meantHere
        cases meantHere with
        | some ownMeant => exact .some (kept rest own ownMeant)

end

/-! ## Maps -/

theorem forall₂_append_left_iff {α β : Type} {related : α → β → Prop} {first second : List α}
    {list : List β} :
    List.Forall₂ related (first ++ second) list ↔
      ∃ front back, List.Forall₂ related first front ∧ List.Forall₂ related second back ∧
        list = front ++ back := by
  induction first generalizing list with
  | nil =>
      constructor
      · intro matched
        exact ⟨[], list, .nil, matched, rfl⟩
      · rintro ⟨_, _, ⟨⟩, matched, rfl⟩
        exact matched
  | cons head tail inductionHypothesis =>
      constructor
      · rintro (_ | ⟨headMatched, tailMatched⟩)
        obtain ⟨front, back, matched, backMatched, rfl⟩ := inductionHypothesis.1 tailMatched
        exact ⟨_, back, .cons headMatched matched, backMatched, rfl⟩
      · rintro ⟨_, back, _ | ⟨headMatched, tailMatched⟩, backMatched, rfl⟩
        exact .cons headMatched (inductionHypothesis.2 ⟨_, back, tailMatched, backMatched, rfl⟩)

theorem exists_mem_of_forall₂ {α β : Type} {related : α → β → Prop} {first : List α}
    {second : List β} (matched : List.Forall₂ related first second) {image : β}
    (member : image ∈ second) : ∃ own ∈ first, related own image := by
  induction matched with
  | nil => cases member
  | cons headMatched _ inductionHypothesis =>
      rcases List.mem_cons.1 member with rfl | later
      · exact ⟨_, List.mem_cons_self, headMatched⟩
      · obtain ⟨own, ownMember, ownMatched⟩ := inductionHypothesis later
        exact ⟨own, List.mem_cons_of_mem _ ownMember, ownMatched⟩

section

variable {α : Type} {means : Nat → ParseTree → α → Prop} {budget : Nat} {list : NamedList α}
  {before middle after : List (TextLexeme × ParseTree)} {name : String}

namespace ParseTree.IsMap

/-- What is filed in a map is the meaning of one of its values. -/
theorem exists_of_mem {tree : ParseTree} (isMap : IsMap budget means tree list)
    {entry : String × α} (member : entry ∈ list.entries) :
    ∃ rest value, budget = rest + 1 ∧ means rest value entry.2 := by
  obtain ⟨rest, members, pairs, spent, _, matched, rfl⟩ := isMap
  obtain ⟨own, _, _, meant⟩ :=
    exists_mem_of_forall₂ matched (NamedList.mem_of_mem_ofList member)
  exact ⟨rest, own.2, spent, meant⟩

/-- A map stays what it is where one of its values is written otherwise. -/
theorem inside {key : TextLexeme} {value replaced : ParseTree}
    (isMap : IsMap budget means (.map (before ++ (key, value) :: after)) list)
    (kept : ∀ rest content, means rest value content → means rest replaced content) :
    IsMap budget means (.map (before ++ (key, replaced) :: after)) list := by
  obtain ⟨rest, _, pairs, spent, ⟨⟩, matched, rfl⟩ := isMap
  obtain ⟨front, _, frontMatched, _ | ⟨⟨named, meant⟩, backMatched⟩, rfl⟩ :=
    forall₂_append_left_iff.1 matched
  exact ⟨rest, _, _, spent, rfl, forall₂_append_left_iff.2
    ⟨front, _, frontMatched, .cons ⟨named, kept rest _ meant⟩ backMatched, rfl⟩, rfl⟩

/-- Of the members of a repeated key one is enough, in the place of the first and with the
value of the last. -/
theorem merged {first last key : TextLexeme} {value final : ParseTree}
    (isMap : IsMap budget means
      (.map (before ++ (first, value) :: (middle ++ (last, final) :: after))) list)
    (firstNamed : first.text? = some name) (lastNamed : last.text? = some name)
    (named : key.text? = some name) :
    IsMap budget means
      (.map (before ++ (key, final) ::
        (middle.filter (·.1.text? != some name) ++ after))) list := by
  obtain ⟨rest, _, pairs, spent, ⟨⟩, matched, rfl⟩ := isMap
  obtain ⟨front, _, frontMatched, _ | ⟨⟨firstMeant, oldMeant⟩, laterMatched⟩, rfl⟩ :=
    forall₂_append_left_iff.1 matched
  obtain ⟨between, _, betweenMatched, _ | ⟨⟨lastMeant, meant⟩, backMatched⟩, rfl⟩ :=
    forall₂_append_left_iff.1 laterMatched
  rename_i firstPair lastPair back
  obtain ⟨firstName, old⟩ := firstPair
  obtain ⟨lastName, content⟩ := lastPair
  obtain rfl : name = firstName := Option.some.inj (firstNamed.symm.trans firstMeant)
  obtain rfl : name = lastName := Option.some.inj (lastNamed.symm.trans lastMeant)
  have filtered := List.rel_filter (p := (·.1.text? != some name)) (q := (·.1 != name))
    (fun member pair related => by simp [related.1]) betweenMatched
  refine ⟨rest, _, front ++ (name, content) :: (between.filter (·.1 != name) ++ back), spent,
    rfl, ?_, NamedList.ofList_merge front between back name old content⟩
  exact forall₂_append_left_iff.2 ⟨front, _, frontMatched, .cons ⟨named, meant⟩
    (forall₂_append_left_iff.2 ⟨_, back, filtered, backMatched, rfl⟩), rfl⟩

end ParseTree.IsMap

end

end Json
end SchemaBinding
