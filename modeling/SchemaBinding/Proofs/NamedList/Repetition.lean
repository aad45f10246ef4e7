import Mathlib.Data.List.Induction
import SchemaBinding.NamedList

/-!
Contract: names that are filed more than once.

Owns:
- how insertions under one name and under different names give way to each other;
- `NamedList.names_ofList` and `NamedList.find?_ofList`, by which names stand in the order in
  which they first came up, each with the value that came last;
- `NamedList.ofList_merge`, by which insertions under a repeated name come down to one, in
  the place of the first and with the value of the last;
- `NamedList.ofList_final`, by which the last value filed under a name is the one that is
  found, and may be replaced; and
- `NamedList.distinct_ofList`, by which nothing of the repetition is left.

Does not own: lists that are not built by insertion.
-/

set_option autoImplicit false

namespace SchemaBinding

/-- A name that comes last makes a difference to the names without their repetitions only
where it is new. -/
theorem eraseDups_append_singleton (names : List String) (last : String) :
    (names ++ [last]).eraseDups
      = if last ∈ names then names.eraseDups else names.eraseDups ++ [last] := by
  rw [List.eraseDups_append, List.cons_removeAll]
  by_cases known : last ∈ names
  · simp [known]
  · simp [known, List.eraseDups_cons]

namespace NamedList

variable {α : Type}

theorem insertInto_insertInto (name : String) (old new : α) :
    ∀ entries : List (String × α),
      insertInto name new (insertInto name old entries) = insertInto name new entries
  | [] => by simp [insertInto]
  | (key, value) :: rest => by
      by_cases here : key = name
      · simp [insertInto, here]
      · simp [insertInto, here, insertInto_insertInto name old new rest]

/-- The last value filed under a name is the one that counts. -/
theorem insert_insert (list : NamedList α) (name : String) (old new : α) :
    (list.insert name old).insert name new = list.insert name new :=
  congrArg NamedList.mk (insertInto_insertInto name old new list.entries)

theorem insertInto_comm_of_mem {name other : String} (apart : other ≠ name) (value new : α) :
    ∀ {entries : List (String × α)}, name ∈ entries.map Prod.fst →
      insertInto name new (insertInto other value entries)
        = insertInto other value (insertInto name new entries)
  | (key, own) :: rest, present => by
      by_cases here : key = name
      · subst here
        simp [insertInto, Ne.symm apart]
      · have later : name ∈ rest.map Prod.fst := by
          rw [List.map_cons, List.mem_cons] at present
          exact present.resolve_left (Ne.symm here)
        by_cases there : key = other
        · subst there
          simp [insertInto, here]
        · simp [insertInto, here, there, insertInto_comm_of_mem apart value new later]

/-- A name that is present has its place, whatever is filed under other names. -/
theorem insert_comm_of_mem {list : NamedList α} {name other : String} (apart : other ≠ name)
    (value new : α) (present : name ∈ list.names) :
    (list.insert other value).insert name new = (list.insert name new).insert other value :=
  congrArg NamedList.mk (insertInto_comm_of_mem apart value new present)

/-! ## Sequences of insertions -/

/-- Files pairs one after another. -/
def insertAll (list : NamedList α) (pairs : List (String × α)) : NamedList α :=
  pairs.foldl (fun filed pair => filed.insert pair.1 pair.2) list

theorem insertAll_cons (list : NamedList α) (pair : String × α) (pairs : List (String × α)) :
    list.insertAll (pair :: pairs) = (list.insert pair.1 pair.2).insertAll pairs :=
  rfl

theorem insertAll_append (list : NamedList α) (first second : List (String × α)) :
    list.insertAll (first ++ second) = (list.insertAll first).insertAll second :=
  List.foldl_append

theorem mem_names_insert_of_mem {list : NamedList α} {name : String} (present : name ∈ list.names)
    (other : String) (value : α) : name ∈ (list.insert other value).names := by
  rw [names_insert]
  split
  · exact present
  · exact List.mem_append_left _ present

theorem mem_names_insert_self (list : NamedList α) (name : String) (value : α) :
    name ∈ (list.insert name value).names := by
  rw [names_insert]
  split
  · assumption
  · exact List.mem_append_right _ List.mem_cons_self

theorem ofList_append_singleton (pairs : List (String × α)) (last : String × α) :
    ofList (pairs ++ [last]) = (ofList pairs).insert last.1 last.2 :=
  insertAll_append {} pairs [last]

/-- Names stand in the order in which they were first filed. -/
theorem names_ofList (pairs : List (String × α)) :
    (ofList pairs).names = (pairs.map Prod.fst).eraseDups := by
  induction pairs using List.reverseRecOn with
  | nil => rfl
  | append_singleton pairs last inductionHypothesis =>
      rw [ofList_append_singleton, names_insert, inductionHypothesis, List.map_append,
        List.map_singleton, eraseDups_append_singleton]
      simp only [List.mem_eraseDups]

/-- The value under a name is the last one that was filed there. -/
theorem find?_ofList (pairs : List (String × α)) (name : String) :
    (ofList pairs).find? name
      = ((pairs.filter fun pair => pair.1 == name).getLast?).map Prod.snd := by
  induction pairs using List.reverseRecOn with
  | nil => rfl
  | append_singleton pairs last inductionHypothesis =>
      rw [ofList_append_singleton, List.filter_append]
      by_cases here : last.1 = name
      · subst here
        simp
      · rw [find?_insert_of_ne _ _ (Ne.symm here), inductionHypothesis]
        simp [here]

/-- What is filed under a present name in the meantime leaves no trace. -/
theorem insert_insertAll {list : NamedList α} {name : String} (present : name ∈ list.names)
    (middle : List (String × α)) (final : α) :
    (list.insertAll middle).insert name final
      = (list.insert name final).insertAll (middle.filter (·.1 != name)) := by
  induction middle generalizing list with
  | nil => rfl
  | cons pair pairs inductionHypothesis =>
      have still := mem_names_insert_of_mem present pair.1 pair.2
      rw [insertAll_cons, inductionHypothesis still]
      by_cases same : pair.1 = name
      · rw [List.filter_cons_of_neg (by simp [same]), same, insert_insert]
      · rw [List.filter_cons_of_pos (by simp [same]), insertAll_cons,
          insert_comm_of_mem same _ _ present]

/-- Of a repeated name the first place and the last value remain. -/
theorem ofList_merge (before middle after : List (String × α)) (name : String)
    (old final : α) :
    ofList (before ++ (name, old) :: (middle ++ (name, final) :: after))
      = ofList (before ++ (name, final) :: (middle.filter (·.1 != name) ++ after)) := by
  have present := mem_names_insert_self (insertAll {} before) name old
  have merged := insert_insertAll present middle final
  rw [insert_insert] at merged
  calc insertAll {} (before ++ (name, old) :: (middle ++ (name, final) :: after))
      = ((((insertAll {} before).insert name old).insertAll middle).insert name final).insertAll
          after := by
        rw [insertAll_append, insertAll_cons, insertAll_append, insertAll_cons]
    _ = (((insertAll {} before).insert name final).insertAll
          (middle.filter (·.1 != name))).insertAll after := by
        rw [merged]
    _ = insertAll {} (before ++ (name, final) :: (middle.filter (·.1 != name) ++ after)) := by
        rw [insertAll_append, insertAll_cons, insertAll_append]

/-- Where a name is not filed again, its value is the one that was filed, and it may be
replaced before or after the others are filed. -/
theorem ofList_final (before : List (String × α)) {after : List (String × α)} {name : String}
    (old : α) (final : ∀ pair ∈ after, pair.1 ≠ name) :
    (ofList (before ++ (name, old) :: after)).find? name = some old ∧
      ∀ new, (ofList (before ++ (name, old) :: after)).insert name new
        = ofList (before ++ (name, new) :: after) := by
  have replaced : ∀ new, (ofList (before ++ (name, old) :: after)).insert name new
      = ofList (before ++ (name, new) :: after) := by
    intro new
    have others : after.filter (·.1 != name) = after := by
      apply List.filter_eq_self.2
      intro pair member
      simp [final pair member]
    have present := mem_names_insert_self (insertAll {} before) name old
    have moved := insert_insertAll present after new
    rw [insert_insert, others, ← insertAll_cons _ (name, old), ← insertAll_append,
      ← insertAll_cons _ (name, new), ← insertAll_append] at moved
    exact moved
  refine ⟨?_, replaced⟩
  rw [← replaced old]
  exact find?_insert_self _ _ _

theorem map_insertInto {β : Type} (image : String → α → β) {name : String} {old new : α}
    (same : image name new = image name old) :
    ∀ {entries : List (String × α)}, entries.lookup name = some old →
      (insertInto name new entries).map (fun entry => (entry.1, image entry.1 entry.2))
        = entries.map fun entry => (entry.1, image entry.1 entry.2)
  | (key, own) :: rest, found => by
      rw [List.lookup_cons] at found
      by_cases here : key = name
      · subst here
        rw [beq_self_eq_true] at found
        cases found
        rw [insertInto, if_pos rfl, List.map_cons, List.map_cons, same]
      · rw [beq_eq_false_iff_ne.2 (Ne.symm here)] at found
        rw [insertInto, if_neg here, List.map_cons, List.map_cons, map_insertInto image same found]

/-- Nobody notices that a value is replaced by one of the same image. -/
theorem map_insert {β : Type} (image : String → α → β) {list : NamedList α} {name : String}
    {old new : α} (found : list.find? name = some old) (same : image name new = image name old) :
    (list.insert name new).entries.map (fun entry => (entry.1, image entry.1 entry.2))
      = list.entries.map fun entry => (entry.1, image entry.1 entry.2) :=
  map_insertInto image same found

theorem Distinct.insertAll {list : NamedList α} (distinct : list.Distinct)
    (pairs : List (String × α)) : (list.insertAll pairs).Distinct := by
  induction pairs generalizing list with
  | nil => exact distinct
  | cons pair pairs inductionHypothesis =>
      exact inductionHypothesis (distinct.insert pair.1 pair.2)

/-- A list that is built by insertion has no name twice. -/
theorem distinct_ofList (pairs : List (String × α)) : (ofList pairs).Distinct := by
  have empty : ({} : NamedList α).Distinct := List.nodup_nil
  exact empty.insertAll pairs

theorem mem_of_mem_insertInto {name : String} {value : α} {entry : String × α} :
    ∀ {entries : List (String × α)}, entry ∈ insertInto name value entries →
      entry = (name, value) ∨ entry ∈ entries
  | [], member => .inl (List.mem_singleton.1 member)
  | (key, old) :: rest, member => by
      rw [insertInto] at member
      split at member
      · rename_i same
        rcases List.mem_cons.1 member with rfl | later
        · exact .inl (by rw [same])
        · exact .inr (List.mem_cons_of_mem _ later)
      · rcases List.mem_cons.1 member with rfl | later
        · exact .inr List.mem_cons_self
        · exact (mem_of_mem_insertInto later).imp_right (List.mem_cons_of_mem _)

theorem mem_of_mem_insertAll {pairs : List (String × α)} {entry : String × α} :
    ∀ {list : NamedList α}, entry ∈ (list.insertAll pairs).entries →
      entry ∈ list.entries ∨ entry ∈ pairs := by
  induction pairs with
  | nil => exact .inl
  | cons pair pairs inductionHypothesis =>
      intro list member
      rcases inductionHypothesis member with filed | later
      · rcases mem_of_mem_insertInto filed with rfl | before
        · exact .inr List.mem_cons_self
        · exact .inl before
      · exact .inr (List.mem_cons_of_mem _ later)

/-- Nothing stands in a list that has not been filed. -/
theorem mem_of_mem_ofList {pairs : List (String × α)} {entry : String × α}
    (member : entry ∈ (ofList pairs).entries) : entry ∈ pairs :=
  (mem_of_mem_insertAll member).resolve_left nofun

end NamedList

end SchemaBinding
