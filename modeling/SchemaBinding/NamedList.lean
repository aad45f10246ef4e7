/-!
Contract: values under names, in the order in which the names first appeared.

Owns:
- `NamedList`, its insertion and its look-up, and how the two relate to its entries;
- `NamedList.Distinct`, which every list built by insertion satisfies; and
- `NamedList.alike`, equality up to the order of the entries.

Does not own: any rule that ties a name to the value under it. A value may be
filed under a name that is not its own.

Insertion replaces the value of a present name and leaves it in its old place.
-/

set_option autoImplicit false

namespace SchemaBinding

/-- Values under names, first name first. -/
structure NamedList (α : Type) where
  entries : List (String × α) := []
  deriving DecidableEq, Repr, Inhabited

namespace NamedList

variable {α β : Type}

/-- Files a value, in place of an earlier value of the same name. -/
def insertInto (name : String) (value : α) : List (String × α) → List (String × α)
  | [] => [(name, value)]
  | (key, old) :: rest =>
      if key = name then (key, value) :: rest
      else (key, old) :: insertInto name value rest

/-- Files `value` under `name`: in the place of the old value if there is one,
and at the end if there is none. -/
def insert (list : NamedList α) (name : String) (value : α) : NamedList α :=
  ⟨insertInto name value list.entries⟩

/-- The values of a sequence of insertions into the empty list. -/
def ofList (pairs : List (String × α)) : NamedList α :=
  pairs.foldl (fun list pair => list.insert pair.1 pair.2) {}

/-- The first value filed under a name. -/
def find? (list : NamedList α) (name : String) : Option α :=
  list.entries.lookup name

def contains (list : NamedList α) (name : String) : Bool :=
  (list.find? name).isSome

def names (list : NamedList α) : List String :=
  list.entries.map Prod.fst

def values (list : NamedList α) : List α :=
  list.entries.map Prod.snd

def size (list : NamedList α) : Nat :=
  list.entries.length

def isEmpty (list : NamedList α) : Bool :=
  list.entries.isEmpty

/-- No name stands twice. -/
def Distinct (list : NamedList α) : Prop :=
  list.names.Nodup

instance (list : NamedList α) : Decidable list.Distinct :=
  inferInstanceAs (Decidable list.names.Nodup)

/-- Equality that ignores the order of the entries: as many of them, and each
entry of the first has its equal under the same name in the second. -/
def alike (same : α → β → Bool) (first : NamedList α) (second : NamedList β) : Bool :=
  first.size == second.size
    && first.entries.all fun entry =>
      match second.find? entry.1 with
      | some value => same entry.2 value
      | none => false

theorem contains_eq_false_iff {list : NamedList α} {name : String} :
    list.contains name = false ↔ list.find? name = none := by
  rw [contains, Option.isSome_eq_false_iff, Option.isNone_iff_eq_none]

theorem mem_names_iff {list : NamedList α} {name : String} :
    name ∈ list.names ↔ list.contains name = true := by
  rw [contains, find?, names]
  induction list.entries with
  | nil => simp
  | cons entry rest inductionHypothesis =>
      rw [List.map_cons, List.mem_cons, inductionHypothesis, List.lookup_cons]
      by_cases here : name = entry.1
      · simp [here]
      · simp [here, beq_eq_false_iff_ne.2 here]

/-- Lists that agree on the presence of a name agree on whether they contain it. -/
theorem contains_eq_of_mem_names_iff {list : NamedList α} {other : NamedList β} {name : String}
    (same : name ∈ list.names ↔ name ∈ other.names) :
    list.contains name = other.contains name := by
  rw [Bool.eq_iff_iff, ← mem_names_iff, ← mem_names_iff]
  exact same

/-- What is found in a list is found in any list that has all its names. -/
theorem exists_find?_of_names_subset {list : NamedList α} {other : NamedList β}
    {name : String} {value : α} (present : list.names ⊆ other.names)
    (found : list.find? name = some value) : ∃ image, other.find? name = some image := by
  apply Option.isSome_iff_exists.1
  apply mem_names_iff.1
  apply present
  rw [mem_names_iff, contains, found]
  rfl

theorem lookup_map (image : String → α → β) (name : String) :
    ∀ entries : List (String × α),
      (entries.map fun entry => (entry.1, image entry.1 entry.2)).lookup name
        = (entries.lookup name).map (image name)
  | [] => rfl
  | (key, value) :: rest => by
      rw [List.map_cons, List.lookup_cons, List.lookup_cons, lookup_map image name rest]
      by_cases here : name = key
      · subst here
        simp
      · rw [beq_eq_false_iff_ne.2 here]

/-! ## What insertion does to look-ups and names -/

theorem lookup_insertInto_self (name : String) (value : α) :
    ∀ entries : List (String × α),
      (insertInto name value entries).lookup name = some value
  | [] => by simp [insertInto]
  | (key, old) :: rest => by
      by_cases here : key = name
      · simp [insertInto, here]
      · have apart : (name == key) = false := by simpa using fun h => here h.symm
        simp [insertInto, here, List.lookup_cons, apart,
          lookup_insertInto_self name value rest]

theorem lookup_insertInto_of_ne {name other : String} (value : α)
    (apart : other ≠ name) :
    ∀ entries : List (String × α),
      (insertInto name value entries).lookup other = entries.lookup other
  | [] => by
      have missed : (other == name) = false := by simpa using apart
      simp [insertInto, List.lookup_cons, missed]
  | (key, old) :: rest => by
      by_cases here : key = name
      · subst here
        have missed : (other == key) = false := by simpa using apart
        simp [insertInto, List.lookup_cons, missed]
      · simp only [insertInto, here, if_false, List.lookup_cons]
        cases other == key
        · exact lookup_insertInto_of_ne value apart rest
        · rfl

/-- The value just filed is the one found. -/
@[simp]
theorem find?_insert_self (list : NamedList α) (name : String) (value : α) :
    (list.insert name value).find? name = some value :=
  lookup_insertInto_self name value list.entries

/-- Filing under one name leaves the other names alone. -/
theorem find?_insert_of_ne (list : NamedList α) {name other : String} (value : α)
    (apart : other ≠ name) :
    (list.insert name value).find? other = list.find? other :=
  lookup_insertInto_of_ne value apart list.entries

theorem map_fst_insertInto (name : String) (value : α) :
    ∀ entries : List (String × α),
      (insertInto name value entries).map Prod.fst
        = if name ∈ entries.map Prod.fst then entries.map Prod.fst
          else entries.map Prod.fst ++ [name]
  | [] => by simp [insertInto]
  | (key, old) :: rest => by
      by_cases here : key = name
      · simp [insertInto, here]
      · have apart : ¬ name = key := fun h => here h.symm
        rw [show insertInto name value ((key, old) :: rest)
            = (key, old) :: insertInto name value rest from by
          simp [insertInto, here]]
        rw [List.map_cons, map_fst_insertInto name value rest]
        by_cases member : name ∈ rest.map Prod.fst
        · rw [if_pos member, List.map_cons, if_pos (List.mem_cons_of_mem _ member)]
        · rw [if_neg member, List.map_cons, if_neg (by
            rw [List.mem_cons]
            exact not_or.2 ⟨apart, member⟩)]
          rfl

/-- A present name keeps its place and a new one goes to the end. -/
theorem names_insert (list : NamedList α) (name : String) (value : α) :
    (list.insert name value).names
      = if name ∈ list.names then list.names else list.names ++ [name] :=
  map_fst_insertInto name value list.entries

theorem insertInto_of_not_mem {name : String} (value : α) :
    ∀ {entries : List (String × α)}, name ∉ entries.map Prod.fst →
      insertInto name value entries = entries ++ [(name, value)]
  | [], _ => rfl
  | (key, old) :: rest, missing => by
      rw [List.map_cons, List.mem_cons, not_or] at missing
      rw [insertInto, if_neg (Ne.symm missing.1), insertInto_of_not_mem value missing.2]
      rfl

/-- A new name goes to the end with its value. -/
theorem insert_of_not_mem (list : NamedList α) {name : String} (value : α)
    (missing : name ∉ list.names) :
    list.insert name value = ⟨list.entries ++ [(name, value)]⟩ :=
  congrArg NamedList.mk (insertInto_of_not_mem value missing)

/-- Insertion keeps names distinct. -/
theorem Distinct.insert {list : NamedList α} (distinct : list.Distinct)
    (name : String) (value : α) : (list.insert name value).Distinct := by
  unfold Distinct
  rw [names_insert]
  by_cases member : name ∈ list.names
  · rw [if_pos member]
    exact distinct
  · rw [if_neg member]
    exact List.nodup_append.2
      ⟨distinct, by simp, by
        intro first firstMember second secondMember same
        have isName : second = name := by simpa using secondMember
        exact member (by rw [← isName, ← same]; exact firstMember)⟩

/-! ## Entries and look-ups -/

theorem lookup_of_mem {name : String} {value : α} :
    ∀ {entries : List (String × α)}, (entries.map Prod.fst).Nodup →
      (name, value) ∈ entries → entries.lookup name = some value
  | (key, old) :: rest, distinct, member => by
      rw [List.map_cons, List.nodup_cons] at distinct
      rcases List.mem_cons.1 member with here | later
      · cases here
        exact List.lookup_cons_self
      · have apart : (name == key) = false := by
          have inRest : name ∈ rest.map Prod.fst := List.mem_map_of_mem later
          simpa using fun same : name = key => distinct.1 (same ▸ inRest)
        rw [List.lookup_cons, apart]
        exact lookup_of_mem distinct.2 later

/-- What a look-up finds stands in the list. -/
theorem mem_entries_of_find? {list : NamedList α} {name : String} {value : α}
    (found : list.find? name = some value) : (name, value) ∈ list.entries := by
  obtain ⟨before, after, split, _⟩ := List.lookup_eq_some_iff.1 found
  rw [split]
  exact List.mem_append_right before List.mem_cons_self

/-- Where names are distinct, what stands in the list is found. -/
theorem Distinct.mem_entries_iff {list : NamedList α} (distinct : list.Distinct)
    {name : String} {value : α} :
    (name, value) ∈ list.entries ↔ list.find? name = some value :=
  ⟨lookup_of_mem distinct, mem_entries_of_find?⟩

private theorem eq_filterMap_find {find : String → Option α} :
    ∀ entries : List (String × α),
      (∀ entry ∈ entries, find entry.1 = some entry.2) →
      entries = (entries.map Prod.fst).filterMap fun name =>
        (find name).map fun value => (name, value)
  | [], _ => rfl
  | (name, value) :: rest, own => by
      have here : find name = some value := own (name, value) List.mem_cons_self
      have later := eq_filterMap_find rest fun entry member =>
        own entry (List.mem_cons_of_mem _ member)
      rw [List.map_cons, List.filterMap_cons, here, Option.map_some, ← later]

/-- Where names are distinct, looking them up in order gives all entries in order. -/
theorem Distinct.entries_eq {list : NamedList α} (distinct : list.Distinct) :
    list.entries
      = list.names.filterMap fun name => (list.find? name).map fun value => (name, value) :=
  eq_filterMap_find list.entries fun _ member => distinct.mem_entries_iff.1 member

end NamedList

end SchemaBinding
