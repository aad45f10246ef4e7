import SchemaBinding.NamedList

/-!
Contract: named values of which no name stands twice.

Owns:
- `NamedMap`, a list of named values that carries the distinctness of its names, and which
  stands wherever a list is asked for; and
- the ways to make one map of another: by insertion, from its values, and by a choice among
  its names.

Does not own: look-ups, names and values, which are those of the list.

While a type is being defined, nothing can be asked of lists of its own values. Lists of this
kind stay plain, and what is filed in them is shown to be distinct where they are built.
-/

set_option autoImplicit false

namespace SchemaBinding

/-- Values under distinct names, first name first. -/
structure NamedMap (α : Type) extends NamedList α where
  distinct : toNamedList.Distinct := by first | exact List.nodup_nil | decide
  deriving DecidableEq, Repr

namespace NamedMap

variable {α β : Type}

/-- A map stands wherever a list is asked for, also where the type of the values is still to be
found; a coercion would wait for it. -/
instance : MonadLift NamedMap NamedList := ⟨toNamedList⟩

instance : Inhabited (NamedMap α) := ⟨{}⟩

/-- There is nothing to a map but its entries. -/
@[ext]
theorem ext {first second : NamedMap α} (same : first.entries = second.entries) :
    first = second := by
  obtain ⟨⟨entries⟩, _⟩ := first
  obtain ⟨⟨others⟩, _⟩ := second
  cases same
  rfl

theorem toNamedList_inj {first second : NamedMap α} :
    first.toNamedList = second.toNamedList ↔ first = second :=
  ⟨fun same => ext (congrArg NamedList.entries same), congrArg toNamedList⟩

/-- Files `value` under `name`, as it is filed in a list. -/
def insert (map : NamedMap α) (name : String) (value : α) : NamedMap α where
  toNamedList := map.toNamedList.insert name value
  distinct := map.distinct.insert name value

/-- Files values one after another, each under its own name. -/
def fileAll (name : α → String) (added : List α) (map : NamedMap α) : NamedMap α :=
  added.foldl (fun filed value => filed.insert (name value) value) map

/-- What is made of the values, under the same names. -/
def mapValues (make : String → α → β) (map : NamedMap α) : NamedMap β where
  entries := map.entries.map fun entry => (entry.1, make entry.1 entry.2)
  distinct := by
    unfold NamedList.Distinct NamedList.names
    rw [List.map_map]
    exact map.distinct

/-- What is made of the values, under those names for which anything is. -/
def filterMap (make : String → α → Option β) (map : NamedMap α) : NamedMap β where
  entries := map.entries.filterMap fun entry =>
    (make entry.1 entry.2).map fun made => (entry.1, made)
  distinct := by
    apply List.pairwise_map.2
    apply List.pairwise_filterMap.2
    apply (List.pairwise_map.1 map.distinct).imp
    intro entry other apart _ made _ madeOther
    obtain ⟨_, _, rfl⟩ := Option.map_eq_some_iff.1 made
    obtain ⟨_, _, rfl⟩ := Option.map_eq_some_iff.1 madeOther
    exact apart

/-- The entries under some of the names. -/
def filterNames (keep : String → Bool) (map : NamedMap α) : NamedMap α where
  entries := map.entries.filter fun entry => keep entry.1
  distinct := List.Nodup.sublist (List.filter_sublist.map Prod.fst) map.distinct

section

variable (map : NamedMap α)

@[simp]
theorem toNamedList_insert (name : String) (value : α) :
    (map.insert name value).toNamedList = map.toNamedList.insert name value :=
  rfl

@[simp]
theorem entries_mapValues (make : String → α → β) :
    (map.mapValues make).entries
      = map.entries.map fun entry => (entry.1, make entry.1 entry.2) :=
  rfl

@[simp]
theorem entries_filterMap (make : String → α → Option β) :
    (map.filterMap make).entries
      = map.entries.filterMap fun entry =>
          (make entry.1 entry.2).map fun made => (entry.1, made) :=
  rfl

@[simp]
theorem entries_filterNames (keep : String → Bool) :
    (map.filterNames keep).entries = map.entries.filter fun entry => keep entry.1 :=
  rfl

end

end NamedMap

end SchemaBinding
