import CheckpointLedger.SortedMap.Lemmas
import Mathlib.Data.List.Forall2
import Mathlib.Data.List.Perm.Subperm

/-!
Rows of entries, as a stored map has them: in any order, and several under one key. Of these
the last counts. Each row can be sorted into the one row that stands for the same map and is
in order, and a row that is in order already is left as it is.
-/

namespace CheckpointLedger

variable {α β γ : Type}

/-- The keys ascend, each standing once. -/
def Ascending [Ord α] (row : List (α × β)) : Prop :=
  (row.map Prod.fst).Pairwise fun a b => compare a b = .lt

/-- The second row has the keys of the first in ascending order, and under each of them a value
like the last that the first has. -/
structure SortsTo [Ord α] [BEq α] (alike : β → γ → Prop) (row : List (α × β))
    (sorted : List (α × γ)) : Prop where
  ascending : Ascending sorted
  last : ∀ key, Option.Rel alike (row.reverse.lookup key) (sorted.lookup key)

/-- Entry by entry, the same keys with values that are alike. -/
def AlikeEntries (alike : β → γ → Prop) : List (α × β) → List (α × γ) → Prop :=
  List.Forall₂ fun entry other => entry.1 = other.1 ∧ alike entry.2 other.2

theorem alikeEntries_keys {alike : β → γ → Prop} {row : List (α × β)} {other : List (α × γ)}
    (related : AlikeEntries alike row other) : row.map Prod.fst = other.map Prod.fst := by
  induction related with
  | nil => rfl
  | cons first _ ih => rw [List.map_cons, List.map_cons, first.1, ih]

section Lookup

variable [BEq α]

theorem alikeEntries_lookup {alike : β → γ → Prop} {row : List (α × β)} {other : List (α × γ)}
    (related : AlikeEntries alike row other) (key : α) :
    Option.Rel alike (row.lookup key) (other.lookup key) := by
  induction related with
  | nil => exact .none
  | @cons entry other rest rest' first _ ih =>
      rw [List.lookup_cons, List.lookup_cons, first.1]
      cases key == other.1 with
      | true => exact .some first.2
      | false => exact ih

theorem lookup_map (f : β → γ) (row : List (α × β)) (key : α) :
    (row.map fun entry => (entry.1, f entry.2)).lookup key = (row.lookup key).map f := by
  induction row with
  | nil => rfl
  | cons entry rest ih =>
      rw [List.map_cons, List.lookup_cons, List.lookup_cons]
      cases key == entry.1 with
      | true => rfl
      | false => exact ih

end Lookup

section Sorting

variable [Ord α] [Std.TransOrd α] [Std.LawfulEqOrd α]

theorem entries_ofList (row : List (α × β)) (ascending : Ascending row) :
    (SortedMap.ofList row).entries = row :=
  SortedMap.entries_insert_all row ∅ ascending

variable [DecidableEq α]

omit [Std.TransOrd α] in
/-- The look-up of a map is that of its entries. -/
theorem lookup_eq (row : List (α × β)) (key : α) : SortedMap.lookup key row = row.lookup key := by
  induction row with
  | nil => rfl
  | cons entry rest ih =>
      rw [SortedMap.lookup, List.lookup_cons, ih]
      by_cases same : key = entry.1
      · simp [same]
      · simp [same, beq_eq_false_iff_ne.mpr same]

/-- In a row that is in order, the first entry of a key is the last. -/
theorem lookup_reverse (row : List (α × β)) (ascending : Ascending row) (key : α) :
    row.reverse.lookup key = row.lookup key := by
  rw [← SortedMap.find?_ofList, SortedMap.find?, entries_ofList row ascending, lookup_eq]

theorem mem_iff_lookup (row : List (α × β)) (ascending : Ascending row) (key : α) (value : β) :
    (key, value) ∈ row ↔ row.lookup key = some value := by
  rw [← lookup_eq]
  exact ⟨SortedMap.lookup_of_mem row ascending key value, SortedMap.mem_of_lookup row key value⟩

omit [Ord α] [Std.TransOrd α] [Std.LawfulEqOrd α] in
theorem mem_of_last {row : List (α × β)} {key : α} {value : β}
    (found : row.reverse.lookup key = some value) : (key, value) ∈ row := by
  obtain ⟨before, after, split, -⟩ := List.lookup_eq_some_iff.mp found
  exact List.mem_reverse.mp (by rw [split]; simp)

variable {alike : β → γ → Prop} {row : List (α × β)} {sorted : List (α × γ)}

/-- What stands in the sorted row is like something in the row. -/
theorem sortsTo_mem (sorts : SortsTo alike row sorted) {key : α} {value : γ}
    (member : (key, value) ∈ sorted) : ∃ source, (key, source) ∈ row ∧ alike source value := by
  have last := sorts.last key
  rw [(mem_iff_lookup sorted sorts.ascending key value).mp member] at last
  cases found : row.reverse.lookup key with
  | none =>
      rw [found] at last
      cases last
  | some source =>
      rw [found] at last
      cases last with
      | some same => exact ⟨source, mem_of_last found, same⟩

/-- Sorting drops entries and makes none. -/
theorem sortsTo_length (sorts : SortsTo alike row sorted) : sorted.length ≤ row.length := by
  have once : (sorted.map Prod.fst).Nodup :=
    SortedMap.keys_nodup ⟨sorted, sorts.ascending⟩
  have known : sorted.map Prod.fst ⊆ row.map Prod.fst := by
    intro key member
    obtain ⟨entry, listed, rfl⟩ := List.mem_map.mp member
    obtain ⟨source, there, -⟩ := sortsTo_mem sorts listed
    exact List.mem_map.mpr ⟨_, there, rfl⟩
  simpa using (List.subperm_of_subset once known).length_le

/-- A row in order is sorted already, if its values are. -/
theorem sortsTo_self {alike : β → β → Prop} {row sorted : List (α × β)}
    (ascending : Ascending row)
    (unchanged : ∀ entry ∈ row, ∀ value, alike entry.2 value → value = entry.2)
    (sorts : SortsTo alike row sorted) : sorted = row := by
  apply SortedMap.entries_eq_of_lookup sorted row sorts.ascending ascending
  intro key
  rw [lookup_eq, lookup_eq]
  have last := sorts.last key
  rw [lookup_reverse row ascending] at last
  cases found : row.lookup key with
  | none =>
      rw [found] at last
      cases there : sorted.lookup key with
      | none => rfl
      | some value =>
          rw [there] at last
          cases last
  | some source =>
      have member := (mem_iff_lookup row ascending key source).mpr found
      rw [found] at last
      cases there : sorted.lookup key with
      | none =>
          rw [there] at last
          cases last
      | some value =>
          rw [there] at last
          cases last with
          | some same => exact congrArg some (unchanged _ member value same)

/-- The entries of the map that a row builds are the row sorted. -/
theorem sortsTo_ofList (f : γ → β) {alike : β → β → Prop} {row : List (α × β)}
    {entries : List (α × γ)}
    (related : AlikeEntries alike row (entries.map fun entry => (entry.1, f entry.2))) :
    SortsTo alike row ((SortedMap.ofList entries).entries.map fun entry => (entry.1, f entry.2))
    where
  ascending := by
    have keys := (SortedMap.ofList entries).ascending
    rw [Ascending, List.map_map]
    exact keys
  last key := by
    have last := alikeEntries_lookup (List.forall₂_reverse_iff.mpr related) key
    have bound : (SortedMap.ofList entries).entries.lookup key = entries.reverse.lookup key := by
      rw [← lookup_eq, ← SortedMap.find?_ofList, SortedMap.find?]
    rw [← List.map_reverse, lookup_map] at last
    rw [lookup_map, bound]
    exact last

end Sorting

end CheckpointLedger
