/-!
Finite maps kept as their entries in ascending key order. Two maps with the
same bindings are the same list of entries, so equality of maps is equality of
lists and every traversal has one order.
-/

namespace CheckpointLedger

variable {α β γ σ : Type}

structure SortedMap (α β : Type) [Ord α] where
  entries : List (α × β)
  ascending : (entries.map Prod.fst).Pairwise (fun a b => compare a b = .lt)
  deriving DecidableEq

namespace SortedMap

variable [Ord α]

def empty : SortedMap α β := ⟨[], List.Pairwise.nil⟩

instance : EmptyCollection (SortedMap α β) := ⟨empty⟩

instance : Inhabited (SortedMap α β) := ⟨empty⟩

def keys (map : SortedMap α β) : List α := map.entries.map Prod.fst

def values (map : SortedMap α β) : List β := map.entries.map Prod.snd

def size (map : SortedMap α β) : Nat := map.entries.length

def isEmpty (map : SortedMap α β) : Bool := map.entries.isEmpty

def lookup (key : α) : List (α × β) → Option β
  | [] => none
  | (first, value) :: rest =>
      if compare key first = .eq then some value else lookup key rest

def find? (map : SortedMap α β) (key : α) : Option β := lookup key map.entries

def contains (map : SortedMap α β) (key : α) : Bool := (map.find? key).isSome

def place (key : α) (value : β) : List (α × β) → List (α × β)
  | [] => [(key, value)]
  | (first, other) :: rest => match compare key first with
    | .lt => (key, value) :: (first, other) :: rest
    | .eq => (key, value) :: rest
    | .gt => (first, other) :: place key value rest

theorem mem_keys_place (key : α) (value : β) (entries : List (α × β)) (other : α)
    (member : other ∈ (place key value entries).map Prod.fst) :
    other = key ∨ other ∈ entries.map Prod.fst := by
  induction entries with
  | nil => simpa [place] using member
  | cons entry rest ih =>
      simp only [place] at member
      split at member
      · simpa using member
      · simp only [List.map_cons, List.mem_cons] at member ⊢
        exact member.elim Or.inl fun h => Or.inr (Or.inr h)
      · simp only [List.map_cons, List.mem_cons] at member ⊢
        rcases member with same | deeper
        · exact Or.inr (Or.inl same)
        · exact (ih deeper).elim Or.inl fun h => Or.inr (Or.inr h)

theorem ascending_place [Std.TransOrd α] [Std.LawfulEqOrd α] (key : α) (value : β)
    (entries : List (α × β))
    (ascending : (entries.map Prod.fst).Pairwise (fun a b => compare a b = .lt)) :
    ((place key value entries).map Prod.fst).Pairwise (fun a b => compare a b = .lt) := by
  induction entries with
  | nil => simp [place]
  | cons entry rest ih =>
      obtain ⟨first, other⟩ := entry
      simp only [List.map_cons, List.pairwise_cons] at ascending
      simp only [place]
      split
      · rename_i below
        refine List.pairwise_cons.2 ⟨?_, by simpa using ascending⟩
        intro later member
        simp only [List.map_cons, List.mem_cons] at member
        rcases member with same | deeper
        · exact same ▸ below
        · exact Std.TransCmp.lt_trans below (ascending.1 later deeper)
      · rename_i same
        have same : key = first := Std.LawfulEqOrd.eq_of_compare same
        subst same
        exact List.pairwise_cons.2 ascending
      · rename_i above
        refine List.pairwise_cons.2 ⟨?_, ih ascending.2⟩
        intro later member
        rcases mem_keys_place key value rest later member with same | deeper
        · exact same ▸ Std.OrientedCmp.lt_of_gt above
        · exact ascending.1 later deeper

/-- Binds the key to the value. An earlier binding of the key is replaced. -/
def insert [Std.TransOrd α] [Std.LawfulEqOrd α] (map : SortedMap α β) (key : α) (value : β) :
    SortedMap α β :=
  ⟨place key value map.entries, ascending_place key value map.entries map.ascending⟩

/-- The map that the entries build one after the other: of two entries with one
key the later counts. -/
def ofList [Std.TransOrd α] [Std.LawfulEqOrd α] (entries : List (α × β)) : SortedMap α β :=
  entries.foldl (fun map entry => map.insert entry.1 entry.2) empty

/-- Keeps the entries whose new value exists. -/
def filterMap (f : α → β → Option γ) (map : SortedMap α β) : SortedMap α γ where
  entries := map.entries.filterMap fun entry => (f entry.1 entry.2).map (entry.1, ·)
  ascending := by
    have sub : ((map.entries.filterMap fun entry => (f entry.1 entry.2).map (entry.1, ·)).map
        Prod.fst).Sublist (map.entries.map Prod.fst) := by
      induction map.entries with
      | nil => simp
      | cons entry rest ih =>
          cases kept : f entry.1 entry.2 with
          | none => simpa [List.filterMap_cons, kept] using ih.cons entry.1
          | some value => simpa [List.filterMap_cons, kept] using ih
    exact map.ascending.sublist sub

/-- The entries with keys before the bound. -/
def below (map : SortedMap α β) (bound : α) : SortedMap α β :=
  map.filterMap fun key value => if compare key bound = .lt then some value else none

def map (f : β → γ) (source : SortedMap α β) : SortedMap α γ where
  entries := source.entries.map fun entry => (entry.1, f entry.2)
  ascending := by simpa [List.map_map, Function.comp_def] using source.ascending

/-- Maps the values in key order while a state passes from one to the next. -/
def thread (f : β → σ → γ × σ) : List (α × β) → σ → List (α × γ) × σ
  | [], state => ([], state)
  | (key, value) :: rest, state =>
      let first := f value state
      let tail := thread f rest first.2
      ((key, first.1) :: tail.1, tail.2)

omit [Ord α] in
theorem keys_thread (f : β → σ → γ × σ) (entries : List (α × β)) (state : σ) :
    (thread f entries state).1.map Prod.fst = entries.map Prod.fst := by
  induction entries generalizing state with
  | nil => rfl
  | cons entry rest ih => simp [thread, ih]

def mapThread (f : β → σ → γ × σ) (source : SortedMap α β) (state : σ) : SortedMap α γ × σ :=
  (⟨(thread f source.entries state).1, keys_thread f source.entries state ▸ source.ascending⟩,
    (thread f source.entries state).2)

end SortedMap

end CheckpointLedger
