import CheckpointLedger.SortedMap

/-!
Sorted maps through their look-up: what each operation binds, that a key is
listed exactly when it is bound, and that maps with the same bindings are equal.
-/

namespace CheckpointLedger.SortedMap

variable {α β γ : Type} [Ord α]

theorem ext_entries (first second : SortedMap α β) (same : first.entries = second.entries) :
    first = second := by
  obtain ⟨entries, _⟩ := first
  obtain ⟨_, _⟩ := second
  have same : entries = _ := same
  subst same
  rfl

theorem compare_eq_iff [Std.LawfulEqOrd α] (a b : α) : compare a b = .eq ↔ a = b :=
  ⟨Std.LawfulEqOrd.eq_of_compare, fun same => same ▸ Std.ReflCmp.compare_self⟩

theorem lookup_eq_none_of_below (key : α) (entries : List (α × β))
    (below : ∀ other ∈ entries.map Prod.fst, compare key other = .lt) :
    lookup key entries = none := by
  induction entries with
  | nil => rfl
  | cons entry rest ih =>
      have first := below entry.1 (by simp)
      have later : ∀ other ∈ rest.map Prod.fst, compare key other = .lt := by
        intro other member
        exact below other (by simpa using Or.inr (by simpa using member))
      simp [lookup, first, ih later]

@[simp] theorem find?_empty (key : α) : (empty : SortedMap α β).find? key = none := rfl

theorem lookup_place_self [Std.LawfulEqOrd α] (key : α) (value : β) (entries : List (α × β)) :
    lookup key (place key value entries) = some value := by
  induction entries with
  | nil => simp [place, lookup]
  | cons entry rest ih =>
      simp only [place]
      split
      · simp [lookup]
      · simp [lookup]
      · rename_i above
        simp [lookup, above, ih]

variable [Std.TransOrd α] [Std.LawfulEqOrd α]

omit [Std.TransOrd α] in
theorem lookup_place_of_ne (key other : α) (value : β) (entries : List (α × β))
    (different : other ≠ key) :
    lookup other (place key value entries) = lookup other entries := by
  have apart : compare other key ≠ .eq := fun same => different ((compare_eq_iff _ _).1 same)
  induction entries with
  | nil => simp [place, lookup, apart]
  | cons entry rest ih =>
      simp only [place]
      split
      · simp [lookup, apart]
      · rename_i same
        have same : key = entry.1 := (compare_eq_iff _ _).1 same
        simp [lookup, ← same, apart]
      · simp [lookup, ih]

theorem find?_insert_self (map : SortedMap α β) (key : α) (value : β) :
    (map.insert key value).find? key = some value :=
  lookup_place_self key value map.entries

theorem find?_insert_of_ne (map : SortedMap α β) (key other : α) (value : β)
    (different : other ≠ key) : (map.insert key value).find? other = map.find? other :=
  lookup_place_of_ne key other value map.entries different

theorem find?_insert [DecidableEq α] (map : SortedMap α β) (key other : α) (value : β) :
    (map.insert key value).find? other = if other = key then some value else map.find? other := by
  by_cases same : other = key
  · subst other
    simp [find?_insert_self]
  · simp [same, find?_insert_of_ne map key other value same]

omit [Std.TransOrd α] in
theorem mem_keys_iff (map : SortedMap α β) (key : α) :
    key ∈ map.keys ↔ (map.find? key).isSome = true := by
  simp only [keys, find?]
  induction map.entries with
  | nil => simp [lookup]
  | cons entry rest ih =>
      simp only [List.map_cons, List.mem_cons, lookup]
      by_cases same : key = entry.1
      · simp [same, Std.ReflCmp.compare_self]
      · have apart : compare key entry.1 ≠ .eq := fun h => same ((compare_eq_iff _ _).1 h)
        simp [same, apart, ih]

theorem lookup_of_mem (entries : List (α × β))
    (ascending : (entries.map Prod.fst).Pairwise (fun a b => compare a b = .lt))
    (key : α) (value : β) (member : (key, value) ∈ entries) :
    lookup key entries = some value := by
  induction entries with
  | nil => cases member
  | cons entry rest ih =>
      simp only [List.map_cons, List.pairwise_cons] at ascending
      rcases List.mem_cons.1 member with same | deeper
      · subst same
        simp [lookup, Std.ReflCmp.compare_self]
      · have above := ascending.1 key (List.mem_map.2 ⟨(key, value), deeper, rfl⟩)
        have apart : compare key entry.1 ≠ .eq := by
          rw [Std.OrientedCmp.gt_of_lt above]
          decide
        simp [lookup, apart, ih ascending.2 deeper]

omit [Std.TransOrd α] in
theorem mem_of_lookup (entries : List (α × β)) (key : α) (value : β)
    (found : lookup key entries = some value) : (key, value) ∈ entries := by
  induction entries with
  | nil => cases found
  | cons entry rest ih =>
      simp only [lookup] at found
      split at found
      · rename_i same
        have same : key = entry.1 := (compare_eq_iff _ _).1 same
        cases found
        simp [same]
      · exact List.mem_cons_of_mem _ (ih found)

theorem mem_entries_iff (map : SortedMap α β) (key : α) (value : β) :
    (key, value) ∈ map.entries ↔ map.find? key = some value :=
  ⟨lookup_of_mem map.entries map.ascending key value, mem_of_lookup map.entries key value⟩

theorem entries_eq_of_lookup (first second : List (α × β))
    (ascending₁ : (first.map Prod.fst).Pairwise (fun a b => compare a b = .lt))
    (ascending₂ : (second.map Prod.fst).Pairwise (fun a b => compare a b = .lt))
    (agree : ∀ key, lookup key first = lookup key second) : first = second := by
  induction first generalizing second with
  | nil =>
      cases second with
      | nil => rfl
      | cons entry rest =>
          have there := agree entry.1
          simp [lookup, Std.ReflCmp.compare_self] at there
  | cons a as ih =>
      cases second with
      | nil =>
          have there := agree a.1
          simp [lookup, Std.ReflCmp.compare_self] at there
      | cons b bs =>
          simp only [List.map_cons, List.pairwise_cons] at ascending₁ ascending₂
          have heads : a.1 = b.1 := by
            -- the lower of two different least keys is bound on one side only
            rcases order : compare a.1 b.1 with _ | _ | _
            · have none₂ : lookup a.1 (b :: bs) = none := by
                apply lookup_eq_none_of_below
                intro other member
                rcases List.mem_cons.1 member with same | deeper
                · exact same ▸ order
                · exact Std.TransCmp.lt_trans order (ascending₂.1 other deeper)
              have there := agree a.1
              rw [none₂] at there
              simp [lookup, Std.ReflCmp.compare_self] at there
            · exact (compare_eq_iff _ _).1 order
            · have below := Std.OrientedCmp.lt_of_gt order
              have none₁ : lookup b.1 (a :: as) = none := by
                apply lookup_eq_none_of_below
                intro other member
                rcases List.mem_cons.1 member with same | deeper
                · exact same ▸ below
                · exact Std.TransCmp.lt_trans below (ascending₁.1 other deeper)
              have there := agree b.1
              rw [none₁] at there
              simp [lookup, Std.ReflCmp.compare_self] at there
          have values : a.2 = b.2 := by
            have there := agree a.1
            simpa [lookup, heads, Std.ReflCmp.compare_self] using there
          have tails : as = bs := by
            refine ih bs ascending₁.2 ascending₂.2 fun key => ?_
            by_cases same : key = a.1
            · subst same
              rw [lookup_eq_none_of_below _ as ascending₁.1,
                lookup_eq_none_of_below _ bs (heads ▸ ascending₂.1)]
            · have there := agree key
              have apart₁ : compare key a.1 ≠ .eq := fun h => same ((compare_eq_iff _ _).1 h)
              have apart₂ : compare key b.1 ≠ .eq := heads ▸ apart₁
              simpa [lookup, apart₁, apart₂] using there
          rw [tails, Prod.ext heads values]

theorem ext_find? (first second : SortedMap α β)
    (agree : ∀ key, first.find? key = second.find? key) : first = second := by
  obtain ⟨entries₁, ascending₁⟩ := first
  obtain ⟨entries₂, ascending₂⟩ := second
  have same := entries_eq_of_lookup entries₁ entries₂ ascending₁ ascending₂ agree
  subst same
  rfl

/-- A set is what it lists. -/
theorem ext_keys (first second : SortedMap α Unit)
    (agree : ∀ key, key ∈ first.keys ↔ key ∈ second.keys) : first = second := by
  apply ext_find?
  intro key
  have there := agree key
  simp only [mem_keys_iff] at there
  rcases found : first.find? key with _ | ⟨⟩ <;> rcases found' : second.find? key with _ | ⟨⟩ <;>
    simp_all

omit [Std.LawfulEqOrd α] in
theorem place_of_above (key : α) (value : β) (entries : List (α × β))
    (above : ∀ other ∈ entries.map Prod.fst, compare other key = .lt) :
    place key value entries = entries ++ [(key, value)] := by
  induction entries with
  | nil => rfl
  | cons entry rest ih =>
      have first := Std.OrientedCmp.gt_of_lt (above entry.1 (by simp))
      have later : ∀ other ∈ rest.map Prod.fst, compare other key = .lt := fun other member =>
        above other (by simpa using Or.inr (by simpa using member))
      simp [place, first, ih later]

theorem entries_insert_all (entries : List (α × β)) (map : SortedMap α β)
    (ascending : ((map.entries ++ entries).map Prod.fst).Pairwise
      (fun a b => compare a b = .lt)) :
    (entries.foldl (fun map entry => map.insert entry.1 entry.2) map).entries =
      map.entries ++ entries := by
  induction entries generalizing map with
  | nil => simp
  | cons entry rest ih =>
      have apart := (List.pairwise_append.1 (List.map_append ▸ ascending)).2.2
      have placed : (map.insert entry.1 entry.2).entries = map.entries ++ [entry] :=
        place_of_above entry.1 entry.2 map.entries fun other member =>
          apart other member entry.1 (by simp)
      rw [List.foldl_cons, ih _ (by rw [placed]; simpa using ascending), placed]
      simp

/-- The entries of a map build it again. -/
theorem ofList_entries (map : SortedMap α β) : ofList map.entries = map := by
  have same := entries_insert_all map.entries empty (by simpa [empty] using map.ascending)
  obtain ⟨entries, ascending⟩ := map
  simp only [ofList] at same ⊢
  generalize entries.foldl (fun map entry => insert map entry.1 entry.2) empty = built at same ⊢
  obtain ⟨_, _⟩ := built
  simpa [empty] using same

/-- Of the entries with one key the last counts. -/
theorem find?_insert_all [DecidableEq α] (entries : List (α × β)) (map : SortedMap α β)
    (key : α) :
    (entries.foldl (fun map entry => map.insert entry.1 entry.2) map).find? key =
      (entries.reverse.lookup key).or (map.find? key) := by
  induction entries generalizing map with
  | nil => rfl
  | cons entry rest ih =>
      obtain ⟨first, value⟩ := entry
      rw [List.foldl_cons, ih, find?_insert, List.reverse_cons, List.lookup_append,
        Option.or_assoc, List.lookup_cons]
      by_cases same : key = first
      · simp [same]
      · simp [same, beq_eq_false_iff_ne.mpr same]

theorem find?_ofList [DecidableEq α] (entries : List (α × β)) (key : α) :
    (ofList entries).find? key = entries.reverse.lookup key := by
  rw [ofList, find?_insert_all, find?_empty, Option.or_none]

theorem mem_keys_ofList [DecidableEq α] (entries : List (α × β)) (key : α) :
    key ∈ (ofList entries).keys ↔ key ∈ entries.map Prod.fst := by
  rw [mem_keys_iff, find?_ofList, List.lookup_isSome_iff, List.mem_map]
  simp only [List.mem_reverse, beq_iff_eq, eq_comm (a := key)]

omit [Std.TransOrd α] [Std.LawfulEqOrd α] in
theorem find?_map (f : β → γ) (source : SortedMap α β) (key : α) :
    (source.map f).find? key = (source.find? key).map f := by
  simp only [map, find?]
  induction source.entries with
  | nil => rfl
  | cons entry rest ih =>
      simp only [List.map_cons, lookup]
      split <;> simp_all

omit [Std.TransOrd α] in
theorem lookup_filterMap (f : α → β → Option γ) (entries : List (α × β))
    (ascending : (entries.map Prod.fst).Pairwise (fun a b => compare a b = .lt)) (key : α) :
    lookup key (entries.filterMap fun entry => (f entry.1 entry.2).map (entry.1, ·)) =
      (lookup key entries).bind (f key) := by
  induction entries with
  | nil => rfl
  | cons entry rest ih =>
      obtain ⟨first, value⟩ := entry
      simp only [List.map_cons, List.pairwise_cons] at ascending
      have tail := ih ascending.2
      by_cases same : key = first
      · subst same
        have self : compare key key = .eq := Std.ReflCmp.compare_self
        rw [lookup_eq_none_of_below key rest ascending.1] at tail
        cases kept : f key value <;>
          simp_all [lookup]
      · have apart : compare key first ≠ .eq := fun h => same ((compare_eq_iff _ _).1 h)
        cases kept : f first value <;>
          simp [lookup, kept, apart, tail]

omit [Std.TransOrd α] in
theorem find?_filterMap (f : α → β → Option γ) (source : SortedMap α β) (key : α) :
    (source.filterMap f).find? key = (source.find? key).bind (f key) :=
  lookup_filterMap f source.entries source.ascending key

/-- A bound beyond all keys leaves nothing out. -/
theorem below_eq_self (map : SortedMap α β) (bound : α)
    (all : ∀ key ∈ map.keys, compare key bound = .lt) : map.below bound = map := by
  apply ext_find?
  intro key
  rw [below, find?_filterMap]
  cases found : map.find? key with
  | none => rfl
  | some value =>
      have member : key ∈ map.keys := (mem_keys_iff map key).mpr (by rw [found]; rfl)
      rw [Option.bind_some, if_pos (all key member)]

omit [Std.TransOrd α] in
theorem keys_nodup (map : SortedMap α β) : map.keys.Nodup := by
  refine map.ascending.imp ?_
  intro a b below same
  rw [(compare_eq_iff a b).2 same] at below
  cases below

theorem size_insert_of_none (map : SortedMap α β) (key : α) (value : β)
    (absent : map.find? key = none) : (map.insert key value).size = map.size + 1 := by
  have fresh : key ∉ map.keys := by simp [mem_keys_iff, absent]
  have bound : ∀ other, other ∈ (map.insert key value).keys ↔ other ∈ key :: map.keys := by
    intro other
    rw [List.mem_cons, mem_keys_iff, mem_keys_iff]
    by_cases same : other = key
    · simp [same, find?_insert_self]
    · simp [same, find?_insert_of_ne]
  have perm := (List.perm_ext_iff_of_nodup (keys_nodup (map.insert key value))
    (List.nodup_cons.2 ⟨fresh, keys_nodup map⟩)).2 bound
  simpa [keys, size] using perm.length_eq

theorem size_insert_of_some (map : SortedMap α β) (key : α) (value other : β)
    (found : map.find? key = some other) : (map.insert key value).size = map.size := by
  have bound : ∀ other, other ∈ (map.insert key value).keys ↔ other ∈ map.keys := by
    intro other
    rw [mem_keys_iff, mem_keys_iff]
    by_cases same : other = key
    · simp [same, find?_insert_self, found]
    · simp [same, find?_insert_of_ne]
  have perm := (List.perm_ext_iff_of_nodup (keys_nodup (map.insert key value))
    (keys_nodup map)).2 bound
  simpa [keys, size] using perm.length_eq

theorem mem_values_insert (map : SortedMap α β) (key : α) (value other : β)
    (member : other ∈ (map.insert key value).values) : other = value ∨ other ∈ map.values := by
  obtain ⟨⟨bound, _⟩, entry, same⟩ := List.mem_map.mp member
  subst same
  have found := (mem_entries_iff _ _ _).mp entry
  by_cases here : bound = key
  · rw [here, find?_insert_self, Option.some.injEq] at found
    exact Or.inl found.symm
  · rw [find?_insert_of_ne _ _ _ _ here] at found
    exact Or.inr (List.mem_map.mpr ⟨_, (mem_entries_iff _ _ _).mpr found, rfl⟩)

/-! Maps made from maps. -/

section Map

variable {δ σ : Type}

omit [Std.TransOrd α] [Std.LawfulEqOrd α] in
theorem map_id (source : SortedMap α β) : source.map id = source := by
  simp [map]

omit [Std.TransOrd α] [Std.LawfulEqOrd α] in
theorem map_map (f : β → γ) (g : γ → δ) (source : SortedMap α β) :
    (source.map f).map g = source.map fun value => g (f value) := by
  simp only [map, List.map_map]
  rfl

omit [Std.TransOrd α] [Std.LawfulEqOrd α] in
theorem map_congr (f g : β → γ) (source : SortedMap α β)
    (agree : ∀ value ∈ source.values, f value = g value) : source.map f = source.map g := by
  apply ext_entries
  apply List.map_congr_left
  intro entry member
  exact Prod.ext rfl (agree entry.2 (List.mem_map_of_mem member))

omit [Std.TransOrd α] [Std.LawfulEqOrd α] in
theorem values_map (f : β → γ) (source : SortedMap α β) :
    (source.map f).values = source.values.map f := by
  simp only [values, map, List.map_map]
  rfl

omit [Ord α] [Std.TransOrd α] [Std.LawfulEqOrd α] in
theorem thread_map (f : β → σ → γ × σ) (g : γ → δ) (g' : β → δ)
    (same : ∀ value state, g (f value state).1 = g' value) (entries : List (α × β)) (state : σ) :
    (thread f entries state).1.map (fun entry => (entry.1, g entry.2)) =
      entries.map fun entry => (entry.1, g' entry.2) := by
  induction entries generalizing state with
  | nil => rfl
  | cons entry rest ih => simp [thread, same, ih]

omit [Std.TransOrd α] [Std.LawfulEqOrd α] in
/-- What does not depend on the state can be read off the source. -/
theorem mapThread_map (f : β → σ → γ × σ) (g : γ → δ) (g' : β → δ)
    (same : ∀ value state, g (f value state).1 = g' value) (source : SortedMap α β) (state : σ) :
    (source.mapThread f state).1.map g = source.map g' := by
  simp only [mapThread, map, thread_map f g g' same]

omit [Ord α] [Std.TransOrd α] [Std.LawfulEqOrd α] in
theorem thread_keeps (f : β → σ → γ × σ) (kept : σ → Prop)
    (keeps : ∀ value state, kept state → kept (f value state).2) (entries : List (α × β))
    (state : σ) (before : kept state) : kept (thread f entries state).2 := by
  induction entries generalizing state with
  | nil => exact before
  | cons entry rest ih => exact ih _ (keeps entry.2 state before)

end Map

end CheckpointLedger.SortedMap
