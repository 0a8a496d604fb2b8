import CheckpointLedger.Proofs.Registry.Run

/-!
What a history of calls says by itself, without looking at a registry: which
checkpoints hold a reference to a key, and under which blob the key has been
present since when. A lifetime of a key lasts from the turn that adopts its blob
to the turn that releases its last reference. Each notion has a law for one more
turn at the end.
-/

namespace CheckpointLedger.History

/-- A registration succeeded and no release of its checkpoint has followed. -/
def Holds (history : List Turn) (key : String) (checkpoint : CheckpointId) : Prop :=
  ∃ before turn later blob, history = before ++ turn :: later ∧
    turn.Registers key blob checkpoint ∧ ∀ other ∈ later, ¬ other.Releases checkpoint

def Present (history : List Turn) (key : String) : Prop :=
  ∃ checkpoint, Holds history key checkpoint

def Closed (history : List Turn) : Prop := ∃ turn ∈ history, turn.call = .close

/-- The turn at the position makes a key present that was absent, with the blob. -/
def Begins (history : List Turn) (key : String) (blob : Blob) (position : Nat) : Prop :=
  ∃ turn checkpoint, history[position]? = some turn ∧ turn.Registers key blob checkpoint ∧
    ¬ Present (history.take position) key

/-- The key has been present ever since it began at the position. -/
structure AdoptedAt (history : List Turn) (key : String) (blob : Blob) (position : Nat) : Prop where
  begun : Begins history key blob position
  kept : ∀ turns, position < turns → turns ≤ history.length → Present (history.take turns) key

def Adopted (history : List Turn) (key : String) (blob : Blob) : Prop :=
  ∃ position, AdoptedAt history key blob position

def Adoption (history : List Turn) (position : Nat) : Prop :=
  ∃ key blob, Begins history key blob position

structure Lifetime where
  key : String
  blob : Blob
  adopted : Nat
  released : Nat
  deriving DecidableEq

/-- Up to the turn that released it, the key was present as it had been adopted;
with that turn it was gone. -/
structure Ended (history : List Turn) (life : Lifetime) : Prop where
  within : life.released < history.length
  adoption : AdoptedAt (history.take life.released) life.key life.blob life.adopted
  gone : ¬ Present (history.take (life.released + 1)) life.key

theorem not_holds_nil (key : String) (checkpoint : CheckpointId) : ¬ Holds [] key checkpoint := by
  rintro ⟨before, turn, later, blob, split, _⟩
  simp at split

theorem holds_concat (history : List Turn) (turn : Turn) (key : String)
    (checkpoint : CheckpointId) :
    Holds (history ++ [turn]) key checkpoint ↔
      (∃ blob, turn.Registers key blob checkpoint) ∨
        (Holds history key checkpoint ∧ ¬ turn.Releases checkpoint) := by
  constructor
  · rintro ⟨before, registering, later, blob, split, registers, unreleased⟩
    -- The registration is the new turn itself, or the new turn comes after it.
    rcases List.eq_nil_or_concat later with none | ⟨earlier, last, concat⟩
    · subst later
      obtain ⟨_, same⟩ := List.append_inj' split rfl
      cases same
      exact Or.inl ⟨blob, registers⟩
    · subst later
      rw [List.concat_eq_append, ← List.cons_append, ← List.append_assoc] at split
      obtain ⟨front, same⟩ := List.append_inj' split rfl
      cases same
      refine Or.inr ⟨⟨before, registering, earlier, blob, front, registers, ?_⟩, ?_⟩
      · intro other member
        exact unreleased other (by simp [member])
      · exact unreleased turn (by simp)
  · rintro (⟨blob, registers⟩ | ⟨⟨before, registering, later, blob, split, registers, kept⟩, still⟩)
    · exact ⟨history, turn, [], blob, rfl, registers, by simp⟩
    · refine ⟨before, registering, later ++ [turn], blob, by simp [split], registers, ?_⟩
      intro other member
      rcases List.mem_append.mp member with old | new
      · exact kept other old
      · exact List.mem_singleton.mp new ▸ still

theorem closed_concat (history : List Turn) (turn : Turn) :
    Closed (history ++ [turn]) ↔ Closed history ∨ turn.call = .close := by
  simp [Closed, or_and_right, exists_or]

theorem take_concat_of_le (history : List Turn) (turn : Turn) (turns : Nat)
    (bound : turns ≤ history.length) : (history ++ [turn]).take turns = history.take turns :=
  List.take_append_of_le_length bound

theorem take_concat_all (history : List Turn) (turn : Turn) :
    (history ++ [turn]).take (history.length + 1) = history ++ [turn] :=
  List.take_of_length_le (by simp)

/-- A turn of a longer history is an earlier one or the last. -/
theorem turn_of_concat (history : List Turn) (turn : Turn) (position : Nat) (there : Turn)
    (found : (history ++ [turn])[position]? = some there) :
    (position < history.length ∧ history[position]? = some there) ∨
      (position = history.length ∧ there = turn) := by
  by_cases earlier : position < history.length
  · rw [List.getElem?_append_left earlier] at found
    exact Or.inl ⟨earlier, found⟩
  · have inside := (List.getElem?_eq_some_iff.mp found).1
    rw [List.length_append, List.length_singleton] at inside
    have last : position = history.length := by omega
    subst position
    rw [List.getElem?_concat_length, Option.some.injEq] at found
    exact Or.inr ⟨rfl, found.symm⟩

theorem begins_within (history : List Turn) (key : String) (blob : Blob) (position : Nat)
    (begun : Begins history key blob position) : position < history.length := by
  obtain ⟨turn, _, found, _⟩ := begun
  exact (List.getElem?_eq_some_iff.mp found).1

theorem begins_concat (history : List Turn) (turn : Turn) (key : String) (blob : Blob)
    (position : Nat) :
    Begins (history ++ [turn]) key blob position ↔
      Begins history key blob position ∨
        (position = history.length ∧ ¬ Present history key ∧
          ∃ checkpoint, turn.Registers key blob checkpoint) := by
  constructor
  · rintro ⟨there, checkpoint, found, registers, absent⟩
    rcases turn_of_concat history turn position there found with ⟨earlier, found⟩ | ⟨last, same⟩
    · rw [take_concat_of_le history turn _ (Nat.le_of_lt earlier)] at absent
      exact Or.inl ⟨there, checkpoint, found, registers, absent⟩
    · subst last same
      rw [take_concat_of_le history there _ (Nat.le_refl _), List.take_length] at absent
      exact Or.inr ⟨rfl, absent, checkpoint, registers⟩
  · rintro (begun | ⟨last, absent, checkpoint, registers⟩)
    · have inside := begins_within _ _ _ _ begun
      obtain ⟨registering, checkpoint, found, registers, absent⟩ := begun
      refine ⟨registering, checkpoint, ?_, registers, ?_⟩
      · rwa [List.getElem?_append_left inside]
      · rwa [take_concat_of_le history turn _ (Nat.le_of_lt inside)]
    · subst position
      refine ⟨turn, checkpoint, by simp, registers, ?_⟩
      rwa [take_concat_of_le history turn _ (Nat.le_refl _), List.take_length]

theorem adoptedAt_present (history : List Turn) (key : String) (blob : Blob) (position : Nat)
    (adopted : AdoptedAt history key blob position) : Present history key := by
  have whole := adopted.kept history.length
    (begins_within history key blob position adopted.begun) (Nat.le_refl _)
  rwa [List.take_length] at whole

/-- A key that is present began at one position only: at a later one it was not
absent. -/
theorem adoptedAt_position_unique (history : List Turn) (key : String) (first second : Blob)
    (i j : Nat) (atFirst : AdoptedAt history key first i)
    (atSecond : AdoptedAt history key second j) : i = j := by
  have apart : ∀ {first second : Blob} {i j : Nat}, AdoptedAt history key first i →
      AdoptedAt history key second j → ¬ i < j := by
    intro first second i j atFirst atSecond below
    -- The second beginning would find the key present since the first one.
    have inside := begins_within history key second j atSecond.begun
    obtain ⟨_, _, _, _, absent⟩ := atSecond.begun
    exact absent (atFirst.kept j below (Nat.le_of_lt inside))
  have notBelow := apart atFirst atSecond
  have notAbove := apart atSecond atFirst
  omega

theorem adoptedAt_blob_unique (history : List Turn) (key : String) (first second : Blob)
    (i j : Nat) (atFirst : AdoptedAt history key first i)
    (atSecond : AdoptedAt history key second j) : first = second := by
  have same := adoptedAt_position_unique history key first second i j atFirst atSecond
  subst same
  obtain ⟨turn, a, found, registers, _⟩ := atFirst.begun
  obtain ⟨other, b, found', registers', _⟩ := atSecond.begun
  cases found.symm.trans found'
  have call := registers.2.symm.trans registers'.2
  cases call
  rfl

theorem adoptedAt_concat (history : List Turn) (turn : Turn) (key : String) (blob : Blob)
    (position : Nat) :
    AdoptedAt (history ++ [turn]) key blob position ↔
      Present (history ++ [turn]) key ∧
        (AdoptedAt history key blob position ∨
          (position = history.length ∧ ¬ Present history key ∧
            ∃ checkpoint, turn.Registers key blob checkpoint)) := by
  constructor
  · intro adopted
    constructor
    · exact adoptedAt_present _ _ _ _ adopted
    rcases (begins_concat history turn key blob position).mp adopted.begun with earlier | last
    · left
      constructor
      · exact earlier
      · intro turns above bound
        have kept := adopted.kept turns above (by simp; omega)
        rwa [take_concat_of_le history turn turns bound] at kept
    · exact Or.inr last
  · rintro ⟨present, old | last⟩
    · constructor
      · exact (begins_concat _ _ _ _ _).mpr (Or.inl old.begun)
      · intro turns above bound
        by_cases within : turns ≤ history.length
        · rw [take_concat_of_le history turn turns within]
          exact old.kept turns above within
        · rw [List.take_of_length_le (by simp; omega)]
          exact present
    · constructor
      · exact (begins_concat _ _ _ _ _).mpr (Or.inr last)
      · -- Only the whole history is longer than the position of the last turn.
        intro turns above bound
        rw [List.take_of_length_le (by simp; omega)]
        exact present

/-- The lifetimes that a further turn ends are those of the keys it takes away. -/
theorem ended_concat (history : List Turn) (turn : Turn) (life : Lifetime) :
    Ended (history ++ [turn]) life ↔
      Ended history life ∨
        (life.released = history.length ∧
          AdoptedAt history life.key life.blob life.adopted ∧
          ¬ Present (history ++ [turn]) life.key) := by
  constructor
  · intro ended
    have inside := ended.within
    have adoption := ended.adoption
    have gone := ended.gone
    by_cases last : life.released = history.length
    · rw [last, take_concat_of_le history turn _ (Nat.le_refl _), List.take_length] at adoption
      rw [last, take_concat_all] at gone
      exact Or.inr ⟨last, adoption, gone⟩
    · have earlier : life.released < history.length := by
        rw [List.length_append, List.length_singleton] at inside
        omega
      rw [take_concat_of_le history turn _ (Nat.le_of_lt earlier)] at adoption
      rw [take_concat_of_le history turn _ earlier] at gone
      exact Or.inl ⟨earlier, adoption, gone⟩
  · rintro (ended | ⟨last, adoption, gone⟩)
    · have earlier := ended.within
      constructor
      · simp
        omega
      · rw [take_concat_of_le history turn _ (Nat.le_of_lt earlier)]
        exact ended.adoption
      · rw [take_concat_of_le history turn _ earlier]
        exact ended.gone
    · constructor
      · simp [last]
      · rw [last, take_concat_of_le history turn _ (Nat.le_refl _), List.take_length]
        exact adoption
      · rw [last, take_concat_all]
        exact gone

theorem adoption_concat (history : List Turn) (turn : Turn) (position : Nat) :
    Adoption (history ++ [turn]) position ↔
      Adoption history position ∨
        (position = history.length ∧ ∃ key blob checkpoint,
          turn.Registers key blob checkpoint ∧ ¬ Present history key) := by
  simp only [Adoption, begins_concat]
  constructor
  · rintro ⟨key, blob, begun | ⟨last, absent, checkpoint, registers⟩⟩
    · exact Or.inl ⟨key, blob, begun⟩
    · exact Or.inr ⟨last, key, blob, checkpoint, registers, absent⟩
  · rintro (⟨key, blob, begun⟩ | ⟨last, key, blob, checkpoint, registers, absent⟩)
    · exact ⟨key, blob, Or.inl begun⟩
    · exact ⟨key, blob, Or.inr ⟨last, absent, checkpoint, registers⟩⟩

end CheckpointLedger.History
