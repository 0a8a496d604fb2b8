import CheckpointLedger.Proofs.Registry.Run
import CheckpointLedger.Proofs.Sharing.Traversal

/-!
A checkpoint is aborted by releasing it, no matter how far its registration came. The
registry is then what it was before, and what the registration brought into it is handed
out for disposal.
-/

namespace CheckpointLedger

open Registry

/-- The release of a checkpoint that nothing depended on before takes its registration
back, also one that was refused halfway. Handed out are the blobs of the keys that the
registration has reported as new, each of them once, and no others. -/
theorem release_undoes_registration (registry : Registry) (reachable : registry.Reachable)
    (checkpoint : CheckpointId) (unused : ∀ key, ¬ registry.Refers key checkpoint)
    (store : Store) (composites : List Composite) :
    let ledger := (outcome (registerAll checkpoint composites) ⟨store, registry, []⟩).2
    let undone := ledger.registry.perform (.releaseCheckpoint checkpoint)
    undone.1 = registry ∧
      ∃ adopted : List (String × Blob),
        (∀ key blob, (key, blob) ∈ adopted ↔
          registry.blob? key = none ∧ ledger.registry.blob? key = some blob) ∧
        (adopted.map Prod.fst).Nodup ∧
        (adopted.map Prod.fst).Perm (adoptions ledger.effects) ∧
        disposals undone.2.effects = adopted.map Prod.snd ∧
        undone.2.answer = .ok (.released adopted.length) := by
  intro ledger undone
  obtain ⟨intact, valid⟩ := reachable_wellformed registry reachable
  have others : ∀ key holder, registry.Refers key holder → (holder == checkpoint) = false := by
    intro key holder refers
    rw [beq_eq_false_iff_ne]
    exact fun same => unused key (same ▸ refers)
  obtain ⟨effects, reported, grown⟩ : ∃ effects, ledger.effects = [] ++ effects ∧
      Registrations (· == checkpoint) registry effects ledger.registry := by
    simp only [ledger, registerAll_flat]
    exact registerEach_registrations checkpoint _ ⟨store, registry, []⟩
  have still : ledger.registry.status ≠ .poisoned := registrations_status grown ▸ intact
  have released : undone = _ :=
    perform_release ledger.registry still (.releaseCheckpoint checkpoint) rfl
  rw [released, reported, List.nil_append]
  constructor
  · exact undone_registry grown others valid
  · exact ⟨_, mem_undone grown others valid, released_keys_nodup _ _,
      undone_keys grown others valid, disposals_release _, rfl⟩

/-- The registration meets a known key, takes in the new one, and then is refused. The
bundle has the snapshot twice, and the second collection is not reached. -/
theorem interrupted_registration_undone :
    let x : Blob := .file ⟨⟨[0x78]⟩, 1⟩
    let y : Blob := .file ⟨⟨[0x79]⟩, 1⟩
    let registry := empty.after [.reference "x" x 7]
    let store := (Store.empty.update ⟨0⟩
      ⟨1, .empty, [⟨"x", "a", x⟩, ⟨"y", "b", y⟩], [], .inline ⟨"m", []⟩, 2, false⟩).update ⟨1⟩
      ⟨1, .empty, [⟨"z", "c", .placeholder ⟨"z", 1⟩⟩], [], .inline ⟨"m", []⟩, 0, false⟩
    let composites : List Composite :=
      [.keyedCollection ⟨2, [.incremental ⟨0⟩, .incremental ⟨0⟩, .incremental ⟨1⟩]⟩,
        .keyed (.incremental ⟨0⟩)]
    let attempt := outcome (registerAll 1 composites) ⟨store, registry, []⟩
    let undone := attempt.2.registry.perform (.releaseCheckpoint 1)
    registry.Reachable ∧ (∀ key, ¬ registry.Refers key 1) ∧
      attempt.1 = some (.unknownSharedState "z") ∧ adoptions attempt.2.effects = ["y"] ∧
      undone.1 = registry ∧ disposals undone.2.effects = [y] := by
  intro x y registry store composites attempt undone
  have reachable : registry.Reachable := ⟨[.reference "x" x 7], rfl⟩
  have unused : ∀ key, ¬ registry.Refers key 1 := by
    rintro key ⟨fragment, found, member⟩
    obtain ⟨_, same⟩ := List.mem_singleton.mp ((SortedMap.mem_entries_iff _ _ _).mpr found)
    cases member with
    | tail _ later => cases later
  obtain ⟨back, _⟩ := release_undoes_registration registry reachable 1 unused store composites
  exact ⟨reachable, unused, by decide, by decide, back, by decide⟩

end CheckpointLedger
