import CheckpointLedger.Proofs.Sharing.LedgerRun
import CheckpointLedger.Proofs.Storage.Commutation

/-!
Disposal in the background against disposal at once. A worker discards what was handed
over, in the order of the queue, whenever it gets to it; a caller who finds the queue full
waits for it. Neither the time nor the order of the discards can be told in the end: the
answers are the same, and so is the directory once the queue is drained.
-/

namespace CheckpointLedger

namespace Disposal

/-- What has been handed over and waits for its discard. -/
def queued (disposal : Disposal) : List Blob :=
  match disposal.disposer with
  | .background queue => queue
  | _ => []

/-- One more blob can be handed over. The queue has room for one blob at least, and the
blob that the worker has in hand takes up none. -/
def HasRoom (capacity : Nat) (disposal : Disposal) : Prop :=
  disposal.queued.length ≤ max capacity 1

/-- What is discarded by the one who hands it over. -/
def atOnce (disposal : Disposal) (blob : Blob) : List Blob :=
  match disposal.disposer with
  | .immediate => [blob]
  | _ => []

/-- Effects are carried out in order, while the worker may at any time discard the blob at
the head of the queue. The discards made meanwhile are listed in their order. -/
inductive Carries (capacity : Nat) : Disposal → List Effect → List Blob → Disposal → Prop where
  | done {disposal : Disposal} : Carries capacity disposal [] [] disposal
  | worked {disposal after : Disposal} {blob : Blob} {queue discarded : List Blob}
      {effects : List Effect} (head : disposal.disposer = .background (blob :: queue))
      (rest : Carries capacity
        ({ disposal with disposer := .background queue }.discardLogged blob) effects discarded
        after) :
      Carries capacity disposal effects (blob :: discarded) after
  | reported {disposal after : Disposal} {event : Event} {discarded : List Blob}
      {effects : List Effect}
      (rest : Carries capacity (disposal.apply (.report event)) effects discarded after) :
      Carries capacity disposal (.report event :: effects) discarded after
  | handed {disposal after : Disposal} {blob : Blob} {discarded : List Blob}
      {effects : List Effect} (room : disposal.HasRoom capacity)
      (rest : Carries capacity (disposal.apply (.dispose blob)) effects discarded after) :
      Carries capacity disposal (.dispose blob :: effects) (disposal.atOnce blob ++ discarded)
        after

theorem discards_directory (disposal : Disposal) (blobs : List Blob) :
    (blobs.foldl discardLogged disposal).directory = discardAll disposal.directory blobs := by
  induction blobs generalizing disposal with
  | nil => rfl
  | cons blob rest ih =>
      rw [List.foldl_cons, ih, discardLogged_directory]
      rfl

theorem drain_directory (disposal : Disposal) :
    disposal.drain.directory = discardAll disposal.directory disposal.queued := by
  cases mode : disposal.disposer with
  | immediate => simp only [drain, queued, mode, discardAll, List.foldl_nil]
  | recording => simp only [drain, queued, mode, discardAll, List.foldl_nil]
  | background queue => simp only [drain, queued, mode, discards_directory]

/-- What was handed over has been discarded or is queued, in the order in which it came, and
the discards made account for the directory. -/
structure Accounts (before : Disposal) (handed discarded : List Blob) (after : Disposal) :
    Prop where
  mode : after.disposer = .immediate ↔ before.disposer = .immediate
  owned : after.disposer ≠ .recording
  complete : (discarded ++ after.queued).Perm (before.queued ++ handed)
  directory : after.directory = discardAll before.directory discarded

theorem accounts_idle (before after : Disposal) (owned : before.disposer ≠ .recording)
    (same : after.disposer = before.disposer) (untouched : after.directory = before.directory) :
    before.Accounts [] [] after where
  mode := by rw [same]
  owned := same ▸ owned
  complete := by simp only [queued, same, List.nil_append, List.append_nil, List.Perm.refl]
  directory := untouched

theorem accounts_trans {before middle after : Disposal} {handed more discarded gone : List Blob}
    (first : before.Accounts handed discarded middle) (second : middle.Accounts more gone after) :
    before.Accounts (handed ++ more) (discarded ++ gone) after where
  mode := second.mode.trans first.mode
  owned := second.owned
  complete := by
    have later := second.complete.append_left discarded
    have earlier := first.complete.append_right more
    simp only [← List.append_assoc] at later earlier ⊢
    exact later.trans earlier
  directory := by rw [second.directory, first.directory, discardAll_append]

theorem accounts_perm {before after : Disposal} {handed others discarded : List Blob}
    (account : before.Accounts handed discarded after) (order : handed.Perm others) :
    before.Accounts others discarded after where
  mode := account.mode
  owned := account.owned
  complete := account.complete.trans (order.append_left before.queued)
  directory := account.directory

theorem accounts_worked {disposal : Disposal} {blob : Blob} {queue : List Blob}
    (head : disposal.disposer = .background (blob :: queue)) :
    disposal.Accounts [] [blob]
      ({ disposal with disposer := .background queue }.discardLogged blob) where
  mode := by simp only [discardLogged_disposer, head, reduceCtorEq]
  owned := by simp only [discardLogged_disposer, ne_eq, reduceCtorEq, not_false_eq_true]
  complete := by
    simp only [queued, discardLogged_disposer, head, List.singleton_append, List.append_nil]
    exact List.Perm.refl _
  directory := discardLogged_directory _ blob

theorem accounts_handed (disposal : Disposal) (owned : disposal.disposer ≠ .recording)
    (blob : Blob) :
    disposal.Accounts [blob] (disposal.atOnce blob) (disposal.apply (.dispose blob)) := by
  cases mode : disposal.disposer with
  | recording => exact absurd mode owned
  | immediate =>
      rw [apply_immediate disposal mode]
      constructor
      case mode => rw [discardLogged_disposer]
      case owned => rw [discardLogged_disposer]; exact owned
      case complete => simp only [atOnce, queued, discardLogged_disposer, mode, List.append_nil,
        List.nil_append, List.Perm.refl]
      case directory =>
        rw [discardLogged_directory, atOnce, mode]
        rfl
  | background queue =>
      have later : disposal.apply (.dispose blob) =
          { disposal with disposer := .background (queue ++ [blob]) } := by
        simp only [apply, dispose, mode]
      rw [later]
      constructor
      case mode => simp only [mode, reduceCtorEq]
      case owned => simp only [ne_eq, reduceCtorEq, not_false_eq_true]
      case complete => simp only [atOnce, queued, mode, List.nil_append, List.Perm.refl]
      case directory => simp only [atOnce, mode, discardAll, List.foldl_nil]

theorem carries_accounts {capacity : Nat} {before after : Disposal} {effects : List Effect}
    {discarded : List Blob} (carries : before.Carries capacity effects discarded after)
    (owned : before.disposer ≠ .recording) :
    before.Accounts (disposals effects) discarded after := by
  induction carries with
  | done => exact accounts_idle _ _ owned rfl rfl
  | worked head rest ih =>
      have first := accounts_worked head
      exact accounts_trans first (ih first.owned)
  | @reported disposal _ event _ _ rest ih =>
      have first : disposal.Accounts [] [] (disposal.apply (.report event)) :=
        accounts_idle disposal _ owned rfl rfl
      exact accounts_trans first (ih owned)
  | @handed disposal _ blob _ _ room rest ih =>
      have first := accounts_handed disposal owned blob
      exact accounts_trans first (ih first.owned)

/-- A queue that was empty and is drained comes down to what was handed over. -/
theorem accounts_drained {before after : Disposal} {handed discarded : List Blob}
    (account : before.Accounts handed discarded after) (idle : before.queued = []) :
    after.drain.directory = discardAll before.directory handed := by
  have complete := account.complete
  rw [idle, List.nil_append] at complete
  rw [drain_directory, account.directory, ← discardAll_append, discardAll_perm _ complete]

/-- The worker can work off the queue before anything else happens. -/
theorem carries_worked_off (capacity : Nat) (queue : List Blob) (disposal : Disposal)
    (mode : disposal.disposer = .background queue) :
    ∃ (gone : List Blob) (ready : Disposal), ready.disposer = .background [] ∧
      ∀ effects discarded after, ready.Carries capacity effects discarded after →
        disposal.Carries capacity effects (gone ++ discarded) after := by
  induction queue generalizing disposal with
  | nil => exact ⟨[], disposal, mode, fun _ _ _ carries => carries⟩
  | cons blob rest ih =>
      obtain ⟨gone, ready, empty, goesOn⟩ :=
        ih ({ disposal with disposer := .background rest }.discardLogged blob)
          (discardLogged_disposer _ blob)
      exact ⟨blob :: gone, ready, empty, fun effects discarded after carries =>
        .worked mode (goesOn effects discarded after carries)⟩

theorem carries_to_room (capacity : Nat) (disposal : Disposal) :
    ∃ (gone : List Blob) (ready : Disposal), ready.HasRoom capacity ∧
      ∀ effects discarded after, ready.Carries capacity effects discarded after →
        disposal.Carries capacity effects (gone ++ discarded) after := by
  cases mode : disposal.disposer with
  | background queue =>
      -- One discard might do, but an empty queue has room whatever the capacity.
      obtain ⟨gone, ready, empty, goesOn⟩ := carries_worked_off capacity queue disposal mode
      exact ⟨gone, ready, by simp [HasRoom, queued, empty], goesOn⟩
  | immediate =>
      exact ⟨[], disposal, by simp [HasRoom, queued, mode], fun _ _ _ carries => carries⟩
  | recording =>
      exact ⟨[], disposal, by simp [HasRoom, queued, mode], fun _ _ _ carries => carries⟩

/-- Nobody waits for ever: whatever is to be carried out, there is a way. -/
theorem carries_exists (capacity : Nat) (disposal : Disposal) (effects : List Effect) :
    ∃ discarded after, disposal.Carries capacity effects discarded after := by
  induction effects generalizing disposal with
  | nil => exact ⟨[], disposal, .done⟩
  | cons effect rest ih =>
      cases effect with
      | report event =>
          obtain ⟨discarded, after, carries⟩ := ih (disposal.apply (.report event))
          exact ⟨discarded, after, .reported carries⟩
      | dispose blob =>
          obtain ⟨gone, ready, room, goesOn⟩ := carries_to_room capacity disposal
          obtain ⟨discarded, after, carries⟩ := ih (ready.apply (.dispose blob))
          exact ⟨_, after, goesOn _ _ after (.handed room carries)⟩

end Disposal

/-! Whole runs. -/

inductive Reply where
  | registered (refusal? : Option Violation)
  | answered (answer : Except Violation Answer)
  | made (snapshot : SnapshotId)

namespace Ledger

def reply (ledger : Ledger) : Operation → Reply
  | .register checkpoint composites =>
      .registered (outcome (registerAll checkpoint composites) ledger).1
  | .call call => .answered (ledger.registry.perform call).2.answer
  | .make snapshot => .made (Store.add snapshot ledger.store).1

def replies : Ledger → List Operation → List Reply
  | _, [] => []
  | ledger, operation :: rest =>
      ledger.reply operation :: (ledger.perform operation).replies rest

theorem perform_appends (ledger : Ledger) (operation : Operation) :
    ∃ brought, (ledger.perform operation).effects = ledger.effects ++ brought := by
  cases operation with
  | register checkpoint composites =>
      obtain ⟨brought, appended, _⟩ :=
        registerEach_registrations checkpoint (composites.flatMap Composite.snapshots) ledger
      rw [perform, registerAll_flat]
      exact ⟨brought, appended⟩
  | call call => exact ⟨_, rfl⟩
  | make snapshot => exact ⟨[], (List.append_nil _).symm⟩

end Ledger

/-- A registry in service, with the state around it and what becomes of released blobs. -/
structure Service where
  ledger : Ledger
  disposal : Disposal

namespace Service

/-- Operations are served one after the other, each with its reply. The effects of one of
them are carried out in any order, since a release may come upon the keys in any order. -/
inductive Serves (capacity : Nat) :
    Service → List Operation → List Reply → List Blob → Service → Prop where
  | done {service : Service} : Serves capacity service [] [] [] service
  | next {ledger : Ledger} {disposal between : Disposal} {operation : Operation}
      {rest : List Operation} {brought effects : List Effect} {discarded more : List Blob}
      {replies : List Reply} {after : Service}
      (appended : (ledger.perform operation).effects = ledger.effects ++ brought)
      (order : effects.Perm brought)
      (carries : disposal.Carries capacity effects discarded between)
      (later : Serves capacity ⟨ledger.perform operation, between⟩ rest replies more after) :
      Serves capacity ⟨ledger, disposal⟩ (operation :: rest)
        (ledger.reply operation :: replies) (discarded ++ more) after

variable {capacity : Nat} {service after : Service} {operations : List Operation}
  {replies : List Reply} {discarded : List Blob}

/-- What becomes of the blobs has no influence on the registry and its answers. -/
theorem serves_ledger (serves : service.Serves capacity operations replies discarded after) :
    after.ledger = service.ledger.after operations ∧
      replies = service.ledger.replies operations := by
  induction serves with
  | done => exact ⟨rfl, rfl⟩
  | next _ _ _ _ ih =>
      constructor
      · exact ih.1
      · rw [Ledger.replies, ← ih.2]

theorem serves_accounts (serves : service.Serves capacity operations replies discarded after)
    (owned : service.disposal.disposer ≠ .recording) :
    ∃ brought, after.ledger.effects = service.ledger.effects ++ brought ∧
      service.disposal.Accounts (disposals brought) discarded after.disposal := by
  induction serves with
  | done => exact ⟨[], (List.append_nil _).symm, Disposal.accounts_idle _ _ owned rfl rfl⟩
  | @next ledger disposal between operation rest brought effects _ _ _ _ appended order carries
      later ih =>
      have first := Disposal.accounts_perm (Disposal.carries_accounts carries owned)
        (order.filterMap _)
      obtain ⟨more, appended', account⟩ := ih first.owned
      refine ⟨brought ++ more, ?_, ?_⟩
      · rw [appended', appended, List.append_assoc]
      · rw [disposals_append]
        exact Disposal.accounts_trans first account

/-- From a ledger that has brought about nothing yet. -/
theorem serves_complete (serves : service.Serves capacity operations replies discarded after)
    (owned : service.disposal.disposer ≠ .recording) (fresh : service.ledger.effects = []) :
    service.disposal.Accounts (disposals (service.ledger.after operations).effects) discarded
      after.disposal := by
  obtain ⟨brought, appended, account⟩ := serves_accounts serves owned
  rw [(serves_ledger serves).1, fresh, List.nil_append] at appended
  rw [appended]
  exact account

theorem serves_exists (capacity : Nat) (service : Service) (operations : List Operation) :
    ∃ replies discarded after, service.Serves capacity operations replies discarded after := by
  induction operations generalizing service with
  | nil => exact ⟨[], [], service, .done⟩
  | cons operation rest ih =>
      obtain ⟨brought, appended⟩ := Ledger.perform_appends service.ledger operation
      obtain ⟨discarded, between, carries⟩ :=
        Disposal.carries_exists capacity service.disposal brought
      obtain ⟨replies, more, after, later⟩ := ih ⟨service.ledger.perform operation, between⟩
      exact ⟨_, _, after, .next appended (.refl brought) carries later⟩

end Service

open Disposal Service

/-- A registry with disposal at once and one with disposal in the background are asked the
same, with queues of any capacity. Neither can get stuck. Whenever the worker gets to the
blobs, and in whatever order releases come upon them, the two give the same replies and
have the same entries. When the queue is drained the directories are the same, and every
blob that was handed over has been discarded once for each time. -/
theorem background_disposal_agrees (config : RegistryConfig) (store : Store)
    (registry : Registry) (directory : Directory) (operations : List Operation) :
    let capacity := config.queueCapacity.toNat
    let ledger : Ledger := ⟨store, registry, []⟩
    let handed := disposals (ledger.after operations).effects
    let atOnce : Service := ⟨ledger, (config.withDisposal .immediate).disposer, directory, []⟩
    let background : Service :=
      ⟨ledger, (config.withDisposal .background).disposer, directory, []⟩
    (∃ replies discarded after, atOnce.Serves capacity operations replies discarded after) ∧
    (∃ replies discarded after, background.Serves capacity operations replies discarded after) ∧
    ∀ replies discarded after replies' discarded' after',
      atOnce.Serves capacity operations replies discarded after →
      background.Serves capacity operations replies' discarded' after' →
      replies' = replies ∧
      after'.ledger = after.ledger ∧
      after'.disposal.drain.directory = after.disposal.directory ∧
      discarded.Perm handed ∧
      (discarded' ++ after'.disposal.queued).Perm handed := by
  intro capacity ledger handed atOnce background
  refine ⟨serves_exists capacity atOnce operations,
    serves_exists capacity background operations, ?_⟩
  intro replies discarded after replies' discarded' after' serves serves'
  obtain ⟨same, answers⟩ := serves_ledger serves
  obtain ⟨same', answers'⟩ := serves_ledger serves'
  have account := serves_complete serves (nofun) rfl
  have account' := serves_complete serves' (nofun) rfl
  have immediate : after.disposal.disposer = .immediate := account.mode.mpr rfl
  have none : after.disposal.queued = [] := by simp only [queued, immediate]
  have complete := account.complete
  rw [none, List.append_nil] at complete
  -- Both directories come down to the discards of what was handed over, in any order.
  have drained := accounts_drained account' rfl
  have whole := accounts_drained account rfl
  rw [drain_directory, none] at whole
  refine ⟨?_, ?_, ?_, complete, account'.complete⟩
  · rw [answers, answers']
  · rw [same, same']
  · rw [drained, ← whole]
    rfl

/-- One path is absolute, and the other lies under it. The release comes upon the two files
in opposite orders, and the worker has done half of its work when the last call returns. -/
theorem nested_files_in_either_order :
    let x : Blob := .file ⟨⟨[0x2F, 0x77, 0x2F, 0x78]⟩, 1⟩
    let y : Blob := .file ⟨⟨[0x78, 0x2F, 0x79]⟩, 1⟩
    let ledger : Ledger := ⟨.empty, .empty, []⟩
    let directory : Directory := ⟨[([[0x77]], .directory), ([[0x77], [0x78]], .file)], [[0x77]]⟩
    let left : Directory := ⟨[([[0x77]], .directory)], [[0x77]]⟩
    let operations : List Operation :=
      [.call (.reference "x" x 1), .call (.reference "y" y 1), .call (.releaseBelow 2)]
    let atOnce : Service := ⟨ledger, .immediate, directory, []⟩
    let background : Service := ⟨ledger, .background [], directory, []⟩
    ∃ replies after after', atOnce.Serves 0 operations replies [x, y] after ∧
      background.Serves 0 operations replies [y] after' ∧
      after'.disposal.queued = [x] ∧ after'.ledger = after.ledger ∧
      after'.disposal.directory = directory ∧
      after'.disposal.drain.directory = left ∧ after.disposal.directory = left := by
  intro x y ledger directory left operations atOnce background
  let reports : List Effect := [.report (.unreferenced "x"), .report (.unreferenced "y")]
  let one := ledger.perform (.call (.reference "x" x 1))
  let two := one.perform (.call (.reference "y" y 1))
  have first : one.effects = ledger.effects ++ [.report (.registered "x" 1)] := by decide
  have second : two.effects = one.effects ++ [.report (.registered "y" 1)] := by decide
  have third : (two.perform (.call (.releaseBelow 2))).effects =
      two.effects ++ (reports ++ [Effect.dispose x, Effect.dispose y]) := by decide
  have order : (reports ++ [Effect.dispose y, Effect.dispose x]).Perm
      (reports ++ [Effect.dispose x, Effect.dispose y]) :=
    (List.Perm.swap _ _ []).append_left reports
  have serves : ∃ after, atOnce.Serves 0 operations (ledger.replies operations) [x, y] after ∧
      after.disposal.directory = left := by
    refine ⟨_, .next first (.refl _) (.reported .done) (.next second (.refl _) (.reported .done)
      (.next third (.refl _) (.reported (.reported (.handed ?_ (.handed ?_ .done)))) .done)), ?_⟩
    · exact Nat.zero_le 1
    · exact Nat.zero_le 1
    · decide
  have serves' : ∃ after, background.Serves 0 operations (ledger.replies operations) [y] after ∧
      after.disposal.queued = [x] ∧ after.disposal.directory = directory := by
    refine ⟨_, .next first (.refl _) (.reported .done) (.next second (.refl _) (.reported .done)
      (.next third order (.reported (.reported (.handed ?_ (.handed ?_ (.worked rfl .done)))))
        .done)), ?_, ?_⟩
    · exact Nat.zero_le 1
    · exact Nat.le_refl 1
    · decide
    · decide
  obtain ⟨after, run, gone⟩ := serves
  obtain ⟨after', run', waiting, untouched⟩ := serves'
  obtain ⟨_, _, agree⟩ :=
    background_disposal_agrees ⟨.immediate, 0⟩ .empty .empty directory operations
  obtain ⟨_, same, drained, _⟩ := agree _ _ after _ _ after' run run'
  exact ⟨_, after, after', run, run', waiting, same, untouched, drained.trans gone, gone⟩

end CheckpointLedger
