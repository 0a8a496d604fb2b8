import CheckpointLedger.Proofs.Registry.Growth
import CheckpointLedger.Proofs.Registry.Releases

/-!
Uploads of checkpoints that complete side by side. As long as those under one key bring the
same blob, and the canonical one where there is one, it makes no difference in which order they
come: whichever is first is adopted, and the others join it.
-/

namespace CheckpointLedger

/-- A registration that a checkpoint asks for. -/
structure Upload where
  key : String
  blob : Blob
  checkpoint : CheckpointId
  deriving DecidableEq

def Upload.call (upload : Upload) : Call := .reference upload.key upload.blob upload.checkpoint

namespace Registry

/-- Uploads under one key bring the same blob, and it is the canonical one of a key that the
registry knows. The same blob is the same value. That two blobs compare equal
(`Blob.equivalent`) is less and not enough: two spellings of one path do, but are two objects to
the registry (`equivalent_uploads_differ`). -/
structure Agreeing (registry : Registry) (uploads : List Upload) : Prop where
  real : ∀ upload ∈ uploads, upload.blob.isPlaceholder = false
  alike : ∀ upload ∈ uploads, ∀ other ∈ uploads, upload.key = other.key →
    upload.blob = other.blob
  canonical : ∀ upload ∈ uploads, ∀ blob, registry.blob? upload.key = some blob →
    blob = upload.blob

section Agreeing

variable {registry : Registry} {uploads : List Upload}

theorem agreeing_perm (agreeing : registry.Agreeing uploads) {order : List Upload}
    (perm : order.Perm uploads) : registry.Agreeing order where
  real upload member := agreeing.real upload (perm.subset member)
  alike upload member other member' :=
    agreeing.alike upload (perm.subset member) other (perm.subset member')
  canonical upload member := agreeing.canonical upload (perm.subset member)

/-- The first upload is accepted with its own blob, and the others agree with what it leaves. -/
theorem agreeing_next {upload : Upload} {rest : List Upload}
    (agreeing : registry.Agreeing (upload :: rest)) (accepting : registry.status = .accepting) :
    ∃ made, registry.reference upload.key upload.blob upload.checkpoint = .ok made ∧
      made.canonical = upload.blob ∧ disposals made.effects = [] ∧
      made.registry.Agreeing rest := by
  have first : upload ∈ upload :: rest := List.mem_cons_self
  have later : ∀ other ∈ rest, other ∈ upload :: rest := fun _ => List.mem_cons_of_mem upload
  obtain ⟨made, accepted⟩ := reference_accepted registry upload.key upload.blob upload.checkpoint
    accepting (Or.inr (agreeing.real upload first))
  have own : made.canonical = upload.blob := by
    rcases reference_canonical accepted with known | ⟨_, adopted, _⟩
    · exact agreeing.canonical upload first _ known
    · exact adopted
  refine ⟨made, accepted, own, by simp [reference_disposals accepted, own], ?_⟩
  constructor
  case real => exact fun other member => agreeing.real other (later other member)
  case alike =>
    exact fun other member another member' =>
      agreeing.alike other (later other member) another (later another member')
  case canonical =>
    intro other member blob found
    rw [reference_blob? accepted] at found
    by_cases same : other.key = upload.key
    · rw [if_pos same, Option.some.injEq] at found
      rw [← found, own]
      exact agreeing.alike upload first other (later other member) same.symm
    · rw [if_neg same] at found
      exact agreeing.canonical other (later other member) blob found

end Agreeing

/-- The registry after the uploads: it has the blobs that it had and those uploaded, and each
upload's checkpoint depends on the upload's key. -/
structure Takes (before : Registry) (uploads : List Upload) (after : Registry) : Prop where
  status : after.status = before.status
  blobs : ∀ key blob, after.blob? key = some blob ↔
    before.blob? key = some blob ∨ ∃ upload ∈ uploads, upload.key = key ∧ upload.blob = blob
  references : ∀ key checkpoint, after.Refers key checkpoint ↔
    before.Refers key checkpoint ∨
      ∃ upload ∈ uploads, upload.key = key ∧ upload.checkpoint = checkpoint

section Uploads

variable {registry : Registry} {uploads : List Upload}

theorem takes_next {upload : Upload} {rest : List Upload} {made : Reference} {after : Registry}
    (accepted : registry.reference upload.key upload.blob upload.checkpoint = .ok made)
    (own : made.canonical = upload.blob) (later : made.registry.Takes rest after) :
    registry.Takes (upload :: rest) after where
  status := by
    obtain ⟨accepting, still, _⟩ := reference_cases accepted
    rw [later.status, still, accepting]
  blobs key blob := by
    rw [later.blobs, reference_blob? accepted, own, List.exists_mem_cons_iff, ← or_assoc]
    apply or_congr_left
    by_cases same : key = upload.key
    · -- A key that was known has this blob already.
      subst key
      rcases reference_canonical accepted with known | ⟨absent, _⟩
      · simp [known, own]
      · simp [absent]
    · simp [same, Ne.symm same]
  references key checkpoint := by
    rw [later.references, reference_refers accepted, List.exists_mem_cons_iff, ← or_assoc,
      eq_comm (a := key), eq_comm (a := checkpoint), or_comm (a := _ ∧ _)]

/-- Agreeing uploads are all accepted, each with the blob that it brings. -/
theorem uploads_run (accepting : registry.status = .accepting)
    (agreeing : registry.Agreeing uploads) :
    (registry.history (uploads.map Upload.call)).map Turn.answer =
        uploads.map (fun upload => .ok (.canonical upload.blob)) ∧
      handedOut (registry.history (uploads.map Upload.call)) = [] ∧
      registry.Takes uploads (registry.after (uploads.map Upload.call)) := by
  induction uploads generalizing registry with
  | nil => exact ⟨rfl, rfl, rfl, fun key blob => by simp, fun key checkpoint => by simp⟩
  | cons upload rest ih =>
      obtain ⟨made, accepted, own, quiet, agreeing'⟩ := agreeing_next agreeing accepting
      obtain ⟨answers, still, taken⟩ := ih (reference_cases accepted).2.1 agreeing'
      have first : registry.perform upload.call =
          (made.registry, ⟨upload.call, .ok (.canonical made.canonical), made.effects⟩) := by
        simp only [Upload.call, perform, attempt, accepted, Except.map]
      simp only [List.map_cons, history, after_cons, first]
      refine ⟨?_, ?_, takes_next accepted own taken⟩
      · rw [answers, own]
      · rw [handedOut, List.flatMap_cons, quiet, List.nil_append]
        exact still

theorem uploads_registrations (registry : Registry) {covered : CheckpointId → Bool}
    (own : ∀ upload ∈ uploads, covered upload.checkpoint = true) :
    ∃ effects, Registrations covered registry effects
      (registry.after (uploads.map Upload.call)) := by
  induction uploads generalizing registry with
  | nil => exact ⟨[], .none⟩
  | cons upload rest ih =>
      have rest_own : ∀ other ∈ rest, covered other.checkpoint = true :=
        fun other member => own other (List.mem_cons_of_mem upload member)
      simp only [List.map_cons, after_cons, Upload.call, perform, attempt]
      cases outcome : registry.reference upload.key upload.blob upload.checkpoint with
      | error violation => exact ih registry rest_own
      | ok made =>
          obtain ⟨more, grown⟩ := ih made.registry rest_own
          exact ⟨_, registrations_trans
            (registrations_single (own upload List.mem_cons_self) outcome) grown⟩

theorem takes_perm {order : List Upload} {after other : Registry} (perm : order.Perm uploads)
    (taken : registry.Takes uploads after) (taken' : registry.Takes order other) :
    other = after := by
  apply ext_views
  · rw [taken.status, taken'.status]
  · intro key
    apply Option.ext
    intro blob
    simp only [taken.blobs, taken'.blobs, perm.mem_iff]
  · intro key checkpoint
    simp only [taken.references, taken'.references, perm.mem_iff]

end Uploads

/-- The releases bring the registry back as it was, and hand out the blobs taken in since, each
once. -/
structure TakenBack (before after : Registry) (releases : List Call)
    (adopted : List (String × Blob)) : Prop where
  answered : ∀ turn ∈ after.history releases, ∃ count, turn.answer = .ok (.released count)
  back : after.after releases = before
  handed : (handedOut (after.history releases)).Perm (adopted.map Prod.snd)
  counted : removedCount (after.history releases) = adopted.length

theorem uploads_taken_back {registry : Registry} (reachable : registry.Reachable)
    (accepting : registry.status = .accepting) {uploads : List Upload}
    (agreeing : registry.Agreeing uploads)
    (unused : ∀ upload ∈ uploads, ∀ key, ¬ registry.Refers key upload.checkpoint)
    {checkpoints : List CheckpointId}
    (all : ∀ checkpoint, checkpoint ∈ checkpoints ↔
      ∃ upload ∈ uploads, upload.checkpoint = checkpoint) :
    ∃ adopted : List (String × Blob), (adopted.map Prod.fst).Nodup ∧
      (∀ key blob, (key, blob) ∈ adopted ↔ registry.blob? key = none ∧
        ∃ upload ∈ uploads, upload.key = key ∧ upload.blob = blob) ∧
      registry.TakenBack (registry.after (uploads.map Upload.call))
        (checkpoints.map Call.releaseCheckpoint) adopted := by
  obtain ⟨intact, valid⟩ := reachable_wellformed registry reachable
  obtain ⟨_, _, taken⟩ := uploads_run accepting agreeing
  have intact' : (registry.after (uploads.map Upload.call)).status ≠ .poisoned := by
    rw [taken.status]
    exact intact
  have covers : ∀ checkpoint, coveredBy (checkpoints.map Call.releaseCheckpoint) checkpoint = true ↔
      ∃ upload ∈ uploads, upload.checkpoint = checkpoint := by
    intro checkpoint
    rw [← all]
    simp [coveredBy, Call.covers]
  obtain ⟨_, grown⟩ := uploads_registrations registry fun upload member =>
    (covers upload.checkpoint).mpr ⟨upload, member, rfl⟩
  have spared : ∀ key checkpoint, registry.Refers key checkpoint →
      coveredBy (checkpoints.map Call.releaseCheckpoint) checkpoint = false := by
    intro key checkpoint refers
    rw [Bool.eq_false_iff, ne_eq, covers]
    rintro ⟨upload, member, rfl⟩
    exact unused upload member key refers
  have releases : ∀ call ∈ checkpoints.map Call.releaseCheckpoint, call.isRelease = true := by
    simp [Call.isRelease]
  obtain ⟨ended, handed, counted⟩ :=
    releases_run _ intact' (registrations_wellformed grown valid) _ releases
  refine ⟨_, released_keys_nodup _ _, ?_, releases_answered _ intact' _ releases, ?_, handed,
    counted⟩
  · intro key blob
    rw [mem_undone grown spared valid, taken.blobs]
    apply and_congr_right
    intro absent
    simp [absent]
  · rw [ended]
    exact undone_registry grown spared valid

/-- Agreeing uploads come to the same in every order, and when nothing depended on their
checkpoints before, releasing those in any order takes back just what they brought in. -/
theorem agreeing_uploads_commute (registry : Registry) (reachable : registry.Reachable)
    (accepting : registry.status = .accepting) (uploads : List Upload)
    (agreeing : registry.Agreeing uploads) (order : List Upload) (perm : order.Perm uploads) :
    let after := registry.after (order.map Upload.call)
    (registry.history (order.map Upload.call)).map Turn.answer =
        order.map (fun upload => .ok (.canonical upload.blob)) ∧
      handedOut (registry.history (order.map Upload.call)) = [] ∧
      after = registry.after (uploads.map Upload.call) ∧
      ((∀ upload ∈ uploads, ∀ key, ¬ registry.Refers key upload.checkpoint) →
        ∀ checkpoints : List CheckpointId,
          (∀ checkpoint, checkpoint ∈ checkpoints ↔
            ∃ upload ∈ uploads, upload.checkpoint = checkpoint) →
          ∃ adopted : List (String × Blob), (adopted.map Prod.fst).Nodup ∧
            (∀ key blob, (key, blob) ∈ adopted ↔ registry.blob? key = none ∧
              ∃ upload ∈ uploads, upload.key = key ∧ upload.blob = blob) ∧
            registry.TakenBack after (checkpoints.map Call.releaseCheckpoint) adopted) := by
  intro after
  obtain ⟨_, _, taken⟩ := uploads_run accepting agreeing
  obtain ⟨answers, quiet, taken'⟩ := uploads_run accepting (agreeing_perm agreeing perm)
  have same : after = registry.after (uploads.map Upload.call) := takes_perm perm taken taken'
  refine ⟨answers, quiet, same, ?_⟩
  intro unused checkpoints all
  rw [same]
  exact uploads_taken_back reachable accepting agreeing unused all

/-- One key is known, and two checkpoints upload to it and to a new one. -/
theorem uploads_in_reverse :
    let blob : String → Blob := fun name => .inline ⟨name, []⟩
    let registry := empty.after [.reference "x" (blob "x") 7]
    let uploads : List Upload := [⟨"x", blob "x", 1⟩, ⟨"y", blob "y", 1⟩, ⟨"y", blob "y", 2⟩]
    let after := registry.after (uploads.reverse.map Upload.call)
    after = registry.after (uploads.map Upload.call) ∧
      after.checkpointsOf "x" = .ok [1, 7] ∧ after.checkpointsOf "y" = .ok [1, 2] ∧
      (registry.history (uploads.reverse.map Upload.call)).map Turn.answer =
        [.ok (.canonical (blob "y")), .ok (.canonical (blob "y")), .ok (.canonical (blob "x"))] ∧
      handedOut (after.history [.releaseCheckpoint 2, .releaseCheckpoint 1]) = [blob "y"] ∧
      after.after [.releaseCheckpoint 2, .releaseCheckpoint 1] = registry := by
  intro blob registry uploads after
  have reachable : registry.Reachable := ⟨_, rfl⟩
  have agreeing : registry.Agreeing uploads := by
    constructor
    case real => decide
    case alike => decide
    case canonical =>
      have own : ∀ upload ∈ uploads, ∀ found ∈ registry.blob? upload.key,
          found = upload.blob := by decide
      exact own
  obtain ⟨answers, _, same, takenBack⟩ := agreeing_uploads_commute registry reachable rfl uploads
    agreeing uploads.reverse (List.reverse_perm uploads)
  have unused : ∀ upload ∈ uploads, ∀ key, ¬ registry.Refers key upload.checkpoint := by
    have absent : ∀ upload ∈ uploads, ∀ entry ∈ registry.fragments.entries,
        upload.checkpoint ∉ entry.2.checkpoints.keys := by decide
    rintro upload member key ⟨fragment, found, inside⟩
    exact absent upload member (key, fragment) ((SortedMap.mem_entries_iff _ _ _).mpr found) inside
  obtain ⟨_, _, _, back⟩ := takenBack unused [2, 1] (by
    intro checkpoint
    simp [uploads, or_comm, eq_comm])
  exact ⟨same, by decide, by decide, answers, by decide, back.back⟩

/-- The two blobs compare equal, but the order of their uploads makes a difference: the first is
adopted, and the second is answered with it and handed out as a duplicate. -/
theorem equivalent_uploads_differ :
    let plain : Blob := .file ⟨.ofText "a/b", 1⟩
    let doubled : Blob := .file ⟨.ofText "a//b", 1⟩
    let uploads : List Upload := [⟨"x", plain, 1⟩, ⟨"x", doubled, 2⟩]
    let forwards := uploads.map Upload.call
    let backwards := uploads.reverse.map Upload.call
    plain.equivalent doubled = true ∧
      (empty.history forwards).map Turn.answer =
        [.ok (.canonical plain), .ok (.canonical plain)] ∧
      handedOut (empty.history forwards) = [doubled] ∧
      (empty.history backwards).map Turn.answer =
        [.ok (.canonical doubled), .ok (.canonical doubled)] ∧
      handedOut (empty.history backwards) = [plain] ∧
      empty.after forwards ≠ empty.after backwards := by
  decide +kernel

end Registry

end CheckpointLedger
