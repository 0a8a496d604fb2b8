import CheckpointLedger.Proofs.Binary.Canonical
import CheckpointLedger.Proofs.Binary.Rows

/-!
Values as they stand in bytes, with a row of entries for each map. Such drafts are read and
written without any loss, so that they say what bytes hold beyond the value read from them:
the order of the entries, and those that a later one replaces. A value is written as its
draft with all rows sorted. Hence bytes are written again as they are exactly if their rows
are in order.
-/

namespace CheckpointLedger

variable {α β : Type}

/-- The drafts of the values of a codec. -/
structure Drafting (codec : Codec α) where
  Draft : Type
  form : Codec Draft
  /-- The draft that a value is written as. -/
  lay : α → Draft
  /-- All rows are in order. -/
  InOrder : Draft → Prop
  /-- The second draft is the first one with its rows sorted. -/
  Sorts : Draft → Draft → Prop

namespace Drafting

/-- Where there are no maps, values are their own drafts. -/
def plain (codec : Codec α) : Drafting codec := ⟨α, codec, id, fun _ => True, Eq⟩

def pair {first : Codec α} {second : Codec β} (left : Drafting first) (right : Drafting second) :
    Drafting (first.pair second) where
  Draft := left.Draft × right.Draft
  form := left.form.pair right.form
  lay value := (left.lay value.1, right.lay value.2)
  InOrder draft := left.InOrder draft.1 ∧ right.InOrder draft.2
  Sorts draft sorted := left.Sorts draft.1 sorted.1 ∧ right.Sorts draft.2 sorted.2

def list {codec : Codec α} (each : Drafting codec) : Drafting codec.list where
  Draft := List each.Draft
  form := each.form.list
  lay := List.map each.lay
  InOrder drafts := ∀ draft ∈ drafts, each.InOrder draft
  Sorts := List.Forall₂ each.Sorts

def sortedMap [Ord α] [Std.TransOrd α] [Std.LawfulEqOrd α] [DecidableEq α] (key : Codec α)
    {value : Codec β} (values : Drafting value) : Drafting (Codec.sortedMap key value) where
  Draft := List (α × values.Draft)
  form := (key.pair values.form).list
  lay map := map.entries.map fun entry => (entry.1, values.lay entry.2)
  InOrder row := Ascending row ∧ ∀ entry ∈ row, values.InOrder entry.2
  Sorts := SortsTo values.Sorts

/-- Values of another form have the same drafts. -/
def recast {codec : Codec α} (fields : Drafting codec) (other : Codec β) (unwrap : β → α) :
    Drafting other :=
  { fields with lay := fun value => fields.lay (unwrap value) }

end Drafting

namespace Codec

/-- The value can be written. -/
def Writes (codec : Codec α) (value : α) : Prop := ∃ bytes, codec.encode value = .ok bytes

section Parts

variable {first : Codec α} {second : Codec β}

theorem pair_writes (value : α × β) :
    Writes (pair first second) value ↔ Writes first value.1 ∧ Writes second value.2 := by
  constructor
  · rintro ⟨bytes, written⟩
    obtain ⟨front, back, there, later, -⟩ := both_ok written
    exact ⟨⟨front, there⟩, back, later⟩
  · rintro ⟨⟨front, there⟩, back, later⟩
    exact ⟨front ++ back, by simp only [pair, there, later]⟩

theorem encodeEach_writes (values : List α) :
    (∃ body, encodeEach first values = .ok body) ↔ ∀ value ∈ values, Writes first value := by
  induction values with
  | nil => simp [encodeEach]
  | cons value rest ih =>
      rw [List.forall_mem_cons, ← ih]
      constructor
      · rintro ⟨body, written⟩
        obtain ⟨front, back, there, later, -⟩ := both_ok written
        exact ⟨⟨front, there⟩, back, later⟩
      · rintro ⟨⟨front, there⟩, back, later⟩
        exact ⟨front ++ back, by simp only [encodeEach, there, later]⟩

theorem list_writes (values : List α) :
    Writes (list first) values ↔
      values.length < UInt64.size ∧ ∀ value ∈ values, Writes first value := by
  rw [← encodeEach_writes]
  cases written : encodeEach first values with
  | error fault => simp [Writes, list, written]
  | ok body =>
      have outcome : (list first).encode values = counted values.length body := by
        simp only [list, written]
      simp only [Writes, outcome, counted]
      by_cases within : values.length < UInt64.size <;> simp [within]

end Parts

end Codec

namespace Drafting

open Codec

/-- What holds of the drafts of every codec. -/
structure Lawful {codec : Codec α} (drafting : Drafting codec) : Prop where
  writes : ∀ value, codec.encode value = drafting.form.encode (drafting.lay value)
  reads : ∀ bytes value rest, codec.decode bytes = .ok (value, rest) →
    ∃ draft, drafting.form.decode bytes = .ok (draft, rest) ∧
      drafting.Sorts draft (drafting.lay value)
  canonical : Canonical drafting.form
  rereads : Rereads drafting.form fun draft again =>
    drafting.InOrder draft → drafting.InOrder again
  ordered : ∀ draft sorted, drafting.Sorts draft sorted → drafting.InOrder sorted
  unchanged : ∀ draft sorted, drafting.InOrder draft → drafting.Sorts draft sorted →
    sorted = draft
  writable : ∀ draft sorted, drafting.Sorts draft sorted → Writes drafting.form draft →
    Writes drafting.form sorted

theorem plain_lawful {codec : Codec α} {alike : α → α → Prop} (canonical : Canonical codec)
    (rereads : Rereads codec alike) : (plain codec).Lawful where
  writes _ := rfl
  reads bytes value rest decoded := ⟨value, decoded, rfl⟩
  canonical := canonical
  rereads := rereads_mono rereads fun _ _ _ _ => trivial
  ordered _ _ _ := trivial
  unchanged _ _ _ same := Eq.symm same
  writable draft sorted same written := by
    cases same
    exact written

section Pair

variable {first : Codec α} {second : Codec β} {left : Drafting first} {right : Drafting second}

theorem pair_lawful (front : left.Lawful) (back : right.Lawful) : (left.pair right).Lawful where
  writes value := by
    simp only [Codec.pair, pair, front.writes, back.writes]
  reads bytes value rest decoded := by
    obtain ⟨a, b⟩ := value
    obtain ⟨middle, there, later⟩ := pair_decode_ok.mp decoded
    obtain ⟨draft, read, sorts⟩ := front.reads bytes a middle there
    obtain ⟨draft', read', sorts'⟩ := back.reads middle b rest later
    exact ⟨(draft, draft'), pair_decode_ok.mpr ⟨middle, read, read'⟩, sorts, sorts'⟩
  canonical := pair_canonical front.canonical back.canonical
  rereads := rereads_mono (pair_rereads front.rereads back.rereads)
    fun _ _ again order => ⟨again.1 order.1, again.2 order.2⟩
  ordered _ _ sorts := ⟨front.ordered _ _ sorts.1, back.ordered _ _ sorts.2⟩
  unchanged _ _ order sorts :=
    Prod.ext (front.unchanged _ _ order.1 sorts.1) (back.unchanged _ _ order.2 sorts.2)
  writable draft sorted sorts written := by
    obtain ⟨there, later⟩ := (pair_writes draft).mp written
    exact (pair_writes sorted).mpr
      ⟨front.writable _ _ sorts.1 there, back.writable _ _ sorts.2 later⟩

end Pair

section List

variable {codec : Codec α} {each : Drafting codec}

theorem encodeEach_lay (lawful : each.Lawful) (values : List α) :
    encodeEach codec values = encodeEach each.form (values.map each.lay) := by
  induction values with
  | nil => rfl
  | cons value rest ih => simp only [List.map_cons, encodeEach, lawful.writes, ih]

theorem decodeEach_draft (lawful : each.Lawful) (count : Nat) (bytes : Bytes) (values : List α)
    (rest : Bytes) (decoded : decodeEach codec count bytes = .ok (values, rest)) :
    ∃ drafts, decodeEach each.form count bytes = .ok (drafts, rest) ∧
      List.Forall₂ each.Sorts drafts (values.map each.lay) := by
  induction count generalizing bytes values with
  | zero =>
      cases decoded
      exact ⟨[], rfl, .nil⟩
  | succ count ih =>
      rw [decodeEach_following] at decoded
      obtain ⟨value, middle, first, others⟩ := following_ok.mp decoded
      obtain ⟨tail, left, later, done⟩ := following_ok.mp others
      cases done
      obtain ⟨draft, read, sorts⟩ := lawful.reads bytes value middle first
      obtain ⟨drafts, reads, sorted⟩ := ih middle tail later
      refine ⟨draft :: drafts, ?_, .cons sorts sorted⟩
      simp only [decodeEach, read, reads]

/-- What holds of each source holds of each sorted draft, if sorting keeps it. -/
theorem forall_of_sorts {sorts : α → β → Prop} {drafts : List α} {sorted : List β}
    (related : List.Forall₂ sorts drafts sorted) {holds : β → Prop}
    (each : ∀ draft ∈ drafts, ∀ other, sorts draft other → holds other) :
    ∀ other ∈ sorted, holds other := by
  induction related with
  | nil => exact fun _ member => absurd member List.not_mem_nil
  | cons first _ ih =>
      have each := List.forall_mem_cons.mp each
      exact List.forall_mem_cons.mpr ⟨each.1 _ first, ih each.2⟩

theorem list_lawful (lawful : each.Lawful) : each.list.Lawful where
  writes values := by
    simp only [Codec.list, list, encodeEach_lay lawful, List.length_map]
  reads bytes values rest decoded := by
    rw [list_following] at decoded
    obtain ⟨count, middle, counted, others⟩ := following_ok.mp decoded
    obtain ⟨drafts, read, sorts⟩ := decodeEach_draft lawful count middle values rest others
    refine ⟨drafts, ?_, sorts⟩
    exact list_following each.form ▸ following_ok.mpr ⟨count, middle, counted, read⟩
  canonical := list_canonical lawful.canonical
  rereads := rereads_mono (list_rereads lawful.rereads) fun drafts again related order =>
    forall_of_sorts related fun draft member _ kept => kept (order draft member)
  ordered drafts sorted related :=
    forall_of_sorts related fun draft _ other sorts => lawful.ordered draft other sorts
  unchanged drafts sorted order related := by
    induction related with
    | nil => rfl
    | cons first _ ih =>
        have order := List.forall_mem_cons.mp order
        rw [lawful.unchanged _ _ order.1 first, ih order.2]
  writable drafts sorted related written := by
    obtain ⟨within, every⟩ := (list_writes drafts).mp written
    refine (list_writes sorted).mpr ⟨List.Forall₂.length_eq related ▸ within, ?_⟩
    exact forall_of_sorts related fun draft member other sorts =>
      lawful.writable draft other sorts (every draft member)

end List

section Map

variable [Ord α] [Std.TransOrd α] [Std.LawfulEqOrd α] [DecidableEq α] {key : Codec α}
  {value : Codec β} {values : Drafting value}

theorem sortedMap_lawful (canonical : Canonical key) (rereads : Rereads key Eq)
    (lawful : values.Lawful) : (sortedMap key values).Lawful where
  writes map :=
    (list_lawful (pair_lawful (plain_lawful canonical rereads) lawful)).writes map.entries
  reads bytes map rest decoded := by
    have entries := list_lawful (pair_lawful (plain_lawful canonical rereads) lawful)
    obtain ⟨listed, found, rfl⟩ := decodeAs_ok decoded
    obtain ⟨row, read, related⟩ := entries.reads bytes listed rest found
    exact ⟨row, read, sortsTo_ofList values.lay related⟩
  canonical := list_canonical (pair_canonical canonical lawful.canonical)
  rereads := by
    apply rereads_mono (list_rereads (pair_rereads rereads lawful.rereads))
    intro row again related order
    have alike : AlikeEntries (fun draft other => values.InOrder draft → values.InOrder other)
        row again := related
    have keys : row.map Prod.fst = again.map Prod.fst := alikeEntries_keys alike
    refine ⟨?_, forall_of_sorts related fun entry member _ kept => kept.2 (order.2 entry member)⟩
    rw [Ascending, ← keys]
    exact order.1
  ordered row sorted sorts := by
    refine ⟨sorts.ascending, fun entry member => ?_⟩
    obtain ⟨source, -, same⟩ := sortsTo_mem sorts member
    exact lawful.ordered source entry.2 same
  unchanged row sorted order sorts :=
    sortsTo_self order.1 (fun entry member other => lawful.unchanged _ _ (order.2 entry member))
      sorts
  writable row sorted sorts written := by
    obtain ⟨within, every⟩ := (list_writes row).mp written
    refine (list_writes sorted).mpr
      ⟨Nat.lt_of_le_of_lt (sortsTo_length sorts) within, fun entry member => ?_⟩
    obtain ⟨source, listed, same⟩ := sortsTo_mem sorts member
    obtain ⟨named, valued⟩ := (pair_writes _).mp (every _ listed)
    exact (pair_writes entry).mpr ⟨named, lawful.writable source entry.2 same valued⟩

end Map

section Recast

variable {codec : Codec α} {fields : Drafting codec} {other : Codec β} {unwrap : β → α}

theorem recast_lawful (lawful : fields.Lawful)
    (writes : ∀ value, other.encode value = codec.encode (unwrap value))
    (reads : ∀ bytes value rest, other.decode bytes = .ok (value, rest) →
      codec.decode bytes = .ok (unwrap value, rest)) : (fields.recast other unwrap).Lawful where
  writes value := (writes value).trans (lawful.writes (unwrap value))
  reads bytes value rest decoded :=
    lawful.reads bytes (unwrap value) rest (reads bytes value rest decoded)
  canonical := lawful.canonical
  rereads := lawful.rereads
  ordered := lawful.ordered
  unchanged := lawful.unchanged
  writable := lawful.writable

theorem imap_lawful (lawful : fields.Lawful) (wrap : α → β)
    (same : ∀ value, unwrap (wrap value) = value) :
    (fields.recast (codec.imap wrap unwrap) unwrap).Lawful :=
  recast_lawful lawful (fun _ => rfl) fun bytes value rest decoded => by
    obtain ⟨inner, found, rfl⟩ := decodeAs_ok decoded
    rw [same, found]

theorem checked_lawful (lawful : fields.Lawful) (check : α → Except Violation β)
    (same : ∀ value accepted, check value = .ok accepted → unwrap accepted = value) :
    (fields.recast (codec.checked check unwrap) unwrap).Lawful :=
  recast_lawful lawful (fun _ => rfl) fun bytes value rest decoded => by
    obtain ⟨inner, found, passed⟩ := checked_ok.mp decoded
    rw [same inner value passed, found]

end Recast

/-- Bytes that a value was read from, and those that it is written as: the same exactly if the
draft that stands in the first is in order, and else those of the draft with its rows sorted. -/
theorem Lawful.rewritten {codec : Codec α} {drafting : Drafting codec} (lawful : drafting.Lawful)
    {bytes rest : Bytes} {value : α} (decoded : codec.decode bytes = .ok (value, rest)) :
    ∃ front written draft, bytes = front ++ rest ∧ codec.encode value = .ok written ∧
      drafting.form.decode bytes = .ok (draft, rest) ∧
      drafting.form.encode draft = .ok front ∧
      (written = front ↔ drafting.InOrder draft) ∧
      drafting.Sorts draft (drafting.lay value) ∧
      drafting.form.encode (drafting.lay value) = .ok written := by
  obtain ⟨draft, read, sorts⟩ := lawful.reads bytes value rest decoded
  obtain ⟨front, whole, split⟩ := lawful.canonical bytes draft rest read
  obtain ⟨written, laid⟩ := lawful.writable draft _ sorts ⟨front, whole⟩
  have same : written = front ↔ drafting.InOrder draft := by
    constructor
    · rintro rfl
      -- What is written of a value is in order, and these bytes are read as one draft only.
      obtain ⟨again, reread, kept⟩ := lawful.rereads _ written laid rest
      rw [← split, read] at reread
      cases reread
      exact kept (lawful.ordered draft _ sorts)
    · intro order
      rw [lawful.unchanged draft _ order sorts, whole] at laid
      exact (Except.ok.inj laid).symm
  exact ⟨front, written, draft, split, (lawful.writes value).trans laid, read, whole, same, sorts,
    laid⟩

end Drafting

end CheckpointLedger
