import CheckpointLedger.Proofs.Json.Faithful
import Mathlib.Data.List.Forall2

/-!
Objects as records and as variants. A record is written with all its fields, under names of
their own, and each is found again under its name; of a variant, the name and what it
carries are found.
-/

namespace CheckpointLedger.Schema

variable {α β : Type}

theorem named_members (pairs : List (String × Json)) :
    named (pairs.map fun pair => member pair.1 pair.2) = .ok pairs := by
  rw [named, mapM_map _ id pairs fun pair _ => ?_, List.map_id]
  simp [member, Quoted.unescape?_escape, required]

theorem field_of_mem (pairs : List (String × Json)) (distinct : (pairs.map Prod.fst).Nodup)
    (pair : String × Json) (member : pair ∈ pairs) : field pairs pair.1 = .ok (some pair.2) := by
  have alone : pairs.filter (·.1 = pair.1) = [pair] := by
    induction pairs with
    | nil => cases member
    | cons first rest ih =>
        obtain ⟨fresh, distinct⟩ := List.nodup_cons.mp distinct
        rcases List.mem_cons.mp member with rfl | later
        · have others : rest.filter (·.1 = pair.1) = [] := by
            refine List.filter_eq_nil_iff.mpr fun other there same => fresh ?_
            exact List.mem_map.mpr ⟨other, there, by simpa using same⟩
          simp [others]
        · have apart : first.1 ≠ pair.1 := by
            intro same
            exact fresh (List.mem_map.mpr ⟨pair, later, same.symm⟩)
          simp [apart, ih distinct later]
  simp [field, alone]

/-- A written object has all its fields, whatever is demanded. -/
theorem fields_members (pairs : List (String × Json)) (distinct : (pairs.map Prod.fst).Nodup)
    (demanded : Nat) :
    fields (pairs.map Prod.fst) demanded (.object (pairs.map fun pair => member pair.1 pair.2)) =
      .ok (pairs.map fun pair => some pair.2) := by
  simp only [fields, named_members]
  exact mapM_map Prod.fst _ pairs fun pair there => field_of_mem pairs distinct pair there

theorem allFields_found {names : List String} {json : Json} {values : List Json}
    (found : ∀ demanded, fields names demanded json = .ok (values.map some)) :
    allFields names json = .ok values := by
  have each : (values.map some).mapM required = .ok (values.map id) :=
    mapM_map some id values fun _ _ => rfl
  rw [List.map_id] at each
  simp only [allFields, found]
  exact each

/-- A field of a record: its name, how it is written and what reading gives for it. -/
structure Column (α : Type) where
  name : String
  write : α → Option Json
  textual : α → Prop
  reads : α → Json → Prop
  written : ∀ value, (write value).isSome = true ↔ textual value
  legible : ∀ value json, write value = some json → json.Legible
  restores : ∀ value json, write value = some json → reads value json

def Column.of [Contents β] (name : String) {schema : Schema β} {stored : β → β}
    (faithful : Faithful schema stored) (get : α → β) : Column α where
  name := name
  write value := schema.write (get value)
  textual value := Textual (get value)
  reads value json := schema.read json = .ok (stored (get value))
  written value := faithful.written (get value)
  legible value := faithful.legible (get value)
  restores value := faithful.restores (get value)

/-- The fields of a value as they are written. -/
def Column.entries (columns : List (Column α)) (value : α) : List (String × Option Json) :=
  columns.map fun column => (column.name, column.write value)

def memberOf (entry : String × Option Json) : Option (List Char × Json) := do
  return member entry.1 (← entry.2)

theorem memberOf_some {name : String} {json : Option Json} {result : List Char × Json}
    (written : memberOf (name, json) = some result) :
    ∃ value, json = some value ∧ result = member name value := by
  cases json with
  | none => cases written
  | some value =>
      cases written
      exact ⟨value, rfl, rfl⟩

theorem record_map (entries : List (String × Option Json)) :
    record entries = (entries.mapM memberOf).map Json.object := by
  show ((entries.mapM memberOf).bind fun members => some (Json.object members)) = _
  cases entries.mapM memberOf <;> rfl

theorem record_isSome (entries : List (String × Option Json)) :
    (record entries).isSome = true ↔ ∀ entry ∈ entries, entry.2.isSome = true := by
  rw [record_map, Option.isSome_map, mapM_isSome]
  refine forall₂_congr fun entry _ => ?_
  obtain ⟨name, json⟩ := entry
  cases json <;> simp [memberOf]

theorem record_ne_null (entries : List (String × Option Json)) :
    record entries ≠ some (.scalar .null) := by
  rw [record_map]
  cases entries.mapM memberOf <;> simp

theorem members_written {columns : List (Column α)} {value : α}
    {members : List (List Char × Json)}
    (written : (Column.entries columns value).mapM memberOf = some members) :
    ∃ pairs : List (String × Json), pairs.map Prod.fst = columns.map Column.name ∧
      members = pairs.map (fun pair => member pair.1 pair.2) ∧
      List.Forall₂ (fun column json => column.write value = some json) columns
        (pairs.map Prod.snd) := by
  induction columns generalizing members with
  | nil =>
      cases written
      exact ⟨[], rfl, rfl, .nil⟩
  | cons column columns ih =>
      obtain ⟨first, rest, head, tail, rfl⟩ := mapM_cons_some written
      obtain ⟨json, wrote, rfl⟩ := memberOf_some head
      obtain ⟨pairs, names, rfl, others⟩ := ih tail
      refine ⟨(column.name, json) :: pairs, ?_, rfl, .cons wrote others⟩
      rw [List.map_cons, names, List.map_cons]

/-- A record is faithful when it is put together from what is read for its fields. -/
theorem record_faithful [Contents α] {schema : Schema α} {stored : α → α}
    (columns : List (Column α)) (distinct : (columns.map Column.name).Nodup)
    (write : ∀ value, schema.write value = record (Column.entries columns value))
    (textual : ∀ value, Textual value ↔ ∀ column ∈ columns, column.textual value)
    (reads : ∀ value json values,
      (∀ demanded, fields (columns.map Column.name) demanded json = .ok (values.map some)) →
      List.Forall₂ (fun column json => column.reads value json) columns values →
      schema.read json = .ok (stored value)) : Faithful schema stored where
  written value := by
    rw [write, record_isSome, Column.entries, List.forall_mem_map, textual]
    exact forall₂_congr fun column _ => column.written value
  legible := by
    intro value json written
    rw [write, record_map] at written
    obtain ⟨members, each, rfl⟩ := Option.map_eq_some_iff.mp written
    refine .object members (fun result there => ?_) fun result there => ?_
    · obtain ⟨entry, -, one⟩ := mapM_mem each result there
      obtain ⟨json, -, rfl⟩ := memberOf_some one
      exact Lexer.inside_escape entry.1
    · obtain ⟨entry, among, one⟩ := mapM_mem each result there
      obtain ⟨json, wrote, rfl⟩ := memberOf_some one
      obtain ⟨column, -, rfl⟩ := List.mem_map.mp among
      exact column.legible value json wrote
  restores := by
    intro value json written
    rw [write, record_map] at written
    obtain ⟨members, wrote, rfl⟩ := Option.map_eq_some_iff.mp written
    obtain ⟨pairs, names, rfl, each⟩ := members_written wrote
    refine reads value _ (pairs.map Prod.snd) (fun demanded => ?_) ?_
    · rw [← names, fields_members pairs (names ▸ distinct), List.map_map]
      rfl
    · exact each.imp fun column json wrote => column.restores value json wrote

/-- A record of which no field may be missing. -/
theorem object_faithful [Contents α] {schema : Schema α} {stored : α → α}
    (columns : List (Column α)) (distinct : (columns.map Column.name).Nodup)
    (write : ∀ value, schema.write value = record (Column.entries columns value))
    (textual : ∀ value, Textual value ↔ ∀ column ∈ columns, column.textual value)
    (reads : ∀ value json values, allFields (columns.map Column.name) json = .ok values →
      List.Forall₂ (fun column json => column.reads value json) columns values →
      schema.read json = .ok (stored value)) : Faithful schema stored :=
  record_faithful columns distinct write textual fun value json values found each =>
    reads value json values (allFields_found found) each

/-! Variants. -/

theorem variant_isSome {name : String} {value : Option Json} {textual : Prop}
    (inner : value.isSome = true ↔ textual) : (variant name value).isSome = true ↔ textual := by
  rw [← inner]
  cases value <;> rfl

theorem variant_some {name : String} {value : Option Json} {json : Json}
    (written : variant name value = some json) :
    ∃ inner, value = some inner ∧ json = .object [member name inner] := by
  cases value with
  | none => cases written
  | some inner =>
      cases written
      exact ⟨inner, rfl, rfl⟩

theorem readVariant_member (name : String) (inner : Json) :
    readVariant (.object [member name inner]) = .ok (name, inner) := by
  simp [readVariant, member, Quoted.unescape?_escape, required]

theorem variant_legible {name : String} {value : Option Json} {json : Json}
    (inner : ∀ carried, value = some carried → carried.Legible)
    (written : variant name value = some json) : json.Legible := by
  obtain ⟨carried, there, rfl⟩ := variant_some written
  refine .object _ (fun other within => ?_) fun other within => ?_
  · rw [List.mem_singleton.mp within]
    exact Lexer.inside_escape name
  · rw [List.mem_singleton.mp within]
    exact inner carried there

theorem readPlainVariant_string (name : String) : readPlainVariant (string name) = .ok name := by
  simp [readPlainVariant, string, Quoted.unescape?_escape, required]

end CheckpointLedger.Schema
