import CheckpointLedger.Json.Schema
import CheckpointLedger.Proofs.Json.Reading
import CheckpointLedger.Proofs.Snapshot.Contents
import CheckpointLedger.SortedMap.Lemmas

/-!
Schemas that lose nothing but what they are said to lose. A value is written unless one of
its paths is no text, as a tree that can be printed, and what is read from the tree is the
value. Each building block keeps this of its parts.
-/

namespace CheckpointLedger.Schema

variable {α β γ : Type}

structure Faithful [Contents α] (schema : Schema α) (stored : α → α) : Prop where
  written : ∀ value, (schema.write value).isSome = true ↔ Textual value
  legible : ∀ value json, schema.write value = some json → json.Legible
  restores : ∀ value json, schema.write value = some json → schema.read json = .ok (stored value)

@[simp] theorem ok_bind (value : α) (next : α → Except JsonFault β) :
    (Except.ok value >>= next) = next value := rfl

@[simp] theorem pure_ok (value : α) : (pure value : Except JsonFault α) = .ok value := rfl

/-! Traversals that write and read. -/

section Traversals

variable {write : α → Option β} {values : List α} {results : List β}

theorem mapM_isSome :
    (values.mapM write).isSome = true ↔ ∀ value ∈ values, (write value).isSome = true := by
  induction values with
  | nil => simp
  | cons value rest ih =>
      rw [List.forall_mem_cons, ← ih, List.mapM_cons]
      cases write value <;> cases rest.mapM write <;> simp

theorem mapM_cons_some {value : α} (written : (value :: values).mapM write = some results) :
    ∃ first rest, write value = some first ∧ values.mapM write = some rest ∧
      results = first :: rest := by
  rw [List.mapM_cons] at written
  cases head : write value with
  | none => simp [head] at written
  | some first => cases tail : values.mapM write with
    | none => simp [head, tail] at written
    | some rest =>
        simp only [head, tail] at written
        cases written
        exact ⟨first, rest, rfl, rfl, rfl⟩

theorem mapM_mem (written : values.mapM write = some results) (result : β)
    (member : result ∈ results) : ∃ value ∈ values, write value = some result := by
  induction values generalizing results with
  | nil =>
      cases written
      cases member
  | cons value values ih =>
      obtain ⟨first, rest, head, tail, rfl⟩ := mapM_cons_some written
      rcases List.mem_cons.mp member with rfl | later
      · exact ⟨value, List.mem_cons_self, head⟩
      · obtain ⟨other, there, same⟩ := ih tail later
        exact ⟨other, List.mem_cons_of_mem _ there, same⟩

theorem mapM_restores {read : β → Except JsonFault γ} {stored : α → γ}
    (each : ∀ value ∈ values, ∀ result, write value = some result →
      read result = .ok (stored value))
    (written : values.mapM write = some results) :
    results.mapM read = .ok (values.map stored) := by
  induction values generalizing results with
  | nil =>
      cases written
      rfl
  | cons value values ih =>
      obtain ⟨first, rest, head, tail, rfl⟩ := mapM_cons_some written
      have here := each value List.mem_cons_self first head
      have later := ih (fun other member => each other (List.mem_cons_of_mem _ member)) tail
      rw [List.mapM_cons, here, later]
      rfl

/-- What is written without fail. -/
theorem mapM_map {read : β → Except JsonFault γ} (write : α → β) (stored : α → γ) (values : List α)
    (each : ∀ value ∈ values, read (write value) = .ok (stored value)) :
    (values.map write).mapM read = .ok (values.map stored) := by
  induction values with
  | nil => rfl
  | cons value values ih =>
      have here := each value List.mem_cons_self
      have later := ih fun other member => each other (List.mem_cons_of_mem _ member)
      rw [List.map_cons, List.mapM_cons, here, later]
      rfl

end Traversals

/-! Numbers and texts. -/

theorem legible_number (value : Nat) : (number value).Legible :=
  .number _ (Numeral.decimal_isDecimal value)

theorem legible_string (text : String) : (string text).Legible :=
  .string _ (Lexer.inside_escape text)

theorem natural_restores (bound value : Nat) (below : value < bound) :
    (natural bound).read (number value) = .ok value := by
  simp [natural, number, Numeral.readDecimal?_decimal, required, below]

/-- Numbers that stand for values of another type. -/
theorem natural_faithful (bound : Nat) (wrap : Nat → α) (unwrap : α → Nat)
    (below : ∀ value, unwrap value < bound) (inverse : ∀ value, wrap (unwrap value) = value) :
    @Faithful α (.of unwrap) ((natural bound).imap wrap unwrap) id := by
  let _ : Contents α := .of unwrap
  constructor
  · exact fun value => iff_of_true rfl (textual_of_none value rfl)
  · intro value json written
    cases written
    exact legible_number (unwrap value)
  · intro value json written
    cases written
    have read := natural_restores bound (unwrap value) (below value)
    simp [imap, read, inverse]

theorem byte_faithful : Faithful byte id :=
  natural_faithful UInt8.size _ _ UInt8.toNat_lt fun value => by simp

theorem word32_faithful : Faithful word32 id :=
  natural_faithful UInt32.size _ _ UInt32.toNat_lt fun value => by simp

theorem word64_faithful : Faithful word64 id :=
  natural_faithful UInt64.size _ _ UInt64.toNat_lt fun value => by simp

theorem text_restores (value : String) : text.read (string value) = .ok value := by
  simp [text, string, Quoted.unescape?_escape, required]

theorem text_faithful : Faithful text id where
  written value := iff_of_true rfl (textual_of_none value rfl)
  legible := by
    intro value json written
    cases written
    exact legible_string value
  restores := by
    intro value json written
    cases written
    exact text_restores value

theorem path_faithful : Faithful path id where
  written value := by
    simp [path, Textual, paths]
  legible := by
    intro value json written
    obtain ⟨name, named, rfl⟩ := Option.map_eq_some_iff.mp written
    exact legible_string name
  restores := by
    intro value json written
    obtain ⟨name, named, rfl⟩ := Option.map_eq_some_iff.mp written
    have same : Path.ofText name = value :=
      congrArg Path.mk (Utf8.encode_of_decode? value.bytes name named)
    simp [path, text_restores, same]

/-! Collections. -/

theorem list_faithful [Contents α] {schema : Schema α} {stored : α → α}
    (faithful : Faithful schema stored) : Faithful (list schema) (List.map stored) where
  written values := by
    simp only [list, Option.isSome_map, mapM_isSome, faithful.written, textual_list]
  legible := by
    intro values json written
    obtain ⟨items, each, rfl⟩ := Option.map_eq_some_iff.mp written
    refine .array items fun item member => ?_
    obtain ⟨value, -, there⟩ := mapM_mem each item member
    exact faithful.legible value item there
  restores := by
    intro values json written
    obtain ⟨items, each, rfl⟩ := Option.map_eq_some_iff.mp written
    exact mapM_restores (fun value _ item there => faithful.restores value item there) each

/-- A list is stored as it is when its members are. -/
theorem plain_list_faithful [Contents α] {schema : Schema α} (faithful : Faithful schema id) :
    Faithful (list schema) id := by
  have plain := list_faithful faithful
  rwa [List.map_id_fun] at plain

structure Key.Faithful [Contents α] (key : Key α) : Prop where
  textual : ∀ name : α, Textual name
  inside : ∀ name, Lexer.Inside (key.write name)
  restores : ∀ name, key.read (key.write name) = .ok name

theorem textKey_faithful : textKey.Faithful where
  textual name := textual_of_none name rfl
  inside := Lexer.inside_escape
  restores name := by simp [textKey, Quoted.unescape?_escape, required]

theorem word64Key_faithful : word64Key.Faithful where
  textual name := textual_of_none name rfl
  inside name := Lexer.inside_digits _ fun digit member =>
    Nat.isDigit_of_mem_toDigits (by decide) (by decide) member
  restores name := by
    have read : word64.read (number name.toNat) = .ok name :=
      word64_faithful.restores name _ rfl
    simp only [word64Key]
    exact read

theorem writeMember_some {key : Key α} {schema : Schema β} {entry : α × β}
    {result : List Char × Json}
    (written : (do return (key.write entry.1, ← schema.write entry.2) : Option _) = some result) :
    ∃ json, schema.write entry.2 = some json ∧ result = (key.write entry.1, json) := by
  cases there : schema.write entry.2 with
  | none => simp [there] at written
  | some json =>
      simp only [there] at written
      cases written
      exact ⟨json, rfl, rfl⟩

theorem sortedMap_faithful [Contents α] [Contents β] [Ord α] [Std.TransOrd α] [Std.LawfulEqOrd α]
    {key : Key α} {schema : Schema β} {stored : β → β} (keys : key.Faithful)
    (faithful : Faithful schema stored) :
    Faithful (sortedMap key schema) (SortedMap.map stored) where
  written map := by
    have textual : Textual map ↔ ∀ entry ∈ map.entries, Textual entry.2 := by
      refine (textual_list map.entries).trans (forall₂_congr fun entry _ => ?_)
      exact (textual_pair entry).trans (and_iff_right (keys.textual entry.1))
    simp only [sortedMap, writeMembers, Option.isSome_map, mapM_isSome, textual,
      ← faithful.written]
    refine forall₂_congr fun entry _ => ?_
    cases schema.write entry.2 <;> simp
  legible := by
    intro map json written
    obtain ⟨members, each, rfl⟩ := Option.map_eq_some_iff.mp written
    refine .object members (fun member there => ?_) fun member there => ?_
    · obtain ⟨entry, -, one⟩ := mapM_mem each member there
      obtain ⟨value, -, rfl⟩ := writeMember_some one
      exact keys.inside entry.1
    · obtain ⟨entry, -, one⟩ := mapM_mem each member there
      obtain ⟨value, wrote, rfl⟩ := writeMember_some one
      exact faithful.legible entry.2 value wrote
  restores := by
    intro map json written
    obtain ⟨members, each, rfl⟩ := Option.map_eq_some_iff.mp written
    have read : readMembers key schema members =
        .ok (map.entries.map fun entry => (entry.1, stored entry.2)) := by
      refine mapM_restores (fun entry _ member one => ?_) each
      obtain ⟨value, wrote, rfl⟩ := writeMember_some one
      simp [keys.restores, faithful.restores entry.2 value wrote]
    have whole : SortedMap.ofList (map.map stored).entries = map.map stored :=
      SortedMap.ofList_entries _
    simp only [sortedMap, read]
    exact congrArg Except.ok whole

theorem plain_sortedMap_faithful [Contents α] [Contents β] [Ord α] [Std.TransOrd α]
    [Std.LawfulEqOrd α] {key : Key α} {schema : Schema β} (keys : key.Faithful)
    (faithful : Faithful schema id) : Faithful (sortedMap key schema) id := by
  have plain := sortedMap_faithful keys faithful
  rwa [funext SortedMap.map_id] at plain

/-! What may be missing. -/

theorem option_read_of_ne (schema : Schema α) (json : Json) (notNull : json ≠ .scalar .null) :
    (option schema).read json = do return some (← schema.read json) := by
  simp only [option]

/-! Whole texts. -/

theorem decode_encode [Contents α] {schema : Schema α} {stored : α → α}
    (faithful : Faithful schema stored) (value : α) (written : String)
    (encoded : schema.encode value = some written) :
    schema.decode written = .ok (stored value) := by
  obtain ⟨json, wrote, rfl⟩ := Option.map_eq_some_iff.mp encoded
  have parsed := Parser.parse?_text json (faithful.legible value json wrote)
  simp [decode, parsed, faithful.restores value json wrote]

end CheckpointLedger.Schema
