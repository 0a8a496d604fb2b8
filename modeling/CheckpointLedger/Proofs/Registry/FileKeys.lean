import CheckpointLedger.Proofs.Storage.Spelling
import CheckpointLedger.Proofs.Text.Display
import CheckpointLedger.Snapshot.Stored

/-!
The keys of files. The key of a file is its path as it is shown, while two files are the same
if their paths have the same components. Only paths of the same bytes have both in common, so
that the keys are right where no two spellings of a path and no two paths that are shown alike
meet, as among tidy UTF-8 paths.
-/

namespace CheckpointLedger

namespace Path

/-! A path that is shown can be taken apart again at its slashes. -/

theorem slash_ascii : slash.toNat < 0x80 := by decide

theorem display_join (names : List Name) :
    (Utf8.display ([slash].intercalate names)).toList =
      ['/'].intercalate (names.map fun name => (Utf8.display name).toList) := by
  induction names with
  | nil => rfl
  | cons name rest ih =>
      cases rest with
      | nil => simp
      | cons second others =>
          have front := Utf8.scan_ascii name ([slash].intercalate (second :: others)) slash
            slash_ascii
          have split : (Utf8.display ([slash].intercalate (name :: second :: others))).toList =
              (Utf8.display name).toList ++
                '/' :: (Utf8.display ([slash].intercalate (second :: others))).toList := by
            rw [List.intercalate_cons_cons, List.append_assoc, List.singleton_append]
            simp only [Utf8.toList_display, front, List.map_append, List.map_cons]
            rfl
          rw [split, ih]
          simp only [List.map_cons, List.intercalate_cons_cons, List.append_assoc,
            List.singleton_append]

theorem slash_of_display (bytes : List UInt8) (shown : '/' ∈ (Utf8.display bytes).toList) :
    slash ∈ bytes := by
  rw [Utf8.toList_display] at shown
  obtain ⟨read, member, same⟩ := List.mem_map.mp shown
  cases read with
  | none => exact absurd same (by decide)
  | some char =>
      cases same
      exact Utf8.byte_of_scan bytes slash slash_ascii member

theorem display_segments (path : Path) :
    path.display.toList.splitOn '/' =
      path.segments.map fun segment => (Utf8.display segment).toList := by
  have apart : ∀ shown ∈ path.segments.map fun segment => (Utf8.display segment).toList,
      '/' ∉ shown := by
    intro shown member
    obtain ⟨segment, listed, rfl⟩ := List.mem_map.mp member
    exact fun shown => slash_not_mem path.bytes segment listed (slash_of_display segment shown)
  have nonempty : (path.segments.map fun segment => (Utf8.display segment).toList) ≠ [] := by
    simpa [segments] using splitSlash_ne_nil path.bytes
  have whole := display_join path.segments
  rw [segments, join_splitSlash, ← segments] at whole
  rw [display, whole, List.splitOn_intercalate '/' apart nonempty]

/-! Paths that are shown alike and have the same components. -/

/-- What is no component is told by how it is shown. -/
theorem eq_of_no_component {segment other : Name} (blank : component? segment = none)
    (same : Utf8.display other = Utf8.display segment) : other = segment := by
  have shown : '\uFFFD' ∉ (Utf8.display segment).toList := by
    rcases (component?_eq_none segment).mp blank with rfl | rfl <;> decide
  exact Utf8.eq_of_display shown same

/-- Of stretches that are shown alike, those that are no components stand in the same places,
so that the components do so, too. -/
theorem segments_eq {segments others : List Name}
    (shown : segments.map Utf8.display = others.map Utf8.display)
    (same : segments.filterMap component? = others.filterMap component?) : segments = others := by
  induction segments generalizing others with
  | nil => exact (List.map_eq_nil_iff.mp shown.symm).symm
  | cons segment rest ih =>
      cases others with
      | nil => cases shown
      | cons other rest' =>
          have ⟨first, later⟩ := List.cons.inj shown
          rw [List.filterMap_cons, List.filterMap_cons] at same
          cases counts : component? segment with
          | none =>
              cases eq_of_no_component counts first.symm
              simp only [counts] at same
              rw [ih later same]
          | some component =>
              cases counts' : component? other with
              | none =>
                  cases eq_of_no_component counts' first
                  rw [counts] at counts'
                  cases counts'
              | some component' =>
                  simp only [counts, counts', List.cons.injEq] at same
                  obtain ⟨rfl, others⟩ := same
                  rw [← (component?_some counts).1, ← (component?_some counts').1, ih later others]

/-- What is shown and the components, taken together, are those of one path only. -/
theorem eq_of_display_of_equivalent {a b : Path} (shown : a.display = b.display)
    (same : a.equivalent b = true) : a = b := by
  have pieces : a.segments.map Utf8.display = b.segments.map Utf8.display := by
    have split := congrArg (fun text => (text.toList.splitOn '/').map String.ofList) shown
    simpa [display_segments, List.map_map, Function.comp_def] using split
  have inner : a.segments.filterMap component? = b.segments.filterMap component? := by
    rw [inner_components, inner_components, (equivalent_iff a b).mp same]
  have bytes : a.bytes = b.bytes := by
    rw [← join_splitSlash a.bytes, ← join_splitSlash b.bytes]
    exact congrArg _ (segments_eq pieces inner)
  exact congrArg Path.mk bytes

theorem display_append_slash (path : Path) :
    display ⟨path.bytes ++ [slash]⟩ ≠ path.display := by
  intro same
  have texts := congrArg (fun text => text.toList.length) same
  simp only [display, Utf8.toList_display, List.length_map,
    Utf8.scan_ascii path.bytes [] slash slash_ascii, List.length_append, List.length_cons] at texts
  omega

end Path

/-- The bytes are UTF-8. -/
def Path.IsText (path : Path) : Prop := path.text?.isSome = true

namespace FileBlob

/-- The registry tells files by this key. -/
def key (blob : FileBlob) : String := (Blob.file blob).physicalId

/-- The paths have the same components. -/
def SameFile (a b : FileBlob) : Prop := a.path.equivalent b.path = true

instance (a b : FileBlob) : Decidable (a.SameFile b) :=
  inferInstanceAs (Decidable (a.path.equivalent b.path = true))

variable {a b : FileBlob}

theorem key_of_path (same : a.path = b.path) : a.key = b.key := congrArg Path.display same

theorem sameFile_of_path (same : a.path = b.path) : a.SameFile b := by
  rw [SameFile, Path.equivalent_iff, same]

theorem key_eq_iff_path (first : a.path.IsText) (second : b.path.IsText) :
    a.key = b.key ↔ a.path = b.path := by
  constructor
  · intro same
    have bytes : a.path.bytes = b.path.bytes := Utf8.display_injective _ _ first second same
    exact congrArg Path.mk bytes
  · exact key_of_path

theorem sameFile_iff_path (first : a.path.Tidy) (second : b.path.Tidy) :
    a.SameFile b ↔ a.path = b.path :=
  ⟨Path.eq_of_tidy first second, sameFile_of_path⟩

/-- Only a path of the same bytes has both the key and the components. -/
theorem eq_of_key_of_sameFile (key : a.key = b.key) (same : a.SameFile b) : a.path = b.path :=
  Path.eq_of_display_of_equivalent key same

/-- A key without a replacement character is that of one path only. -/
theorem key_own_iff (a : FileBlob) :
    (∀ b : FileBlob, a.key = b.key → a.SameFile b) ↔ '\uFFFD' ∉ a.key.toList := by
  constructor
  · intro own shown
    obtain ⟨twin, other, same⟩ := Utf8.exists_twin shown
    have key : a.key = (⟨⟨twin⟩, 0⟩ : FileBlob).key := same.symm
    exact other (congrArg Path.bytes (eq_of_key_of_sameFile key (own _ key)).symm)
  · intro shown b same
    have bytes : b.path.bytes = a.path.bytes := Utf8.eq_of_display shown same.symm
    exact sameFile_of_path (congrArg Path.mk bytes).symm

/-- A path that is not empty can be spelled with a slash at its end, which shows. -/
theorem key_shared_iff (a : FileBlob) :
    (∀ b : FileBlob, a.SameFile b → a.key = b.key) ↔ a.path.bytes = [] := by
  constructor
  · intro shared
    by_cases empty : a.path.bytes = []
    · exact empty
    · have same : a.SameFile ⟨⟨a.path.bytes ++ [Path.slash]⟩, 0⟩ := by
        rw [SameFile, Path.equivalent_iff, Path.components_append_slash a.path empty]
      exact absurd (shared _ same).symm (Path.display_append_slash a.path)
  · intro empty b same
    have blank : b.path.components = [] := by
      rw [← (Path.equivalent_iff _ _).mp same, Path.components, Path.segments, Path.isAbsolute,
        empty]
      rfl
    have bytes : a.path.bytes = b.path.bytes := by
      rw [empty, Path.bytes_of_components_nil b.path blank]
    exact congrArg Utf8.display bytes

end FileBlob

/-- The keys of two files say whether they are the same exactly if their paths are the same
bytes or have neither the key nor the components in common. This is so for tidy UTF-8 paths, and
every path has one tidy spelling. A key is that of one file only exactly if it shows no
replacement character, and only the empty path has one key in all its spellings. -/
theorem file_keys_exactly (a b : FileBlob) :
    ((a.key = b.key ↔ a.SameFile b) ↔ (a.key = b.key ∨ a.SameFile b → a.path = b.path)) ∧
    (a.path.IsText → b.path.IsText → a.path.Tidy → b.path.Tidy →
      (a.key = b.key ↔ a.SameFile b)) ∧
    (∃! tidy : Path, tidy.Tidy ∧ a.SameFile ⟨tidy, a.size⟩) ∧
    ((∀ other : FileBlob, a.key = other.key → a.SameFile other) ↔ '\uFFFD' ∉ a.key.toList) ∧
    ((∀ other : FileBlob, a.SameFile other → a.key = other.key) ↔ a.path.bytes = []) := by
  refine ⟨?_, ?_, a.path.existsUnique_tidy, a.key_own_iff, a.key_shared_iff⟩
  · constructor
    · rintro agree (key | same)
      · exact FileBlob.eq_of_key_of_sameFile key (agree.mp key)
      · exact FileBlob.eq_of_key_of_sameFile (agree.mpr same) same
    · intro told
      constructor
      · exact fun key => FileBlob.sameFile_of_path (told (.inl key))
      · exact fun same => FileBlob.key_of_path (told (.inr same))
  · intro first second tidy tidy'
    rw [FileBlob.key_eq_iff_path first second, FileBlob.sameFile_iff_path tidy tidy']

/-- Two spellings of one path, with two keys, and two names that are not UTF-8, with one. -/
theorem file_keys_mistaken :
    ((⟨.ofText "a/b", 1⟩ : FileBlob).SameFile ⟨.ofText "a//b", 1⟩ ∧
      (⟨.ofText "a/b", 1⟩ : FileBlob).key ≠ (⟨.ofText "a//b", 1⟩ : FileBlob).key) ∧
    (⟨⟨[0xFF]⟩, 1⟩ : FileBlob).key = (⟨⟨[0xFE]⟩, 1⟩ : FileBlob).key ∧
      ¬ (⟨⟨[0xFF]⟩, 1⟩ : FileBlob).SameFile ⟨⟨[0xFE]⟩, 1⟩ := by
  decide +kernel

end CheckpointLedger
