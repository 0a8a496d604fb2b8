import CheckpointLedger.Storage.Path
import Mathlib.Logic.ExistsUnique

/-!
The spellings of a path. Every path has one tidy spelling: its components, with one slash
between two of them. Two paths are equivalent exactly if this spelling is the same.
-/

namespace CheckpointLedger.Path

/-! The stretches between slashes. -/

theorem splitSlash_eq (bytes : List UInt8) : splitSlash bytes = bytes.splitOn slash := by
  induction bytes with
  | nil => rfl
  | cons byte rest ih =>
      rw [splitSlash, ih, List.splitOn_cons_eq_if_modifyHead]
      by_cases same : byte = slash
      · simp [same]
      · simp only [same, ↓reduceIte, beq_iff_eq]
        cases split : List.splitOn slash rest with
        | nil => exact absurd split (List.splitOn_ne_nil slash rest)
        | cons first others => rfl

theorem splitSlash_ne_nil (bytes : List UInt8) : splitSlash bytes ≠ [] := by
  rw [splitSlash_eq]
  exact List.splitOn_ne_nil slash bytes

theorem splitSlash_single (bytes : List UInt8) (single : slash ∉ bytes) :
    splitSlash bytes = [bytes] := by
  rw [splitSlash_eq, List.splitOn_eq_singleton single]

theorem splitSlash_append (front back : List UInt8) :
    splitSlash (front ++ slash :: back) = splitSlash front ++ splitSlash back := by
  rw [splitSlash_eq, splitSlash_eq, splitSlash_eq, List.splitOn_append_cons_self]

theorem join_splitSlash (bytes : List UInt8) : [slash].intercalate (splitSlash bytes) = bytes := by
  rw [splitSlash_eq, List.intercalate_splitOn]

theorem splitSlash_join (names : List Name) (apart : ∀ name ∈ names, slash ∉ name)
    (nonempty : names ≠ []) : splitSlash ([slash].intercalate names) = names := by
  rw [splitSlash_eq, List.splitOn_intercalate slash apart nonempty]

theorem slash_not_mem (bytes : List UInt8) :
    ∀ segment ∈ splitSlash bytes, slash ∉ segment := by
  induction bytes with
  | nil => simp [splitSlash]
  | cons byte rest ih =>
      rw [splitSlash_eq, List.splitOn_cons_eq_if_modifyHead, ← splitSlash_eq]
      by_cases same : byte = slash
      · simpa [same] using ih
      · cases split : splitSlash rest with
        | nil => simp [same]
        | cons first others =>
            rw [split] at ih
            have ⟨head, tail⟩ := List.forall_mem_cons.mp ih
            simp only [same, beq_iff_eq, ↓reduceIte, List.modifyHead_cons, List.forall_mem_cons]
            exact ⟨by simp [Ne.symm same, head], tail⟩

theorem nul_not_mem_join (segments : List Name) (nulFree : ∀ segment ∈ segments, 0 ∉ segment) :
    0 ∉ [slash].intercalate segments := by
  induction segments with
  | nil => simp
  | cons first rest ih =>
      obtain ⟨clear, others⟩ := List.forall_mem_cons.mp nulFree
      cases rest with
      | nil => simpa using clear
      | cons second rest =>
          have bar : (0 : UInt8) ∉ [slash] := by decide
          rw [List.intercalate_cons_cons]
          simp only [List.mem_append, clear, bar, ih others, or_self, not_false_iff]

/-! The components and their bytes. -/

/-- What a component is written as, between slashes. -/
def Component.bytes : Component → Name
  | .root => []
  | .here => Path.here
  | .parent => Path.parent
  | .name segment => segment

/-- The components in order, with one slash between two of them. -/
def spell : List Component → List UInt8
  | .root :: inner => slash :: [slash].intercalate (inner.map Component.bytes)
  | inner => [slash].intercalate (inner.map Component.bytes)

/-- Nothing is in the path but its components: no repeated slash, no slash at the end and no
inner `.` segment. -/
def Tidy (path : Path) : Prop := path.bytes = spell path.components

instance (path : Path) : Decidable path.Tidy :=
  inferInstanceAs (Decidable (path.bytes = spell path.components))

def tidied (path : Path) : Path := ⟨spell path.components⟩

/-- A path begins at the root, with a segment `.`, or with any other of its segments. -/
theorem components_cases (path : Path) :
    (path.isAbsolute = true ∧ path.components = .root :: path.segments.filterMap component?) ∨
    (path.isAbsolute = false ∧ path.segments.head? = some here ∧
      path.components = .here :: path.segments.filterMap component?) ∨
    (path.isAbsolute = false ∧ path.segments.head? ≠ some here ∧
      path.components = path.segments.filterMap component?) := by
  cases absolute : path.isAbsolute with
  | true => simp [components, absolute]
  | false =>
      by_cases dotted : path.segments.head? = some here <;> simp [components, absolute, dotted]

theorem component?_eq_none (segment : Name) :
    component? segment = none ↔ segment = [] ∨ segment = here := by
  by_cases blank : segment = [] ∨ segment = here
  · simp [component?, blank]
  · simp only [component?, blank, ↓reduceIte, iff_false]
    split <;> simp

theorem component?_some {segment : Name} {component : Component}
    (counts : component? segment = some component) :
    component.bytes = segment ∧ segment ≠ [] ∧ segment ≠ here := by
  simp only [component?] at counts
  split at counts
  · cases counts
  · rename_i kept
    have apart := not_or.mp kept
    split at counts
    · rename_i up
      cases counts
      exact ⟨up.symm, apart⟩
    · cases counts
      exact ⟨rfl, apart⟩

/-- The components that can stand behind a slash. -/
def Inner (inner : List Component) : Prop :=
  ∀ component ∈ inner, component? component.bytes = some component ∧ slash ∉ component.bytes

theorem inner_segments (path : Path) : Inner (path.segments.filterMap component?) := by
  intro component member
  obtain ⟨segment, listed, counts⟩ := List.mem_filterMap.mp member
  rw [(component?_some counts).1]
  exact ⟨counts, slash_not_mem path.bytes segment listed⟩

section Inner

variable {inner : List Component}

theorem filterMap_bytes (valid : Inner inner) :
    (inner.map Component.bytes).filterMap component? = inner := by
  induction inner with
  | nil => rfl
  | cons component rest ih =>
      have ⟨first, others⟩ := List.forall_mem_cons.mp valid
      rw [List.map_cons, List.filterMap_cons, first.1, ih others]

theorem splitSlash_inner (valid : Inner inner) (nonempty : inner ≠ []) :
    splitSlash ([slash].intercalate (inner.map Component.bytes)) = inner.map Component.bytes :=
  splitSlash_join _ (List.forall_mem_map.mpr fun component member => (valid component member).2)
    (by simpa using nonempty)

theorem components_inner (valid : Inner inner) :
    (splitSlash ([slash].intercalate (inner.map Component.bytes))).filterMap component? =
      inner := by
  cases inner with
  | nil => rfl
  | cons component rest => rw [splitSlash_inner valid (by simp), filterMap_bytes valid]

end Inner

/-- A path is absolute if nothing stands before its first slash. -/
theorem segments_head (path : Path) :
    path.segments.head? = some [] ↔ path.bytes = [] ∨ path.isAbsolute = true := by
  obtain ⟨bytes⟩ := path
  cases bytes with
  | nil => simp [segments, splitSlash]
  | cons byte rest =>
      simp only [segments, isAbsolute, splitSlash]
      by_cases same : byte = slash
      · simp [same]
      · cases splitSlash rest <;> simp [same]

theorem components_slash (bytes : List UInt8) :
    components ⟨slash :: bytes⟩ = .root :: (splitSlash bytes).filterMap component? := by
  simp [components, segments, isAbsolute, splitSlash, component?]

theorem components_relative (path : Path) (relative : path.segments.head? ≠ some []) :
    path.components =
      if path.segments.head? = some here then .here :: path.segments.filterMap component?
      else path.segments.filterMap component? := by
  have below : path.isAbsolute = false := by
    cases absolute : path.isAbsolute with
    | false => rfl
    | true => exact absurd ((segments_head path).mpr (.inr absolute)) relative
  simp only [components, below, Bool.false_eq_true, ↓reduceIte]

theorem components_spell_inner {inner : List Component} (valid : Inner inner) :
    components ⟨spell inner⟩ = inner := by
  cases inner with
  | nil => rfl
  | cons component rest =>
      have known := (valid component List.mem_cons_self).1
      have kept := (component?_some known).2
      have spelled : spell (component :: rest) =
          [slash].intercalate ((component :: rest).map Component.bytes) := by
        cases component with
        | root => exact absurd rfl kept.1
        | here | parent | name _ => rfl
      have segments : segments ⟨spell (component :: rest)⟩ =
          (component :: rest).map Component.bytes := by
        rw [segments, spelled, splitSlash_inner valid (by simp)]
      rw [components_relative _ (by simp [segments, kept.1]), segments, filterMap_bytes valid]
      simp [kept.2]

theorem components_spell_here {inner : List Component} (valid : Inner inner) :
    components ⟨spell (.here :: inner)⟩ = .here :: inner := by
  have apart : ∀ segment ∈ (Component.here :: inner).map Component.bytes, slash ∉ segment :=
    List.forall_mem_map.mpr (List.forall_mem_cons.mpr
      ⟨by decide, fun component member => (valid component member).2⟩)
  have segments : segments ⟨spell (.here :: inner)⟩ = here :: inner.map Component.bytes :=
    splitSlash_join _ apart (by simp)
  have dropped : component? here = none := by decide
  rw [components_relative _ (by simp [segments, here]), segments, List.filterMap_cons, dropped,
    filterMap_bytes valid]
  rfl

/-- A path's components are those of its tidy spelling. -/
theorem components_tidied (path : Path) : path.tidied.components = path.components := by
  have valid := inner_segments path
  rcases path.components_cases with ⟨_, whole⟩ | ⟨_, _, whole⟩ | ⟨_, _, whole⟩
  · rw [tidied, whole]
    exact (components_slash _).trans (congrArg _ (components_inner valid))
  · rw [tidied, whole, components_spell_here valid]
  · rw [tidied, whole, components_spell_inner valid]

theorem equivalent_iff (a b : Path) : a.equivalent b = true ↔ a.components = b.components := by
  rw [equivalent, beq_iff_eq]

theorem tidied_tidy (path : Path) : path.tidied.Tidy := by
  rw [Tidy, components_tidied]
  rfl

/-- A path has exactly one tidy spelling. -/
theorem existsUnique_tidy (path : Path) :
    ∃! tidy : Path, tidy.Tidy ∧ path.equivalent tidy = true := by
  refine ⟨path.tidied, ⟨tidied_tidy path, ?_⟩, ?_⟩
  · rw [equivalent_iff, components_tidied]
  · rintro other ⟨tidy, same⟩
    rw [equivalent_iff] at same
    rw [tidied, same, ← tidy]

example : (ofText "/a//./b/").tidied = ofText "/a/b" := by decide +kernel

/-- Tidy paths are equivalent only to themselves. -/
theorem eq_of_tidy {a b : Path} (first : a.Tidy) (second : b.Tidy)
    (same : a.equivalent b = true) : a = b := by
  rw [equivalent_iff] at same
  have bytes : a.bytes = b.bytes := by rw [first, second, same]
  exact congrArg Path.mk bytes

/-- The components behind the first one are those that can stand behind a slash. -/
theorem inner_components (path : Path) :
    path.segments.filterMap component? =
      path.components.filter fun component => component? component.bytes = some component := by
  have kept : (path.segments.filterMap component?).filter
      (fun component => component? component.bytes = some component) =
        path.segments.filterMap component? :=
    List.filter_eq_self.mpr fun component member =>
      decide_eq_true (inner_segments path component member).1
  have root : ¬ component? Component.root.bytes = some .root := by decide
  have dot : ¬ component? Component.here.bytes = some .here := by decide
  rcases path.components_cases with ⟨_, whole⟩ | ⟨_, _, whole⟩ | ⟨_, _, whole⟩
  · simp [whole, root, kept]
  · simp [whole, dot, kept]
  · rw [whole, kept]

/-! A name at the end. -/

section Final

variable {path : Path} {way : List Name} {final : Name}
  (segments : path.segments = way ++ [final]) (named : final ≠ [])
include segments named

theorem split?_final : path.split? = some (way, final) := by
  simp [split?, segments, named]

theorem bytes_final : path.bytes ≠ [] := by
  intro blank
  have none : way ++ [final] = [] ++ [[]] := by rw [← segments, Path.segments, blank]; rfl
  exact named (List.singleton_inj.mp (List.append_inj_right' none rfl))

theorem endsInSlash_final : path.endsInSlash = false := by
  rw [Bool.eq_false_iff]
  intro ends
  have last : path.bytes.getLast? = some slash := by simpa [endsInSlash] using ends
  obtain ⟨front, whole⟩ := List.getLast?_eq_some_iff.mp last
  have blank : way ++ [final] = splitSlash front ++ [[]] := by
    rw [← segments, Path.segments, whole]
    exact splitSlash_append front []
  exact named (List.singleton_inj.mp (List.append_inj_right' blank rfl))

end Final

/-! A slash at the end. -/

/-- A slash at the end makes no difference but to the empty path. -/
theorem components_append_slash (path : Path) (nonempty : path.bytes ≠ []) :
    components ⟨path.bytes ++ [slash]⟩ = path.components := by
  obtain ⟨bytes⟩ := path
  have split : splitSlash (bytes ++ [slash]) = splitSlash bytes ++ [[]] :=
    splitSlash_append bytes []
  have begun : (splitSlash bytes ++ [[]]).head? = (splitSlash bytes).head? := by
    cases segments : splitSlash bytes with
    | nil => exact absurd segments (splitSlash_ne_nil bytes)
    | cons first others => rfl
  have first : (bytes ++ [slash]).head? = bytes.head? := by
    cases bytes with
    | nil => exact absurd rfl nonempty
    | cons byte rest => rfl
  have dropped : (splitSlash bytes ++ [[]]).filterMap component? =
      (splitSlash bytes).filterMap component? := by
    simp [component?]
  simp only [components, segments, isAbsolute, split, begun, first, dropped]
  rfl

theorem bytes_of_components_nil (path : Path) (blank : path.components = []) :
    path.bytes = [] := by
  rcases path.components_cases with ⟨_, whole⟩ | ⟨_, _, whole⟩ | ⟨relative, dotless, whole⟩
  · simp [whole] at blank
  · simp [whole] at blank
  · rw [whole, List.filterMap_eq_nil_iff] at blank
    have started : path.segments.head? = some [] := by
      cases segments : path.segments with
      | nil => exact absurd segments (splitSlash_ne_nil path.bytes)
      | cons first others =>
          have dropped := (component?_eq_none first).mp (blank first (by simp [segments]))
          have apart : first ≠ here := by simpa [segments] using dotless
          rw [dropped.resolve_right apart, List.head?_cons]
    exact ((segments_head path).mp started).resolve_right (by simp [relative])

end CheckpointLedger.Path
