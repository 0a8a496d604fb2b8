import CheckpointLedger.Json.Parser
import CheckpointLedger.Proofs.Json.Quoted

/-!
A printed tree is parsed as the tree. Its characters are followed through the lexer and the
parser at once: from where a value may begin they lead to where it has been delivered, with
the characters behind it still to be read.
-/

namespace CheckpointLedger

/-- Trees whose numbers are decimal and whose strings have no quote of their own. -/
inductive Json.Legible : Json → Prop where
  | null : Legible (.scalar .null)
  | bool (value : Bool) : Legible (.scalar (.bool value))
  | number (written : List Char) (form : Numeral.IsDecimal written) :
      Legible (.scalar (.number written))
  | string (written : List Char) (inside : Lexer.Inside written) :
      Legible (.scalar (.string written))
  | array (items : List Json) (each : ∀ item ∈ items, Legible item) : Legible (.array items)
  | object (members : List (List Char × Json)) (keys : ∀ member ∈ members, Lexer.Inside member.1)
      (values : ∀ member ∈ members, Legible member.2) : Legible (.object members)

namespace Lexer

/-- What may stand right after a value. -/
def Ends (rest : List Char) : Prop :=
  ∀ char ∈ rest.head?, char = ',' ∨ char = ']' ∨ char = '}'

theorem scan_number_end (reversed : List Char) (part : NumberPart)
    (whole : part = .zero ∨ part = .whole) (rest : List Char) (ends : Ends rest) :
    scan (.number reversed part) rest =
      .scalar (.number reversed.reverse) :: scan .between rest := by
  cases rest with
  | nil => rcases whole with rfl | rfl <;> rfl
  | cons char later =>
      rcases whole with rfl | rfl <;> rcases ends char rfl with rfl | rfl | rfl <;> rfl

theorem scan_digits (digits : List Char) (each : ∀ digit ∈ digits, digit.isDigit = true)
    (reversed rest : List Char) (ends : Ends rest) :
    scan (.number reversed .whole) (digits ++ rest) =
      .scalar (.number (reversed.reverse ++ digits)) :: scan .between rest := by
  induction digits generalizing reversed with
  | nil => simpa using scan_number_end reversed .whole (.inr rfl) rest ends
  | cons digit digits ih =>
      have isDigit := each digit List.mem_cons_self
      have next : step (.number reversed .whole) digit =
          ([], .number (digit :: reversed) .whole) := by
        simp [step, NumberPart.next?, isDigit]
      have later := ih (fun other member => each other (List.mem_cons_of_mem _ member))
        (digit :: reversed)
      simpa [scan, next] using later

theorem begin_digit (digit : Char) (isDigit : digit.isDigit = true) (nonzero : digit ≠ '0') :
    begin digit = ([], .number [digit] .whole) := by
  have blank : isBlank digit = false := by
    have above := (Numeral.digit_bounds digit isDigit).1
    have apart : ∀ other, other < '0' → digit ≠ other := fun other below same =>
      Char.not_lt.mpr above (same ▸ below)
    simp [isBlank, apart ' ' (by decide), apart '\n' (by decide), apart '\t' (by decide),
      apart '\r' (by decide)]
  simp [begin, blank, isDigit, nonzero]

theorem scan_number (written : List Char) (form : Numeral.IsDecimal written) (rest : List Char)
    (ends : Ends rest) :
    scan .between (written ++ rest) = .scalar (.number written) :: scan .between rest := by
  cases form with
  | zero => exact scan_number_end ['0'] .zero (.inl rfl) rest ends
  | digits first later nonzero each =>
      have begun := begin_digit first (each first List.mem_cons_self) nonzero
      have whole := scan_digits later
        (fun digit member => each digit (List.mem_cons_of_mem _ member)) [first] rest ends
      simpa [scan, step, begun] using whole

theorem scan_string (written : List Char) (inside : Inside written) (rest : List Char) :
    scan .between ('"' :: written ++ '"' :: rest) =
      .scalar (.string written) :: scan .between rest := by
  have passed := inside [] ('"' :: rest)
  have closed : scan (.text written.reverse) ('"' :: rest) =
      .scalar (.string written.reverse.reverse) :: scan .between rest := rfl
  rw [List.append_nil, closed, List.reverse_reverse] at passed
  exact passed

theorem scan_key (key : List Char) (inside : Inside key) (rest : List Char) :
    scan .between ('"' :: key ++ '"' :: ':' :: rest) =
      .scalar (.string key) :: .colon :: scan .between rest :=
  scan_string key inside (':' :: rest)

end Lexer

namespace Parser

/-- The states in which a value may begin, and the stack that takes it. -/
inductive Opens : State → List Frame → Prop where
  | value (stack : List Frame) : Opens (.value stack) stack
  | first (stack : List Frame) : Opens (.firstItem stack) (.array [] :: stack)

theorem read_opens (state next : State) (stack : List Frame) (opens : Opens state stack)
    (token : Token) (begins : beginValue stack token = some next) (rest : List Token) :
    read state (token :: rest) = read next rest := by
  have stepped : step state token = some next := by
    cases opens with
    | value stack => exact begins
    | first stack => cases token <;> first | exact begins | cases begins
  cases opens <;> simp only [read, stepped]

/-- Wherever the tree may stand, its printed form leads past it. -/
def Reads (json : Json) : Prop :=
  ∀ state stack rest, Opens state stack → Lexer.Ends rest →
    read state (Lexer.scan .between (json.render ++ rest)) =
      read (deliver json stack) (Lexer.scan .between rest)

theorem reads_scalar (value : Scalar)
    (lexed : ∀ rest, Lexer.Ends rest → Lexer.scan .between (value.render ++ rest) =
      .scalar value :: Lexer.scan .between rest) : Reads (.scalar value) := by
  intro state stack rest opens ends
  rw [Json.render, lexed rest ends]
  exact read_opens state _ stack opens (.scalar value) rfl _

theorem ends_items (items : List Json) (rest : List Char) :
    Lexer.Ends (Json.renderItems items ++ rest) := by
  cases items <;> simp [Json.renderItems, Lexer.Ends]

theorem ends_members (members : List (List Char × Json)) (rest : List Char) :
    Lexer.Ends (Json.renderMembers members ++ rest) := by
  cases members <;> simp [Json.renderMembers, Lexer.Ends]

theorem read_items (items : List Json) (each : ∀ item ∈ items, Reads item) (before : List Json)
    (stack : List Frame) (rest : List Char) :
    read (.afterItem before stack) (Lexer.scan .between (Json.renderItems items ++ rest)) =
      read (deliver (.array (before.reverse ++ items)) stack) (Lexer.scan .between rest) := by
  induction items generalizing before with
  | nil => rw [List.append_nil]; rfl
  | cons item items ih =>
      have first := each item List.mem_cons_self (.value (.array before :: stack)) _ _ (.value _)
        (ends_items items rest)
      have later := ih (fun other member => each other (List.mem_cons_of_mem _ member))
        (item :: before)
      calc read (.afterItem before stack)
            (Lexer.scan .between (Json.renderItems (item :: items) ++ rest))
          = read (.value (.array before :: stack))
              (Lexer.scan .between (item.render ++ (Json.renderItems items ++ rest))) := by
            rw [← List.append_assoc]; rfl
        _ = read (.afterItem (item :: before) stack)
              (Lexer.scan .between (Json.renderItems items ++ rest)) := first
        _ = _ := by rw [later, List.reverse_cons, List.append_assoc, List.singleton_append]

/-- The states in which a key may begin, with the members before it. -/
inductive Awaits : State → Members → List Frame → Prop where
  | first (stack : List Frame) : Awaits (.firstKey stack) [] stack
  | next (before : Members) (stack : List Frame) : Awaits (.nextKey before stack) before stack

theorem read_member (state : State) (before : Members) (stack : List Frame)
    (awaits : Awaits state before stack) (key : List Char) (inside : Lexer.Inside key)
    (value : Json) (reads : Reads value) (rest : List Char) (ends : Lexer.Ends rest) :
    read state (Lexer.scan .between ('"' :: key ++ '"' :: ':' :: (value.render ++ rest))) =
      read (.afterMember ((key, value) :: before) stack) (Lexer.scan .between rest) := by
  rw [Lexer.scan_key key inside]
  calc read state (.scalar (.string key) :: .colon :: Lexer.scan .between (value.render ++ rest))
      = read (.value (.object before key :: stack))
          (Lexer.scan .between (value.render ++ rest)) := by
        cases awaits <;> rfl
    _ = _ := reads (.value (.object before key :: stack)) _ rest (.value _) ends

theorem read_members (members : List (List Char × Json))
    (keys : ∀ member ∈ members, Lexer.Inside member.1) (each : ∀ member ∈ members, Reads member.2)
    (before : Members) (stack : List Frame) (rest : List Char) :
    read (.afterMember before stack) (Lexer.scan .between (Json.renderMembers members ++ rest)) =
      read (deliver (.object (before.reverse ++ members)) stack) (Lexer.scan .between rest) := by
  induction members generalizing before with
  | nil => rw [List.append_nil]; rfl
  | cons member members ih =>
      obtain ⟨key, value⟩ := member
      have first := read_member (.nextKey before stack) before stack (.next before stack) key
        (keys (key, value) List.mem_cons_self) value (each (key, value) List.mem_cons_self) _
        (ends_members members rest)
      have later := ih (fun other member => keys other (List.mem_cons_of_mem _ member))
        (fun other member => each other (List.mem_cons_of_mem _ member)) ((key, value) :: before)
      have written : Json.renderMembers ((key, value) :: members) ++ rest = ',' ::
          ('"' :: key ++ '"' :: ':' :: (value.render ++ (Json.renderMembers members ++ rest))) := by
        simp [Json.renderMembers]
      rw [List.reverse_cons, List.append_assoc, List.singleton_append] at later
      rw [written, ← later]
      exact first

theorem reads_array (items : List Json) (each : ∀ item ∈ items, Reads item) :
    Reads (.array items) := by
  intro state stack rest opens ends
  cases items with
  | nil => exact read_opens state (.firstItem stack) stack opens .openArray rfl _
  | cons item items =>
      have first := each item List.mem_cons_self (.firstItem stack) _ _ (.first stack)
        (ends_items items rest)
      have later := read_items items
        (fun other member => each other (List.mem_cons_of_mem _ member)) [item] stack rest
      calc read state (Lexer.scan .between (Json.render (.array (item :: items)) ++ rest))
          = read (.firstItem stack)
              (Lexer.scan .between (item.render ++ (Json.renderItems items ++ rest))) := by
            rw [← List.append_assoc]
            exact read_opens state (.firstItem stack) stack opens .openArray rfl _
        _ = read (.afterItem [item] stack)
              (Lexer.scan .between (Json.renderItems items ++ rest)) := first
        _ = _ := later

theorem reads_object (members : List (List Char × Json))
    (keys : ∀ member ∈ members, Lexer.Inside member.1)
    (each : ∀ member ∈ members, Reads member.2) : Reads (.object members) := by
  intro state stack rest opens ends
  cases members with
  | nil => exact read_opens state (.firstKey stack) stack opens .openObject rfl _
  | cons member members =>
      obtain ⟨key, value⟩ := member
      have first := read_member (.firstKey stack) [] stack (.first stack) key
        (keys (key, value) List.mem_cons_self) value (each (key, value) List.mem_cons_self) _
        (ends_members members rest)
      have later := read_members members
        (fun other member => keys other (List.mem_cons_of_mem _ member))
        (fun other member => each other (List.mem_cons_of_mem _ member)) [(key, value)] stack rest
      have written : Json.render (.object ((key, value) :: members)) ++ rest = '\x7b' ::
          ('"' :: key ++ '"' :: ':' :: (value.render ++ (Json.renderMembers members ++ rest))) := by
        simp [Json.render]
      rw [written]
      refine (read_opens state (.firstKey stack) stack opens .openObject rfl _).trans ?_
      exact first.trans later

theorem reads_legible (json : Json) (legible : json.Legible) : Reads json := by
  induction legible with
  | null => exact reads_scalar .null fun rest _ => rfl
  | bool value =>
      refine reads_scalar (.bool value) fun rest _ => ?_
      cases value <;> rfl
  | number written form => exact reads_scalar _ (Lexer.scan_number written form)
  | string written inside =>
      refine reads_scalar (.string written) fun rest _ => ?_
      rw [Scalar.render, List.append_assoc]
      exact Lexer.scan_string written inside rest
  | array items each ih => exact reads_array items ih
  | object members keys values ih => exact reads_object members keys ih

/-- A legible tree is parsed from its text, with nothing left over. -/
theorem parse?_text (json : Json) (legible : json.Legible) :
    parse? (Lexer.tokens json.text.toList) = some (json, []) := by
  have whole := reads_legible json legible (.value []) [] [] (.value []) (by simp [Lexer.Ends])
  rw [List.append_nil] at whole
  rw [Json.text, String.toList_ofList]
  exact whole

end Parser

end CheckpointLedger
