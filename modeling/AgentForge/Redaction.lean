import AgentForge.GoText

/-! Secrets in the JSON texts of events. Redaction walks a decoded value and overwrites what
stands under a sensitive key. Places in a value are named by paths, so that what it does at
every depth can be said of the places themselves. -/
namespace AgentForge

/-- What `json.Unmarshal` makes of a text it decodes into an `interface{}`. An object is a map,
listed in the order in which `range` visits it. -/
inductive JSONValue (F : Type) where
  | null
  | bool (value : Bool)
  | number (value : F)
  | string (value : String)
  | array (elements : List (JSONValue F))
  | object (members : List (String × JSONValue F))

def eventTextRedacted : String := "[REDACTED]"

/-- `isSensitiveKey`, for the mapping of single characters to lower case. -/
def isSensitiveKey (lower : Char → Char) (key : String) : Bool :=
  let k := (GoText.toLower lower (GoText.trimSpace key)).toList
  let k := k.filter (· ≠ '_')
  let k := k.filter (· ≠ '-')
  ["apikey", "accesstoken", "refreshtoken", "token", "secret", "password", "authorization",
    "authtoken", "clientsecret"].contains (String.ofList k)

section Redact

variable {F : Type} (lower : Char → Char)

mutual

def redactJSONValue : JSONValue F → JSONValue F
  | .object members => .object (redactMembers members)
  | .array elements => .array (redactElements elements)
  | v => v

/-- The loop of `redactJSONValue` over an object. -/
def redactMembers : List (String × JSONValue F) → List (String × JSONValue F)
  | [] => []
  | (key, value) :: rest =>
    (key, if isSensitiveKey lower key then .string eventTextRedacted else redactJSONValue value) ::
      redactMembers rest

/-- The loop of `redactJSONValue` over an array. -/
def redactElements : List (JSONValue F) → List (JSONValue F)
  | [] => []
  | value :: rest => redactJSONValue value :: redactElements rest

end

private theorem redactElements_eq_map (elements : List (JSONValue F)) :
    redactElements lower elements = elements.map (redactJSONValue lower) := by
  induction elements with
  | nil => rfl
  | cons value rest ih => simp [redactElements, ih]

private theorem redactMembers_eq_map (members : List (String × JSONValue F)) :
    redactMembers lower members = members.map fun member =>
      (member.1, if isSensitiveKey lower member.1 then .string eventTextRedacted
        else redactJSONValue lower member.2) := by
  induction members with
  | nil => rfl
  | cons member rest ih => simp [redactMembers, ih]

mutual

private theorem redact_redact : ∀ v : JSONValue F,
    redactJSONValue lower (redactJSONValue lower v) = redactJSONValue lower v
  | .null | .bool _ | .number _ | .string _ => by simp [redactJSONValue]
  | .array elements => by simp [redactJSONValue, redactElements_redact elements]
  | .object members => by simp [redactJSONValue, redactMembers_redact members]

theorem redactMembers_redact : ∀ members : List (String × JSONValue F),
    redactMembers lower (redactMembers lower members) = redactMembers lower members
  | [] => rfl
  | (key, value) :: rest => by
    by_cases sensitive : isSensitiveKey lower key
    · simp [redactMembers, sensitive, redactMembers_redact rest]
    · simp [redactMembers, sensitive, redactMembers_redact rest, redact_redact value]

theorem redactElements_redact : ∀ elements : List (JSONValue F),
    redactElements lower (redactElements lower elements) = redactElements lower elements
  | [] => rfl
  | value :: rest => by
    simp [redactElements, redactElements_redact rest, redact_redact value]

end

/-! ## Places in a value -/

/-- One step of a path into a value. -/
inductive Edge where
  | member (key : String)
  | element (index : Nat)

/-- At the end of the path stands this value. -/
def JSONValue.At : List Edge → JSONValue F → JSONValue F → Prop
  | [], v, x => x = v
  | .member key :: path, .object members, x => ∃ value, (key, value) ∈ members ∧ At path value x
  | .element index :: path, .array elements, x =>
    ∃ value, elements[index]? = some value ∧ At path value x
  | _ :: _, _, _ => False

/-- The same scalar, or an object or array of the same structure. -/
def JSONValue.Alike : JSONValue F → JSONValue F → Prop
  | .object members, .object members' => members'.map Prod.fst = members.map Prod.fst
  | .array elements, .array elements' => elements'.length = elements.length
  | .object _, _ | .array _, _ => False
  | x, y => y = x

/-- No key on the path is sensitive. -/
def Clear (path : List Edge) : Prop :=
  ∀ key, .member key ∈ path → isSensitiveKey lower key = false

private theorem alike_redact (v : JSONValue F) : v.Alike (redactJSONValue lower v) := by
  cases v <;> simp [redactJSONValue, JSONValue.Alike, redactElements_eq_map,
    redactMembers_eq_map, Function.comp_def]

open JSONValue

private theorem at_cons : At (edge :: path) v x ↔ ∃ value, At [edge] v value ∧ At path value x := by
  cases edge <;> cases v <;> simp [At]

/-- The member of a redacted value is the marker or the redacted member. -/
theorem at_member_redact :
    At (.member key :: path) (redactJSONValue lower v) x' ↔ ∃ value, At [.member key] v value ∧
      At path (if isSensitiveKey lower key then .string eventTextRedacted
        else redactJSONValue lower value) x' := by
  cases v <;> simp [At, redactJSONValue, redactMembers_eq_map]

private theorem at_element_redact :
    At (.element index :: path) (redactJSONValue lower v) x' ↔
      ∃ value, At [.element index] v value ∧ At path (redactJSONValue lower value) x' := by
  cases v <;> simp [At, redactJSONValue, redactElements_eq_map]

/-- Along a path without a sensitive key, the places of the result are those of the value. -/
theorem at_redact (clear : Clear lower path) :
    At path (redactJSONValue lower v) x' ↔ ∃ x, At path v x ∧ x' = redactJSONValue lower x := by
  induction path generalizing v with
  | nil => simp [At]
  | cons edge path ih =>
    have below : Clear lower path := fun key on => clear key (.tail _ on)
    have step : At (edge :: path) (redactJSONValue lower v) x' ↔
        ∃ value, At [edge] v value ∧ At path (redactJSONValue lower value) x' := by
      cases edge with
      | member key => simp [at_member_redact, clear key (.head _)]
      | element index => exact at_element_redact lower
    rw [step]
    constructor
    · rintro ⟨value, here, there⟩
      obtain ⟨x, found, rfl⟩ := (ih below).mp there
      exact ⟨x, at_cons.mpr ⟨value, here, found⟩, rfl⟩
    · rintro ⟨x, found, rfl⟩
      obtain ⟨value, here, there⟩ := at_cons.mp found
      exact ⟨value, here, (ih below).mpr ⟨x, there, rfl⟩⟩

/-- At whatever depth, a sensitive member of the result is the marker. -/
theorem sensitive_at_redact (sensitive : isSensitiveKey lower key = true)
    (found : At (path ++ [.member key]) (redactJSONValue lower v) x) :
    x = .string eventTextRedacted := by
  induction path generalizing v with
  | nil =>
    obtain ⟨value, -, marked⟩ := (at_member_redact lower).mp found
    rw [if_pos sensitive] at marked
    exact marked
  | cons edge path ih =>
    cases edge with
    | member above =>
      obtain ⟨value, -, below⟩ := (at_member_redact lower).mp found
      split at below
      -- The marker is its own redaction, so nothing is found below it either.
      · exact ih (v := .string eventTextRedacted) below
      · exact ih below
    | element index =>
      obtain ⟨value, -, below⟩ := (at_element_redact lower).mp found
      exact ih below

/-- **Redaction is complete and minimal.** Whatever stood under a sensitive key, at any depth,
is the marker in the result. Along every other path the result has what the value had, the
scalars as they were and objects and arrays with the same keys and lengths. Redacting again
changes nothing. -/
theorem redaction_complete_and_minimal (v : JSONValue F) :
    (∀ path key x, isSensitiveKey lower key = true →
      (redactJSONValue lower v).At (path ++ [.member key]) x → x = .string eventTextRedacted) ∧
    (∀ path x', Clear lower path → ((redactJSONValue lower v).At path x' ↔
      ∃ x, v.At path x ∧ x' = redactJSONValue lower x ∧ x.Alike x')) ∧
    redactJSONValue lower (redactJSONValue lower v) = redactJSONValue lower v := by
  refine ⟨fun _ _ _ => sensitive_at_redact lower, fun path x' clear => ?_, redact_redact lower v⟩
  rw [at_redact lower clear]
  constructor
  · rintro ⟨x, found, rfl⟩
    exact ⟨x, found, rfl, alike_redact lower x⟩
  · rintro ⟨x, found, same, -⟩
    exact ⟨x, found, same⟩

end Redact

end AgentForge
