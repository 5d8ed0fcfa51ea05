import AgentForge.Model

/-! `internal/config/runtime.go` and `pkg/api/middleware.go`: which backends the API runs
on, and whose word it takes for the tenant and the user of a request. Both are read off
environment variables, each in its own package. -/
namespace AgentForge

open GoText

/-! ## The runtime mode -/

/-- `RuntimeMode`, a string of which two values have a meaning. -/
abbrev RuntimeMode := String

def runtimeModeLocal : RuntimeMode := "local"

def runtimeModeAWS : RuntimeMode := "aws"

/-- The backends `initRuntime` sets up. -/
inductive Backends where
  | memory
  | aws
  deriving DecidableEq

/-- The environment variables; one that is unset reads as the empty string. -/
abbrev Getenv := String → String

section Modes

variable (tables : CaseTables)

def parseRuntimeMode (raw : String) : RuntimeMode :=
  let mode := toLower tables.lower (trimSpace raw)
  if mode ∈ ["", "local", "dev", "development"] then runtimeModeLocal
  else if mode ∈ ["aws", "prod", "production"] then runtimeModeAWS
  else mode

def runtimeModeFromEnv (getenv : Getenv) : RuntimeMode :=
  parseRuntimeMode tables (getenv "AGENTFORGE_RUNTIME")

/-- The choice `initRuntime` makes. -/
def backendsFor (mode : RuntimeMode) : Backends :=
  if mode ≠ runtimeModeAWS then .memory else .aws

/-! ## The identity of a request -/

inductive AuthMode where
  | header
  | trusted
  deriving DecidableEq

def effectiveAuthMode (getenv : Getenv) : AuthMode :=
  let mode := toLower tables.lower (trimSpace (getenv "AGENTFORGE_AUTH_MODE"))
  if mode = "header" then .header
  else if mode ∈ ["trusted", "trusted_claims", "claims"] then .trusted
  else if tables.equalFold (trimSpace (getenv "AGENTFORGE_RUNTIME")) "aws" then .trusted
  else .header

/-- The headers of a request; one that is missing reads as the empty string. -/
abbrev Headers := String → String

/-- `TenantInfo`. -/
structure TenantInfo where
  tenantID : String
  userID : String
  requestID : String
  deriving DecidableEq

def extractIdentityFromRequest (header : Headers) : AuthMode → String × String
  | .trusted => (trimSpace (header "X-Authenticated-Tenant-Id"),
      trimSpace (header "X-Authenticated-User-Id"))
  | .header => (trimSpace (header "X-Tenant-Id"), trimSpace (header "X-User-Id"))

/-- A response the middleware gives itself. -/
structure Refusal where
  status : Nat
  body : String
  deriving DecidableEq

/-- The refusal of a request without an identity; `http.Error` ends the body with a newline. -/
def missingIdentity (kind requestID : String) : Refusal where
  status := 401
  body := "\x7b\"error\":\"missing authenticated " ++ kind ++ " identity\",\"request_id\":\"" ++
    requestID ++ "\"\x7d\n"

/-- `AuthMiddleware`: the identity the next handler is called with, or the refusal. -/
def authMiddleware (getenv : Getenv) (header : Headers) (random : Vector UInt8 12) :
    Except Refusal TenantInfo :=
  let authMode := effectiveAuthMode tables getenv
  let requestID := if header "X-Request-Id" = "" then newID "req_" random
    else header "X-Request-Id"
  let (tenantID, userID) := extractIdentityFromRequest header authMode
  if tenantID = "" then .error (missingIdentity "tenant" requestID)
  else if userID = "" then .error (missingIdentity "user" requestID)
  else .ok ⟨tenantID, userID, requestID⟩

end Modes

/-! ## The default of the one follows the other -/

section Defaults

variable {tables : CaseTables} {getenv : Getenv}

/-- The runtime mode as both packages read it. -/
def normalizedRuntime (tables : CaseTables) (getenv : Getenv) : String :=
  toLower tables.lower (trimSpace (getenv "AGENTFORGE_RUNTIME"))

/-- `AGENTFORGE_AUTH_MODE` is unset, or it names no mode. -/
def AuthModeUnset (tables : CaseTables) (getenv : Getenv) : Prop :=
  toLower tables.lower (trimSpace (getenv "AGENTFORGE_AUTH_MODE")) ∉
    ["header", "trusted", "trusted_claims", "claims"]

/-- Whom a request is taken to come from does not depend on the headers any client can
set. -/
def IgnoresClientHeaders (tables : CaseTables) (getenv : Getenv) : Prop :=
  ∀ (header header' : Headers) (random : Vector UInt8 12),
    (∀ name, name ≠ "X-Tenant-Id" → name ≠ "X-User-Id" → header' name = header name) →
      authMiddleware tables getenv header' random = authMiddleware tables getenv header random

/-- The spellings of the runtime mode that select the backends of AWS. -/
theorem backendsFor_aws_iff : backendsFor (runtimeModeFromEnv tables getenv) = .aws ↔
    normalizedRuntime tables getenv ∈ ["aws", "prod", "production"] := by
  have apart : ∀ mode ∈ ["aws", "prod", "production"],
      mode ∉ ["", "local", "dev", "development"] := by decide
  unfold backendsFor runtimeModeFromEnv parseRuntimeMode normalizedRuntime
  generalize toLower tables.lower (trimSpace (getenv "AGENTFORGE_RUNTIME")) = mode
  dsimp only
  by_cases aws : mode ∈ ["aws", "prod", "production"]
  · rw [if_neg (apart mode aws), if_pos aws]
    exact iff_of_true rfl aws
  · refine iff_of_false ?_ aws
    by_cases isLocal : mode ∈ ["", "local", "dev", "development"]
    · rw [if_pos isLocal]
      decide
    · have other : mode ≠ runtimeModeAWS := by
        rintro rfl
        exact aws (by decide)
      rw [if_neg isLocal, if_neg aws, if_pos other]
      decide

/-- Without a mode of its own, authentication goes by the runtime mode. -/
theorem effectiveAuthMode_trusted_iff (unset : AuthModeUnset tables getenv) :
    effectiveAuthMode tables getenv = .trusted ↔
      tables.equalFold (trimSpace (getenv "AGENTFORGE_RUNTIME")) "aws" = true := by
  unfold AuthModeUnset at unset
  unfold effectiveAuthMode
  generalize toLower tables.lower (trimSpace (getenv "AGENTFORGE_AUTH_MODE")) = mode at unset ⊢
  obtain ⟨notHeader, notTrusted⟩ : mode ≠ "header" ∧
      mode ∉ ["trusted", "trusted_claims", "claims"] := by simpa using unset
  dsimp only
  rw [if_neg notHeader, if_neg notTrusted]
  split
  · rename_i folds
    exact iff_of_true rfl folds
  · rename_i differs
    exact iff_of_false nofun differs

/-- Of the spellings that select AWS, `EqualFold` knows one. -/
theorem equalFold_aws_iff (aws : normalizedRuntime tables getenv ∈ ["aws", "prod", "production"]) :
    tables.equalFold (trimSpace (getenv "AGENTFORGE_RUNTIME")) "aws" = true ↔
      normalizedRuntime tables getenv ∉ ["prod", "production"] := by
  have long : ∀ mode ∈ ["prod", "production"], mode.toList.length ≠ "aws".toList.length := by decide
  constructor
  · intro folds member
    apply long _ member
    rw [normalizedRuntime, toLower_length]
    exact CaseTables.length_of_equalFold folds
  · intro other
    have same : normalizedRuntime tables getenv = "aws" :=
      (List.mem_cons.mp aws).resolve_right other
    exact CaseTables.equalFold_of_toLower same (by simp)

/-- The headers of a request that gives itself a tenant and a user. -/
def selfStyled : Headers := fun name =>
  if name = "X-Tenant-Id" ∨ name = "X-User-Id" then "b" else ""

/-- Only the trusted mode takes no notice of the headers any client can set. -/
theorem ignoresClientHeaders_iff :
    IgnoresClientHeaders tables getenv ↔ effectiveAuthMode tables getenv = .trusted := by
  constructor
  · intro ignores
    cases mode : effectiveAuthMode tables getenv with
    | trusted => rfl
    | header =>
      have same := ignores selfStyled (fun _ => "") (Vector.replicate 12 0) fun name h h' => by
        rw [selfStyled, if_neg (by simp [h, h'])]
      have named : authMiddleware tables getenv selfStyled (Vector.replicate 12 0) =
          .ok ⟨"b", "b", newID "req_" (Vector.replicate 12 0)⟩ := by
        rw [authMiddleware, mode]
        rfl
      have refused : authMiddleware tables getenv (fun _ => "") (Vector.replicate 12 0) =
          .error (missingIdentity "tenant" (newID "req_" (Vector.replicate 12 0))) := by
        rw [authMiddleware, mode]
        rfl
      rw [named, refused] at same
      cases same
  · intro trusted header header' random agree
    unfold authMiddleware
    simp only [trusted, extractIdentityFromRequest]
    rw [agree "X-Request-Id" (by decide) (by decide),
      agree "X-Authenticated-Tenant-Id" (by decide) (by decide),
      agree "X-Authenticated-User-Id" (by decide) (by decide)]

/-- **The default authentication mode.** On the backends of AWS, with no authentication
mode set, the mode is the trusted one, and so no request gets its tenant or user from a
header its client can set, if and only if the runtime is not spelt `prod` or
`production`. -/
theorem default_auth_follows_runtime_iff
    (aws : backendsFor (runtimeModeFromEnv tables getenv) = .aws)
    (unset : AuthModeUnset tables getenv) :
    (effectiveAuthMode tables getenv = .trusted ∧ IgnoresClientHeaders tables getenv) ↔
      normalizedRuntime tables getenv ∉ ["prod", "production"] := by
  rw [ignoresClientHeaders_iff, and_self, effectiveAuthMode_trusted_iff unset,
    equalFold_aws_iff (backendsFor_aws_iff.mp aws)]

end Defaults

/-! Letter case as far as it concerns ASCII. -/

/-- `unicode.ToLower` on the characters that go to an ASCII one. -/
def asciiLower (c : Char) : Char :=
  if c = '\u0130' then 'i' else if c = '\u212a' then 'k' else c.toLower

private theorem asciiLower_of_ascii (c : Char) (ascii : c.toNat < 128) :
    asciiLower c = c.toLower := by
  have dotted : c ≠ '\u0130' := by rintro rfl; revert ascii; decide
  have kelvin : c ≠ '\u212a' := by rintro rfl; revert ascii; decide
  rw [asciiLower, if_neg dotted, if_neg kelvin]

private theorem ascii_of_asciiLower (c : Char) (ascii : (asciiLower c).toNat < 128) :
    c.toNat < 128 ∨ c = '\u0130' ∨ c = '\u212a' := by
  by_cases dotted : c = '\u0130'
  · exact .inr (.inl dotted)
  by_cases kelvin : c = '\u212a'
  · exact .inr (.inr kelvin)
  by_cases below : c.toNat ≤ 90
  · exact .inl (by omega)
  · have capital : c.val ≤ 'Z'.val → c.toNat ≤ 90 := UInt32.le_iff_toNat_le.mp
    have same : c.toLower = c := dif_neg fun range => below (capital range.2)
    rw [asciiLower, if_neg dotted, if_neg kelvin, same] at ascii
    exact .inl ascii

def asciiCase : CaseTables where
  lower := asciiLower
  sameFold _ _ := false
  lower_ascii := asciiLower_of_ascii
  lower_dotted := by decide
  lower_kelvin := by decide
  ascii_of_lower := ascii_of_asciiLower

/-- An environment in which the runtime is all that is set. -/
def runtimeOnly (runtime : String) : Getenv := fun name =>
  if name = "AGENTFORGE_RUNTIME" then runtime else ""

theorem default_auth_follows_runtime_aws :
    backendsFor (runtimeModeFromEnv asciiCase (runtimeOnly " AWS ")) = .aws ∧
      effectiveAuthMode asciiCase (runtimeOnly " AWS ") = .trusted ∧
      IgnoresClientHeaders asciiCase (runtimeOnly " AWS ") := by
  have aws : backendsFor (runtimeModeFromEnv asciiCase (runtimeOnly " AWS ")) = .aws := by decide
  have unset : AuthModeUnset asciiCase (runtimeOnly " AWS ") := by
    unfold AuthModeUnset
    decide
  have other : normalizedRuntime asciiCase (runtimeOnly " AWS ") ∉ ["prod", "production"] := by
    decide
  exact ⟨aws, (default_auth_follows_runtime_iff aws unset).mpr other⟩

/-- `prod` selects AWS, and a request is whoever it says it is. -/
theorem prod_runtime_trusts_clients :
    backendsFor (runtimeModeFromEnv asciiCase (runtimeOnly "prod")) = .aws ∧
      AuthModeUnset asciiCase (runtimeOnly "prod") ∧
      effectiveAuthMode asciiCase (runtimeOnly "prod") = .header ∧
      authMiddleware asciiCase (runtimeOnly "prod") selfStyled (Vector.replicate 12 0) =
        .ok ⟨"b", "b", "req_000000000000000000000000"⟩ := by
  refine ⟨by decide, ?_, by decide, by decide⟩
  unfold AuthModeUnset
  decide

end AgentForge
