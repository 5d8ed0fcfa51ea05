import AgentForge.System

/-! The model client that routes a request over several providers. A candidate that fails may
be followed by the next one, which answers the whole request again, but the tokens the failed
one has passed on by then are out. -/
namespace AgentForge

structure RouteCandidate where
  provider : String
  modelID : String

structure RouterConfig where
  defaultMode : String
  fallbackProviders : List String

/-- A client of one provider: what it passes to the callback while it streams, and how the call
ends. One that cannot stream only has the end. -/
inductive LLMClient (F : Type) where
  | streaming (chatStream : LLMRequest F → List String × Except String LLMResponse)
  | plain (chat : LLMRequest F → Except String LLMResponse)

structure RoutedLLMClient (F : Type) where
  cfg : RouterConfig
  primaryProvider : String
  clients : GoMap (LLMClient F)

section Route

variable {F : Type} (env : EngineEnv F)

/-! ## The candidates -/

def chooseModel (taskType mode : String) : String :=
  let taskType := GoText.toLower env.lower (GoText.trimSpace taskType)
  let mode := GoText.toLower env.lower (GoText.trimSpace mode)
  if mode = "quality-first" then
    if taskType = "coding" ∨ taskType = "analysis" then "gpt-4o" else "gpt-4o"
  else "gpt-4o-mini"

def normalizeProvider (provider : String) : String :=
  let p := GoText.toLower env.lower (GoText.trimSpace provider)
  if p = "" then "mock" else p

def LLMRequest.inferTaskType (req : LLMRequest F) : String :=
  if GoText.trimSpace req.taskType ≠ "" then GoText.trimSpace req.taskType
  else
    let content := (req.messages.reverse.find? (·.role = .user)).elim "" (·.content)
    let has := GoText.contains (GoText.toLower env.lower content)
    if has "code" || has "test" || has "refactor" || has "bug" then "coding"
    else if has "analy" || has "report" || has "sql" || has "metric" then "analysis"
    else "general"

/-- `estimateRequestCostUSD`, with `defaultRequestModelPricingUSDPer1K` for the rates. -/
def estimateRequestCostUSD [Float64 F] (mc : ModelConfig F) (modelID : String) : F :=
  let approxTokens : Int64 := if 0 < mc.maxTokens then mc.maxTokens + 256 else 256
  let model := GoText.toLower env.lower (GoText.trimSpace modelID)
  let rates := env.pricingOverrides ++ [("gpt-4o-mini", Float64.lit (35 / 100000)),
    ("gpt-4o", Float64.lit (5 / 1000)), ("gpt-4.1", Float64.lit (6 / 1000))]
  Float64.mul (Float64.div (Float64.ofInt approxTokens.toInt) (Float64.lit 1000))
    ((if model = "" then none else rates.lookup model).getD (Float64.lit (35 / 100000)))

/-- `dedupeRouteCandidates`, with the keys it has seen. -/
def dedupeRouteCandidates : List RouteCandidate → List String → List RouteCandidate
  | [], _ => []
  | c :: rest, seen =>
    let key := c.provider ++ "#" ++ c.modelID
    if key ∈ seen then dedupeRouteCandidates rest seen
    else c :: dedupeRouteCandidates rest (key :: seen)

/-- `ModelRouter.Resolve`. -/
def RouterConfig.resolve [Float64 F] (cfg : RouterConfig) (req : LLMRequest F)
    (primaryProvider : String) : List RouteCandidate :=
  let taskType := req.inferTaskType env
  let own := fun field => (req.modelConfig.map fun mc => GoText.trimSpace (field mc)).getD ""
  let mode := if own (·.policyMode) = "" then cfg.defaultMode else own (·.policyMode)
  let baseModel := if own (·.modelID) = "" then chooseModel env taskType mode else own (·.modelID)
  let provider := normalizeProvider env primaryProvider
  let tooDear := match req.modelConfig with
    | some mc => Float64.lt (Float64.lit 0) mc.costCapUSD &&
        Float64.lt mc.costCapUSD (estimateRequestCostUSD env mc baseModel)
    | none => false
  let primary : RouteCandidate := ⟨provider, if tooDear then "gpt-4o-mini" else baseModel⟩
  let models := (req.modelConfig.elim [] (·.fallbackModelIDs)).filterMap fun m =>
    if GoText.trimSpace m = "" then none else some ⟨provider, GoText.trimSpace m⟩
  let others := cfg.fallbackProviders.filterMap fun p =>
    if normalizeProvider env p = "" then none
    else some ⟨normalizeProvider env p, chooseModel env taskType mode⟩
  dedupeRouteCandidates (primary :: models ++ others) []

/-! ## The calls -/

def withModel [Float64 F] (req : LLMRequest F) (modelID : String) : LLMRequest F :=
  { req with modelConfig := some (match req.modelConfig with
      | some mc => { mc with modelID := modelID }
      | none => ⟨modelID, Float64.lit 0, 0, "", Float64.lit 0, []⟩) }

def shouldFallbackOnError (err : String) : Bool :=
  let has := GoText.contains (GoText.toLower env.lower err)
  if has "context canceled" || has "deadline exceeded" then false
  else if ["invalid", "bad request", "401", "403", "permission", "unauthorized"].any has then false
  else ["timeout", "temporary", "temporarily", "429", "500", "502", "503", "504", "unavailable",
    "connection reset", "refused", "eof", "rate limit"].any has

/-- A stream of any client: the content of one that cannot stream is passed on as a whole. -/
def LLMClient.chatStream (req : LLMRequest F) :
    LLMClient F → List String × Except String LLMResponse
  | .streaming chatStream => chatStream req
  | .plain chat =>
    match chat req with
    | .ok resp => (if resp.content = "" then [] else [resp.content], .ok resp)
    | .error err => ([], .error err)

variable [Float64 F] (c : RoutedLLMClient F) (req : LLMRequest F)

/-- The call of a candidate, if its provider has a client. -/
def RoutedLLMClient.attempt (cand : RouteCandidate) :
    Option (List String × Except String LLMResponse) :=
  (c.clients.lookup cand.provider).map (·.chatStream (withModel req cand.modelID))

/-- A response names the model and the provider of the candidate where it names none itself. -/
def RouteCandidate.name (cand : RouteCandidate) (resp : LLMResponse) : LLMResponse :=
  { resp with
    modelID := if resp.modelID = "" then cand.modelID else resp.modelID
    provider := if resp.provider = "" then cand.provider else resp.provider }

/-- The loop of `RoutedLLMClient.ChatStream`: the candidates it calls, all that went to
`onToken`, and the end. -/
def RoutedLLMClient.route : List RouteCandidate → Option String →
    List RouteCandidate × List String × Except String LLMResponse
  | [], lastErr =>
    ([], [], .error ("routing stream failed: " ++ lastErr.getD "no available routed providers"))
  | cand :: rest, lastErr =>
    match c.attempt req cand with
    | none => RoutedLLMClient.route rest lastErr
    | some (tokens, .ok resp) =>
      ([cand], tokens, .ok (cand.name resp))
    | some (tokens, .error err) =>
      if !shouldFallbackOnError env err || rest.isEmpty then
        ([cand], tokens, .error ("routing stream failed: " ++ err))
      else
        let later := RoutedLLMClient.route rest (some err)
        (cand :: later.1, tokens ++ later.2.1, later.2.2)

def RoutedLLMClient.chatStream : List String × Except String LLMResponse :=
  (c.route env req (c.cfg.resolve env req c.primaryProvider) none).2

/-- The candidates `ChatStream` calls. -/
def RoutedLLMClient.streamCalls : List RouteCandidate :=
  (c.route env req (c.cfg.resolve env req c.primaryProvider) none).1

/-! ## What was passed on -/

def RoutedLLMClient.answers (cand : RouteCandidate) : Bool :=
  match c.attempt req cand with
  | some (_, .ok _) => true
  | _ => false

/-- The text a candidate passes on. -/
def RoutedLLMClient.spoken (cand : RouteCandidate) : String :=
  String.join ((c.attempt req cand).elim [] (·.1))

variable {c req} {tokens : List String} {resp : LLMResponse}

/-- On success a client has passed on its content. -/
def RoutedLLMClient.Honest (c : RoutedLLMClient F) : Prop :=
  ∀ provider chatStream, c.clients.lookup provider = some (.streaming chatStream) →
    ∀ req tokens resp, chatStream req = (tokens, .ok resp) → String.join tokens = resp.content

private theorem RoutedLLMClient.Honest.attempt (honest : c.Honest)
    (ended : c.attempt req cand = some (tokens, .ok resp)) : String.join tokens = resp.content := by
  unfold RoutedLLMClient.attempt at ended
  obtain ⟨client, found, called⟩ := Option.map_eq_some_iff.mp ended
  cases client with
  | streaming chatStream => exact honest _ _ found _ _ _ called
  | plain chat =>
    simp only [LLMClient.chatStream] at called
    split at called
    · obtain ⟨rfl, same⟩ := Prod.mk.inj called
      cases same
      split <;> simp_all
    · simp at called

/-- What went out is what the candidates before the answer said, and the answer. -/
theorem RoutedLLMClient.route_tokens (honest : c.Honest)
    (ran : (c.route env req cands lastErr).2 = (tokens, .ok resp)) :
    String.join tokens =
      String.join ((cands.takeWhile fun cand => !c.answers req cand).map (c.spoken req)) ++
        resp.content := by
  induction cands generalizing lastErr tokens with
  | nil => simp [route] at ran
  | cons cand rest ih =>
    unfold route at ran
    split at ran
    · rename_i none
      simp [answers, spoken, none, ih ran]
    · rename_i said answer ended
      obtain ⟨rfl, same⟩ := Prod.mk.inj ran
      cases same
      simp [answers, ended, honest.attempt ended, RouteCandidate.name]
    · rename_i said err ended
      split at ran
      · simp at ran
      · obtain ⟨rfl, rest'⟩ := Prod.mk.inj ran
        simp [answers, spoken, ended, String.append_assoc, ih (Prod.ext rfl rest')]

/-- **Streamed tokens are the answer just if no failed candidate spoke.** When every client that
succeeds has passed on its content, a routed stream that succeeds has passed on the content of
its response just if each candidate tried before the one that answered passed on nothing. -/
theorem streamed_tokens_are_answer_iff (honest : c.Honest)
    (ran : c.chatStream env req = (tokens, .ok resp)) :
    String.join tokens = resp.content ↔
      ∀ cand ∈ (c.cfg.resolve env req c.primaryProvider).takeWhile fun cand => !c.answers req cand,
        c.spoken req cand = "" := by
  rw [c.route_tokens env honest ran, String.append_eq_right_iff]
  generalize (c.cfg.resolve env req c.primaryProvider).takeWhile _ = tried
  induction tried with
  | nil => simp
  | cons cand rest ih => simp [ih]

end Route

/-- A provider that breaks off after it said something, and one that answers. -/
def relay (said : List String) : RoutedLLMClient Rat where
  cfg := ⟨"latency-first", ["backup"]⟩
  primaryProvider := "openai"
  clients := ((∅ : GoMap (LLMClient Rat)).insert "backup" (.streaming fun _ => (["whole"], .ok
    ⟨"whole", [], none, "stop", "gpt-4o", ""⟩))).insert "openai"
      (.streaming fun _ => (said, .error "connection reset by peer"))

def relayRequest : LLMRequest Rat := ⟨[], none, [], "general"⟩

private theorem relay_honest (said : List String) : (relay said).Honest := by
  intro provider chatStream found req tokens resp called
  by_cases first : provider = "openai"
  · subst first
    cases (AList.lookup_insert _).symm.trans found
    cases called
  · have second := (AList.lookup_insert_ne first).symm.trans found
    by_cases last : provider = "backup"
    · subst last
      cases (AList.lookup_insert _).symm.trans second
      cases called
      rfl
    · cases (AList.lookup_insert_ne last).symm.trans second

theorem streamed_tokens_are_answer_silent_failure :
    ∃ resp, (relay []).chatStream plainEngine relayRequest = (["whole"], .ok resp) ∧
      String.join ["whole"] = resp.content := by
  have ran : (relay []).chatStream plainEngine relayRequest = (["whole"], .ok
    ⟨"whole", [], none, "stop", "gpt-4o", "backup"⟩) := rfl
  refine ⟨_, ran, (streamed_tokens_are_answer_iff plainEngine (relay_honest []) ran).mpr ?_⟩
  decide +kernel

/-- The first provider breaks off in its stream: its words stand before the answer. -/
theorem failed_candidate_heard : (relay ["par"]).Honest ∧
    ∃ resp, (relay ["par"]).chatStream plainEngine relayRequest = (["par", "whole"], .ok resp) ∧
      String.join ["par", "whole"] ≠ resp.content := by
  exact ⟨relay_honest _, ⟨"whole", [], none, "stop", "gpt-4o", "backup"⟩, rfl, by decide⟩

end AgentForge
