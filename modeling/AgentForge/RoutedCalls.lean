import AgentForge.Router

/-! `Chat` and `ChatStream` of the routed client each have a loop of their own over the candidates
of the plan. Both come to the first success that only failures which allow a fallback precede. -/
namespace AgentForge

section Loops

variable {F : Type} [Float64 F] (env : EngineEnv F) (c : RoutedLLMClient F) (req : LLMRequest F)
  (chatOf : String → LLMRequest F → Except String LLMResponse)

/-- The loop of `RoutedLLMClient.Chat`: the candidates it calls, and the end. `chatOf` is `Chat`
of the client of a provider. -/
def RoutedLLMClient.chatLoop :
    List RouteCandidate → Option String → List RouteCandidate × Except String LLMResponse
  | [], lastErr => ([], .error ("routing failed: " ++ lastErr.getD "no available routed providers"))
  | cand :: rest, lastErr =>
    if (c.clients.lookup cand.provider).isNone then RoutedLLMClient.chatLoop rest lastErr
    else
      match chatOf cand.provider (withModel req cand.modelID) with
      | .ok resp => ([cand], .ok (cand.name resp))
      | .error err =>
        if !shouldFallbackOnError env err || rest.isEmpty then
          ([cand], .error ("routing failed: " ++ err))
        else
          let later := RoutedLLMClient.chatLoop rest (some err)
          (cand :: later.1, later.2)

def RoutedLLMClient.chat : List RouteCandidate × Except String LLMResponse :=
  c.chatLoop env req chatOf (c.cfg.resolve env req c.primaryProvider) none

/-- Streaming and not streaming, the clients give the same result. -/
def RoutedLLMClient.Alike : Prop :=
  ∀ provider client, c.clients.lookup provider = some client →
    ∀ req, chatOf provider req = (client.chatStream req).2

/-! ## The first success -/

def allowsFallback : Except String LLMResponse → Bool
  | .ok _ => false
  | .error err => shouldFallbackOnError env err

/-- The candidates with a client, and what their calls end with. -/
def RoutedLLMClient.ends (cands : List RouteCandidate) :
    List (RouteCandidate × Except String LLMResponse) :=
  cands.filterMap fun cand => (c.attempt req cand).map fun call => (cand, call.2.map cand.name)

/-- The first call that is a success or a failure without a fallback decides; where there is
none, the last error does. -/
def firstSuccess (calls : List (RouteCandidate × Except String LLMResponse)) (otherwise : String) :
    List RouteCandidate × Except String LLMResponse :=
  let failed := calls.takeWhile fun call => allowsFallback env call.2
  match calls.dropWhile fun call => allowsFallback env call.2 with
  | (cand, result) :: _ => (failed.map Prod.fst ++ [cand], result)
  | [] => (failed.map Prod.fst, (failed.getLast?.map Prod.snd).getD (.error otherwise))

omit [Float64 F] in
theorem firstSuccess_failed (allowed : shouldFallbackOnError env err = true)
    (calls : List (RouteCandidate × Except String LLMResponse)) :
    firstSuccess env ((cand, .error err) :: calls) otherwise =
      (cand :: (firstSuccess env calls err).1, (firstSuccess env calls err).2) := by
  unfold firstSuccess
  simp only [List.takeWhile_cons, List.dropWhile_cons, allowsFallback, allowed, if_true]
  generalize calls.takeWhile _ = failed
  cases calls.dropWhile _ with
  | cons next others => rfl
  | nil => cases last : failed.getLast? <;> simp [List.getLast?_cons, last]

omit [Float64 F] in
theorem firstSuccess_last (stops : allowsFallback env result = false)
    (calls : List (RouteCandidate × Except String LLMResponse)) :
    firstSuccess env ((cand, result) :: calls) otherwise = ([cand], result) := by
  simp [firstSuccess, stops]

/-- The error of a loop in its wrapping. -/
def wrapped (text : String) (outcome : List RouteCandidate × Except String LLMResponse) :
    List RouteCandidate × Except String LLMResponse :=
  (outcome.1, outcome.2.mapError (text ++ ·))

variable {c req chatOf}

/-- One round of either loop. -/
theorem RoutedLLMClient.wrapped_ends_cons (text otherwise : String) (cand : RouteCandidate)
    (rest : List RouteCandidate) :
    wrapped text (firstSuccess env (c.ends req (cand :: rest)) otherwise) =
      match c.attempt req cand with
      | none => wrapped text (firstSuccess env (c.ends req rest) otherwise)
      | some (_, .ok resp) => ([cand], .ok (cand.name resp))
      | some (_, .error err) =>
        if !shouldFallbackOnError env err || rest.isEmpty then ([cand], .error (text ++ err))
        else
          let later := wrapped text (firstSuccess env (c.ends req rest) err)
          (cand :: later.1, later.2) := by
  rw [ends, List.filterMap_cons]
  rcases c.attempt req cand with _ | ⟨tokens, err | resp⟩
  · rfl
  · dsimp only [Option.map_some, Except.map]
    cases allowed : shouldFallbackOnError env err with
    | false =>
      rw [firstSuccess_last env (show allowsFallback env (.error err) = false from allowed)]
      rfl
    | true =>
      rw [firstSuccess_failed env allowed]
      cases rest <;> rfl
  · dsimp only [Option.map_some, Except.map]
    rw [firstSuccess_last env rfl]
    rfl

theorem RoutedLLMClient.chatLoop_eq (alike : c.Alike chatOf) (cands : List RouteCandidate)
    (lastErr : Option String) :
    c.chatLoop env req chatOf cands lastErr = wrapped "routing failed: "
      (firstSuccess env (c.ends req cands) (lastErr.getD "no available routed providers")) := by
  induction cands generalizing lastErr with
  | nil => rfl
  | cons cand rest ih =>
    rw [chatLoop, wrapped_ends_cons, attempt]
    simp only [ih]
    cases found : c.clients.lookup cand.provider with
    | none => rfl
    | some client =>
      rw [alike _ _ found, Option.map_some]
      rcases client.chatStream (withModel req cand.modelID) with ⟨tokens, err | resp⟩ <;> rfl

theorem RoutedLLMClient.route_eq (cands : List RouteCandidate) (lastErr : Option String) :
    ((c.route env req cands lastErr).1, (c.route env req cands lastErr).2.2) =
      wrapped "routing stream failed: "
        (firstSuccess env (c.ends req cands) (lastErr.getD "no available routed providers")) := by
  induction cands generalizing lastErr with
  | nil => rfl
  | cons cand rest ih =>
    rw [route, wrapped_ends_cons, ← ih]
    rcases c.attempt req cand with _ | ⟨tokens, err | resp⟩
    · rfl
    · have later := ih (some err)
      rw [Option.getD_some] at later
      dsimp only
      rw [← later]
      split <;> rfl
    · rfl

/-- **Chat and ChatStream route alike.** Where the clients give the same result streaming and not,
both loops call the same candidates in the same order: those with a client, up to the first that
succeeds or fails without allowing a fallback. Both return its response, or wrap its error, or the
last error where every call allowed a fallback. -/
theorem chat_and_stream_route_alike (env : EngineEnv F) (c : RoutedLLMClient F)
    (req : LLMRequest F) (chatOf : String → LLMRequest F → Except String LLMResponse)
    (alike : c.Alike chatOf) :
    let cands := c.cfg.resolve env req c.primaryProvider
    let outcome := firstSuccess env (c.ends req cands) "no available routed providers"
    c.chat env req chatOf = wrapped "routing failed: " outcome ∧
      c.streamCalls env req = outcome.1 ∧
      (c.chatStream env req).2 = (wrapped "routing stream failed: " outcome).2 := by
  obtain ⟨calls, result⟩ := Prod.mk.inj
    (RoutedLLMClient.route_eq env (c.cfg.resolve env req c.primaryProvider) none)
  exact ⟨RoutedLLMClient.chatLoop_eq env alike _ none, calls, result⟩

end Loops

/-- The clients of `relay`, called without streaming. -/
def relayChat (provider : String) (req : LLMRequest Rat) : Except String LLMResponse :=
  ((relay ["par"]).clients.lookup provider).elim (.error "") fun client => (client.chatStream req).2

theorem chat_and_stream_route_alike_relay :
    ((relay ["par"]).chat plainEngine relayRequest relayChat).1 =
      (relay ["par"]).streamCalls plainEngine relayRequest := by
  have alike : (relay ["par"]).Alike relayChat := by
    intro provider client found req
    rw [relayChat, found, Option.elim_some]
  have both := chat_and_stream_route_alike plainEngine (relay ["par"]) relayRequest relayChat alike
  exact (congrArg Prod.fst both.1).trans both.2.1.symm

end AgentForge
