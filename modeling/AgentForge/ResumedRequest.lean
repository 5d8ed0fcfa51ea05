import AgentForge.ToolProtocol

/-! The first request of a resumed run beside the one its parent made. The memory a step
is saved with is what the next request is made from, unless the response was cut off: the
message that asks the model to go on is written behind the checkpoint, and a resumed run
does not know of it. -/
namespace AgentForge

section Still

variable {F : Type} {exchanges : List (Prog.Exchange (EngineCall F) EngineCall.Ans)}

/-- No request is among these calls. -/
def NoRequest (exchanges : List (Prog.Exchange (EngineCall F) EngineCall.Ans)) : Prop :=
  ∀ exchange ∈ exchanges, ∀ request, exchange.1 ≠ .chat request

/-! ## Between two requests -/

/-- Between requests the memory only grows, and whether the response was cut off is known. -/
theorem Conversation.moves_between (c : Conversation) (env : EngineEnv F) (run : Run F)
    (answer : call.Ans) (other : ∀ request, call ≠ .chat request) :
    (∃ more, ((conversing env run).moves c call answer).messages = c.messages ++ more) ∧
      ((conversing env run).moves c call answer).truncated = c.truncated := by
  cases call with
  | chat request => exact absurd rfl (other request)
  | executeTool name args =>
    change (∃ more, (c.result env.quote answer).messages = c.messages ++ more) ∧
      (c.result env.quote answer).truncated = c.truncated
    unfold Conversation.result
    split
    · exact ⟨⟨[], (List.append_nil _).symm⟩, rfl⟩
    · split
      · exact ⟨⟨[], (List.append_nil _).symm⟩, rfl⟩
      · exact ⟨⟨_, rfl⟩, rfl⟩
  | _ => exact ⟨⟨[], (List.append_nil _).symm⟩, rfl⟩

private theorem Conversation.after_between (c : Conversation) (env : EngineEnv F) (run : Run F)
    (between : NoRequest exchanges) :
    (∃ more, ((conversing env run).after c exchanges).messages = c.messages ++ more) ∧
      ((conversing env run).after c exchanges).truncated = c.truncated := by
  induction exchanges generalizing c with
  | nil => exact ⟨⟨[], (List.append_nil _).symm⟩, rfl⟩
  | cons exchange rest ih =>
    obtain ⟨first, others⟩ := List.forall_mem_cons.mp between
    obtain ⟨⟨more, grown⟩, same⟩ := c.moves_between env run exchange.2 first
    obtain ⟨⟨more', grown'⟩, same'⟩ := ih ((conversing env run).moves c exchange.1 exchange.2) others
    refine ⟨⟨more ++ more', ?_⟩, same'.trans same⟩
    rw [← List.append_assoc, ← grown]
    exact grown'

/-- Once every tool has answered, nothing changes before the next request. -/
theorem Conversation.after_still (follows : (conversing env run).Ensures post p c)
    (trace : p.Trace exchanges q) (done : c.pending = []) (between : NoRequest exchanges) :
    (conversing env run).after c exchanges = c := by
  refine follows.invariant (J := fun c' => c' = c)
    (Q := fun _ call => ∀ request, call ≠ .chat request) trace rfl ?_ ?_
  · rintro _ call answer rfl allowed other
    cases call with
    | chat request => exact absurd rfl (other request)
    | executeTool name args =>
      obtain ⟨tc, rest, due, -⟩ := allowed
      rw [done] at due
      cases due
    | _ => rfl
  · rintro before call answer rest rfl request rfl
    exact between ⟨.chat request, answer⟩ (by simp) request rfl

private theorem trim_getLast? (nonempty : messages ≠ []) :
    (trimMemoryMessages messages maxEngineMemoryMessages).getLast? = messages.getLast? := by
  by_cases long : maxEngineMemoryMessages < messages.length
  · have head := headKept_le messages
    have inside : windowStart messages < messages.length := by
      unfold windowStart
      unfold maxEngineMemoryMessages at long ⊢
      omega
    rw [trim_long long, List.getLast?_append, List.getLast?_drop, if_neg (by omega)]
    cases last : messages.getLast? with
    | none => exact absurd (List.getLast?_eq_none_iff.mp last) nonempty
    | some msg => rfl
  · rw [trim_short (not_lt.mp long)]

end Still

/-! ## The loop of an execution -/

section Loop

variable {F : Type} {env : EngineEnv F}

private theorem noRequest_of_uses {p q : EngineProg F α} (uses : p.Uses allowed)
    (never : ∀ request, ¬ allowed (.chat request)) (trace : p.Trace exchanges q) :
    NoRequest exchanges := by
  intro exchange member request same
  have used := uses.trace trace exchange member
  rw [same] at used
  exact never request used

private theorem NoRequest.append (first : NoRequest before) (second : NoRequest after) :
    NoRequest (before ++ after) :=
  fun exchange member => (List.mem_append.mp member).elim (first exchange) (second exchange)

/-- What is made of the bytes of a memory. -/
def restoredMessages (env : EngineEnv F) (ref : ArtifactRef) :
    Except String Bytes → Except EngineError (List MemoryMessage)
  | .error message => .error (.restoreMemory (.get message))
  | .ok raw =>
    match checkIntegrity env.sha256 ref raw with
    | .error e => .error (.restoreMemory e)
    | .ok () =>
      match env.decodeMemory raw with
      | none => .error (.restoreMemory (.decode "memory: unmarshal"))
      | some mem => .ok mem.messages

private theorem restoreMemory_eq (env : EngineEnv F) (ref : ArtifactRef) :
    restoreMemory env (some ref) =
      .call (.artifactGet ref.s3Key) fun answer => .ret (restoredMessages env ref answer) := by
  unfold restoreMemory loadMemory loadSnapshot restoredMessages
  refine congrArg (Prog.call (EngineCall.artifactGet ref.s3Key)) (funext fun answer => ?_)
  cases answer with
  | error message => rfl
  | ok raw =>
    dsimp only [Prog.bind, bind]
    cases checkIntegrity env.sha256 ref raw with
    | error e => rfl
    | ok _ =>
      dsimp only [Prog.bind, bind, pure]
      cases env.decodeMemory raw <;> rfl

/-- Once the memory was read, what is restored is decided. -/
theorem restoreCheckpoint_read (env : EngineEnv F) (memory : ArtifactRef)
    (workspace : Option ArtifactRef) (data : Bytes) :
    ∃ q, (restoreCheckpoint env ⟨some memory, workspace⟩).Trace
        [⟨.artifactGet memory.s3Key, .ok data⟩] q ∧
      q.Returns fun result => ∀ messages, result = .ok messages →
        restoredMessages env memory (.ok data) = .ok messages := by
  unfold restoreCheckpoint
  rw [restoreMemory_eq]
  refine ⟨_, Prog.Trace.bind_left (.single _ _ _), ?_⟩
  dsimp only [Prog.bind, bind]
  cases restored : restoredMessages env memory (.ok data) with
  | error e => exact fun _ failed => by cases failed
  | ok messages =>
    dsimp only
    split
    · exact fun _ same => same
    · refine (Prog.Returns.trivial _).bind fun result _ => ?_
      cases result with
      | error e => exact fun _ failed => by cases failed
      | ok _ => exact fun _ same => same

private theorem restoredMessages_eq (decoded : env.decodeMemory data = some snapshot)
    (restored : restoredMessages env memory (.ok data) = .ok messages) :
    messages = snapshot.messages := by
  unfold restoredMessages at restored
  dsimp only at restored
  split at restored
  · cases restored
  · rw [decoded] at restored
    exact (Except.ok.inj restored).symm

variable [Float64 F]

/-- An execution makes its requests in its loop. -/
theorem execute_enters_loop (ran : (execute env task run).Trace exchanges rest) :
    NoRequest exchanges ∨ ∃ before after startStep memory, exchanges = before ++ after ∧
      NoRequest before ∧ (startLoop env task run startStep memory).Trace after rest := by
  have halted : ∀ {result : Except EngineError (RunResult F)}
      {exchanges : List (Prog.Exchange (EngineCall F) EngineCall.Ans)},
      (Prog.ret result : EngineProg F _).Trace exchanges rest → NoRequest exchanges := by
    rintro result _ ⟨⟩
    simp [NoRequest]
  unfold execute at ran
  split at ran
  · exact .inl (halted ran)
  · exact .inl (halted ran)
  split at ran
  · exact .inr ⟨[], _, _, _, rfl, by simp [NoRequest], ran⟩
  rename_i stepIdx _
  have getting : (Host.getStep (F := F) run.parentRunID stepIdx).Uses
      (· = .getStep run.parentRunID stepIdx) := .call rfl
  have silent : ∀ request, ¬ (EngineCall.chat request : EngineCall F) =
      .getStep run.parentRunID stepIdx := fun _ same => by cases same
  rcases ran.of_bind with ⟨q, first⟩ | ⟨before, found, after, rfl, first, second⟩
  · exact .inl (noRequest_of_uses getting silent first)
  have quiet := noRequest_of_uses getting silent first
  cases found with
  | error e => exact .inl (quiet.append (halted second))
  | ok step =>
    dsimp only at second
    split at second
    · exact .inr ⟨before, after, _, _, rfl, quiet, second⟩
    rcases second.of_bind with ⟨q, third⟩ | ⟨before', restored, after', rfl, third, fourth⟩
    · exact .inl (quiet.append (noRequest_of_uses (uses_restoreCheckpoint ..) (fun _ h => h) third))
    have quiet' := noRequest_of_uses (uses_restoreCheckpoint ..) (fun _ h => h) third
    cases restored with
    | error e => exact .inl (quiet.append (quiet'.append (halted fourth)))
    | ok messages =>
      exact .inr ⟨before ++ before', after', _, _, (List.append_assoc ..).symm,
        quiet.append quiet', fourth⟩

/-- So a request of an execution is one of its loop. -/
theorem request_in_loop
    (ran : (execute env task run).Trace (before ++ ⟨.chat request, answer⟩ :: after) rest) :
    ∃ earlier sofar startStep memory, before = earlier ++ sofar ∧ NoRequest earlier ∧
      (startLoop env task run startStep memory).Trace (sofar ++ ⟨.chat request, answer⟩ :: after)
        rest := by
  rcases execute_enters_loop ran with none | ⟨earlier, loop, startStep, memory, split, quiet, second⟩
  · exact absurd rfl (none ⟨.chat request, answer⟩ (by simp) request)
  rcases List.append_eq_append_iff.mp split with ⟨more, rfl, same⟩ | ⟨sofar, rfl, rfl⟩
  · cases more with
    | nil =>
      refine ⟨before, [], startStep, memory, (List.append_nil _).symm, fun exchange member => ?_, ?_⟩
      · exact quiet exchange (List.mem_append_left _ member)
      · rw [List.nil_append] at same ⊢
        rwa [same]
    | cons first more =>
      cases same
      exact absurd rfl (quiet ⟨.chat request, answer⟩ (by simp) request)
  · exact ⟨earlier, sofar, startStep, memory, rfl, quiet, second⟩

/-- A resumed run makes its requests from the memory it has read. -/
theorem resumed_in_loop {request : LLMRequest F} {k : Int} {memory : ArtifactRef} {data : Bytes}
    (resumes : run.resumeFromStepIndex = some k)
    (checkpoint : step.checkpointRef = some ⟨some memory, workspace⟩)
    (decoded : env.decodeMemory data = some snapshot)
    (ran : (execute env task run).Trace (⟨.getStep run.parentRunID k, .ok step⟩ ::
      ⟨.artifactGet memory.s3Key, .ok data⟩ :: (before ++ ⟨.chat request, answer⟩ :: after)) rest)
    (quiet : NoRequest before) :
    ∃ sofar, NoRequest sofar ∧ (startLoop env task run (k + 1) snapshot.messages).Trace
      (sofar ++ ⟨.chat request, answer⟩ :: after) rest := by
  have asked : (⟨.chat request, answer⟩ : Prog.Exchange (EngineCall F) EngineCall.Ans) ∈
    before ++ ⟨.chat request, answer⟩ :: after := by simp
  obtain ⟨q, read, decided⟩ := restoreCheckpoint_read env memory workspace data
  have restores := (uses_restoreCheckpoint env _).rest read
  cases permitted : env.policy.validate env.lower task.prompt with
  | error e =>
    unfold execute at ran
    rw [permitted] at ran
    cases e <;> cases ran
  | ok _ =>
    obtain ⟨goesOn, fails, begins, first⟩ : ∃ goesOn,
        (∀ e, goesOn (.error e) = .ret (.error e)) ∧
        (∀ messages, goesOn (.ok messages) = startLoop env task run (k + 1) messages) ∧
        (execute env task run).Trace
          [⟨.getStep run.parentRunID k, .ok step⟩, ⟨.artifactGet memory.s3Key, .ok data⟩]
          (q >>= goesOn) := by
      unfold execute
      rw [permitted, resumes]
      have found : (Host.getStep run.parentRunID k).Trace
        [⟨.getStep (F := F) run.parentRunID k, .ok step⟩] (.ret (.ok step)) := .single _ _ _
      apply Exists.intro
      refine ⟨?_, ?_, found.bind ?_⟩
      rotate_left 2
      · dsimp only
        rw [checkpoint]
        exact read.bind_left
      · exact fun _ => rfl
      · exact fun _ => rfl
    rcases (Prog.Trace.rest ran first).of_bind with
      ⟨q', inside⟩ | ⟨restoring, result, later, split, restored, second⟩
    · exact absurd rfl (noRequest_of_uses restores (fun _ h => h) inside _ asked request)
    have silent := noRequest_of_uses restores (fun _ h => h) restored
    cases result with
    | error e =>
      rw [fails] at second
      cases second
      have inside : restoring = before ++ ⟨.chat request, answer⟩ :: after :=
        ((List.append_nil _).symm.trans split.symm)
      exact absurd rfl (silent _ (inside ▸ asked) request)
    | ok messages =>
      rw [begins] at second
      obtain rfl := restoredMessages_eq decoded (decided.trace restored messages rfl)
      rcases List.append_eq_append_iff.mp split with ⟨more, rfl, same⟩ | ⟨sofar, rfl, rfl⟩
      · cases more with
        | nil =>
          refine ⟨[], by simp [NoRequest], ?_⟩
          rw [List.nil_append] at same ⊢
          rwa [same]
        | cons _ more =>
          cases same
          exact absurd rfl (silent ⟨.chat request, answer⟩ (by simp) request)
      · exact ⟨sofar, fun exchange member => quiet exchange (List.mem_append_right _ member), second⟩

end Loop

/-! ## The two requests -/

section Requests

variable {F : Type} [Float64 F] {env : EngineEnv F} {task task' : Task F} {run resumed : Run F}
  {response : LLMResponse} {step : Step} {data : Bytes} {next first : LLMRequest F} {k : Int}

/-- The execution got a response, saved its memory as `data`, persisted the step with a
checkpoint that names this memory, and went on to the request of the next step. -/
def Persisted (env : EngineEnv F) (task : Task F) (run : Run F) (response : LLMResponse)
    (step : Step) (data : Bytes) (next : LLMRequest F) : Prop :=
  ∃ pre request tokens during mid answer post rest memory workspace,
    (execute env task run).Trace (pre ++ ⟨.chat request, (tokens, .ok response)⟩ ::
      (during ++ ⟨.putStep step, .ok ()⟩ :: (mid ++ ⟨.chat next, answer⟩ :: post))) rest ∧
    NoRequest during ∧ NoRequest mid ∧ step.checkpointRef = some ⟨some memory, workspace⟩ ∧
    ⟨.artifactPut memory.s3Key data, .ok (memory.sha256, memory.size)⟩ ∈ during

/-- The run is resumed from a step of its parent: it found this step, read `data` as the
memory of its checkpoint, and came to its first request. -/
def ResumedFrom (env : EngineEnv F) (task : Task F) (run : Run F) (k : Int) (step : Step)
    (data : Bytes) (first : LLMRequest F) : Prop :=
  ∃ before answer after rest memory workspace,
    (execute env task run).Trace (⟨.getStep run.parentRunID k, .ok step⟩ ::
      ⟨.artifactGet memory.s3Key, .ok data⟩ :: (before ++ ⟨.chat first, answer⟩ :: after)) rest ∧
    NoRequest before ∧ step.checkpointRef = some ⟨some memory, workspace⟩

/-- What the parent saved: the memory its next request is made from, up to the message
that asks for more. -/
theorem Persisted.memory (parent : Persisted env task run response step data next) :
    ∃ c : Conversation, (∃ i, data = env.encodeMemory ⟨run.runID, i, c.messages⟩) ∧
      c.truncated = response.truncated ∧
      next.messages = trimMemoryMessages c.memory maxEngineMemoryMessages ∧ c.messages ≠ [] ∧
      (response.toolCalls = [] → ∀ msg, c.messages.getLast? = some msg → msg.role = .assistant) := by
  obtain ⟨pre, request, tokens, during, mid, answer, post, rest, memory, workspace, ran, sameStep,
    nextStep, checkpoint, saved⟩ := parent
  obtain ⟨-, sofar, startStep, memory₀, -, -, loop⟩ := request_in_loop ran
  obtain ⟨q₁, first, second⟩ := loop.split
  have follows₁ := (Conversation.follows_startLoop env task run startStep memory₀).trace first
  generalize (conversing env run).after (.start task startStep memory₀) sofar = c₀ at follows₁
  cases second with
  | step _ tail =>
  -- the response is in the memory, its tool calls are due
  have follows₂ := follows₁.2 (tokens, .ok response)
  change (conversing env run).Ensures _ _ (c₀.reply response) at follows₂
  have area := follows₂.allows tail memory workspace checkpoint
  obtain ⟨earlier, later, rfl⟩ := List.append_of_mem saved
  have quiet : NoRequest earlier := fun exchange member =>
    sameStep exchange (List.mem_append_left _ member)
  have quiet' : NoRequest (later ++ ⟨.putStep step, .ok ()⟩ :: mid) := by
    refine NoRequest.append (fun exchange member => sameStep exchange (by simp [member])) ?_
    exact List.forall_mem_cons.mpr ⟨(fun _ same => by cases same), nextStep⟩
  rw [List.append_assoc] at tail
  obtain ⟨q₂, third, fourth⟩ := tail.split
  have follows₃ := follows₂.trace third
  obtain ⟨⟨more, grown⟩, cut⟩ := (c₀.reply response).after_between env run quiet
  generalize now : (conversing env run).after (c₀.reply response) earlier = c at *
  cases fourth with
  | @step _ resume _ _ _ tail =>
  -- the memory is saved once every tool has answered
  obtain ⟨done, i, written⟩ := follows₃.1 area
  have follows₄ := follows₃.2 (.ok (memory.sha256, memory.size))
  replace tail : (resume (.ok (memory.sha256, memory.size))).Trace ((later ++ ⟨.putStep step, .ok ()⟩ :: mid) ++
      ⟨.chat next, answer⟩ :: post) rest := by
    rw [List.append_assoc]
    exact tail
  obtain ⟨q₃, fifth, sixth⟩ := tail.split
  have still := Conversation.after_still follows₄ fifth done quiet'
  have asked := (follows₄.allows tail).2
  rw [still] at asked
  refine ⟨c, ⟨i, written⟩, cut, asked, ?_, fun none msg last => ?_⟩
  · rw [grown]
    simp [Conversation.reply]
  · have same : c = c₀.reply response := by
      rw [← now]
      exact Conversation.after_still follows₂ third (by simp [Conversation.reply, none, withCallIDs])
        quiet
    rw [same, Conversation.reply, List.getLast?_concat] at last
    cases last
    rfl

/-- Both requests in terms of the memory that was saved. -/
theorem Persisted.requests (parent : Persisted env task run response step data next)
    (lossless : ∀ mem, data = env.encodeMemory mem → env.decodeMemory data = some mem)
    (resumes : resumed.resumeFromStepIndex = some k)
    (child : ResumedFrom env task' resumed k step data first) :
    ∃ c : Conversation, c.truncated = response.truncated ∧ c.messages ≠ [] ∧
      first.messages = trimMemoryMessages c.messages maxEngineMemoryMessages ∧
      next.messages = trimMemoryMessages c.memory maxEngineMemoryMessages ∧
      (response.toolCalls = [] → ∀ msg, c.messages.getLast? = some msg → msg.role = .assistant) := by
  obtain ⟨c, ⟨i, written⟩, cut, asked, nonempty, last⟩ := parent.memory
  obtain ⟨before, answer, after, rest, memory, workspace, ran, firstRequest, checkpoint⟩ := child
  obtain ⟨sofar, quiet, loop⟩ :=
    resumed_in_loop resumes checkpoint (lossless _ written) ran firstRequest
  have fresh : (Conversation.start task' (k + 1) c.messages).messages = c.messages := by
    rw [Conversation.start]
    simp [nonempty]
  refine ⟨c, cut, nonempty, ?_, asked, last⟩
  have follows := Conversation.follows_startLoop env task' resumed (k + 1) c.messages
  obtain ⟨q, before, -⟩ := loop.split
  rw [(follows.allows loop).2, Conversation.after_still follows before rfl quiet,
    Conversation.memory, fresh]
  exact congrArg (trimMemoryMessages · _) (List.append_nil _)

/-- After a response that was cut off the parent asks for more, and the resumed run does
not. -/
theorem resumed_request_differs (parent : Persisted env task run response step data next)
    (lossless : ∀ mem, data = env.encodeMemory mem → env.decodeMemory data = some mem)
    (resumes : resumed.resumeFromStepIndex = some k)
    (child : ResumedFrom env task' resumed k step data first)
    (truncated : response.toolCalls = [] ∧ response.finishReason = "length") :
    first.messages ≠ next.messages := by
  obtain ⟨c, cut, nonempty, window, asked, last⟩ := parent.requests lossless resumes child
  have told : response.truncated = true := by
    simp [LLMResponse.truncated, truncated.1, truncated.2]
  rw [window, asked, Conversation.memory, cut, told, if_pos rfl]
  intro same
  have ends := congrArg List.getLast? same
  rw [trim_getLast? nonempty, trim_getLast? (by simp), List.getLast?_concat] at ends
  cases last truncated.1 _ ends

/-- **A resumed run continues where its parent stopped, unless the response was cut off.**
The parent persisted a step with a checkpoint and made another request; a run resumed from
that step reads back the memory it was saved with. Its first request carries the same
messages as the parent's next one if and only if the response called a tool or was not cut
off at the length limit. -/
theorem resumed_request_same_iff (parent : Persisted env task run response step data next)
    (lossless : ∀ mem, data = env.encodeMemory mem → env.decodeMemory data = some mem)
    (resumes : resumed.resumeFromStepIndex = some k)
    (child : ResumedFrom env task' resumed k step data first) :
    first.messages = next.messages ↔
      ¬ (response.toolCalls = [] ∧ response.finishReason = "length") := by
  refine ⟨fun same truncated => ?_, fun complete => ?_⟩
  · exact resumed_request_differs parent lossless resumes child truncated same
  · obtain ⟨c, cut, -, window, asked, -⟩ := parent.requests lossless resumes child
    have told : response.truncated = false := by
      simpa [LLMResponse.truncated] using complete
    rw [window, asked, Conversation.memory, cut, told, if_neg (by simp), List.append_nil]

end Requests

/-! ## Two resumed runs -/

/-- An engine that encodes one memory faithfully. -/
def keepingEngine (kept : MemorySnapshot) : EngineEnv Rat :=
  { plainEngine with
    encodeMemory mem := if mem = kept then [1] else []
    decodeMemory _ := some kept }

/-- The memory after a first response. -/
def firstMemory (content : String) : MemorySnapshot where
  runID := "run_1"
  stepIndex := 0
  messages := [{ role := .system, content := systemPrompt }, { role := .user, content := "hello" },
    { role := .assistant, content := content }]

def childRun : Run Rat :=
  { freshRun with runID := "run_2", parentRunID := "run_1", resumeFromStepIndex := some 0 }

/-- A response that calls no tool and ends for the given reason. -/
def ended (reason : String) : LLMResponse := ⟨"part one", [], none, reason, "gpt-4o", "openai"⟩

/-- The first step of a run is found, with the memory it was saved with. -/
def readingBack (step : Step) (data : Bytes) : (call : EngineCall Rat) → call.Ans
  | .getStep .. => .ok step
  | .artifactGet _ => .ok data
  | call => atOnce false (.error "down") call

/-- The parent and the resumed run, with a response that ends for one of two reasons. -/
theorem persisted_and_resumed (reason : String) (other : reason = "other" ∨ reason = "length") :
    ∃ step data next first,
      (∀ mem, data = (keepingEngine (firstMemory "part one")).encodeMemory mem →
        (keepingEngine (firstMemory "part one")).decodeMemory data = some mem) ∧
      Persisted (keepingEngine (firstMemory "part one")) freshTask freshRun (ended reason) step data
        next ∧
      ResumedFrom (keepingEngine (firstMemory "part one")) freshTask childRun 0 step data first := by
  obtain ⟨step, next, parent, made⟩ : ∃ step next, Persisted (keepingEngine (firstMemory "part one"))
      freshTask freshRun (ended reason) step [1] next ∧ step.checkpointRef =
        some ⟨some ⟨memoryS3Key "acme" "task_1" "run_1" 0, "", 0⟩,
          some ⟨workspaceS3Key "acme" "task_1" "run_1" 0, "", 0⟩⟩ := by
    have ran := Prog.run_trace (atOnce false (.ok (ended reason)))
      (execute (keepingEngine (firstMemory "part one")) freshTask freshRun)
    rcases other with rfl | rfl
    all_goals exact ⟨_, _, ⟨[_, _, _], _, [], [_, _, _, _, _], [_, _, _, _], _, _, _, _, _, ran,
      by simp [NoRequest], by simp [NoRequest], rfl, .tail _ (.tail _ (.head _))⟩, rfl⟩
  have child := Prog.run_trace (readingBack step [1])
    (execute (keepingEngine (firstMemory "part one")) freshTask childRun)
  refine ⟨step, [1], next, ?_⟩
  cases step
  dsimp only at made
  subst made
  refine ⟨_, fun mem same => ?_, parent, [_, _, _, _, _], _, _, _, _, _, child, by simp [NoRequest], rfl⟩
  by_cases kept : mem = firstMemory "part one"
  · rw [kept]
    rfl
  · simp [keepingEngine, kept] at same

/-- The first response was not cut off: both requests carry the same messages. -/
theorem resumed_request_same_complete :
    ∃ step data next first,
      Persisted (keepingEngine (firstMemory "part one")) freshTask freshRun (ended "other") step data
        next ∧
      ResumedFrom (keepingEngine (firstMemory "part one")) freshTask childRun 0 step data first ∧
      first.messages = next.messages := by
  obtain ⟨step, data, next, first, lossless, parent, child⟩ :=
    persisted_and_resumed "other" (.inl rfl)
  exact ⟨step, data, next, first, parent, child,
    (resumed_request_same_iff parent lossless rfl child).mpr (by decide)⟩

/-- The first response was cut off: the parent asks for more, and the resumed run asks
the model to answer what it has answered already. -/
theorem resumed_request_differs_truncated :
    ∃ step data next first,
      Persisted (keepingEngine (firstMemory "part one")) freshTask freshRun (ended "length") step data
        next ∧
      ResumedFrom (keepingEngine (firstMemory "part one")) freshTask childRun 0 step data first ∧
      first.messages ≠ next.messages := by
  obtain ⟨step, data, next, first, lossless, parent, child⟩ :=
    persisted_and_resumed "length" (.inr rfl)
  exact ⟨step, data, next, first, parent, child,
    resumed_request_differs parent lossless rfl child ⟨rfl, rfl⟩⟩

end AgentForge
