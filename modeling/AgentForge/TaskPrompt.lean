import AgentForge.ToolProtocol

/-! Whether the model still knows its task. The memory of a fresh execution begins with the
system message and the prompt of the task, and grows with every answer and every tool. Past 64
messages the window keeps the system message and the newest 63: the prompt is the first thing
it drops, and from then on the memory stays that long. -/
namespace AgentForge

/-! ## What the memory holds -/

def systemMessage : MemoryMessage := { role := .system, content := systemPrompt }

def continueMessage : MemoryMessage := { role := .user, content := lengthContinuePrompt }

section Memory

variable {F : Type} (task : Task F)

def promptMessage : MemoryMessage := { role := .user, content := task.prompt }

/-- Both the system message and the prompt of the task are there. -/
def CarriesTask (messages : List MemoryMessage) : Prop :=
  systemMessage ∈ messages ∧ promptMessage task ∈ messages

/-- A message that came after the prompt: the only user it comes from is the engine itself,
asking the model to go on. -/
def Later (msg : MemoryMessage) : Prop := msg.role = .user → msg = continueMessage

/-- The memory still has the prompt behind the system message, or it has been cut and is
longer than the window ever since. -/
inductive Remembers : List MemoryMessage → Prop where
  | whole {rest : List MemoryMessage} (later : ∀ msg ∈ rest, Later msg) :
      Remembers (systemMessage :: promptMessage task :: rest)
  | cut {rest : List MemoryMessage} (later : ∀ msg ∈ rest, Later msg)
      (long : maxEngineMemoryMessages ≤ rest.length) : Remembers (systemMessage :: rest)

/-- The memory is short enough to be sent as it is; or the task happens to read like what the
engine itself asks of the model, and that is among the newest messages. -/
def PromptKept (messages : List MemoryMessage) : Prop :=
  messages.length ≤ maxEngineMemoryMessages ∨
    (task.prompt = lengthContinuePrompt ∧ continueMessage ∈ messages.drop (windowStart messages))

variable {task}

section Window

variable (remembers : Remembers task messages)

include remembers

private theorem Remembers.snoc (after : Later msg) : Remembers task (messages ++ [msg]) := by
  have one : ∀ msg' ∈ [msg], Later msg' := List.forall_mem_singleton.mpr after
  cases remembers with
  | whole later => exact .whole (List.forall_mem_append.mpr ⟨later, one⟩)
  | @cut rest later long =>
    have more : rest.length ≤ (rest ++ [msg]).length := by simp
    exact .cut (List.forall_mem_append.mpr ⟨later, one⟩) (long.trans more)

private theorem Remembers.head : ∃ rest, messages = systemMessage :: rest := by
  cases remembers with
  | whole later => exact ⟨_, rfl⟩
  | cut later long => exact ⟨_, rfl⟩

/-- What the window keeps of a memory that is too long. -/
theorem Remembers.trim (long : maxEngineMemoryMessages < messages.length) :
    trimMemoryMessages messages maxEngineMemoryMessages =
      systemMessage :: messages.drop (windowStart messages) := by
  rw [trim_long long]
  obtain ⟨rest, rfl⟩ := remembers.head
  rfl

/-- Everything the window keeps behind the system message came after the prompt. -/
theorem Remembers.window_later (long : maxEngineMemoryMessages < messages.length) :
    ∀ msg ∈ messages.drop (windowStart messages), Later msg := by
  obtain ⟨rest, same⟩ := remembers.head
  have start : ∃ k, windowStart messages = k + 2 := by
    refine ⟨windowStart messages - 2, ?_⟩
    have kept : headKept messages = 1 := by rw [same]; rfl
    unfold windowStart
    rw [kept]
    unfold maxEngineMemoryMessages at *
    omega
  obtain ⟨k, start⟩ := start
  rw [start]
  cases remembers with
  | whole later | cut later long => exact fun msg member => later msg (List.mem_of_mem_drop member)

private theorem Remembers.window_length (long : maxEngineMemoryMessages < messages.length) :
    (messages.drop (windowStart messages)).length + 1 = maxEngineMemoryMessages := by
  obtain ⟨rest, rfl⟩ := remembers.head
  have kept : headKept (systemMessage :: rest) = 1 := rfl
  unfold windowStart
  rw [kept, List.length_drop]
  unfold maxEngineMemoryMessages at *
  omega

/-- The window with one more message. -/
theorem Remembers.trim_snoc (after : Later msg) :
    Remembers task (trimMemoryMessages messages maxEngineMemoryMessages ++ [msg]) := by
  by_cases long : maxEngineMemoryMessages < messages.length
  · have size := remembers.window_length long
    rw [remembers.trim long, List.cons_append]
    refine .cut (List.forall_mem_append.mpr
      ⟨remembers.window_later long, List.forall_mem_singleton.mpr after⟩) ?_
    rw [List.length_append, List.length_singleton]
    omega
  · rw [trim_short (not_lt.mp long)]
    exact remembers.snoc after

/-- What is sent of the memory carries the task just if the prompt is kept. -/
theorem Remembers.carries_iff :
    CarriesTask task (trimMemoryMessages messages maxEngineMemoryMessages) ↔
      PromptKept task messages := by
  by_cases long : maxEngineMemoryMessages < messages.length
  · have later := remembers.window_later long
    rw [remembers.trim long, PromptKept, or_iff_right (not_le.mpr long)]
    constructor
    · rintro ⟨-, there⟩
      rcases List.mem_cons.mp there with same | kept
      · cases same
      · have same := later _ kept rfl
        exact ⟨congrArg MemoryMessage.content same, same ▸ kept⟩
    · rintro ⟨same, kept⟩
      refine ⟨List.mem_cons_self .., List.mem_cons_of_mem _ ?_⟩
      rw [promptMessage, same]
      exact kept
  · rw [trim_short (not_lt.mp long)]
    refine iff_of_true ?_ (.inl (not_lt.mp long))
    cases remembers with
    | whole later =>
      exact ⟨List.mem_cons_self .., List.mem_cons_of_mem _ (List.mem_cons_self ..)⟩
    | cut later long' =>
      rw [List.length_cons] at long
      omega

end Window

end Memory

/-! ## The requests of an execution -/

section Requests

variable {F : Type} {env : EngineEnv F} {task : Task F} {run : Run F} {c : Conversation}

private theorem Remembers.memory (remembers : Remembers task c.messages) :
    Remembers task c.memory := by
  unfold Conversation.memory
  split
  · exact remembers.snoc fun _ => rfl
  · rw [List.append_nil]
    exact remembers

private theorem Remembers.moves (remembers : Remembers task c.messages) (call : EngineCall F)
    (answer : call.Ans) : Remembers task ((conversing env run).moves c call answer).messages := by
  cases call with
  | chat request =>
    obtain ⟨tokens, response⟩ := answer
    cases response with
    | error message => exact remembers
    | ok response => exact remembers.memory.trim_snoc nofun
  | executeTool name args =>
    change Remembers task (c.result env.quote answer).messages
    unfold Conversation.result
    split
    · exact remembers
    · split
      · exact remembers
      · exact remembers.snoc nofun
  | _ => exact remembers

variable [Float64 F]
  {exchanges : List (Prog.Exchange (EngineCall F) EngineCall.Ans)}
  {rest : EngineProg F (Except EngineError (RunResult F))}

/-- Each request of a fresh execution carries the task just if the memory it is made from
keeps the prompt. -/
theorem request_carries_iff (ran : (startLoop env task run 0 []).Trace exchanges rest) :
    AtRequests exchanges fun sofar request =>
      (CarriesTask task request.messages ↔
        PromptKept task (memoryAfter env task run 0 [] sofar)) := by
  intro sofar request answer later split
  rw [request_is_window ran sofar request answer later split]
  subst split
  obtain ⟨q, first, -⟩ := ran.split
  have remembers : Remembers task
      ((conversing env run).after (.start task 0 []) sofar).messages :=
    (Conversation.follows_startLoop env task run 0 []).invariant
      (J := fun c => Remembers task c.messages) (Q := fun _ _ => True) first
      (.whole (by simp)) (fun _ call answer remembers _ _ => remembers.moves call answer)
      fun _ _ _ _ _ => trivial
  exact remembers.memory.carries_iff

/-- **The agent knows its task as long as its memory is short.** In an execution that is not
resumed, every request carries the system message and the prompt of the task just if the
memory is never longer than the window when a request is made. -/
theorem requests_carry_task_iff (fresh : run.resumeFromStepIndex = none)
    (ran : (execute env task run).Trace exchanges rest) :
    (AtRequests exchanges fun _ request => CarriesTask task request.messages) ↔
      AtRequests exchanges fun sofar _ =>
        PromptKept task (memoryAfter env task run 0 [] sofar) := by
  have each : AtRequests exchanges fun sofar request =>
      (CarriesTask task request.messages ↔
        PromptKept task (memoryAfter env task run 0 [] sofar)) := by
    unfold execute at ran
    split at ran
    · cases ran
      intro sofar request answer later split
      cases sofar <;> cases split
    · cases ran
      intro sofar request answer later split
      cases sofar <;> cases split
    · rw [fresh] at ran
      exact request_carries_iff ran
  constructor
  · intro carries sofar request answer later split
    exact (each sofar request answer later split).mp (carries sofar request answer later split)
  · intro kept sofar request answer later split
    exact (each sofar request answer later split).mpr (kept sofar request answer later split)

end Requests

/-- A tool is called once: the next request still carries the task. -/
theorem requests_carry_task_one_call :
    ∃ exchanges rest request answer,
      (execute plainEngine freshTask freshRun).Trace (exchanges ++ [⟨.chat request, answer⟩]) rest ∧
      (∃ msg ∈ request.messages, msg.role = .tool) ∧
      AtRequests (exchanges ++ [⟨.chat request, answer⟩]) fun _ request =>
        CarriesTask freshTask request.messages := by
  obtain ⟨exchanges, rest, request, answer, ran, few, tool⟩ := one_call_execution
  refine ⟨exchanges, rest, request, answer, ran, tool, (requests_carry_task_iff rfl ran).mpr ?_⟩
  intro sofar request' answer' later split
  have uncut := fresh_requests_uncut plainEngine freshRun freshTask (few.trans (by decide))
  exact .inl (uncut sofar request' answer' later split)

/-- A response calls 62 tools: the next request has the system message, that response and its
tools, and no longer the prompt. -/
theorem task_prompt_dropped :
    ∃ exchanges rest request answer,
      (execute plainEngine freshTask freshRun).Trace (exchanges ++ [⟨.chat request, answer⟩]) rest ∧
      ¬ CarriesTask freshTask request.messages := by
  have whole := Prog.run_trace (atOnce false (.ok (callsOf 62)))
    (execute plainEngine freshTask freshRun)
  obtain ⟨exchanges, rest, -, ran⟩ := whole.upto (i := 76) rfl
  exact ⟨exchanges, rest, _, _, ran, fun carries => absurd carries.2 (by decide +kernel)⟩

end AgentForge
