import AgentForge.Conversation
import AgentForge.System

/-! The tool-message protocol of a model: a tool message answers a call that an assistant
message before it has made. The memory of an execution keeps to it, since a tool's
message follows the response that called the tool. The window of the newest messages
need not: it is cut by number, and where the cut falls between a response and the
messages of its tools, those are sent without it. -/
namespace AgentForge

section Protocol

variable {messages : List MemoryMessage} {id : String} {R : List MemoryMessage → String → Prop}

/-! ## What stands before a tool message -/

/-- An assistant message among these has made the call. -/
def Called (messages : List MemoryMessage) (id : String) : Prop :=
  ∃ caller ∈ messages, caller.role = .assistant ∧ ∃ call ∈ caller.toolCalls, call.id = id

/-- The last response among these has made the call, and only messages of its tools
follow it. -/
def InGroup (messages : List MemoryMessage) (id : String) : Prop :=
  ∃ front caller results, messages = front ++ caller :: results ∧ caller.role = .assistant ∧
    (∃ call ∈ caller.toolCalls, call.id = id) ∧ ∀ result ∈ results, result.role = .tool

/-- Before every tool message stands what is required for the call it answers. -/
def EachTool (R : List MemoryMessage → String → Prop) (messages : List MemoryMessage) : Prop :=
  ∀ i msg, messages[i]? = some msg → msg.role = .tool → R (messages.take i) msg.toolCallID

/-- Every tool message is preceded by an assistant message that has made its call. -/
def ToolProtocol (messages : List MemoryMessage) : Prop := EachTool Called messages

/-- Every tool message stands in the group of the response that called the tool. -/
def InGroups (messages : List MemoryMessage) : Prop := EachTool InGroup messages

theorem InGroup.called (group : InGroup messages id) : Called messages id := by
  obtain ⟨front, caller, results, rfl, assistant, calls, -⟩ := group
  exact ⟨caller, by simp, assistant, calls⟩

theorem Called.after (front : List MemoryMessage) (called : Called messages id) :
    Called (front ++ messages) id := by
  obtain ⟨caller, member, calls⟩ := called
  exact ⟨caller, List.mem_append_right _ member, calls⟩

theorem InGroup.after (before : List MemoryMessage) (group : InGroup messages id) :
    InGroup (before ++ messages) id := by
  obtain ⟨front, caller, results, rfl, rest⟩ := group
  exact ⟨before ++ front, caller, results, (List.append_assoc ..).symm, rest⟩

theorem InGroup.result (group : InGroup messages id) (tool : msg.role = .tool) :
    InGroup (messages ++ [msg]) id := by
  obtain ⟨front, caller, results, rfl, assistant, calls, tools⟩ := group
  refine ⟨front, caller, results ++ [msg], by simp, assistant, calls, fun result member => ?_⟩
  rcases List.mem_append.mp member with old | new
  · exact tools result old
  · rw [List.mem_singleton.mp new, tool]

theorem EachTool.nil (R : List MemoryMessage → String → Prop) : EachTool R [] := by
  intro i msg found
  simp at found

theorem EachTool.mono (each : EachTool R messages)
    (weaker : ∀ messages id, R messages id → R' messages id) : EachTool R' messages :=
  fun i msg found tool => weaker _ _ (each i msg found tool)

theorem EachTool.concat (each : EachTool R messages)
    (new : msg.role = .tool → R messages msg.toolCallID) : EachTool R (messages ++ [msg]) := by
  intro i msg' found tool
  by_cases old : i < messages.length
  · rw [List.getElem?_append_left old] at found
    rw [List.take_append_of_le_length (by omega)]
    exact each i msg' found tool
  · have last : i = messages.length := by
      have inside := (List.getElem?_eq_some_iff.mp found).1
      rw [List.length_append, List.length_singleton] at inside
      omega
    subst last
    rw [List.getElem?_append_right (by omega), Nat.sub_self] at found
    cases found
    rw [List.take_left]
    exact new tool

/-! ## The window -/

/-- How many messages are kept at the head: a leading system message. -/
def headKept (messages : List MemoryMessage) : Nat :=
  match messages.head? with
  | some first => if first.role = .system then 1 else 0
  | none => 0

/-- Where the newest messages begin that are kept when the memory is cut. -/
def windowStart (messages : List MemoryMessage) : Nat :=
  messages.length - (maxEngineMemoryMessages - headKept messages)

theorem headKept_le (messages : List MemoryMessage) : headKept messages ≤ 1 := by
  unfold headKept
  split
  · split <;> omega
  · omega

private theorem take_headKept_role :
    ∀ msg ∈ messages.take (headKept messages), msg.role = .system := by
  cases messages with
  | nil => simp
  | cons first rest =>
    unfold headKept
    rw [List.head?_cons]
    dsimp only
    split
    · rename_i system
      simpa using system
    · simp

theorem trim_short (short : messages.length ≤ maxEngineMemoryMessages) :
    trimMemoryMessages messages maxEngineMemoryMessages = messages :=
  if_pos (.inr short)

section Long

variable (long : maxEngineMemoryMessages < messages.length)

include long

theorem trim_long :
    trimMemoryMessages messages maxEngineMemoryMessages =
      messages.take (headKept messages) ++ messages.drop (windowStart messages) := by
  have head := headKept_le messages
  unfold maxEngineMemoryMessages at long
  have budget : 64 - headKept messages ≠ 0 := by omega
  have start : max (messages.length - (64 - headKept messages)) (headKept messages) =
      messages.length - (64 - headKept messages) := by omega
  unfold trimMemoryMessages windowStart maxEngineMemoryMessages
  rw [if_neg (by omega)]
  change (if 64 - headKept messages = 0 then messages.take (headKept messages)
    else messages.take (headKept messages) ++
      messages.drop (max (messages.length - (64 - headKept messages)) (headKept messages))) = _
  rw [if_neg budget, start]

private theorem headKept_lt_windowStart : headKept messages < windowStart messages := by
  have head := headKept_le messages
  unfold windowStart
  unfold maxEngineMemoryMessages at long ⊢
  omega

/-- Where a message past the head comes from, and what is left of what stood before it. -/
theorem trim_window (i : Nat) :
    (trimMemoryMessages messages maxEngineMemoryMessages)[headKept messages + i]? =
        messages[windowStart messages + i]? ∧
      (trimMemoryMessages messages maxEngineMemoryMessages).take (headKept messages + i) =
        messages.take (headKept messages) ++
          (messages.take (windowStart messages + i)).drop (windowStart messages) := by
  have inside := headKept_lt_windowStart long
  have head : (messages.take (headKept messages)).length = headKept messages := by
    rw [List.length_take]
    unfold windowStart at inside
    omega
  rw [trim_long long]
  constructor
  · rw [List.getElem?_append_right (by omega), head, Nat.add_sub_cancel_left, List.getElem?_drop]
  · rw [List.take_append, head, Nat.add_sub_cancel_left, List.take_of_length_le (by omega),
      List.take_drop]

end Long

/-- What stands before each tool message that the window keeps, it keeps as well. -/
def SurvivesCut (R : List MemoryMessage → String → Prop) (messages : List MemoryMessage) : Prop :=
  maxEngineMemoryMessages < messages.length → ∀ i msg, windowStart messages ≤ i →
    messages[i]? = some msg → msg.role = .tool → R (messages.take i) msg.toolCallID →
      R ((messages.take i).drop (windowStart messages)) msg.toolCallID

/-- If the memory is cut, the oldest message kept behind its head is no tool message. -/
def CutBetweenGroups (messages : List MemoryMessage) : Prop :=
  maxEngineMemoryMessages < messages.length →
    ∀ msg, messages[windowStart messages]? = some msg → msg.role ≠ .tool

theorem EachTool.trim (each : EachTool R messages) (survives : SurvivesCut R messages)
    (after : ∀ front messages id, R messages id → R (front ++ messages) id) :
    EachTool R (trimMemoryMessages messages maxEngineMemoryMessages) := by
  by_cases long : maxEngineMemoryMessages < messages.length
  · intro i msg found tool
    by_cases head : i < headKept messages
    · -- the head is a system message
      rw [trim_long long, List.getElem?_append_left (by
        rw [List.length_take]
        have inside := headKept_lt_windowStart long
        unfold windowStart at inside
        omega)] at found
      rw [take_headKept_role msg (List.mem_of_getElem? found)] at tool
      cases tool
    · obtain ⟨k, rfl⟩ := Nat.exists_eq_add_of_le (not_lt.mp head)
      obtain ⟨same, left⟩ := trim_window long k
      rw [same] at found
      rw [left]
      exact after _ _ _ (survives long _ msg (Nat.le_add_right ..) found tool
        (each _ msg found tool))
  · rw [trim_short (not_lt.mp long)]
    exact each

/-- A window that keeps to the protocol has kept the caller of each of its tool messages. -/
theorem survives_of_protocol
    (obeys : ToolProtocol (trimMemoryMessages messages maxEngineMemoryMessages)) :
    SurvivesCut Called messages := by
  intro long i msg inside found tool _
  obtain ⟨k, rfl⟩ := Nat.exists_eq_add_of_le inside
  obtain ⟨same, left⟩ := trim_window long k
  have called := obeys _ msg (same.trans found) tool
  rw [left] at called
  obtain ⟨caller, member, assistant, calls⟩ := called
  refine ⟨caller, (List.mem_append.mp member).resolve_left fun head => ?_, assistant, calls⟩
  rw [take_headKept_role caller head] at assistant
  cases assistant

/-- A window that keeps to the protocol does not begin with a tool message. -/
theorem cutBetween_of_protocol
    (obeys : ToolProtocol (trimMemoryMessages messages maxEngineMemoryMessages)) :
    CutBetweenGroups messages := by
  intro long msg found tool
  obtain ⟨same, left⟩ := trim_window long 0
  have called := obeys _ msg (same.trans found) tool
  rw [left, Nat.add_zero, List.drop_of_length_le (List.length_take_le ..),
    List.append_nil] at called
  obtain ⟨caller, member, assistant, -⟩ := called
  rw [take_headKept_role caller member] at assistant
  cases assistant

/-- A cut between groups leaves each group it keeps whole. -/
theorem CutBetweenGroups.survives (between : CutBetweenGroups messages) :
    SurvivesCut InGroup messages := by
  intro long i msg inside found tool group
  obtain ⟨front, caller, results, split, assistant, calls, tools⟩ := group
  have stop : windowStart messages ≤ front.length := by
    by_contra late
    have length : i = front.length + (results.length + 1) := by
      have sizes := congrArg List.length split
      have short := (List.getElem?_eq_some_iff.mp found).1
      rw [List.length_take, List.length_append, List.length_cons] at sizes
      omega
    rcases Nat.eq_or_lt_of_le inside with same | later
    · exact between long msg (same ▸ found) tool
    · -- the message the window begins with is one of the results
      have first : (messages.take i)[windowStart messages]? =
          results[windowStart messages - (front.length + 1)]? := by
        rw [split, List.getElem?_append_right (by omega), List.getElem?_cons,
          if_neg (by omega)]
        congr 1
      rw [List.getElem?_take_of_lt later] at first
      have there : windowStart messages - (front.length + 1) < results.length := by omega
      rw [List.getElem?_eq_getElem there] at first
      exact between long _ first (tools _ (List.getElem_mem there))
  refine ⟨front.drop (windowStart messages), caller, results, ?_, assistant, calls, tools⟩
  rw [split, List.drop_append_of_le_length stop]

end Protocol

/-! ## The memory of an execution -/

section Execution

variable {F : Type} {env : EngineEnv F} {task : Task F} {run : Run F} {c : Conversation}
  {R : List MemoryMessage → String → Prop}

/-- The memory has what is required of its tool messages, and the calls still to be executed
are those of the last response. -/
structure Conversation.Orderly (R : List MemoryMessage → String → Prop) (c : Conversation) :
    Prop where
  each : EachTool R c.messages
  due : ∀ tc ∈ c.pending, InGroup c.messages tc.id

theorem Conversation.Orderly.memory (orderly : c.Orderly R) : EachTool R c.memory := by
  unfold Conversation.memory
  split
  · exact orderly.each.concat fun tool => by cases tool
  · rw [List.append_nil]
    exact orderly.each

/-- A response is added to the window, and its calls are to be executed. -/
theorem Conversation.Orderly.reply (orderly : c.Orderly R) (survives : SurvivesCut R c.memory)
    (after : ∀ front messages id, R messages id → R (front ++ messages) id)
    (response : LLMResponse) : (c.reply response).Orderly R where
  each := (orderly.memory.trim survives after).concat fun tool => by cases tool
  due tc member := ⟨_, _, [], rfl, rfl, ⟨tc, member, rfl⟩, by simp⟩

/-- The message of a tool is added to the group of the response that called it. -/
theorem Conversation.Orderly.result (orderly : c.Orderly R)
    (group : ∀ messages id, InGroup messages id → R messages id) (quote : String → String)
    (answer : Option (Except String ToolResult)) : (c.result quote answer).Orderly R := by
  unfold Conversation.result
  split
  · exact orderly
  rename_i tc rest due
  split
  · exact orderly
  refine ⟨orderly.each.concat fun _ => ?_, fun tc' member => ?_⟩
  · exact group _ _ (orderly.due tc (by simp [due]))
  · exact (orderly.due tc' (by rw [due]; exact List.mem_cons_of_mem _ member)).result rfl

theorem Conversation.Orderly.moves (orderly : c.Orderly R)
    (group : ∀ messages id, InGroup messages id → R messages id)
    (after : ∀ front messages id, R messages id → R (front ++ messages) id)
    (call : EngineCall F) (answer : call.Ans)
    (survives : ∀ request, call = .chat request → SurvivesCut R c.memory) :
    ((conversing env run).moves c call answer).Orderly R := by
  cases call with
  | chat request =>
    obtain ⟨tokens, response⟩ := answer
    cases response with
    | error message => exact orderly
    | ok response => exact orderly.reply (survives request rfl) after response
  | executeTool name args => exact orderly.result group env.quote answer
  | _ => exact orderly

theorem Conversation.Orderly.start {memory : List MemoryMessage} (each : EachTool R memory)
    (startStep : Int) : (Conversation.start task startStep memory).Orderly R := by
  refine ⟨?_, by simp [Conversation.start]⟩
  unfold Conversation.start
  split
  · have system := (EachTool.nil R).concat
      (show ({ role := .system, content := systemPrompt } : MemoryMessage).role = .tool → R [] _ from
        fun tool => by cases tool)
    exact system.concat fun tool => by cases tool
  · exact each

variable [Float64 F] {startStep : Int} {memory : List MemoryMessage}
  {before exchanges : List (Prog.Exchange (EngineCall F) EngineCall.Ans)}
  {rest : EngineProg F (Except EngineError (RunResult F))}

/-- What holds of each request among the calls and of what went before it. -/
def AtRequests (exchanges : List (Prog.Exchange (EngineCall F) EngineCall.Ans))
    (P : List (Prog.Exchange (EngineCall F) EngineCall.Ans) → LLMRequest F → Prop) : Prop :=
  ∀ sofar request answer later, exchanges = sofar ++ ⟨.chat request, answer⟩ :: later →
    P sofar request

/-- The memory at a point of the loop, from the one it began with. -/
def memoryAfter (env : EngineEnv F) (task : Task F) (run : Run F) (startStep : Int)
    (memory : List MemoryMessage) (sofar : List (Prog.Exchange (EngineCall F) EngineCall.Ans)) :
    List MemoryMessage :=
  ((conversing env run).after (.start task startStep memory) sofar).memory

theorem request_is_window (ran : (startLoop env task run startStep memory).Trace exchanges rest) :
    AtRequests exchanges fun sofar request => request.messages =
      trimMemoryMessages (memoryAfter env task run startStep memory sofar)
        maxEngineMemoryMessages := by
  rintro sofar request answer later rfl
  exact ((Conversation.follows_startLoop env task run startStep memory).allows ran).2

/-- As long as each cut keeps what is required, the memory has it and so do the requests. -/
theorem requests_orderly (each : EachTool R memory)
    (group : ∀ messages id, InGroup messages id → R messages id)
    (after : ∀ front messages id, R messages id → R (front ++ messages) id)
    (ran : (startLoop env task run startStep memory).Trace exchanges rest)
    (survives : AtRequests exchanges fun sofar _ =>
      SurvivesCut R (memoryAfter env task run startStep memory sofar)) :
    AtRequests exchanges fun _ request => EachTool R request.messages := by
  intro sofar request answer later split
  have window := request_is_window ran sofar request answer later split
  have cut := survives sofar request answer later split
  subst split
  obtain ⟨q, first, -⟩ := ran.split
  have orderly : ((conversing env run).after (.start task startStep memory) sofar).Orderly R := by
    refine (Conversation.follows_startLoop env task run startStep memory).invariant
      (Q := fun c call => ∀ request, call = .chat request → SurvivesCut R c.memory) first
      (.start each startStep) ?_ ?_
    · intro c call answer orderly _ survives
      exact orderly.moves group after call answer survives
    · rintro earlier _ answer' later' rfl request' rfl
      exact survives earlier request' answer' _ (by rw [List.append_assoc]; rfl)
  rw [window]
  exact orderly.memory.trim cut after

/-- **The requests keep to the tool-message protocol exactly as far as the window does.**
From any memory that keeps to it, every request of an execution does if and only if each
cut of the memory keeps a caller of every tool message it keeps. If the tool messages of
that memory stand in groups, as those of a fresh one, this is to say that no window
begins with a tool message. -/
theorem requests_obey_tool_protocol_iff
    (begins : (execute env task run).Trace before (startLoop env task run startStep memory))
    (wellFormed : ToolProtocol memory)
    (ran : (execute env task run).Trace (before ++ exchanges) rest) :
    ((AtRequests exchanges fun _ request => ToolProtocol request.messages) ↔
      AtRequests exchanges fun sofar _ =>
        SurvivesCut Called (memoryAfter env task run startStep memory sofar)) ∧
    (InGroups memory →
      ((AtRequests exchanges fun _ request => ToolProtocol request.messages) ↔
        AtRequests exchanges fun sofar _ =>
          CutBetweenGroups (memoryAfter env task run startStep memory sofar))) := by
  have loop := ran.rest begins
  have window := request_is_window loop
  refine ⟨⟨fun obeys sofar request answer later split => ?_, fun survives => ?_⟩,
    fun groups => ⟨fun obeys sofar request answer later split => ?_, fun between => ?_⟩⟩
  · refine survives_of_protocol ?_
    rw [← window sofar request answer later split]
    exact obeys sofar request answer later split
  · exact requests_orderly wellFormed (fun _ _ => InGroup.called) (fun front _ _ => Called.after front)
      loop survives
  · refine cutBetween_of_protocol ?_
    rw [← window sofar request answer later split]
    exact obeys sofar request answer later split
  · have orderly := requests_orderly groups (fun _ _ group => group)
      (fun front _ _ => InGroup.after front) loop fun sofar request answer later split =>
        (between sofar request answer later split).survives
    exact fun sofar request answer later split =>
      (orderly sofar request answer later split).mono fun _ _ => InGroup.called

end Execution

/-! ## Two executions -/

section Length

variable (env : EngineEnv F) (run : Run F)

private theorem trim_length_le (messages : List MemoryMessage) :
    (trimMemoryMessages messages maxEngineMemoryMessages).length ≤ messages.length := by
  by_cases long : maxEngineMemoryMessages < messages.length
  · have inside := headKept_lt_windowStart long
    rw [trim_long long, List.length_append, List.length_take, List.length_drop]
    omega
  · rw [trim_short (not_lt.mp long)]

theorem Conversation.memory_length_le (c : Conversation) :
    c.memory.length ≤ c.messages.length + 1 := by
  unfold Conversation.memory
  split <;> simp

theorem Conversation.moves_length_le (c : Conversation) (call : EngineCall F) (answer : call.Ans) :
    ((conversing env run).moves c call answer).messages.length ≤ c.messages.length + 2 := by
  cases call with
  | chat request =>
    obtain ⟨tokens, response⟩ := answer
    cases response with
    | error message => exact Nat.le_add_right ..
    | ok response =>
      have window := trim_length_le c.memory
      have continued := c.memory_length_le
      change (c.reply response).messages.length ≤ _
      rw [Conversation.reply, List.length_append, List.length_singleton]
      omega
  | executeTool name args =>
    change (c.result env.quote answer).messages.length ≤ _
    unfold Conversation.result
    split
    · omega
    · split
      · omega
      · rw [List.length_append, List.length_singleton]
        omega
  | _ => exact Nat.le_add_right ..

theorem Conversation.after_length_le (c : Conversation)
    (exchanges : List (Prog.Exchange (EngineCall F) EngineCall.Ans)) :
    ((conversing env run).after c exchanges).messages.length ≤
      c.messages.length + 2 * exchanges.length := by
  induction exchanges generalizing c with
  | nil => exact Nat.le_add_right ..
  | cons exchange rest ih =>
    have step := c.moves_length_le env run exchange.1 exchange.2
    have later := ih ((conversing env run).moves c exchange.1 exchange.2)
    rw [List.length_cons]
    change ((conversing env run).after ((conversing env run).moves c exchange.1 exchange.2)
      rest).messages.length ≤ _
    omega

/-- A fresh execution has to go on for a while before its memory is cut. -/
theorem fresh_memory_uncut (task : Task F)
    (sofar : List (Prog.Exchange (EngineCall F) EngineCall.Ans)) (few : sofar.length ≤ 30) :
    (memoryAfter env task run 0 [] sofar).length ≤ maxEngineMemoryMessages := by
  have whole := Conversation.memory_length_le
    ((conversing env run).after (.start task 0 []) sofar)
  have growth := Conversation.after_length_le env run (.start task 0 []) sofar
  have fresh : (Conversation.start task 0 []).messages.length = 2 := rfl
  unfold memoryAfter maxEngineMemoryMessages
  omega

theorem fresh_requests_uncut (task : Task F) (few : exchanges.length ≤ 31) :
    AtRequests exchanges fun sofar _ =>
      (memoryAfter env task run 0 [] sofar).length ≤ maxEngineMemoryMessages := by
  rintro sofar request answer later rfl
  rw [List.length_append, List.length_cons] at few
  exact fresh_memory_uncut env run task sofar (by omega)

end Length

/-- Responses that call so many tools. -/
def callsOf (n : Nat) : LLMResponse :=
  ⟨"looking", List.replicate n ⟨"", "fs.read", "a"⟩, none, "tool_calls", "gpt-4o", "openai"⟩

/-- A tool is called once; the next request carries its message behind the response. -/
theorem one_call_execution :
    ∃ exchanges rest request answer,
      (execute plainEngine freshTask freshRun).Trace (exchanges ++ [⟨.chat request, answer⟩]) rest ∧
      (exchanges ++ [⟨.chat request, answer⟩]).length ≤ 18 ∧
      ∃ msg ∈ request.messages, msg.role = .tool := by
  have whole := Prog.run_trace (atOnce false (.ok (callsOf 1)))
    (execute plainEngine freshTask freshRun)
  obtain ⟨exchanges, rest, count, ran⟩ := whole.upto (i := 15) rfl
  refine ⟨exchanges, rest, _, _, ran, ?_, ?_⟩
  · rw [List.length_append, count]
    decide
  · exact ⟨_, List.mem_of_getElem? (i := 3) rfl, rfl⟩

theorem requests_obey_tool_protocol_one_call :
    ∃ exchanges rest request answer,
      (execute plainEngine freshTask freshRun).Trace (exchanges ++ [⟨.chat request, answer⟩]) rest ∧
      (∃ msg ∈ request.messages, msg.role = .tool) ∧
      AtRequests (exchanges ++ [⟨.chat request, answer⟩]) fun _ request =>
        ToolProtocol request.messages := by
  obtain ⟨exchanges, rest, request, answer, ran, few, tool⟩ := one_call_execution
  refine ⟨exchanges, rest, request, answer, ran, tool, ?_⟩
  have fresh : (execute plainEngine freshTask freshRun).Trace []
    (startLoop plainEngine freshTask freshRun 0 []) := .here _
  refine (requests_obey_tool_protocol_iff fresh (.nil _) ran).1.mpr ?_
  intro sofar request' answer' later split long
  have uncut := fresh_requests_uncut plainEngine freshRun freshTask (few.trans (by decide))
  exact absurd long (not_lt.mpr (uncut sofar request' answer' later split))

/-- A response calls 63 tools: the next request begins, behind the system message, with
the messages of the tools, whose calls it no longer carries. -/
theorem tool_messages_without_caller :
    ∃ exchanges rest request answer,
      (execute plainEngine freshTask freshRun).Trace (exchanges ++ [⟨.chat request, answer⟩]) rest ∧
      ¬ ToolProtocol request.messages := by
  have whole := Prog.run_trace (atOnce false (.ok (callsOf 63)))
    (execute plainEngine freshTask freshRun)
  obtain ⟨exchanges, rest, -, ran⟩ := whole.upto (i := 77) rfl
  refine ⟨exchanges, rest, _, _, ran, fun obeys => ?_⟩
  obtain ⟨caller, member, assistant, -⟩ := obeys 1 _ rfl rfl
  obtain rfl := List.mem_singleton.mp (show caller ∈ [_] from member)
  cases assistant

end AgentForge
