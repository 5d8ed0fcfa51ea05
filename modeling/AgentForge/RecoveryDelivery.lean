import AgentForge.LiveMessages
import AgentForge.Recovery
import AgentForge.System

/-! A pass of `RecoverStaleRuns` over a `MemoryQueue` at work. The pass resets a run, moves
its task and calls `Enqueue`; if that answers nil the run is counted as recovered. But nil
is also what `Enqueue` answers to a key it finds taken or remembered, whatever the message
behind that key is doing: it may have been dispatched before the reset, or be done with. -/
namespace AgentForge

open Transition

section RecoveryDelivery

variable {F : Type}

/-- Where a pass stands: at one of its own calls, or within `Enqueue`, which it called from
there. -/
inductive RequeuePC (F : Type) where
  | calling (pc : RecoveryPC F)
  | enqueueing (pc : RecoveryPC F) (call : EnqueuePC F)

/-- A pass beside the other goroutines of the queue and the other users of the store.
`reset` is the queue's log when the run at hand was reset, and `counted` holds the key of
each run counted as recovered, with the log at its reset. -/
structure RequeueState (F : Type) where
  queue : QueueWorld F
  others : Multiset (QueueThread F)
  world : World F
  pass : RequeuePC F
  reset : List (LogEntry F) := []
  counted : List (String × List (LogEntry F)) := []

inductive RequeueEvent (F : Type) where
  | queue (e : Soup.Event (QueueThread F))
  | store
  | pass
  | enqueue (call : EnqueuePC F)

/-- The log at the last reset, after this call. -/
def notedReset (log reset : List (LogEntry F)) : Call F → List (LogEntry F)
  | .resetRunToQueued .. => log
  | _ => reset

/-- The runs counted, after `Enqueue` has answered. -/
def notedCount (key : String) (reset : List (LogEntry F))
    (counted : List (String × List (LogEntry F))) :
    Except EnqueueError Unit → List (String × List (LogEntry F))
  | .ok () => (key, reset) :: counted
  | .error _ => counted

/-- What the steps of a pass depend on. `text` is the text of an error of `Enqueue`. -/
structure RequeueEnv (F : Type) where
  setting : Setting F
  service : ServiceEnv
  sha256 : Bytes → String
  text : EnqueueError → String

variable [Float64 F]

/-- The goroutines of the queue, the pass, and whoever uses the store take turns. -/
inductive RequeueStep (env : RequeueEnv F) :
    RequeueState F → RequeueEvent F → RequeueState F → Prop where
  | queue {s : RequeueState F} {e : Soup.Event (QueueThread F)} {w : QueueWorld F}
      {others : Multiset (QueueThread F)}
      (step : env.setting.soup.Step ⟨s.queue, s.others⟩ e ⟨w, others⟩) :
      RequeueStep env s (.queue e) { s with queue := w, others := others }
  | store {s : RequeueState F} (world : World F) :
      RequeueStep env s .store { s with world := world }
  | calls {s : RequeueState F} {pc : RecoveryPC F} {call : Call F}
      {resume : call.Ans → RecoveryPC F} {answer : call.Ans} {w : World F}
      (at_call : s.pass = .calling pc) (calls : pc.view env.service = .call call resume)
      (direct : ∀ msg, call ≠ .enqueue msg) (ran : s.world.Exec env.sha256 call answer w) :
      RequeueStep env s .pass { s with
        world := w, pass := .calling (resume answer)
        reset := notedReset s.queue.log s.reset call }
  | begins {s : RequeueState F} {pc : RecoveryPC F} {msg : SQSMessage F}
      {resume : Except String Unit → RecoveryPC F} (at_call : s.pass = .calling pc)
      (calls : pc.view env.service = .call (.enqueue msg) resume) :
      RequeueStep env s .pass { s with pass := .enqueueing pc (.start msg) }
  | enqueues {s : RequeueState F} {pc : RecoveryPC F} {call next : EnqueuePC F}
      {w : QueueWorld F} (at_call : s.pass = .enqueueing pc call)
      (acts : call.Acts env.setting.cfg.normalize env.setting.consumerCancels .caller s.queue w
        {.enqueue .caller next}) :
      RequeueStep env s (.enqueue call) { s with queue := w, pass := .enqueueing pc next }
  | returns {s : RequeueState F} {pc : RecoveryPC F} {call : EnqueuePC F} {msg : SQSMessage F}
      {resume : Except String Unit → RecoveryPC F} {result : Except EnqueueError Unit}
      {w : QueueWorld F} (at_call : s.pass = .enqueueing pc call)
      (calls : pc.view env.service = .call (.enqueue msg) resume)
      (acts : call.Acts env.setting.cfg.normalize env.setting.consumerCancels .caller s.queue w
        {.returned result}) :
      RequeueStep env s (.enqueue call) { s with
        queue := w, others := .returned result ::ₘ s.others
        pass := .calling (resume (result.mapError env.text))
        counted := notedCount (messageKey msg) s.reset s.counted result }

/-- A pass with any arguments, over a new queue and any store. -/
def requeueSystem (env : RequeueEnv F) : System (RequeueState F) (RequeueEvent F) where
  Initial s := env.setting.soup.initial s.queue ∧ s.others = 0 ∧ s.reset = [] ∧ s.counted = [] ∧
    ∃ tenantID staleFor limit, s.pass = .calling (.start tenantID staleFor limit)
  Step := RequeueStep env

/-! ## What is there to be delivered -/

/-- In the channel, just received by `ingressLoop`, or pending. -/
def Stage.deliverable : Stage → Bool
  | .channel | .received | .pending => true
  | _ => false

/-- Since the log was this, a message with the key was dispatched; or one is there to be
dispatched. -/
def Delivered (s : QueueState F) (key : String) (since : List (LogEntry F)) : Prop :=
  (∃ newer msg, s.world.log = newer ++ since ∧ .dispatched msg ∈ newer ∧ messageKey msg = key) ∨
    key ∈ keysAt Stage.deliverable (tokens s.world s.threads)

section Delivered

variable {setting : Setting F} {s t : QueueState F} {e : Soup.Event (QueueThread F)} {key : String}
  {since : List (LogEntry F)}

omit [Float64 F] in
/-- What is there to be dispatched stays there until it is. -/
theorem deliverable_move {move : Move F} (cfg : MemoryQueueConfig)
    (there : key ∈ keysAt Stage.deliverable (move.out + others)) :
    key ∈ keysAt Stage.deliverable (move.into cfg + others) ∨
      ∃ msg, move = .pop msg ∧ messageKey msg = key := by
  rw [keysAt_add, Multiset.mem_add] at there
  rcases there with moved | stayed
  · obtain ⟨token, member, waits, own⟩ := mem_keysAt.mp moved
    cases move with
    | receive msg | add msg | drain msg =>
      obtain rfl := Multiset.mem_singleton.mp member
      rw [Move.into, keysAt_in rfl]
      exact .inl (own ▸ Multiset.mem_cons_self ..)
    | pop msg =>
      obtain rfl := Multiset.mem_singleton.mp member
      exact .inr ⟨msg, rfl, own⟩
    | redrive batch =>
      obtain ⟨msg, -, rfl⟩ := Multiset.mem_map.mp member
      cases waits
    | quiet | offer | passBy | deadLetter | putBack | others => simp [Move.out] at member
    | _ =>
      obtain rfl := Multiset.mem_singleton.mp member
      cases waits
  · rw [keysAt_add]
    exact .inl (Multiset.mem_add.mpr (.inr stayed))

private theorem log_suffix (reached : setting.soup.system.Reachable s)
    (step : setting.soup.system.Step s e t) : s.world.log <:+ t.world.log := by
  obtain ⟨move, others, -, told⟩ := step_told reached step
  obtain ⟨entries, log, -⟩ := told.log
  exact ⟨entries, log.symm⟩

private theorem Delivered.step (delivered : Delivered s key since) (older : since <:+ s.world.log)
    (reached : setting.soup.system.Reachable s) (step : setting.soup.system.Step s e t) :
    Delivered t key since := by
  obtain ⟨move, others, flow, told⟩ := step_told reached step
  obtain ⟨entries, log, tells⟩ := told.log
  rcases delivered with ⟨newer, msg, split, member, own⟩ | there
  · refine .inl ⟨entries ++ newer, msg, ?_, List.mem_append_right _ member, own⟩
    rw [log, split, List.append_assoc]
  · rw [flow.before] at there
    rcases deliverable_move setting.cfg.normalize there with still | ⟨msg, rfl, own⟩
    · exact .inr (flow.after ▸ still)
    · obtain ⟨newer, split⟩ := older
      cases tells with
      | pop =>
        refine .inl ⟨.dispatched msg :: newer, msg, ?_, List.mem_cons_self .., own⟩
        rw [log, ← split]
        rfl
      | silent silent => cases silent

end Delivered

/-! ## The pass among the goroutines -/

/-- The goroutine of the pass, while it is within `Enqueue`. -/
def RequeuePC.own : RequeuePC F → Multiset (QueueThread F)
  | .calling _ => 0
  | .enqueueing _ call => {.enqueue .caller call}

/-- The queue with all its goroutines. -/
def RequeueState.soup (s : RequeueState F) : QueueState F := ⟨s.queue, s.pass.own + s.others⟩

/-- The message of a call of `Enqueue`. -/
def EnqueuePC.message : EnqueuePC F → SQSMessage F
  | .start msg | .mark msg _ | .admission msg | .unmark msg _ | .send msg | .cancelUnmark msg
  | .cancelManager msg => msg

section Pass

variable {env : RequeueEnv F} {s t : RequeueState F} {e : RequeueEvent F}

/-- A step of the pass or of the others is one of the queue, or leaves it as it was. -/
theorem RequeueStep.soup (step : RequeueStep env s e t) :
    t.soup = s.soup ∨ ∃ e', env.setting.soup.system.Step s.soup e' t.soup := by
  cases step with
  | queue step => exact .inr ⟨_, step.frame s.pass.own⟩
  | store world => exact .inl rfl
  | calls at_call calls direct ran =>
    left
    unfold RequeueState.soup
    rw [at_call]
    rfl
  | @begins pc msg resume at_call calls =>
    refine .inr ⟨.spawn (.enqueue .caller (.start msg)), ?_⟩
    unfold RequeueState.soup
    rw [at_call]
    have spawned : env.setting.soup.system.Step ⟨s.queue, s.others⟩ _ _ := .spawn (.enqueue msg)
    simpa [RequeuePC.own] using spawned
  | @enqueues pc call next w at_call acts =>
    refine .inr ⟨.act (.enqueue .caller call), ?_⟩
    unfold RequeueState.soup
    rw [at_call]
    exact .act (.enqueue acts)
  | @returns pc call msg resume result w at_call calls acts =>
    refine .inr ⟨.act (.enqueue .caller call), ?_⟩
    unfold RequeueState.soup
    rw [at_call]
    have acted : env.setting.soup.system.Step ⟨s.queue, .enqueue .caller call ::ₘ s.others⟩ _
        ⟨w, {.returned result} + s.others⟩ := .act (.enqueue acts)
    simpa [RequeuePC.own] using acted

/-- How a call of `Enqueue` by the pass returns: on a key that is taken or remembered, with
the message on the channel, or with an error. -/
theorem EnqueuePC.Acts.returns_cases {consumerCancels : Prop} {call : EnqueuePC F}
    (acts : call.Acts cfg consumerCancels .caller w w' {.returned result}) :
    (∃ msg now, call = .mark msg now ∧ (w.queue.mark cfg now (messageKey msg)).1 = false ∧
        result = .ok () ∧ w' = { w with queue := (w.queue.mark cfg now (messageKey msg)).2 }) ∨
      (∃ msg, call = .send msg ∧ result = .ok () ∧ w' = { w with
        queue := { w.queue with ch := w.queue.ch ++ [msg] }
        log := .sent .caller msg :: w.log }) ∨
      ∃ error, result = .error error ∧ ∀ msg now, call ≠ .mark msg now := by
  generalize same : ({.returned result} : Multiset (QueueThread F)) = left at acts
  cases acts with
  | mark msg now unlocked =>
    cases marked : (w.queue.mark cfg now (messageKey msg)).1 with
    | true =>
      rw [marked] at same
      cases Multiset.singleton_inj.mp same
    | false =>
      rw [marked] at same
      cases Multiset.singleton_inj.mp same
      exact .inl ⟨msg, now, rfl, marked, rfl, rfl⟩
  | send msg room =>
    cases Multiset.singleton_inj.mp same
    exact .inr (.inl ⟨msg, rfl, rfl, rfl⟩)
  | unmark msg violation | cancelManager msg =>
    cases Multiset.singleton_inj.mp same
    exact .inr (.inr ⟨_, rfl, nofun⟩)
  | admission msg opened later =>
    split at same <;> cases Multiset.singleton_inj.mp same
  | start | cancel | cancelUnmark => cases Multiset.singleton_inj.mp same

/-- A call that goes on keeps its key, and has found it free if it has just looked. -/
theorem EnqueuePC.Acts.goes_on {consumerCancels : Prop} {call next : EnqueuePC F}
    (acts : call.Acts cfg consumerCancels .caller w w' {.enqueue .caller next}) :
    messageKey next.message = messageKey call.message ∧
      ∀ msg now, call = .mark msg now → (w.queue.mark cfg now (messageKey msg)).1 = true := by
  generalize same : ({.enqueue .caller next} : Multiset (QueueThread F)) = left at acts
  cases acts with
  | mark msg now unlocked =>
    cases marked : (w.queue.mark cfg now (messageKey msg)).1 with
    | true =>
      rw [marked] at same
      cases Multiset.singleton_inj.mp same
      refine ⟨rfl, ?_⟩
      rintro msg' now' ⟨⟩
      exact marked
    | false =>
      rw [marked] at same
      cases Multiset.singleton_inj.mp same
  | start msg =>
    cases Multiset.singleton_inj.mp same
    exact ⟨messageKey_prepareMessage msg, nofun⟩
  | admission msg opened later =>
    split at same <;>
      (cases Multiset.singleton_inj.mp same; exact ⟨rfl, nofun⟩)
  | cancel | cancelUnmark =>
    cases Multiset.singleton_inj.mp same
    exact ⟨rfl, nofun⟩
  | send | unmark | cancelManager => cases Multiset.singleton_inj.mp same

/-- The report of a pass. -/
def RecoveryPC.report : RecoveryPC F → RecoveryReport
  | .readClock .. | .list .. | .returned (.listFailed _) => {}
  | .contextErr pass .. | .getTask pass .. | .reset pass .. | .updateTask pass ..
  | .enqueue pass .. => pass.report
  | .returned (.cancelled report) | .returned (.done report) => report

def RequeuePC.report : RequeuePC F → RecoveryReport
  | .calling pc | .enqueueing pc _ => pc.report

omit [Float64 F] in
private theorem recovered_loop (pass : RecoveryPass) (runs : List (Run F)) :
    (RecoveryPC.loop pass runs).report.recovered = pass.report.recovered := by
  cases runs <;> rfl

/-- No call but `Enqueue` counts a run. -/
theorem recovered_of_call {pc : RecoveryPC F} {resume : call.Ans → RecoveryPC F}
    (calls : pc.view senv = .call call resume) (direct : ∀ msg, call ≠ .enqueue msg)
    (answer : call.Ans) :
    (resume answer).report.recovered = pc.report.recovered := by
  cases pc with
  | enqueue pass run task rest =>
    cases calls
    exact absurd rfl (direct _)
  | getTask pass run rest =>
    cases calls
    cases answer with
    | error e => exact recovered_loop ..
    | ok task =>
      dsimp only
      split_ifs
      · exact recovered_loop ..
      · exact recovered_loop ..
      · rfl
  | list tenantID staleFor limit now =>
    cases calls
    cases answer with
    | error e => rfl
    | ok runs => exact recovered_loop ..
  | reset pass run task rest =>
    cases calls
    cases answer with
    | error e => exact recovered_loop ..
    | ok _ => rfl
  | contextErr pass run rest =>
    cases calls
    cases answer <;> rfl
  | readClock | updateTask =>
    cases calls
    rfl
  | returned => cases calls

/-- `Enqueue` counts the run if it answers nil. -/
theorem recovered_of_enqueue {pc : RecoveryPC F} {resume : Except String Unit → RecoveryPC F}
    (calls : pc.view senv = .call (.enqueue msg) resume) :
    (resume (.ok ())).report.recovered = pc.report.recovered + 1 ∧
      ∀ message, (resume (.error message)).report.recovered = pc.report.recovered := by
  cases pc with
  | enqueue pass run task rest =>
    cases calls
    exact ⟨recovered_loop { pass with report := pass.report.recover } rest,
      fun message => recovered_loop _ rest⟩
  | _ => cases calls

/-- What is noted beside the pass is what happened. -/
structure Noted (env : RequeueEnv F) (s : RequeueState F) : Prop where
  reached : env.setting.soup.system.Reachable s.soup
  reset : s.reset <:+ s.queue.log
  counted : ∀ entry ∈ s.counted, entry.2 <:+ s.queue.log
  message : ∀ pc call, s.pass = .enqueueing pc call → ∃ msg resume,
    pc.view env.service = .call (.enqueue msg) resume ∧ messageKey call.message = messageKey msg
  recovered : s.pass.report.recovered = s.counted.length

private theorem Noted.log (noted : Noted env s) (step : RequeueStep env s e t) :
    s.queue.log <:+ t.queue.log := by
  rcases step.soup with same | ⟨e', step'⟩
  · have log : t.queue.log = s.queue.log := congrArg (fun q => q.world.log) same
    rw [log]
  · exact log_suffix noted.reached step'

private theorem Noted.step (noted : Noted env s) (step : RequeueStep env s e t) : Noted env t := by
  have grown := noted.log step
  have reached : env.setting.soup.system.Reachable t.soup := by
    rcases step.soup with same | ⟨e', step'⟩
    · rw [same]
      exact noted.reached
    · exact noted.reached.next step'
  cases step with
  | queue | store =>
    exact ⟨reached, noted.reset.trans grown, fun entry member => (noted.counted entry member).trans
      grown, noted.message, noted.recovered⟩
  | @calls pc call resume answer w at_call calls direct ran =>
    refine ⟨reached, ?_, noted.counted, (fun _ _ within => by cases within), ?_⟩
    · unfold notedReset
      split
      · exact List.suffix_refl _
      · exact noted.reset
    · have before := noted.recovered
      rw [at_call] at before
      exact (recovered_of_call calls direct answer).trans before
  | begins at_call calls =>
    refine ⟨reached, noted.reset, noted.counted, ?_, ?_⟩
    · rintro pc call ⟨⟩
      exact ⟨_, _, calls, rfl⟩
    · have before := noted.recovered
      rw [at_call] at before
      exact before
  | enqueues at_call acts =>
    refine ⟨reached, noted.reset.trans grown, fun entry member =>
      (noted.counted entry member).trans grown, ?_, ?_⟩
    · rintro pc call ⟨⟩
      obtain ⟨msg, resume, calls, same⟩ := noted.message _ _ at_call
      exact ⟨msg, resume, calls, acts.goes_on.1.trans same⟩
    · have before := noted.recovered
      rw [at_call] at before
      exact before
  | @returns pc call msg resume result w at_call calls acts =>
    have before := noted.recovered
    rw [at_call] at before
    have after := recovered_of_enqueue calls
    cases result with
    | error error =>
      refine ⟨reached, noted.reset.trans grown, fun entry member =>
        (noted.counted entry member).trans grown, (fun _ _ within => by cases within), ?_⟩
      exact (after.2 _).trans before
    | ok _ =>
      refine ⟨reached, noted.reset.trans grown, ?_, (fun _ _ within => by cases within), ?_⟩
      · intro entry member
        rcases List.mem_cons.mp member with rfl | member
        · exact noted.reset.trans grown
        · exact (noted.counted entry member).trans grown
      · have counted : pc.report.recovered + 1 = ((s.counted.length + 1 : Nat) : Int) := by
          rw [Int.natCast_succ, ← before]
          rfl
        exact after.1.trans counted

private theorem noted_of_reachable (reached : (requeueSystem env).Reachable s) : Noted env s := by
  refine reached.invariant ?_ fun s e t _ noted step => noted.step step
  rintro s ⟨begun, none, reset, counted, tenantID, staleFor, limit, pass⟩
  have soup : s.soup = ⟨s.queue, 0⟩ := by
    unfold RequeueState.soup
    rw [pass, none]
    rfl
  refine ⟨soup ▸ .initial ⟨begun, rfl⟩, ?_, ?_, ?_, ?_⟩
  · rw [reset]
    exact List.nil_suffix
  · rw [counted]
    exact nofun
  · rw [pass]
    exact fun _ _ within => by cases within
  · rw [pass, counted]
    rfl

/-! ## Recovered runs and their messages -/

/-- Each run counted as recovered was dispatched since its reset, or a message of it is
there to be dispatched. -/
def RecoveredDelivered (s : RequeueState F) : Prop :=
  ∀ entry ∈ s.counted, Delivered s.soup entry.1 entry.2

/-- When the pass's `Enqueue` looks at the run's key it finds it free, or the run was
dispatched since the reset, or a message of it is there to be dispatched. -/
def KeyServed (cfg : MemoryQueueConfig) (s : RequeueState F) : RequeueEvent F → Prop
  | .enqueue (.mark msg now) =>
    (s.queue.queue.mark cfg now (messageKey msg)).1 = true ∨
      Delivered s.soup (messageKey msg) s.reset
  | _ => True

private theorem Delivered.next (delivered : Delivered s.soup key since)
    (older : since <:+ s.queue.log)
    (noted : Noted env s) (step : RequeueStep env s e t) : Delivered t.soup key since := by
  rcases step.soup with same | ⟨e', step'⟩
  · rw [same]
    exact delivered
  · exact delivered.step older noted.reached step'

omit [Float64 F] in
/-- A goroutine that carries nothing to be dispatched does not matter. -/
theorem deliverable_beside (none : keysAt Stage.deliverable thread.tokens = 0) :
    keysAt Stage.deliverable (tokens w (thread ::ₘ others)) =
      keysAt Stage.deliverable (tokens w others) := by
  rw [tokens, Multiset.cons_bind, add_assoc, keysAt_add, none, zero_add]
  rfl

omit [Float64 F] in
/-- An `Enqueue` that finds the key taken leaves nothing to be dispatched that was not
there. -/
theorem Delivered.of_taken (taken : (w.queue.mark cfg now (messageKey msg)).1 = false)
    (delivered : Delivered ⟨{ w with queue := (w.queue.mark cfg now (messageKey msg)).2 },
      .returned (.ok ()) ::ₘ others⟩ key since) :
    Delivered ⟨w, .enqueue .caller (.mark msg now) ::ₘ others⟩ key since := by
  have pruned : (w.queue.mark cfg now (messageKey msg)).2 = w.queue.pruneRecent cfg now := by
    rcases w.queue.mark_cases cfg now (messageKey msg) with ⟨-, -, same⟩ | ⟨marked, -⟩
    · exact same
    · cases marked.symm.trans taken
  rcases delivered with dispatched | there
  · exact .inl dispatched
  · rw [pruned, deliverable_beside rfl] at there
    refine .inr ?_
    rw [deliverable_beside rfl]
    exact there

/-- A step keeps every recovered run delivered exactly if it meets the condition. -/
theorem recoveredDelivered_step (noted : Noted env s) (held : RecoveredDelivered s)
    (step : RequeueStep env s e t) :
    RecoveredDelivered t ↔ KeyServed env.setting.cfg.normalize s e := by
  have kept : ∀ entry ∈ s.counted, Delivered t.soup entry.1 entry.2 := fun entry member =>
    (held entry member).next (noted.counted entry member) noted step
  have resetKept : ∀ key, Delivered s.soup key s.reset → Delivered t.soup key s.reset :=
    fun key delivered => delivered.next noted.reset noted step
  cases step with
  | queue | store | calls | begins => exact iff_of_true kept trivial
  | @enqueues pc call next w at_call acts =>
    refine iff_of_true kept ?_
    cases call with
    | mark msg now => exact .inl (acts.goes_on.2 msg now rfl)
    | _ => trivial
  | @returns pc call msg resume result w at_call calls acts =>
    obtain ⟨msg', resume', calls', same⟩ := noted.message _ _ at_call
    obtain rfl : msg = msg' := by
      rw [calls] at calls'
      cases calls'
      rfl
    rcases acts.returns_cases with ⟨copy, now, rfl, taken, rfl, rfl⟩ | ⟨copy, rfl, rfl, rfl⟩ |
      ⟨error, rfl, other⟩
    · -- The run is counted because its key is taken.
      have own : messageKey copy = messageKey msg := same
      constructor
      · intro delivered
        have fresh := delivered _ (List.mem_cons_self ..)
        have before : s.soup = ⟨s.queue, .enqueue .caller (.mark copy now) ::ₘ s.others⟩ := by
          unfold RequeueState.soup
          rw [at_call]
          rfl
        refine .inr ?_
        rw [before, own]
        refine Delivered.of_taken taken ?_
        simpa only [RequeueState.soup, RequeuePC.own, zero_add] using fresh
      · rintro (free | there)
        · cases free.symm.trans taken
        · intro entry member
          rcases List.mem_cons.mp member with rfl | member
          · exact resetKept _ (own ▸ there)
          · exact kept entry member
    · -- It is counted with its message on the channel.
      have own : messageKey copy = messageKey msg := same
      refine iff_of_true (fun entry member => ?_) trivial
      rcases List.mem_cons.mp member with rfl | member
      · refine .inr (mem_keysAt.mpr ⟨(.channel, copy), ?_, rfl, own⟩)
        simp [tokens, RequeueState.soup, QueueWorld.stock, stockOf]
      · exact kept entry member
    · refine iff_of_true kept ?_
      cases call with
      | mark copy now => exact absurd rfl (other copy now)
      | _ => trivial

/-- **A recovered run has a message, unless its key was taken by one that was sent out
before.** In every run of a pass beside a queue at work, over a store that others use as
they like, each run counted in `Recovered` was dispatched since its reset or has a message
in the channel, just received or pending, at all times from then on, if and only if the
pass's `Enqueue` never finds the key of a run taken or remembered for which neither is so.
The runs counted are as many as the report says. -/
theorem recovered_runs_delivered_iff {history : List (RequeueState F × RequeueEvent F)}
    (path : (requeueSystem env).Path history s) :
    (System.Throughout RecoveredDelivered history s ↔
      System.Within (KeyServed env.setting.cfg.normalize) history) ∧
    s.pass.report.recovered = s.counted.length := by
  refine ⟨System.Path.throughout_iff_within ?_ ?_ path, (noted_of_reachable ⟨_, path⟩).recovered⟩
  · rintro s ⟨-, -, -, counted, -⟩
    unfold RecoveredDelivered
    rw [counted]
    exact nofun
  · intro s e t reached held step
    exact recoveredDelivered_step (noted_of_reachable reached) held step

end Pass

end RecoveryDelivery

/-! ## A run whose message is done with -/

section DoneWith

section Setup

variable {F : Type} [Float64 F] {env : RequeueEnv F}

/-- What the queue does before a pass makes its first call. -/
theorem before_pass (path : env.setting.soup.system.Path history q) (world : World F)
    (tenantID : String) (staleFor limit : Int) : ∃ history, (requeueSystem env).Path history
      ⟨q.world, q.threads, world, .calling (.start tenantID staleFor limit), [], []⟩ ∧
      System.Within (KeyServed env.setting.cfg.normalize) history := by
  induction path with
  | @start q initial =>
    exact ⟨[], .start ⟨initial.1, initial.2, rfl, rfl, tenantID, staleFor, limit, rfl⟩,
      by simp [System.Within]⟩
  | next before step ih =>
    obtain ⟨history, path, within⟩ := ih
    exact ⟨_, path.next (.queue step), System.within_cons.mpr ⟨trivial, within⟩⟩

/-- A call of the pass that is carried out. -/
theorem calls_next (before : (requeueSystem env).Path history
      ⟨queue, others, world, .calling pc, reset, counted⟩ ∧
      System.Within (KeyServed env.setting.cfg.normalize) history)
    (calls : pc.view env.service = .call call resume) (direct : ∀ msg, call ≠ .enqueue msg)
    (answer : call.Ans) (ran : world.Runs env.sha256 call answer w) :
    ∃ history, (requeueSystem env).Path history
      ⟨queue, others, w, .calling (resume answer), notedReset queue.log reset call, counted⟩ ∧
      System.Within (KeyServed env.setting.cfg.normalize) history :=
  ⟨_, before.1.next (.calls rfl calls direct (.inl ran)),
    System.within_cons.mpr ⟨trivial, before.2⟩⟩

end Setup

def plainRequeue : RequeueEnv Rat := ⟨relaxedSetting, plainService, fun _ => "", fun _ => ""⟩

def staleRequest : CreateRequest Rat := { tenantID := "a", userID := "ada", prompt := "hello" }

def staleTask : Task Rat :=
  { createdTask staleRequest none 0 "t" "r" with status := .running }

def staleRun : Run Rat :=
  { createdRun staleRequest none 0 "t" "r" with status := .running, startedAt := some 0 }

/-- A task whose run was claimed at time 0 and is still running a minute later. -/
def staleWorld : World Rat where
  store := { tasks := AList.insert "t" staleTask ∅, runs := AList.insert "t#r" staleRun ∅ }
  clock := 61000000000

/-- The run is reset, and the task queued again. -/
def resetWorld : World Rat :=
  let world := staleWorld.after (staleWorld.store.resetRunToQueued 61000000000 "t" "r")
  world.after (world.store.updateTaskStatusForRun 61000000000 "t" "r"
    [.running, .queued, .failed, .aborted, .succeeded] .queued)

/-- The pass at its call of `Enqueue`. -/
def requeueing : RecoveryPC Rat :=
  .enqueue ⟨61000000000, 60000000000, { scanned := 1 }⟩ staleRun staleTask []

def requeuedMessage : SQSMessage Rat :=
  runMessage plainService "a" "t" "r" "hello" none 61000000000

/-- The pass lists the run, finds it stale and resets it. -/
theorem stale_run_reset (before : (requeueSystem plainRequeue).Path history
      ⟨queue, others, staleWorld, .calling (.start "a" 60000000000 0), [], []⟩ ∧
      System.Within (KeyServed smallQueue.normalize) history) :
    ∃ history, (requeueSystem plainRequeue).Path history
      ⟨queue, others, resetWorld, .enqueueing requeueing (.start requeuedMessage), queue.log, []⟩ ∧
      System.Within (KeyServed smallQueue.normalize) history := by
  obtain ⟨_, read⟩ := calls_next before rfl (by exact nofun) _ (by exact ⟨rfl, rfl⟩)
  obtain ⟨_, listed⟩ := calls_next read rfl (by exact nofun) _ (by exact ⟨rfl, rfl⟩)
  obtain ⟨_, going⟩ := calls_next listed rfl (by exact nofun) (by exact false) (by exact rfl)
  obtain ⟨_, found⟩ := calls_next going rfl (by exact nofun) _ (by exact ⟨rfl, rfl⟩)
  obtain ⟨_, reset⟩ := calls_next found rfl (by exact nofun) _ (by exact ⟨rfl, rfl⟩)
  obtain ⟨_, updated⟩ := calls_next reset rfl (by exact nofun) _ (by exact ⟨rfl, rfl⟩)
  exact ⟨_, updated.1.next (.begins rfl rfl), System.within_cons.mpr ⟨trivial, updated.2⟩⟩

/-- A pass over a new queue: the key is free, and the run's message is put on the channel. -/
theorem recovered_run_delivered_free_key : ∃ history s,
    (requeueSystem plainRequeue).Path history s ∧
      s.pass = .calling (.returned (.done ⟨1, 1, 0, []⟩)) ∧
      System.Throughout RecoveredDelivered history s := by
  have start : (requeueSystem plainRequeue).Path []
      ⟨{ manager := .newManager ⟨0, 0, 0, 0, 0, 0, 0⟩, clock := 61000000000 }, 0, staleWorld,
        .calling (.start "a" 60000000000 0), [], []⟩ :=
    .start ⟨⟨rfl, rfl⟩, rfl, rfl, rfl, _, _, _, rfl⟩
  obtain ⟨history, called, within⟩ := stale_run_reset ⟨start, by simp [System.Within]⟩
  have prepared := called.next (.enqueues rfl (.start _))
  have marked := prepared.next (.enqueues rfl (.mark _ _ rfl))
  have admitted := marked.next (.enqueues rfl (.admission _ 61000000000 (le_refl _)))
  have sent := admitted.next (.returns rfl rfl (.send _ Int.zero_lt_one))
  refine ⟨_, _, sent, rfl, (recovered_runs_delivered_iff sent).1.mpr ?_⟩
  iterate 2 refine System.within_cons.mpr ⟨trivial, ?_⟩
  exact System.within_cons.mpr ⟨.inl rfl, System.within_cons.mpr ⟨trivial, within⟩⟩

/-- The message was handled at time 1, and its key is remembered. -/
def doneWorld : QueueWorld Rat :=
  { busyWorld with
    queue := { recent := AList.insert "a#t#r" 1 ∅ }
    manager := busyWorld.manager.completeRun 1 "a"
      (completionInfo smallQueue.normalize firstMessage false)
    clock := 61000000000
    log := .finished firstMessage false :: busyWorld.log }

/-- A pass a minute after the message was handled: the key is remembered, so that nothing is
put on the channel, and the run is counted as recovered. It is queued, no message of it is
anywhere in the queue, and no goroutine carries one. -/
theorem recovered_run_left_queued : ∃ history s run,
    (requeueSystem plainRequeue).Path history s ∧
      s.pass = .calling (.returned (.done ⟨1, 1, 0, []⟩)) ∧
      s.world.store.getRun "t" "r" = .ok run ∧ run.status = .queued ∧
      tokens s.queue s.soup.threads = {(.done, firstMessage)} ∧ ¬ RecoveredDelivered s := by
  have completed := busy_reached.turns (.dispatch (.releasing firstMessage false))
    (.dispatch (.complete _ false)) trivial
  have released : relaxedSetting.soup.ReachedWithin (CopyHeld smallQueue.normalize)
      ⟨{ doneWorld with clock := 1 }, .dispatch .idle ::ₘ .ingress .waiting ::ₘ
        .returned (.ok ()) ::ₘ 0⟩ :=
    completed.act (.dispatch (.release _ _ rfl)) trivial
  have waited : relaxedSetting.soup.ReachedWithin (CopyHeld smallQueue.normalize)
      ⟨doneWorld, .dispatch .idle ::ₘ .ingress .waiting ::ₘ .returned (.ok ()) ::ₘ 0⟩ :=
    released.env ⟨.inl rfl, by decide, rfl⟩ trivial
  obtain ⟨_, path, -⟩ := waited
  have begun : plainRequeue.setting.soup.system.Path _ _ := path
  obtain ⟨_, before⟩ := before_pass begun staleWorld "a" 60000000000 0
  obtain ⟨_, called, -⟩ := stale_run_reset before
  have prepared := called.next (.enqueues rfl (.start _))
  have counted := prepared.next (.returns rfl rfl (.mark _ _ rfl))
  refine ⟨_, _, _, counted, rfl, rfl, rfl, rfl, fun delivered => ?_⟩
  rcases delivered _ (List.mem_cons_self ..) with ⟨newer, msg, split, member, -⟩ | there
  · obtain rfl : newer = [] := List.self_eq_append_left.mp split
    cases member
  · cases there

end DoneWith

end AgentForge
