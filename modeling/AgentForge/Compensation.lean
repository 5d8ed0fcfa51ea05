import AgentForge.PickedUp
import AgentForge.RecoverySafety

/-! What `Resume` does when its `Enqueue` fails: `markRunAndTaskFailed` completes the new
run as `FAILED` whatever its status is by then. That is harmless as long as nobody else
has queued the run. A `Create` with the task's idempotency key does queue whatever run is
active and queued, so that a worker may hold the run that is being failed. -/
namespace AgentForge

open Transition (System Config Event View forall_update forall_update_of_ne)

section Compensation

variable {F : Type}

/-- A message of the run was queued by somebody. -/
def World.SentKey (w : World F) (k : String) : Prop := ∃ msg ∈ w.sent, msg.key = k

/-- The new run a resuming request has still to queue or to fail. -/
def Thread.owes : Thread F → Option String
  | .resume (.enqueue msg) => some msg.key
  | .resume (.failRun taskID runID _) => some (runKey taskID runID)
  | _ => none

/-- A worker has claimed the run, now or earlier. -/
def World.Claimed (w : World F) (taskID runID : String) : Prop :=
  ∃ status, w.runStatus (runKey taskID runID) = some status ∧ status ≠ .queued

/-- Nobody else queues the run of a resuming request whose `Enqueue` fails: nobody has
when it fails, and nobody does until the run is failed. -/
def NobodyElseQueues (c : Config (World F) (Thread F)) (e : Event (Thread F))
    (c' : Config (World F) (Thread F)) : Prop :=
  ∀ i, e = .step i →
    (∀ msg, c.threads i = some (.resume (.enqueue msg)) →
      c'.world.refused = msg :: c.world.refused → ¬ c.world.SentKey msg.key) ∧
    ∀ msg, c'.world.sent = msg :: c.world.sent → ∀ j taskID runID message,
      c.threads j = some (.resume (.failRun taskID runID message)) → runKey taskID runID ≠ msg.key

/-- No resuming request is about to fail a run that was claimed. -/
def FailsUnclaimed (c : Config (World F) (Thread F)) : Prop :=
  ∀ i taskID runID message, c.threads i = some (.resume (.failRun taskID runID message)) →
    ¬ c.world.Claimed taskID runID

/-- Workers have queued runs, a new run has one request to settle it and is queued until
somebody queues it, and nobody queues a run that is being failed. -/
structure Alone (c : Config (World F) (Thread F)) : Prop where
  workers : ∀ i thread, c.threads i = some thread → ∀ pc k, thread = .worker pc →
    thread.touches = some k → c.world.SentKey k
  debtors : ∀ i j thread thread' k, c.threads i = some thread → c.threads j = some thread' →
    thread.owes = some k → thread'.owes = some k → i = j
  unsent : ∀ i thread, c.threads i = some thread → ∀ k, thread.owes = some k →
    ¬ c.world.SentKey k → ∃ t, c.world.ledger.run k = some (t, .queued)
  failing : ∀ i thread, c.threads i = some thread → ∀ taskID runID message,
    thread = .resume (.failRun taskID runID message) → ¬ c.world.SentKey (runKey taskID runID)

variable {w w' : World F} {k taskID runID : String}

theorem Alone.failsUnclaimed (alone : Alone c) : FailsUnclaimed c := by
  rintro i taskID runID message there ⟨status, found, left⟩
  obtain ⟨t, queued⟩ := alone.unsent i _ there _ rfl (alone.failing i _ there _ _ _ rfl)
  rw [runStatus_ledger, queued] at found
  cases found
  exact left rfl

variable {permits : Thread F → (call : Call F) → call.Ans → Prop}
  {c c' : Config (World F) (Thread F)} {e : Event (Thread F)} {i : Nat}

theorem World.SentKey.grows (sent : w.SentKey k) (grown : w.sent ⊆ w'.sent) : w'.SentKey k := by
  obtain ⟨msg, member, same⟩ := sent
  exact ⟨msg, grown member, same⟩

/-- What a thread owes exists. -/
theorem Thread.Informed.owed {thread : Thread F} (informed : thread.Informed w.ledger)
    (owes : thread.owes = some k) : ∃ t, w.ledger.Owns t k := by
  cases thread with
  | resume pc =>
    cases pc with
    | enqueue msg =>
      cases owes
      exact ⟨_, informed.2.2⟩
    | failRun taskID runID message =>
      cases owes
      exact ⟨_, informed⟩
    | _ => cases owes
  | _ => cases owes

/-- Nobody changes a new run that nobody has queued but the request that owes it. -/
theorem Alone.untouched (alone : Alone c) (there : c.threads i = some thread)
    (at' : c.threads j = some other) (apart : j ≠ i) (owes : other.owes = some k)
    (unsent : ¬ c.world.SentKey k) : thread.touches ≠ some k := by
  intro touches
  cases thread with
  | create pc | abort pc => cases touches
  | worker pc => exact unsent (alone.workers i _ there pc k rfl touches)
  | resume pc =>
    cases pc with
    | failRun taskID runID message =>
      exact apart (alone.debtors j i other _ k at' there owes touches)
    | _ => cases touches

/-- Whoever moves, a run that two requests owe was owed by both before. -/
theorem Alone.debtors_update (alone : Alone c)
    (rest : ∀ j other k, j ≠ i → c.threads j = some other → other.owes = some k →
      next.owes ≠ some k) :
    ∀ j j' other other' k, Function.update c.threads i (some next) j = some other →
      Function.update c.threads i (some next) j' = some other' →
      other.owes = some k → other'.owes = some k → j = j' := by
  intro j j' other other' k at' at'' owes owes'
  by_cases mine : j = i
  · by_cases mine' : j' = i
    · exact mine.trans mine'.symm
    · subst mine
      rw [Function.update_self, Option.some.injEq] at at'
      rw [Function.update_of_ne mine'] at at''
      exact absurd (at' ▸ owes) (rest j' other' k mine' at'' owes')
  · rw [Function.update_of_ne mine] at at'
    by_cases mine' : j' = i
    · subst mine'
      rw [Function.update_self, Option.some.injEq] at at''
      exact absurd (at'' ▸ owes') (rest j other k mine at' owes)
    · rw [Function.update_of_ne mine'] at at''
      exact alone.debtors j j' other other' k at' at'' owes owes'

/-- A thread that begins or moves by itself owes nothing, and works for a queued run if it
is a worker. -/
theorem Alone.after_move (alone : Alone c) (idle : next.owes = none)
    (worker : ∀ pc k, next = .worker pc → next.touches = some k → c.world.SentKey k) :
    Alone ⟨c.world, Function.update c.threads i (some next)⟩ := by
  refine ⟨forall_update worker alone.workers, alone.debtors_update ?_,
    forall_update ?_ alone.unsent, forall_update ?_ alone.failing⟩
  · intro j other k apart at' owes next
    rw [idle] at next
    cases next
  · intro k owes
    rw [idle] at owes
    cases owes
  · rintro taskID runID message rfl
    cases idle

variable [Float64 F] {senv : ServiceEnv} {eenv : EngineEnv F} {sha256 : Bytes → String}
  {call : Call F} {answer : call.Ans}

theorem WorkerPC.touches_next (calls : pc.view eenv = .call call resume)
    (touches : (Thread.worker (resume answer)).touches = some k) :
    (Thread.worker pc).touches = some k := by
  rw [Thread.touches_worker, Option.map_eq_some_iff] at touches ⊢
  obtain ⟨msg, carries, same⟩ := touches
  exact ⟨msg, carries_next calls carries, same⟩

/-- A request comes to owe its run when it has written it, and goes on to when its
`Enqueue` is refused. -/
theorem Thread.owes_next {thread : Thread F} {resume : call.Ans → Thread F}
    (calls : thread.view senv eenv = .call call resume) (works : StoreWorks call answer)
    (ran : w.Exec sha256 call answer w') (owes : (resume answer).owes = some k) :
    (∃ msg, thread = .resume (.enqueue msg) ∧ msg.key = k ∧
      w' = { w with refused := msg :: w.refused }) ∨
    (∃ msg, resume answer = .resume (.enqueue msg)) ∧ w.ledger.run k = none ∧
      ∃ t, w'.ledger.run k = some (t, .queued) := by
  cases thread with
  | resume pc =>
    obtain ⟨resume', calls', rfl⟩ := View.map_eq_call.mp calls
    cases pc with
    | getTask taskID req =>
      cases calls'
      cases answer with
      | ok task =>
        dsimp only at owes
        unfold ResumePC.checkRequest at owes
        split_ifs at owes <;> cases owes
      | error e => cases owes
    | getRun taskID req task =>
      cases calls'
      cases answer <;> cases owes
    | getStep taskID req task =>
      cases calls'
      cases answer with
      | ok step =>
        dsimp only at owes
        split at owes <;> cases owes
      | error e => cases owes
    | readClock taskID req task | failRun taskID runID message | failTask taskID runID message =>
      cases calls'
      cases owes
    | newRunID taskID req task now =>
      cases calls'
      dsimp only at owes
      split at owes <;> cases owes
    | apply taskID req task mc now runID =>
      cases calls'
      rcases runs_applyResumeTransition (works.runs ran) with
        ⟨rfl, -, -, -, -, newRun, left⟩ | ⟨e, rfl, -⟩
      · cases owes
        refine .inr ⟨⟨_, rfl⟩, newRun, taskID, ?_⟩
        rw [left]
        simp [SQSMessage.key, runMessage, resumedRun]
      · cases owes
    | enqueue msg =>
      cases calls'
      have asked := works.runs ran
      cases answer with
      | ok _ => cases owes
      | error message =>
        dsimp only at owes
        split at owes
        · cases owes
        · exact .inl ⟨msg, rfl, Option.some.inj owes, asked⟩
    | returned result => cases calls'
  | _ =>
    obtain ⟨resume', -, rfl⟩ := View.map_eq_call.mp calls
    cases owes

theorem Alone.after_call {thread : Thread F} {resume : call.Ans → Thread F} (alone : Alone c)
    (facts : ServiceFacts c) (there : c.threads i = some thread)
    (calls : thread.view senv eenv = .call call resume) (works : StoreWorks call answer)
    (ran : c.world.Exec sha256 call answer w') (nobody : NobodyElseQueues c (.step i)
      ⟨w', Function.update c.threads i (some (resume answer))⟩) :
    Alone ⟨w', Function.update c.threads i (some (resume answer))⟩ := by
  have informed := facts.informed i thread there
  have effect := (Thread.effect facts.keyed facts.active informed calls works ran).1
  have grown := (exec_grows ran).1
  refine ⟨forall_update ?_ ?_, alone.debtors_update ?_, forall_update_of_ne ?_ ?_,
    forall_update_of_ne ?_ ?_⟩
  · intro pc k next touches
    cases thread with
    | worker pc' =>
      obtain ⟨resume', calls', rfl⟩ := View.map_eq_call.mp calls
      exact (alone.workers i _ there pc' k rfl (WorkerPC.touches_next calls' touches)).grows grown
    | _ =>
      obtain ⟨resume', -, rfl⟩ := View.map_eq_call.mp calls
      cases next
  · intro j other at' pc k same touches
    exact (alone.workers j other at' pc k same touches).grows grown
  · intro j other k apart at' owes next
    rcases Thread.owes_next calls works ran next with ⟨msg, rfl, rfl, -⟩ | ⟨-, fresh, -⟩
    · exact apart (alone.debtors j i other _ _ at' there owes rfl)
    · obtain ⟨t, run, found⟩ := (facts.informed j other at').owed owes
      rw [fresh] at found
      cases found
  · intro k owes unsent
    rcases Thread.owes_next calls works ran owes with ⟨msg, rfl, rfl, rfl⟩ | ⟨-, -, queued⟩
    · rw [ledger_refuse]
      exact alone.unsent i _ there _ rfl unsent
    · exact queued
  · intro j other apart at' k owes unsent
    have unsentBefore : ¬ c.world.SentKey k := fun sent => unsent (sent.grows grown)
    obtain ⟨t, queued⟩ := alone.unsent j other at' k owes unsentBefore
    exact ⟨t, effect.run_untouched (alone.untouched there at' apart owes unsentBefore) queued⟩
  · intro taskID runID message next
    have owes : (resume answer).owes = some (runKey taskID runID) := by rw [next]; rfl
    rcases Thread.owes_next calls works ran owes with ⟨msg, rfl, same, rfl⟩ | ⟨⟨msg, other⟩, -⟩
    · rw [← same]
      exact (nobody i rfl).1 msg there rfl
    · cases other.symm.trans next
  · rintro j other apart at' taskID runID message rfl ⟨msg, member, same⟩
    have unsent := alone.failing j _ at' taskID runID message rfl
    rcases exec_logs ran with ⟨sent, -⟩ | ⟨msg', -, ⟨-, sent, -⟩ | ⟨-, sent, -⟩⟩
    · exact unsent ⟨msg, sent ▸ member, same⟩
    · rw [sent] at member
      rcases List.mem_cons.mp member with rfl | member
      · exact (nobody i rfl).2 msg sent j taskID runID message at' same.symm
      · exact unsent ⟨msg, member, same⟩
    · exact unsent ⟨msg, sent ▸ member, same⟩

theorem Thread.Starts.owes_none (begins : Thread.Starts senv w thread) : thread.owes = none := by
  cases begins with
  | resume taskID req =>
    unfold ResumePC.start
    split_ifs <;> rfl
  | _ => rfl

theorem Alone.after_step (facts : ServiceFacts c) (alone : Alone c)
    (nobody : NobodyElseQueues c e c') (step : (servicePool senv eenv permits).Step c e c') :
    Alone c' := by
  cases step with
  | start free begins =>
    have idle := begins.owes_none
    refine alone.after_move idle ?_
    rintro pc k rfl touches
    cases begins with
    | worker queued =>
      cases touches
      exact ⟨_, queued, rfl⟩
  | tau there moves =>
    obtain ⟨msg, task, run, outcome, rfl, rfl⟩ := Thread.tau_eq moves
    refine alone.after_move rfl fun pc k _ touches => ?_
    exact alone.workers _ _ there _ k rfl touches
  | call there calls permitted ran =>
    exact alone.after_call facts there calls permitted.1 ran nobody
  | env changed =>
    obtain ⟨clock, rfl⟩ := changed
    exact ⟨alone.workers, alone.debtors, alone.unsent, alone.failing⟩
  | stop there dies => exact dies.elim

/-! ## What the compensation writes -/

variable {message : String}

/-- The run is failed whatever its status was. -/
theorem failRun_step (facts : ServiceFacts c)
    (there : c.threads i = some (.resume (.failRun taskID runID message)))
    (step : (servicePool senv eenv permits).Step c (.step i) c') :
    c'.world.runStatus (runKey taskID runID) = some .failed := by
  obtain ⟨old, found⟩ := facts.informed i _ there
  cases step with
  | tau there' moves =>
    cases there.symm.trans there'
    cases moves
  | call there' calls permitted ran =>
    cases there.symm.trans there'
    cases calls
    obtain ⟨-, left⟩ := runs_completeRun found (permitted.1.runs ran)
    rw [runStatus_setRun left, Function.update_self]

/-- The task is failed if the run is its active one and it is queued or running. -/
theorem failTask_step (there : c.threads i = some (.resume (.failTask taskID runID message)))
    (step : (servicePool senv eenv permits).Step c (.step i) c') :
    (∃ status, (status = .queued ∨ status = .running) ∧
      c.world.ledger.task taskID = some (runKey taskID runID, status) ∧
      c'.world.ledger.task taskID = some (runKey taskID runID, .failed)) ∨
    c'.world.ledger.task taskID = c.world.ledger.task taskID ∧
      ∀ status, c.world.ledger.task taskID = some (runKey taskID runID, status) →
        status ≠ .queued ∧ status ≠ .running := by
  cases step with
  | tau there' moves =>
    cases there.symm.trans there'
    cases moves
  | call there' calls permitted ran =>
    cases there.symm.trans there'
    cases calls
    rcases runs_updateTaskStatusForRun (permitted.1.runs ran) with
      ⟨-, status, listed, active, left⟩ | ⟨e, -, -, rfl, unlisted⟩
    · exact .inl ⟨status, by simpa using listed, active, by simp [left]⟩
    · exact .inr ⟨rfl, fun status active => by simpa using unlisted status active⟩

variable {history : List (Config (World F) (Thread F) × Event (Thread F))}

/-- **Compensation and claims.** Where nobody else queues the run that a resuming request
fails to queue, the request is never about to fail a run that was claimed. Whenever it
does fail a run, the run is left as it was exactly if it had failed already, and then the
task exactly if this is not its active run or it is neither queued nor running. -/
theorem resume_fails_only_unclaimed_runs
    (path : (servicePool senv eenv permits).system.Path history c) :
    (System.Along NobodyElseQueues history c → System.Throughout FailsUnclaimed history c) ∧
      ∀ i taskID runID message c', (servicePool senv eenv permits).Step c (.step i) c' →
        (c.threads i = some (.resume (.failRun taskID runID message)) →
          (c'.world.runStatus (runKey taskID runID) = c.world.runStatus (runKey taskID runID) ↔
            c.world.runStatus (runKey taskID runID) = some .failed)) ∧
        (c.threads i = some (.resume (.failTask taskID runID message)) →
          (c'.world.ledger.task taskID = c.world.ledger.task taskID ↔
            ∀ status, c.world.ledger.task taskID = some (runKey taskID runID, status) →
              status ≠ .queued ∧ status ≠ .running)) := by
  refine ⟨fun along => ?_, fun i taskID runID message c' step => ⟨fun there => ?_, fun there => ?_⟩⟩
  · have alone : System.Throughout Alone history c := by
      refine path.invariant_along ?_ ?_ along
      · rintro c ⟨-, threads⟩
        constructor <;> simp [threads]
      · intro c e c' reached alone nobody step
        exact alone.after_step (facts_of_reachable reached) nobody step
    exact ⟨alone.1.failsUnclaimed, fun past member => (alone.2 past member).failsUnclaimed⟩
  · rw [failRun_step (facts_of_reachable ⟨history, path⟩) there step]
    exact eq_comm
  · rcases failTask_step there step with ⟨status, open', active, failed⟩ | ⟨same, closed⟩
    · refine iff_of_false ?_ fun closed => ?_
      · rw [active, failed]
        rintro same
        cases same
        rcases open' with open' | open' <;> cases open'
      · obtain ⟨notQueued, notRunning⟩ := closed status active
        exact open'.elim notQueued notRunning
    · exact iff_of_true same closed

end Compensation

/-! ## A resumed task -/

section ResumedTask

variable {c : Config (World Rat) (Thread Rat)} {i : Nat}

/-- A run ends here in which no resuming request has come to its `Enqueue`. -/
def NoneOwed (c : Config (World Rat) (Thread Rat)) : Prop :=
  (∃ history, (servicePool plainService plainEngine fun _ _ _ => True).system.Path history c ∧
    System.Along NobodyElseQueues history c) ∧
  ∀ j other, c.threads j = some other → other.owes = none

theorem NoneOwed.nobody (quiet : NoneOwed c) : NobodyElseQueues c e c' := by
  intro i same
  constructor
  · intro msg there
    cases quiet.2 i _ there
  · intro msg sent j taskID runID message there
    cases quiet.2 j _ there

theorem NoneOwed.next {next : Thread Rat} (quiet : NoneOwed c)
    (step : (servicePool plainService plainEngine fun _ _ _ => True).Step c e
      ⟨w, Function.update c.threads i (some next)⟩) (idle : next.owes = none) :
    NoneOwed ⟨w, Function.update c.threads i (some next)⟩ := by
  obtain ⟨history, path, along⟩ := quiet.1
  exact ⟨⟨_, path.next step, quiet.nobody, along⟩, forall_update idle quiet.2⟩

/-- Thread `i` takes its next step, which is not one to `Enqueue` in `Resume`. -/
def quietTurn (outside : Outside Rat) (c : Config (World Rat) (Thread Rat)) (i : Nat) :=
  ((servicePool plainService plainEngine fun _ _ _ => True).turn
    (World.respond plainEngine.sha256 outside) c i).filter fun after =>
      ((after.2.threads i).bind Thread.owes).isNone

theorem NoneOwed.turns (quiet : NoneOwed c) (outside : Outside Rat) (threads : List Nat)
    (took : System.follow (quietTurn outside) threads [] c = some (history, c')) : NoneOwed c' := by
  refine System.follow_keeps (Q := fun _ c => NoneOwed c) ?_ quiet took
  intro _ c i e t quiet taken
  obtain ⟨turned, idle⟩ := Option.filter_eq_some_iff.mp taken
  obtain ⟨next, moved⟩ := Transition.Pool.turn_threads turned
  obtain ⟨history, path, along⟩ := quiet.1
  refine ⟨⟨_, path.next ((plainService_serves outside).step turned), quiet.nobody, along⟩, ?_⟩
  rw [moved] at idle ⊢
  exact forall_update (by simpa using idle) quiet.2

/-! A task whose first run succeeded and whose second was just opened by `Resume`. -/

def firstRunID : String := newID "run_" (Vector.replicate 12 0)

def secondRunID : String := newID "run_" (Vector.replicate 12 1)

def keyedTaskID : String := newID "task_" (Vector.replicate 12 0)

def resumeRequest : ResumeRequest Rat :=
  { tenantID := "acme", userID := "ada", fromRunID := firstRunID, fromStepIndex := 0 }

def finalAnswer : LLMResponse := ⟨"done", [], none, "stop", "", ""⟩

def answering (letter : UInt8) : Outside Rat :=
  { outsideWorks letter with engine := atOnce false (.ok finalAnswer) }

def savedCheckpoint : CheckpointRef :=
  ⟨some ⟨memoryS3Key "acme" keyedTaskID firstRunID 0, "", 0⟩,
    some ⟨workspaceS3Key "acme" keyedTaskID firstRunID 0, "", 0⟩⟩

def savedStep : Step :=
  { runID := firstRunID, stepIndex := 0, type := .llmCall, status := .ok, input := "done"
    tsStart := 0, tsEnd := 0, checkpointRef := some savedCheckpoint }

def finishedRun : Run Rat :=
  { createdRun (keyedRequest "hello") none 0 keyedTaskID firstRunID with
    status := .succeeded, startedAt := some 0, endedAt := some 0, lastStepIndex := 1 }

def resumedWorld : World Rat where
  store := {
    tasks := AList.insert keyedTaskID
      (createdTask (keyedRequest "hello") none 0 keyedTaskID secondRunID) ∅
    runs := AList.insert (runKey keyedTaskID secondRunID)
      (resumedRun keyedTaskID resumeRequest none 0 secondRunID)
      (AList.insert (runKey keyedTaskID firstRunID) finishedRun ∅)
    steps := AList.insert (stepKey firstRunID 1)
      { savedStep with stepIndex := 1, type := .final }
      (AList.insert (stepKey firstRunID 0) savedStep ∅)
    idempotency := AList.insert (idempKey "acme" "k") keyedTaskID ∅ }
  blobs := AList.insert (workspaceS3Key "acme" keyedTaskID firstRunID 0) []
    (AList.insert (memoryS3Key "acme" keyedTaskID firstRunID 0) [] ∅)
  sent := [runMessage plainService "acme" keyedTaskID firstRunID "hello" none 0]

def resumedMessage : SQSMessage Rat :=
  runMessage plainService "acme" keyedTaskID secondRunID "hello" none 0

/-- The task is created, its run executed to the end, and `Resume` opens a run from its
first step. -/
theorem resumed : ∃ history threads,
    (servicePool plainService plainEngine fun _ _ _ => True).system.Path history
      ⟨resumedWorld, threads⟩ ∧
    System.Along NobodyElseQueues history ⟨resumedWorld, threads⟩ ∧
    threads 2 = some (.resume (.enqueue resumedMessage)) ∧ threads 3 = none ∧ threads 4 = none := by
  have c0 : NoneOwed ⟨{}, fun _ => none⟩ :=
    ⟨⟨[], .start ⟨⟨rfl, rfl, rfl⟩, rfl⟩, trivial⟩, fun _ _ there => by cases there⟩
  have c1 := c0.next (.start (i := 0) rfl (.create (keyedRequest "hello")))
    rfl
  have c2 := c1.turns (answering 0) [0, 0, 0, 0, 0, 0] rfl
  -- a worker claims the run and executes its one step
  have c3 := c2.next (.start (i := 1) rfl (.worker (List.mem_cons_self ..)))
    rfl
  have c4 := c3.turns (answering 0) (List.replicate 21 1) rfl
  -- the task is resumed
  have c5 := c4.next (.start (i := 2) rfl (.resume keyedTaskID resumeRequest)) rfl
  have c6 := c5.turns (answering 1) [2, 2, 2, 2, 2] rfl
  obtain ⟨history, path, along⟩ := c6.1
  have opened := (plainService_serves (answering 1)).path path [2] rfl
  exact ⟨_, _, opened, ⟨c6.nobody, along⟩, rfl, rfl, rfl⟩

/-- The queue has refused the second run. -/
def refusedConfig (threads : Nat → Option (Thread Rat)) : Config (World Rat) (Thread Rat) where
  world := { resumedWorld with refused := [resumedMessage] }
  threads := Function.update threads 2
    (some (.resume (.failRun keyedTaskID secondRunID "queue is full")))

/-- `Resume` fails to queue its run, which nobody has claimed. -/
theorem resume_fails_only_unclaimed_runs_refused : ∃ history c c' message,
    (servicePool plainService plainEngine fun _ _ _ => True).system.Path history c ∧
      c.threads 2 = some (.resume (.failRun keyedTaskID secondRunID message)) ∧
      (servicePool plainService plainEngine fun _ _ _ => True).Step c (.step 2) c' ∧
      System.Throughout FailsUnclaimed history c ∧
      c'.world.runStatus (runKey keyedTaskID secondRunID) ≠
        c.world.runStatus (runKey keyedTaskID secondRunID) := by
  obtain ⟨history, threads, path, along, second, -⟩ := resumed
  have path' := path.next (runs_step (i := 2) second rfl (by exact .error "queue is full") trivial
    (by exact rfl))
  have nobody : NobodyElseQueues ⟨resumedWorld, threads⟩ (.step 2) (refusedConfig threads) := by
    rintro i same
    cases same
    refine ⟨?_, fun msg sent => absurd (congrArg List.length sent) (by simp [refusedConfig])⟩
    rintro msg there - ⟨msg', member, same⟩
    cases second.symm.trans there
    obtain rfl := List.mem_singleton.mp member
    exact absurd same (by decide)
  have step : (servicePool plainService plainEngine fun _ _ _ => True).Step (refusedConfig threads)
      (.step 2) _ := runs_step (i := 2) rfl rfl _ trivial (by exact ⟨rfl, rfl⟩)
  have exact' := resume_fails_only_unclaimed_runs path'
  refine ⟨_, _, _, _, path', rfl, step, exact'.1 ⟨nobody, along⟩, fun same => ?_⟩
  have failed := ((exact'.2 2 _ _ _ _ step).1 rfl).mp same
  cases failed

/-- A `Create` with the task's key queues the new run and a worker claims it. The
`Enqueue` of `Resume` fails, and the compensation fails the run and the task that the
worker is at. -/
theorem claimed_run_failed : ∃ history c c' c'' msg message,
    (servicePool plainService plainEngine fun _ _ _ => True).system.Path history c ∧
      c.threads 2 = some (.resume (.failRun keyedTaskID secondRunID message)) ∧
      c.threads 4 = some (.worker (.getTask msg)) ∧ msg.key = runKey keyedTaskID secondRunID ∧
      c.world.Claimed keyedTaskID secondRunID ∧
      c.world.runStatus (runKey keyedTaskID secondRunID) = some .running ∧
      c.world.ledger.task keyedTaskID = some (runKey keyedTaskID secondRunID, .running) ∧
      (servicePool plainService plainEngine fun _ _ _ => True).Step c (.step 2) c' ∧
      (servicePool plainService plainEngine fun _ _ _ => True).Step c' (.step 2) c'' ∧
      c''.world.runStatus (runKey keyedTaskID secondRunID) = some .failed ∧
      c''.world.ledger.task keyedTaskID = some (runKey keyedTaskID secondRunID, .failed) := by
  obtain ⟨history, threads, c0, -, second, third, fourth⟩ := resumed
  have c1 := c0.next (.start third (.create (keyedRequest "hello")))
  have c2 := (plainService_serves (outsideWorks 0)).path c1 [3, 3, 3, 3] rfl
  have c3 := c2.next (.start (i := 4) fourth (.worker (List.mem_cons_self ..)))
  have c4 := (plainService_serves (outsideWorks 0)).path c3 [4, 4] rfl
  have c5 := c4.next (runs_step (i := 2) second rfl (by exact .error "queue is full") trivial
    (by exact rfl))
  refine ⟨_, _, _, _, resumedMessage, "queue is full", c5, rfl, rfl, rfl,
    ⟨.running, rfl, by decide⟩, rfl, rfl, runs_step (i := 2) rfl rfl _ trivial (by exact ⟨rfl, rfl⟩),
    runs_step (i := 2) rfl rfl _ trivial (by exact ⟨rfl, rfl⟩), rfl, rfl⟩

end ResumedTask

end AgentForge
