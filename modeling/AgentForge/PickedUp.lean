import AgentForge.Idempotency
import AgentForge.ServiceSteps

/-! Whether a run that a `Create` answered with has a message. A request answers after
its own `Enqueue`, or because the run is begun, or, having lost the race for its
idempotency key, with whatever run the winner's task has by then. The last looks at no
queue at all: the message is the winner's to send, and the winner may fail to. -/
namespace AgentForge

open Transition (System Config Event View)

section PickedUp

variable {F : Type}

/-- Some `Enqueue` of the run succeeded. -/
def World.Sent (w : World F) (taskID runID : String) : Prop :=
  ∃ msg ∈ w.sent, msg.taskID = taskID ∧ msg.runID = runID

/-- The run is `RUN_QUEUED`. -/
def World.StillQueued (w : World F) (taskID runID : String) : Prop :=
  ∃ run, w.store.getRun taskID runID = .ok run ∧ run.status = .queued

/-- The run whose fate a request is about to settle: it will queue it or fail it. -/
def Thread.engaged : Thread F → Option (String × String)
  | .create (.enqueue _ msg) | .resume (.enqueue msg) => some (msg.taskID, msg.runID)
  | .resume (.failRun taskID runID _) => some (taskID, runID)
  | _ => none

/-- A request was answered with this run. -/
def Answered (c : Config (World F) (Thread F)) (taskID runID : String) : Prop :=
  ∃ i, c.threads i = some (.create (.returned (.ok ⟨taskID, runID⟩)))

/-- The run, if still queued, was sent or is about to be settled by one of these. -/
def BackedBy (c : Config (World F) (Thread F)) (who : Nat → Prop) (taskID runID : String) : Prop :=
  c.world.StillQueued taskID runID → c.world.Sent taskID runID ∨
    ∃ j thread, who j ∧ c.threads j = some thread ∧ thread.engaged = some (taskID, runID)

/-- Every run that a request was answered with is backed. -/
def Promised (c : Config (World F) (Thread F)) : Prop :=
  ∀ taskID runID, Answered c taskID runID → BackedBy c (fun _ => True) taskID runID

/-- A request that lost the race is answered with a run that is backed, and an `Enqueue`
fails only for a run that nobody was answered with or that is backed by others. -/
def KeepsPromise (c : Config (World F) (Thread F)) (e : Event (Thread F))
    (c' : Config (World F) (Thread F)) : Prop :=
  ∀ i pc, e = .step i → c.threads i = some (.create pc) →
    match pc with
    | .fetchWinner tenantID key => ∀ existing,
      c.world.store.getTaskByIdempotencyKey tenantID key = .ok existing →
      BackedBy c (fun _ => True) existing.taskID existing.activeRunID
    | .enqueue _ msg => c'.world.refused = msg :: c.world.refused →
      Answered c msg.taskID msg.runID → BackedBy c (· ≠ i) msg.taskID msg.runID
    | _ => True

/-- The call of a request has returned. -/
def Thread.Returned : Thread F → Prop
  | .create pc => ∃ result, pc = .returned result
  | .resume pc => ∃ result, pc = .returned result
  | .abort _ | .worker _ => True

private theorem Thread.Returned.not_engaged {thread : Thread F} (returned : thread.Returned) :
    thread.engaged = none := by
  cases thread with
  | create pc | resume pc =>
    obtain ⟨result, rfl⟩ := returned
    rfl
  | abort pc | worker pc => rfl

variable {w w' : World F} {taskID runID : String}

private theorem stillQueued_iff :
    w.StillQueued taskID runID ↔
      ∃ owner, w.ledger.run (runKey taskID runID) = some (owner, .queued) := by
  unfold World.StillQueued MemoryStore.getRun
  cases found : w.store.runs.lookup (runKey taskID runID) with
  | none => simp [World.ledger, found]
  | some run => simp [ledger_run found]

private theorem not_stillQueued (begun : w.ledger.Begun (runKey taskID runID)) :
    ¬ w.StillQueued taskID runID := by
  rw [stillQueued_iff]
  rintro ⟨owner, queued⟩
  obtain ⟨t, run, found, left⟩ := begun
  cases queued.symm.trans found
  exact left rfl

/-- A run that existed and is queued was queued before. -/
theorem stillQueued_before (effect : Lifecycle.Effect touched w.ledger w'.ledger)
    (owns : w.ledger.Owns t (runKey taskID runID)) (queued : w'.StillQueued taskID runID) :
    w.StillQueued taskID runID := by
  obtain ⟨run, found⟩ := owns
  obtain ⟨run', found', still⟩ := effect.run_after found
  obtain ⟨owner, now⟩ := stillQueued_iff.mp queued
  cases found'.symm.trans now
  rw [still rfl] at found
  exact stillQueued_iff.mpr ⟨t, found⟩

variable [Float64 F] {senv : ServiceEnv} {eenv : EngineEnv F} {sha256 : Bytes → String}
  {call : Call F} {answer : call.Ans}

omit [Float64 F] in
private theorem World.Sent.grows (sent : w.Sent taskID runID) (grown : w.sent ⊆ w'.sent) :
    w'.Sent taskID runID := by
  obtain ⟨msg, member, about⟩ := sent
  exact ⟨msg, grown member, about⟩

/-! ## The ways to an answer -/

/-- A request is answered with a run that is begun, or by its own `Enqueue`, or, after it
lost the race, with the active run of the task it fetched. -/
theorem CreatePC.answers {pc : CreatePC F} {resume : call.Ans → CreatePC F}
    (facts : w.store.Numbered) (informed : pc.Informed w.ledger)
    (calls : pc.view senv = .call call resume) (works : StoreWorks call answer)
    (ran : w.Exec sha256 call answer w') (next : resume answer = .returned (.ok response)) :
    w'.ledger.Begun (runKey response.taskID response.runID) ∨
    w'.Sent response.taskID response.runID ∨
    ∃ tenantID key existing, pc = .fetchWinner tenantID key ∧ w' = w ∧
      w.store.getTaskByIdempotencyKey tenantID key = .ok existing ∧
      response = ⟨existing.taskID, existing.activeRunID⟩ := by
  cases pc with
  | lookup req mc =>
    cases calls
    obtain ⟨read, -⟩ := works.runs ran
    cases answer with
    | ok existing =>
      dsimp only at next
      split_ifs at next with unset
      obtain ⟨t, -, there⟩ := getTaskByIdempotencyKey_eq_ok.mp read.symm
      exact absurd unset (facts t existing there)
    | error e => cases e <;> cases next
  | loadActiveRun existing =>
    cases calls
    cases answer <;> cases next
  | stamp existing run =>
    cases calls
    obtain ⟨-, rfl⟩ := works.runs ran
    rcases enqueueQueued_cases senv ⟨existing.taskID, existing.activeRunID⟩ existing run answer with
      ⟨moved, same⟩ | ⟨msg, same, -⟩
    · cases same.symm.trans next
      exact .inl (informed.2.2 moved)
    · cases same.symm.trans next
  | readClock req mc | newTaskID req mc now | newRunID req mc now taskID =>
    cases calls
    cases next
  | apply req mc now taskID runID =>
    cases calls
    cases answer with
    | ok done =>
      rcases enqueueQueued_cases senv ⟨taskID, runID⟩ (createdTask req mc now taskID runID)
        (createdRun req mc now taskID runID) now with ⟨moved, -⟩ | ⟨msg, same, -⟩
      · simp [createdTask, createdRun] at moved
      · cases same.symm.trans next
    | error e =>
      cases e with
      | alreadyExists =>
        dsimp only at next
        split_ifs at next
        cases next
      | _ => cases next
  | fetchWinner tenantID key =>
    cases calls
    obtain ⟨read, unchanged⟩ := works.runs ran
    cases answer with
    | ok existing =>
      cases next
      exact .inr (.inr ⟨tenantID, key, existing, rfl, unchanged, read.symm, rfl⟩)
    | error e => cases next
  | enqueue response' msg =>
    cases calls
    have queued := works.runs ran
    cases answer with
    | ok done =>
      obtain rfl := queued
      cases next
      exact .inr (.inl ⟨msg, List.mem_cons_self .., informed.1, informed.2.1⟩)
    | error message => cases next
  | returned result => cases calls

/-- A request about to settle a run sends it, ends it, or goes on to end it, unless it
is a `Create` whose `Enqueue` fails. -/
theorem Thread.settles {thread : Thread F} {resume : call.Ans → Thread F}
    (informed : thread.Informed w.ledger) (engaged : thread.engaged = some (taskID, runID))
    (calls : thread.view senv eenv = .call call resume) (works : StoreWorks call answer)
    (ran : w.Exec sha256 call answer w') :
    w'.Sent taskID runID ∨ w'.ledger.Begun (runKey taskID runID) ∨
      (resume answer).engaged = some (taskID, runID) ∨
      ∃ response msg, thread = .create (.enqueue response msg) ∧
        w' = { w with refused := msg :: w.refused } := by
  cases thread with
  | create pc =>
    cases pc <;> cases engaged
    rename_i response msg
    cases calls
    have queued := works.runs ran
    cases answer with
    | ok done =>
      obtain rfl := queued
      exact .inl ⟨msg, List.mem_cons_self .., rfl, rfl⟩
    | error message => exact .inr (.inr (.inr ⟨response, msg, rfl, queued⟩))
  | resume pc =>
    cases pc with
    | enqueue msg =>
      cases engaged
      cases calls
      have queued := works.runs ran
      cases answer with
      | ok done =>
        obtain rfl := queued
        exact .inl ⟨msg, List.mem_cons_self .., rfl, rfl⟩
      | error message =>
        refine .inr (.inr (.inl ?_))
        dsimp only
        rw [if_neg (not_or.mpr ⟨informed.1, informed.2.1⟩)]
        rfl
    | failRun taskID runID message =>
      cases engaged
      cases calls
      obtain ⟨old, found⟩ := informed
      exact .inr (.inl (effect_completeRun (by decide) found (works.runs ran)).2)
    | _ => cases engaged
  | abort pc | worker pc => cases engaged

/-- No request is answered before its first call. -/
theorem Thread.Starts.not_answered (begins : Thread.Starts senv w thread) (response : RunResponse) :
    thread ≠ .create (.returned (.ok response)) := by
  intro same
  cases begins with
  | create req =>
    have same := Thread.create.inj same
    unfold CreatePC.start at same
    split at same
    · cases same
    · split_ifs at same
  | _ => cases same

/-! ## One step -/

variable {permits : Thread F → (call : Call F) → call.Ans → Prop}
  {c c' : Config (World F) (Thread F)} {e : Event (Thread F)}

omit [Float64 F] in
private theorem quiet_effect (l : Lifecycle.Ledger String String) :
    Lifecycle.Effect (none : Option String) l l := .quiet

omit [Float64 F] in
/-- The promise is kept if the thread that moved is answered with a run that is backed,
and leaves no run unsettled that only it was to settle. -/
theorem Promised.move (promised : Promised c) (facts : ServiceFacts c)
    (effect : Lifecycle.Effect touched c.world.ledger w'.ledger) (grown : c.world.sent ⊆ w'.sent)
    (own : ∀ taskID runID, next = .create (.returned (.ok ⟨taskID, runID⟩)) →
      BackedBy ⟨w', Function.update c.threads i (some next)⟩ (fun _ => True) taskID runID)
    (settles : ∀ thread taskID runID, c.threads i = some thread →
      thread.engaged = some (taskID, runID) → Answered c taskID runID →
      w'.StillQueued taskID runID → w'.Sent taskID runID ∨ next.engaged = some (taskID, runID) ∨
        ∃ j other, j ≠ i ∧ c.threads j = some other ∧ other.engaged = some (taskID, runID)) :
    Promised ⟨w', Function.update c.threads i (some next)⟩ := by
  rintro taskID runID ⟨j, there⟩ queued
  have others : ∀ {j other}, j ≠ i → c.threads j = some other →
      other.engaged = some (taskID, runID) →
      ∃ j thread, True ∧ Function.update c.threads i (some next) j = some thread ∧
        thread.engaged = some (taskID, runID) := fun {j other} apart at' engaged =>
    ⟨j, other, trivial, (Function.update_of_ne apart ..).trans at', engaged⟩
  by_cases mine : j = i
  · subst mine
    simp only [Function.update_self, Option.some.injEq] at there
    exact own taskID runID there queued
  · replace there : c.threads j = some (.create (.returned (.ok ⟨taskID, runID⟩))) :=
      (Function.update_of_ne mine ..).symm.trans there
    have queuedBefore := stillQueued_before effect (facts.informed j _ there) queued
    rcases promised taskID runID ⟨j, there⟩ queuedBefore with sent | ⟨k, thread, -, at', engaged⟩
    · exact .inl (sent.grows grown)
    · by_cases same : k = i
      · subst same
        rcases settles thread taskID runID at' engaged ⟨j, there⟩ queued with
          sent | still | ⟨k', other, apart, at'', engaged'⟩
        · exact .inl sent
        · exact .inr ⟨k, next, trivial, Function.update_self .., still⟩
        · exact .inr (others apart at'' engaged')
      · exact .inr (others same at' engaged)

omit [Float64 F] in
/-- Where the thread that moved is not engaged, whoever is was so before. -/
theorem engaged_before (idle : next.engaged = none)
    (engaged : ∃ j thread, True ∧ Function.update c.threads i (some next) j = some thread ∧
      thread.engaged = some (taskID, runID)) :
    ∃ j thread, j ≠ i ∧ c.threads j = some thread ∧ thread.engaged = some (taskID, runID) := by
  obtain ⟨j, thread, -, there, engaged⟩ := engaged
  have apart : j ≠ i := by
    rintro rfl
    rw [Function.update_self, Option.some.injEq] at there
    rw [← there, idle] at engaged
    cases engaged
  exact ⟨j, thread, apart, (Function.update_of_ne apart ..).symm.trans there, engaged⟩

/-- A call after which the promise stands met the condition. -/
theorem Promised.keeps (there : c.threads i = some thread)
    (calls : thread.view senv eenv = .call call resume) (works : StoreWorks call answer)
    (ran : c.world.Exec sha256 call answer w')
    (promised : Promised ⟨w', Function.update c.threads i (some (resume answer))⟩) :
    KeepsPromise c (.step i) ⟨w', Function.update c.threads i (some (resume answer))⟩ := by
  intro j pc same at'
  cases same
  cases there.symm.trans at'
  obtain ⟨resume', calls', rfl⟩ := View.map_eq_call.mp calls
  cases pc with
  | fetchWinner tenantID key =>
    intro existing found queued
    cases calls'
    obtain ⟨read, unchanged⟩ := works.runs ran
    subst w'
    cases read.trans found
    rcases promised existing.taskID existing.activeRunID ⟨i, Function.update_self ..⟩ queued with
      sent | engaged
    · exact .inl sent
    · obtain ⟨j, other, -, at', engaged⟩ := engaged_before rfl engaged
      exact .inr ⟨j, other, trivial, at', engaged⟩
  | enqueue response msg =>
    rintro refused ⟨j, answered⟩ queued
    cases calls'
    have asked := works.runs ran
    cases answer with
    | ok done =>
      obtain rfl := asked
      exact absurd (congrArg List.length refused) (by simp)
    | error message =>
      obtain rfl := asked
      have apart : j ≠ i := by
        rintro rfl
        cases there.symm.trans answered
      rcases promised msg.taskID msg.runID
        ⟨j, (Function.update_of_ne apart ..).trans answered⟩ queued with sent | engaged
      · exact .inl sent
      · exact .inr (engaged_before rfl engaged)
  | _ => trivial

/-- A call that meets the condition keeps the promise. -/
theorem KeepsPromise.promised {thread : Thread F} {resume : call.Ans → Thread F}
    (facts : ServiceFacts c) (promised : Promised c) (there : c.threads i = some thread)
    (calls : thread.view senv eenv = .call call resume) (works : StoreWorks call answer)
    (ran : c.world.Exec sha256 call answer w')
    (keeps : KeepsPromise c (.step i) ⟨w', Function.update c.threads i (some (resume answer))⟩) :
    Promised ⟨w', Function.update c.threads i (some (resume answer))⟩ := by
  have informed := facts.informed i thread there
  obtain ⟨effect, -⟩ := Thread.effect facts.keyed facts.active informed calls works ran
  refine promised.move facts effect (exec_grows ran).1 ?_ ?_
  · rintro taskID runID next queued
    cases thread with
    | create pc =>
      obtain ⟨resume', calls', rfl⟩ := View.map_eq_call.mp calls
      rcases CreatePC.answers facts.numbered informed calls' works ran (Thread.create.inj next) with
        begun | sent | ⟨tenantID, key, existing, rfl, rfl, found, same⟩
      · exact absurd queued (not_stillQueued begun)
      · exact .inl sent
      · cases same
        rcases keeps i _ rfl there existing found queued with sent | ⟨j, other, -, at', engaged⟩
        · exact .inl sent
        · have apart : j ≠ i := by
            rintro rfl
            cases there.symm.trans at'
            cases engaged
          exact .inr ⟨j, other, trivial, (Function.update_of_ne apart ..).trans at', engaged⟩
    | _ =>
      obtain ⟨resume', -, rfl⟩ := View.map_eq_call.mp calls
      cases next
  · intro thread' taskID runID at' engaged answered queued
    cases there.symm.trans at'
    rcases Thread.settles informed engaged calls works ran with
      sent | begun | still | ⟨response, msg, rfl, rfl⟩
    · exact .inl sent
    · exact absurd queued (not_stillQueued begun)
    · exact .inr (.inl still)
    · cases engaged
      exact (keeps i _ rfl there rfl answered queued).imp_right .inr

/-- A step keeps the promise exactly if it meets the condition. -/
theorem promised_iff (facts : ServiceFacts c) (promised : Promised c)
    (step : (servicePool senv eenv permits).Step c e c') :
    Promised c' ↔ KeepsPromise c e c' := by
  cases step with
  | @start i thread free begins =>
    refine iff_of_true (promised.move facts (quiet_effect _) (List.Subset.refl _) ?_ ?_)
      fun j pc same => by cases same
    · rintro taskID runID rfl
      have started := begins.not_answered
      exact absurd rfl (started ⟨taskID, runID⟩)
    · intro thread taskID runID there
      rw [free] at there
      cases there
  | @tau i thread next there moves =>
    obtain ⟨msg, task, run, outcome, rfl, rfl⟩ := Thread.tau_eq moves
    refine iff_of_true (promised.move facts (quiet_effect _) (List.Subset.refl _)
      (fun _ _ same => by cases same) ?_) ?_
    · intro thread taskID runID at' engaged
      cases there.symm.trans at'
      cases engaged
    · intro j pc'' same at'
      cases same
      cases there.symm.trans at'
  | call there calls permitted ran =>
    exact ⟨Promised.keeps there calls permitted.1 ran,
      KeepsPromise.promised facts promised there calls permitted.1 ran⟩
  | env changed =>
    obtain ⟨clock, rfl⟩ := changed
    exact iff_of_true promised fun j pc same => by cases same
  | stop there dies => exact dies.elim

variable {history : List (Config (World F) (Thread F) × Event (Thread F))}

/-- **An answered run has its message, unless a race loser is let down.** In every state of
a run each run that a request was answered with and that is still queued was sent, or is
about to be settled by a request under way, if and only if each step keeps the promise.
So when all requests have returned, it was sent. -/
theorem answered_runs_are_sent_iff (path : (servicePool senv eenv permits).system.Path history c) :
    (System.Throughout Promised history c ↔ System.Along KeepsPromise history c) ∧
      (Promised c → (∀ i thread, c.threads i = some thread → thread.Returned) →
        ∀ i response, c.threads i = some (.create (.returned (.ok response))) →
          c.world.StillQueued response.taskID response.runID →
          ∃ msg ∈ c.world.sent, msg.taskID = response.taskID ∧ msg.runID = response.runID) := by
  constructor
  · refine path.throughout_iff_along ?_ ?_
    · rintro c ⟨-, threads⟩ taskID runID ⟨i, there⟩
      rw [threads] at there
      cases there
    · intro c e c' reached promised step
      exact promised_iff (facts_of_reachable reached) promised step
  · intro promised returned i response there queued
    rcases promised response.taskID response.runID ⟨i, there⟩ queued with
      sent | ⟨j, thread, -, at', engaged⟩
    · exact sent
    · rw [(returned j thread at').not_engaged] at engaged
      cases engaged

end PickedUp

/-! ## A race -/

section Race

variable {c : Config (World Rat) (Thread Rat)} {i : Nat} {pc : CreatePC Rat}
  {history : List (Config (World Rat) (Thread Rat) × Event (Thread Rat))}

/-- The places from which a request is not answered without its own `Enqueue`. -/
def CreatePC.IsEarly : CreatePC Rat → Prop
  | .fetchWinner .. | .enqueue .. => False
  | _ => True

private theorem keepsPromise_early (there : c.threads i = some (.create pc)) (early : pc.IsEarly) :
    KeepsPromise c (.step i) c' := by
  intro j pc' same at'
  cases same
  cases there.symm.trans at'
  cases pc <;> trivial

/-- Two requests with one key find nothing; the first creates its task, and the second is
answered with it while the first has yet to queue its run. -/
theorem race_lost : ∃ history c response msg,
    (servicePool plainService plainEngine fun _ _ _ => True).system.Path history c ∧
      System.Along KeepsPromise history c ∧
      c.threads 0 = some (.create (.enqueue response msg)) ∧
      c.threads 1 = some (.create (.returned (.ok response))) ∧
      (∀ i thread, c.threads i = some thread → i = 0 ∨ i = 1) ∧
      c.world.StillQueued response.taskID response.runID ∧ c.world.sent = [] := by
  have c1 := plainService_starts.next (.start (i := 0) rfl (.create (keyedRequest "hello")))
  have c2 := c1.next (.start (i := 1) rfl (.create (keyedRequest "goodbye")))
  have c3 := (plainService_serves (outsideWorks 0)).path c2 [0, 1, 0, 0, 0, 0] rfl
  have c4 := (plainService_serves (outsideWorks 1)).path c3 [1, 1, 1, 1, 1] rfl
  refine ⟨_, _, _, _, c4, ?_, rfl, rfl, ?_, ?_, rfl⟩
  · refine ⟨?_, keepsPromise_early rfl trivial, keepsPromise_early rfl trivial,
      keepsPromise_early rfl trivial, keepsPromise_early rfl trivial,
      keepsPromise_early rfl trivial, keepsPromise_early rfl trivial,
      keepsPromise_early rfl trivial, keepsPromise_early rfl trivial,
      keepsPromise_early rfl trivial, keepsPromise_early rfl trivial,
      (fun _ _ same => by cases same), (fun _ _ same => by cases same), trivial⟩
    intro j pc same there
    cases same
    cases there
    intro existing found queued
    cases found
    exact .inr ⟨0, _, trivial, rfl, rfl⟩
  · intro i thread there
    by_contra other
    obtain ⟨apart, apart'⟩ := not_or.mp other
    simp [Function.update_of_ne apart, Function.update_of_ne apart'] at there
  · exact ⟨_, rfl, rfl⟩

/-- All requests of the race have returned once the first has. -/
theorem race_returned (second : c.threads 1 = some (.create (.returned result)))
    (two : ∀ i thread, c.threads i = some thread → i = 0 ∨ i = 1) :
    ∀ i thread, Function.update c.threads 0 (some (.create (.returned result'))) i = some thread →
      thread.Returned := by
  intro i thread there
  by_cases first : i = 0
  · rw [first, Function.update_self, Option.some.injEq] at there
    exact there ▸ ⟨_, rfl⟩
  · replace there : c.threads i = some thread := (Function.update_of_ne first ..).symm.trans there
    obtain rfl := (two i thread there).resolve_left first
    cases second.symm.trans there
    exact ⟨_, rfl⟩

/-- The first request queues its run, for both. -/
theorem answered_runs_are_sent_race : ∃ history c response,
    (servicePool plainService plainEngine fun _ _ _ => True).system.Path history c ∧
      c.threads 1 = some (.create (.returned (.ok response))) ∧
      c.world.StillQueued response.taskID response.runID ∧
      ∃ msg ∈ c.world.sent, msg.taskID = response.taskID ∧ msg.runID = response.runID := by
  obtain ⟨history, c, response, msg, path, along, first, second, two, queued, -⟩ := race_lost
  have path' := path.next (runs_step (i := 0) first rfl (by exact .ok ()) trivial (by exact rfl))
  have promised := (answered_runs_are_sent_iff path').1.mpr ⟨by
    intro i pc same there
    cases same
    cases first.symm.trans there
    exact fun refused => absurd (congrArg List.length refused) (by simp), along⟩
  refine ⟨_, _, response, path', second, queued, ?_⟩
  exact (answered_runs_are_sent_iff path').2 promised.1 (race_returned second two) 1 response second
    queued

/-- The first request fails to queue its run: the second has been answered with a run
that nobody has queued or will. -/
theorem answered_run_never_sent : ∃ history c response,
    (servicePool plainService plainEngine fun _ _ _ => True).system.Path history c ∧
      (∀ i thread, c.threads i = some thread → thread.Returned) ∧
      c.threads 1 = some (.create (.returned (.ok response))) ∧
      c.world.StillQueued response.taskID response.runID ∧ c.world.sent = [] := by
  obtain ⟨history, c, response, msg, path, -, first, second, two, queued, unsent⟩ := race_lost
  have path' := path.next (runs_step (i := 0) first rfl (by exact .error "queue is full") trivial
    (by exact rfl))
  exact ⟨_, _, response, path', race_returned second two, second, queued, unsent⟩

end Race

end AgentForge
