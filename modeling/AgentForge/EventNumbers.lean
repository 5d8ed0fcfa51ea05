import AgentForge.Checkpoint
import AgentForge.EventStore
import AgentForge.Publishing

/-! The numbers of events over the life of a run. One execution numbers its events from
one on, so they are told apart. The next execution of the same run begins at one again,
and the store, which keeps the first event of each number, drops what it finds taken. -/
namespace AgentForge

/-! ## One execution -/

section Numbering

variable {F : Type} (env : EngineEnv F) (task : Task F) (run : Run F)

/-- How many events were given a number: the next one is given the next number. -/
def numbering (task : Task F) (run : Run F) : Discipline (EngineCall F) EngineCall.Ans Int where
  moves n
    | .putEvent _, _ => n + 1
    | _, _ => n
  allows n
    | .putEvent event => event.taskID = task.taskID ∧ event.runID = run.runID ∧ event.seq = n + 1
    | _ => True

namespace Numbering

private theorem ignores_other (other : ∀ event, call ≠ .putEvent event) :
    (numbering task run).Ignores call := by
  cases call with
  | putEvent event => exact absurd rfl (other event)
  | _ => exact ⟨fun _ => trivial, fun _ _ => rfl⟩

private theorem ensures_putEvent (taskID : event.taskID = task.taskID)
    (runID : event.runID = run.runID) (seq : event.seq = n + 1) :
    (numbering task run).Ensures (fun n' _ => n' = n + 1) (Host.putEvent event) n :=
  ⟨⟨taskID, runID, seq⟩, fun _ => rfl⟩

/-- The number of events is the counter `pushEvent` leaves. -/
theorem publishes : Publishes env task run (numbering task run) fun seq n => n = seq where
  ignores call aside := ignores_other task run fun event same => by
    subst same
    exact aside
  pushEvent eventSeq type data n atRest := by
    subst atRest
    have notifies : ∀ {α : Type} {p : EngineProg F α}, p.Uses EngineCall.Notifies →
        (numbering task run).Quiet p := fun uses =>
      Discipline.quiet_of_uses uses fun _ notifies => ignores_other task run fun event same => by
        subst same
        exact notifies
    unfold pushEvent
    split
    · rfl
    refine Discipline.Quiet.then (.call (fun _ => trivial) fun _ _ => rfl) fun now => ?_
    refine (ensures_putEvent task run rfl rfl rfl).bind fun _ _ counted => ?_
    subst counted
    refine Discipline.Quiet.then (.call (fun _ => trivial) fun _ _ => rfl) fun conns => ?_
    cases conns with
    | error e => rfl
    | ok conns =>
      refine (notifies (uses_pushTargets ..)).then fun stale => ?_
      exact (notifies (uses_deleteConnections _)).then fun _ => rfl

variable [Float64 F]

/-- An execution numbers its events from one on. -/
theorem follows_execute : (numbering task run).Ensures (fun _ _ => True) (execute env task run) 0 :=
  (publishes env task run).execute rfl

end Numbering

end Numbering

/-! ## All executions of a run -/

open Transition
open Transition.System (Throughout Within)

/-- An execution under way. -/
structure Executing (F : Type) where
  task : Task F
  run : Run F
  program : Execution F

/-- The world with the events that were given a number, and those that `PutEvent` was
content with, latest first. -/
structure Emissions (F : Type) where
  world : World F
  given : List (StreamEvent F) := []
  emitted : List (StreamEvent F) := []

section Emissions

variable {F : Type}

/-- What a call adds. -/
def Emissions.record (e : Emissions F) (w : World F) : (call : EngineCall F) → call.Ans → Emissions F
  | .putEvent event, .ok () => ⟨w, event :: e.given, event :: e.emitted⟩
  | .putEvent event, .error _ => ⟨w, event :: e.given, e.emitted⟩
  | _, _ => { e with world := w }

/-- The key a run's events are stored under. -/
def Executing.key (x : Executing F) : String := eventKey x.task.taskID x.run.runID

def StreamEvent.key (event : StreamEvent F) : String := eventKey event.taskID event.runID

/-- No event of the run is past the retention when another is put. -/
def World.Retains (w : World F) : EngineCall F → Prop
  | .putEvent event => w.store.NoneExpired w.clock event
  | _ => True

theorem retains_putEvent {w : World F} (lasting : w.store.NoneExpired w.clock event) :
    w.Retains (.putEvent event) := lasting

def World.retains (w : World F) : EngineCall F → Bool
  | .putEvent event => w.store.NoneExpired w.clock event
  | _ => true

private theorem World.retains_of_eq {w : World F} (retains : w.retains call = true) :
    w.Retains call := by
  cases call with
  | putEvent event => exact retains_putEvent (of_decide_eq_true retains)
  | _ => trivial

/-- Any executions of any runs, together or one after another, each of which may die at
any point. Whatever else happens, such as a run being reset to be executed again, leaves
the stored events alone: nothing expires and nothing is compacted. -/
def emissions [Float64 F] (env : EngineEnv F) :
    Pool (Emissions F) (EngineCall F) EngineCall.Ans (Executing F) where
  initial e := e.world.store.events = ∅ ∧ e.given = [] ∧ e.emitted = []
  starts _ x := x.program = execute env x.task x.run
  view x := match x.program with
    | .ret _ => .done
    | .call request resume => .call request fun answer => { x with program := resume answer }
  exec e call answer e' := e.world.Retains call ∧
    ∃ w, (e.world.EngineRuns env.sha256 call answer w ∨ call.Fault answer ∧ w = e.world) ∧
      e' = e.record w call answer
  permits _ _ _ := True
  env e e' := ∃ w : World F, w.store.events = e.world.store.events ∧ e' = { e with world := w }
  stops _ := True

/-- A replay of the run from its beginning gives back the event, with its own type and
data. -/
def Replayed (s : MemoryStore F) (event : StreamEvent F) : Prop :=
  ∃ ev, ev.Same event ∧ ∀ limit : Int, 0 < limit →
    ((s.storedEvents event.taskID event.runID).length : Int) ≤ limit →
      ev ∈ s.replayEvents event.taskID event.runID 0 0 limit

/-- Every event that was emitted is replayed. -/
def AllReplayed (c : Config (Emissions F) (Executing F)) : Prop :=
  ∀ event ∈ c.world.emitted, Replayed c.world.world.store event

/-- Two events that are told apart. -/
def Distinct (a b : StreamEvent F) : Prop := a.key = b.key → a.seq ≠ b.seq

/-- The event an execution is about to emit. -/
def Executing.next (x : Executing F) : Option (StreamEvent F) :=
  match x.program with
  | .call (.putEvent event) _ => some event
  | _ => none

/-- An execution emits its first event only if no event of the run was emitted before: of
the executions of one run, one emits. -/
def EmitsFirst (c : Config (Emissions F) (Executing F)) : Event (Executing F) → Prop
  | .step i => ∀ event ∈ (c.threads i).bind Executing.next, event.seq = 1 →
      ∀ old ∈ c.world.given, old.key ≠ event.key
  | _ => True

instance (c : Config (Emissions F) (Executing F)) : DecidablePred (EmitsFirst c)
  | .step i => inferInstanceAs (Decidable (∀ event ∈ (c.threads i).bind Executing.next,
      event.seq = 1 → ∀ old ∈ c.world.given, old.key ≠ event.key))
  | .start _ _ | .env | .stop _ => isTrue trivial

private theorem replayed_iff {s : MemoryStore F} (named : event.taskID ≠ "") :
    Replayed s event ↔ ∃ ev ∈ s.storedEvents event.taskID event.runID, ev.Same event := by
  have whole : ∀ limit : Int, 0 < limit →
      ((s.storedEvents event.taskID event.runID).length : Int) ≤ limit →
      s.replayEvents event.taskID event.runID 0 0 limit =
        (s.storedEvents event.taskID event.runID).filter fun ev =>
          decide (ev.taskID = event.taskID) := by
    intro limit positive enough
    have all : s.missedEvents event.taskID event.runID 0 0 =
        (s.storedEvents event.taskID event.runID).filter fun ev =>
          decide (ev.taskID = event.taskID) := by
      simp [MemoryStore.missedEvents]
    rw [replayEvents_eq named event.runID 0 0 positive, all, List.take_of_length_le]
    have fewer := List.length_filter_le (fun ev : StreamEvent F => decide (ev.taskID = event.taskID))
      (s.storedEvents event.taskID event.runID)
    omega
  constructor
  · rintro ⟨ev, same, replayed⟩
    have inside := replayed ((s.storedEvents event.taskID event.runID).length + 1) (by omega)
      (by omega)
    rw [whole _ (by omega) (by omega)] at inside
    exact ⟨ev, (List.mem_filter.mp inside).1, same⟩
  · rintro ⟨ev, inside, same⟩
    refine ⟨ev, same, fun limit positive enough => ?_⟩
    rw [whole limit positive enough]
    exact List.mem_filter.mpr ⟨inside, by simp [same.taskID]⟩

/-- Nothing is emitted, and the stored events stay. -/
def Emissions.Kept (e e' : Emissions F) : Prop :=
  e'.emitted = e.emitted ∧ e'.world.store.events = e.world.store.events

/-- The event is emitted: it is dropped where its number is taken, and stored otherwise. -/
def Emissions.Emits (e : Emissions F) (event : StreamEvent F) (e' : Emissions F) : Prop :=
  e'.emitted = event :: e.emitted ∧ e'.given = event :: e.given ∧ event.taskID ≠ "" ∧
    ((e'.world.store.events = e.world.store.events ∧
        ∃ ev ∈ e.world.store.storedEvents event.taskID event.runID, ev.seq = event.seq) ∨
      (∃ now, e'.world.store = e.world.store.addEvent (event.stamped now)) ∧
        ∀ ev ∈ e.world.store.storedEvents event.taskID event.runID, ev.seq ≠ event.seq)

/-- What is stored stays stored. -/
theorem Emissions.Emits.stays {e e' : Emissions F} {event ev : StreamEvent F}
    (emits : e.Emits event e') (stored : ev ∈ e.world.store.storedEvents taskID runID) :
    ev ∈ e'.world.store.storedEvents taskID runID := by
  obtain ⟨-, -, -, ⟨same, -⟩ | ⟨⟨now, added⟩, -⟩⟩ := emits
  · rwa [storedEvents_of_events same]
  · rw [added]
    exact (mem_storedEvents_addEvent taskID runID).mpr (.inl stored)

variable [Float64 F] {env : EngineEnv F}

/-- Only `PutEvent` changes the stored events. -/
theorem engineRuns_events {w w' : World F} {answer : call.Ans}
    (ran : w.EngineRuns sha256 call answer w') (other : ∀ event, call ≠ .putEvent event) :
    w'.store.events = w.store.events := by
  cases engineRuns_effect ran with
  | event event => exact absurd rfl (other event)
  | _ => rfl

/-- What a call does to the stored events and to the record of them. -/
theorem emissions_exec {e e' : Emissions F} {answer : call.Ans}
    (ran : (emissions env).exec e call answer e') :
    (∃ event, call = .putEvent event ∧ e'.given = event :: e.given ∧
        (e.Kept e' ∨ e.Emits event e')) ∨
      (∀ event, call ≠ .putEvent event) ∧ e'.given = e.given ∧ e.Kept e' := by
  obtain ⟨lasting, w, ran, rfl⟩ := ran
  by_cases stores : ∃ event, call = .putEvent event
  · obtain ⟨event, rfl⟩ := stores
    rcases ran with ⟨rfl, rfl⟩ | ⟨⟨message, rfl⟩, rfl⟩
    · rcases putEvent_cases e.world.store e.world.clock event lasting with
        ⟨put, -⟩ | ⟨named, -, ⟨put, taken⟩ | ⟨put, free⟩⟩
      · rw [put]
        exact .inl ⟨event, rfl, rfl, .inl ⟨rfl, rfl⟩⟩
      · rw [put]
        exact .inl ⟨event, rfl, rfl, .inr ⟨rfl, rfl, named, .inl ⟨rfl, taken⟩⟩⟩
      · rw [put]
        exact .inl ⟨event, rfl, rfl, .inr ⟨rfl, rfl, named, .inr ⟨⟨_, rfl⟩, free⟩⟩⟩
    · exact .inl ⟨event, rfl, rfl, .inl ⟨rfl, rfl⟩⟩
  · have other : ∀ event, call ≠ .putEvent event := fun event same => stores ⟨event, same⟩
    have recorded : e.record w call answer = { e with world := w } := by
      cases call with
      | putEvent event => exact absurd rfl (other event)
      | _ => rfl
    rw [recorded]
    rcases ran with ran | ⟨-, rfl⟩
    · exact .inr ⟨other, rfl, rfl, engineRuns_events ran other⟩
    · exact .inr ⟨other, rfl, rfl, rfl⟩

/-- The same of every event of the pool. -/
theorem emissions_step (step : (emissions env).system.Step c ev c') :
    c'.world.given = c.world.given ∧ c.world.Kept c'.world ∨
      ∃ event, c'.world.given = event :: c.world.given ∧
        (c.world.Kept c'.world ∨ c.world.Emits event c'.world) := by
  cases step with
  | start _ _ | tau _ _ | stop _ _ => exact .inl ⟨rfl, rfl, rfl⟩
  | env changed =>
    obtain ⟨w, events, same⟩ := changed
    rw [same]
    exact .inl ⟨rfl, rfl, events⟩
  | call _ _ _ ran =>
    obtain ⟨event, -, changed⟩ | ⟨-, kept⟩ := emissions_exec ran
    · exact .inr ⟨event, changed⟩
    · exact .inl kept

/-- What was emitted has a task, and the numbers of what is stored were given out. -/
structure Recorded (e : Emissions F) : Prop where
  named : ∀ event ∈ e.emitted, event.taskID ≠ ""
  stored : ∀ taskID runID, ∀ ev ∈ e.world.store.storedEvents taskID runID,
    ∃ event ∈ e.given, event.key = eventKey taskID runID ∧ event.seq = ev.seq

omit [Float64 F] in
private theorem Recorded.kept {e e' : Emissions F} (recorded : Recorded e) (kept : e.Kept e')
    (given : ∀ event ∈ e.given, event ∈ e'.given) : Recorded e' := by
  obtain ⟨emitted, same⟩ := kept
  refine ⟨emitted ▸ recorded.named, fun taskID runID ev there => ?_⟩
  rw [storedEvents_of_events same] at there
  obtain ⟨event, member, key⟩ := recorded.stored taskID runID ev there
  exact ⟨event, given event member, key⟩

omit [Float64 F] in
private theorem Recorded.emits {e e' : Emissions F} (recorded : Recorded e)
    (emits : e.Emits event e') :
    Recorded e' := by
  obtain ⟨emitted, given, named, changed⟩ := emits
  refine ⟨?_, fun taskID runID ev there => ?_⟩
  · rw [emitted]
    exact List.forall_mem_cons.mpr ⟨named, recorded.named⟩
  have before : ev ∈ e.world.store.storedEvents taskID runID →
      ∃ event ∈ e'.given, event.key = eventKey taskID runID ∧ event.seq = ev.seq := by
    intro there
    obtain ⟨old, member, same⟩ := recorded.stored taskID runID ev there
    exact ⟨old, given ▸ List.mem_cons_of_mem _ member, same⟩
  rcases changed with ⟨same, -⟩ | ⟨⟨now, added⟩, -⟩
  · exact before (by rwa [storedEvents_of_events same] at there)
  · rw [added, mem_storedEvents_addEvent] at there
    have stamped := event.same_stamped now
    rcases there with there | ⟨rfl, key⟩
    · exact before there
    · rw [stamped.taskID, stamped.runID] at key
      exact ⟨event, given ▸ List.mem_cons_self .., key.symm, stamped.seq.symm⟩

private theorem recorded_of_reachable (reached : (emissions env).system.Reachable c) :
    Recorded c.world := by
  refine reached.invariant (P := fun c => Recorded c.world) ?_ ?_
  · rintro c ⟨⟨events, -, none⟩, -⟩
    refine ⟨by simp [none], fun taskID runID ev there => ?_⟩
    simp [MemoryStore.storedEvents, events] at there
  · rintro c ev c' - recorded step
    obtain ⟨given, kept⟩ | ⟨event, given, kept | emits⟩ := emissions_step step
    · exact recorded.kept kept (given ▸ fun _ => id)
    · exact recorded.kept kept (given ▸ fun _ => List.mem_cons_of_mem _)
    · exact recorded.emits emits

/-- An event whose number was not given out before is stored, and is replayed like those
emitted before it. -/
theorem allReplayed_step {c c' : Config (Emissions F) (Executing F)}
    (reached : (emissions env).system.Reachable c) (replayed : AllReplayed c)
    (step : (emissions env).system.Step c ev c') (distinct : c'.world.given.Pairwise Distinct) :
    AllReplayed c' := by
  have recorded := recorded_of_reachable reached
  have earlier : (∀ taskID runID, ∀ ev ∈ c.world.world.store.storedEvents taskID runID,
      ev ∈ c'.world.world.store.storedEvents taskID runID) →
      ∀ old ∈ c.world.emitted, Replayed c'.world.world.store old := by
    intro stays old member
    have named := recorded.named old member
    obtain ⟨kept, stored, same⟩ := (replayed_iff named).mp (replayed old member)
    exact (replayed_iff named).mpr ⟨kept, stays _ _ kept stored, same⟩
  have quiet : c.world.Kept c'.world → AllReplayed c' := by
    rintro ⟨emitted, same⟩
    rw [AllReplayed, emitted]
    exact earlier fun taskID runID ev there => by rwa [storedEvents_of_events same]
  obtain ⟨-, kept⟩ | ⟨event, given, kept | emits⟩ := emissions_step step
  · exact quiet kept
  · exact quiet kept
  have ⟨emitted, _, named, changed⟩ := emits
  rw [AllReplayed, emitted]
  refine List.forall_mem_cons.mpr ⟨?_, earlier fun _ _ _ => emits.stays⟩
  rcases changed with ⟨-, ev, there, seq⟩ | ⟨⟨now, added⟩, -⟩
  · -- The stored event was given its number before, and the two numbers are distinct.
    obtain ⟨old, member, key, number⟩ := recorded.stored _ _ ev there
    rw [given] at distinct
    exact absurd (seq.symm.trans number.symm)
      ((List.pairwise_cons.mp distinct).1 old member key.symm)
  · have stamped := event.same_stamped now
    refine (replayed_iff named).mpr ⟨event.stamped now, ?_, stamped⟩
    rw [added, mem_storedEvents_addEvent, stamped.taskID, stamped.runID]
    exact .inr ⟨rfl, rfl⟩

/-! ## The executions of a run -/

/-- An execution has emitted nothing, or something of its run was emitted; if only one
execution of each run emits, then it is this one, and its counter bounds the numbers. -/
def Counter (alone : Prop) (owner : String → Nat) (given : List (StreamEvent F)) (i : Nat)
    (x : Executing F) : Prop :=
  ∃ n, (numbering x.task x.run).Ensures (fun _ _ => True) x.program n ∧
    (n = 0 ∨ 0 < n ∧ (∃ event ∈ given, event.key = x.key) ∧
      (alone → owner x.key = i ∧ ∀ event ∈ given, event.key = x.key → event.seq ≤ n))

/-- The counters of all executions; each run whose events were given numbers was given the
number one. -/
structure Counting (alone : Prop) (owner : String → Nat)
    (c : Config (Emissions F) (Executing F)) : Prop where
  counters : ∀ i x, c.threads i = some x → Counter alone owner c.world.given i x
  firsts : ∀ event ∈ c.world.given, ∃ first ∈ c.world.given,
    first.key = event.key ∧ first.seq = 1
  distinct : alone → c.world.given.Pairwise Distinct

omit [Float64 F] in
private theorem Counting.mono (counting : Counting alone owner c) (less : alone' → alone) :
    Counting alone' owner c := by
  refine ⟨fun i x there => ?_, counting.firsts, fun met => counting.distinct (less met)⟩
  obtain ⟨n, follows, none | ⟨positive, begun, owns⟩⟩ := counting.counters i x there
  · exact ⟨n, follows, .inl none⟩
  · exact ⟨n, follows, .inr ⟨positive, begun, fun met => owns (less met)⟩⟩

private theorem emissions_view (calls : (emissions env).view x = .call call resume) : ∃ goesOn,
      x.program = .call call goesOn ∧
        ∀ answer, resume answer = { x with program := goesOn answer } := by
  obtain ⟨task, run, program⟩ := x
  cases program with
  | ret result => cases calls
  | call request goesOn =>
    cases calls
    exact ⟨goesOn, rfl, fun _ => rfl⟩

omit [Float64 F] in
/-- An execution emits its next event. If it is its first, the run is its own from then on. -/
theorem Counting.emits (counting : Counting alone owner c) {x : Executing F}
    (there : c.threads i = some x) (program : x.program = .call (.putEvent event) goesOn)
    (first : alone → EmitsFirst c (.step i)) (answer : (EngineCall.putEvent event).Ans)
    {e : Emissions F} (given : e.given = event :: c.world.given) : ∃ owner', Counting alone owner'
      ⟨e, Function.update c.threads i (some { x with program := goesOn answer })⟩ := by
  obtain ⟨n, follows, counted⟩ := counting.counters i x there
  rw [program] at follows
  obtain ⟨⟨taskID, runID, seq⟩, next⟩ := follows
  have key : event.key = x.key := by rw [StreamEvent.key, taskID, runID]; rfl
  have fresh : n = 0 → alone → ∀ old ∈ c.world.given, old.key ≠ x.key := by
    intro none met old member
    rw [← key]
    refine first met event ?_ (by rw [seq, none]; rfl) old member
    simp [there, Executing.next, program]
  -- What the counter of this execution bounds before the event.
  have bounded : alone → ∀ old ∈ c.world.given, old.key = x.key → old.seq ≤ n := by
    intro met old member same
    rcases counted with none | ⟨-, -, owns⟩
    · exact absurd same (fresh none met old member)
    · exact (owns met).2 old member same
  have positive : 0 ≤ n := by
    rcases counted with none | ⟨positive, -⟩ <;> omega
  refine ⟨Function.update owner x.key i, ?_, ?_, ?_⟩ <;> dsimp only <;> rw [given]
  · refine forall_update_of_ne ⟨n + 1, next answer, .inr ⟨by omega, ?_, fun met => ⟨?_, ?_⟩⟩⟩
      fun j y elsewhere here => ?_
    · exact ⟨event, List.mem_cons_self .., key⟩
    · exact Function.update_self ..
    · refine List.forall_mem_cons.mpr ⟨fun _ => seq.le, fun old member same => ?_⟩
      have below := bounded met old member same
      omega
    · obtain ⟨m, follows, none | ⟨more, ⟨old, member, same⟩, owns⟩⟩ :=
        counting.counters j y here
      · exact ⟨m, follows, .inl none⟩
      refine ⟨m, follows, .inr ⟨more, ⟨old, List.mem_cons_of_mem _ member, same⟩, fun met => ?_⟩⟩
      have other : y.key ≠ x.key := by
        intro shared
        rcases counted with none | ⟨-, -, own⟩
        · exact fresh none met old member (same.trans shared)
        · exact elsewhere ((owns met).1.symm.trans (shared ▸ (own met).1))
      rw [Function.update_of_ne other]
      refine ⟨(owns met).1, List.forall_mem_cons.mpr ⟨fun here => ?_, (owns met).2⟩⟩
      exact absurd (here.symm.trans key) other
  · refine List.forall_mem_cons.mpr ⟨?_, fun old member => ?_⟩
    · rcases counted with none | ⟨-, ⟨old, member, same⟩, -⟩
      · exact ⟨event, List.mem_cons_self .., rfl, by rw [seq, none]; rfl⟩
      · obtain ⟨one, member, same', first⟩ := counting.firsts old member
        exact ⟨one, List.mem_cons_of_mem _ member, same'.trans (same.trans key.symm), first⟩
    · obtain ⟨one, member, same⟩ := counting.firsts old member
      exact ⟨one, List.mem_cons_of_mem _ member, same⟩
  · intro met
    refine List.pairwise_cons.mpr ⟨fun old member same taken => ?_, counting.distinct met⟩
    have below := bounded met old member (same.symm.trans key)
    omega

private theorem Counting.step {c c' : Config (Emissions F) (Executing F)}
    (counting : Counting alone owner c) (first : alone → EmitsFirst c e)
    (step : (emissions env).system.Step c e c') : ∃ owner', Counting alone owner' c' := by
  cases step with
  | @start i x free begins =>
    refine ⟨owner, forall_update ⟨0, ?_, .inl rfl⟩ counting.counters, counting.firsts,
      counting.distinct⟩
    rw [show x.program = execute env x.task x.run from begins]
    exact Numbering.follows_execute env x.task x.run
  | @tau i x next there moves =>
    obtain ⟨task, run, program⟩ := x
    cases program <;> cases moves
  | @call i x w call resume answer there calls permitted ran =>
    obtain ⟨goesOn, program, resumes⟩ := emissions_view calls
    rw [resumes]
    obtain ⟨event, rfl, given, -⟩ | ⟨other, given, -⟩ := emissions_exec ran
    · exact counting.emits there program first answer given
    · obtain ⟨n, follows, counted⟩ := counting.counters i x there
      rw [program] at follows
      have next := follows.2 answer
      rw [(Numbering.ignores_other x.task x.run other).2] at next
      refine ⟨owner, ?_, ?_, ?_⟩ <;> dsimp only <;> rw [given]
      · exact forall_update ⟨n, next, counted⟩ counting.counters
      · exact counting.firsts
      · exact counting.distinct
  | @env w changed =>
    obtain ⟨w, same, rfl⟩ := changed
    exact ⟨owner, counting.counters, counting.firsts, counting.distinct⟩
  | @stop i x there dies =>
    refine ⟨owner, fun j y here => counting.counters j y ?_, counting.firsts, counting.distinct⟩
    dsimp only at here
    by_cases same : j = i
    · rw [same, Function.update_self] at here
      cases here
    · rwa [Function.update_of_ne same] at here

private theorem counting_of_path (path : (emissions env).system.Path history c) :
    ∃ owner, Counting (Within EmitsFirst history) owner c := by
  induction path with
  | start begun =>
    obtain ⟨⟨-, given, -⟩, threads⟩ := begun
    exact ⟨fun _ => 0, by simp [threads], by simp [given], by simp [given]⟩
  | next before step ih =>
    obtain ⟨owner, counting⟩ := ih
    exact (counting.mono fun met => (System.within_cons.mp met).2).step
      (fun met => (System.within_cons.mp met).1) step

/-- Where the numbers stay distinct, nobody emitted before. -/
theorem Counting.first {c c' : Config (Emissions F) (Executing F)}
    (counting : Counting alone owner c) (step : (emissions env).system.Step c e c')
    (distinct : c'.world.given.Pairwise Distinct) : EmitsFirst c e := by
  cases step with
  | @tau i x next there moves =>
    obtain ⟨task, run, program⟩ := x
    cases program <;> cases moves
  | @call i x w call resume answer there calls permitted ran =>
    obtain ⟨goesOn, program, -⟩ := emissions_view calls
    intro event about one old member same
    obtain ⟨event', rfl, given, -⟩ | ⟨other, -⟩ := emissions_exec ran
    · obtain rfl : event' = event := by simpa [there, Executing.next, program] using about
      obtain ⟨first, member, key, number⟩ := counting.firsts old member
      rw [given] at distinct
      exact (List.pairwise_cons.mp distinct).1 first member (key.trans same).symm
        (one.trans number.symm)
    · rw [there] at about
      unfold Executing.next at about
      rw [Option.bind_some, program] at about
      cases call <;> simp_all
  | _ => trivial

/-- **Replay of emitted events.** In every run of any executions, the numbers given out for
a run are pairwise distinct and every event that `PutEvent` was content with is replayed,
with its own type and data, in every state, if and only if an execution begins to emit only
if no other execution of its run has emitted. -/
theorem emitted_events_replayed_iff
    {history : List (Config (Emissions F) (Executing F) × Event (Executing F))}
    {c : Config (Emissions F) (Executing F)} (path : (emissions env).system.Path history c) :
    Throughout (fun c => c.world.given.Pairwise Distinct ∧ AllReplayed c) history c ↔
      Within EmitsFirst history := by
  induction path with
  | start begun =>
    obtain ⟨⟨-, given, emitted⟩, -⟩ := begun
    simp [Throughout, Within, AllReplayed, given, emitted]
  | next before step ih =>
    rw [System.throughout_cons, System.within_cons, ih]
    constructor
    · rintro ⟨⟨distinct, -⟩, within⟩
      obtain ⟨owner, counting⟩ := counting_of_path before
      exact ⟨counting.first step distinct, within⟩
    · rintro ⟨first, within⟩
      obtain ⟨owner, counting⟩ := counting_of_path (before.next step)
      have distinct := counting.distinct (System.within_cons.mpr ⟨first, within⟩)
      exact ⟨⟨distinct, allReplayed_step ⟨_, before⟩ (ih.mpr within).1.2 step distinct⟩, within⟩

section Runs

private theorem Executing.begins (path : (emissions env).system.Path history c) (task : Task F)
    (run : Run F) (free : c.threads i = none) :
    (emissions env).system.Path ((c, .start i ⟨task, run, execute env task run⟩) :: history)
      ⟨c.world, Function.update c.threads i (some ⟨task, run, execute env task run⟩)⟩ :=
  path.next (.start free rfl)

/-- A thread makes its next call, and the call is carried out. -/
def Executing.turn (env : EngineEnv F) (outside : (call : EngineCall F) → call.Ans)
    (c : Config (Emissions F) (Executing F)) (i : Nat) :
    Option (Event (Executing F) × Config (Emissions F) (Executing F)) :=
  match c.threads i with
  | some ⟨task, run, .call call resume⟩ =>
    let served := c.world.world.serve env.sha256 outside call
    if c.world.world.retains call then
      some (.step i, ⟨c.world.record served.2 call served.1,
        Function.update c.threads i (some ⟨task, run, resume served.1⟩)⟩)
    else none
  | _ => none

private theorem Executing.calls (outside : (call : EngineCall F) → call.Ans)
    (before : (emissions env).system.Path history c) (threads : List Nat)
    (took : System.follow (turn env outside) threads history c = some (history', c')) :
    (emissions env).system.Path history' c' := by
  refine System.follow_keeps (Q := (emissions env).system.Path) ?_ before took
  intro history c i e c' path taken
  unfold turn at taken
  split at taken
  · rename_i task run call resume there
    dsimp only at taken
    split at taken <;> cases taken
    rename_i retains
    have lasting := World.retains_of_eq retains
    have view : (emissions env).view ⟨task, run, .call call resume⟩ =
        .call call fun answer => ⟨task, run, resume answer⟩ := rfl
    exact path.next (.call there view trivial ⟨lasting, _, .inl (engineRuns_serve ..), rfl⟩)
  · cases taken

end Runs

end Emissions

/-- An engine that streams. -/
def streamingEngine : EngineEnv Rat := { plainEngine with hasPusher := true }

/-- A model that streams a letter and answers with it. -/
def spelling (letter : String) : (call : EngineCall Rat) → call.Ans
  | .chat _ => ([letter], .ok (reply letter))
  | call => atOnce false (.ok (reply letter)) call

/-- One execution streams a token: both its events are replayed. -/
theorem emitted_events_replayed_once :
    ∃ history c, (emissions streamingEngine).system.Path history c ∧ c.world.emitted.length = 2 ∧
      Throughout (fun c => c.world.given.Pairwise Distinct ∧ AllReplayed c) history c := by
  have c0 : (emissions streamingEngine).system.Path [] ⟨⟨freshWorld, [], []⟩, fun _ => none⟩ :=
    .start ⟨⟨rfl, rfl, rfl⟩, rfl⟩
  have c1 := Executing.begins c0 freshTask freshRun (i := 0) rfl
  have c2 := Executing.calls (spelling "a") c1 (.replicate 9 0) rfl
  exact ⟨_, _, c2, rfl, (emitted_events_replayed_iff c2).mpr (by unfold Within; decide)⟩

/-- A run is executed again after its first execution died: the token the second one
streams has a number of the first one, and is lost. -/
theorem emitted_event_lost_second_execution :
    ∃ history c, (emissions streamingEngine).system.Path history c ∧ ¬ AllReplayed c ∧
      ¬ c.world.given.Pairwise Distinct := by
  have c0 : (emissions streamingEngine).system.Path [] ⟨⟨freshWorld, [], []⟩, fun _ => none⟩ :=
    .start ⟨⟨rfl, rfl, rfl⟩, rfl⟩
  have c1 := Executing.begins c0 freshTask freshRun (i := 0) rfl
  have c2 := Executing.calls (spelling "a") c1 (.replicate 9 0) rfl
  have c3 := c2.next (.stop (i := 0) rfl trivial)
  have c4 := Executing.begins c3 freshTask freshRun (i := 0) rfl
  have c5 := Executing.calls (spelling "b") c4 (.replicate 9 0) rfl
  refine ⟨_, _, c5, fun replayed => ?_, fun distinct => ?_⟩
  · obtain ⟨ev, stored, same⟩ :=
      (replayed_iff (by decide)).mp (replayed _ (List.mem_cons_self ..))
    exact absurd (⟨ev, stored, same.seq, same.data⟩ : ∃ ev ∈ _, ev.seq = _ ∧ ev.data = _) (by decide)
  · exact (List.pairwise_cons.mp distinct).1 _ (List.mem_cons_of_mem _ (List.mem_cons_self ..)) rfl rfl

end AgentForge
