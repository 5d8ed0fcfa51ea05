import AgentForge.Checkpoint
import AgentForge.Publishing
import AgentForge.WSHandlers

/-! A client reconnects to the events of a run while the engine is emitting them. The
engine stores an event, looks up the connections of the task and pushes the event to each;
`handleConnect` stores the connection, reads the events its client missed and pushes these.
The two share nothing but the store, so their steps come in any order. -/
namespace AgentForge

open Transition

/-! ## How far the engine is with an event -/

/-- What the engine is at: nothing, an event it has stored, or the connections it has still
to tell of an event. -/
inductive Emitting (F : Type) where
  | nothing
  | stored (event : StreamEvent F)
  | telling (event : StreamEvent F) (left : List Connection)

/-- The number given out last, the event under way, the connections found dead by it, and
the events that were published before it. -/
structure Publication (F : Type) where
  last : Int := 0
  current : Emitting F := .nothing
  dead : List String := []
  past : List (StreamEvent F) := []

section Publication

variable {F : Type} (env : EngineEnv F) (task : Task F) (run : Run F)

/-- The events whose emission is complete: every connection found was told. -/
def Publication.completed (p : Publication F) : List (StreamEvent F) :=
  match p.current with
  | .telling event [] => event :: p.past
  | _ => p.past

/-- No event is under way. -/
def Publication.AtRest (p : Publication F) : Prop :=
  p.current = .nothing ∨ ∃ event, p.current = .telling event []

/-- The connections of a task that are told of its events. -/
def streamTargets (conns : List Connection) : List Connection :=
  conns.filter fun conn => task.tenantID = "" || conn.tenantID = task.tenantID

/-- Events are published one after another, with numbers that go up by one: each is stored,
then the connections are looked up, then they are told in turn. A connection is deleted only
if it was found dead. -/
def publishing : Discipline (EngineCall F) EngineCall.Ans (Publication F) where
  moves p
    | .putEvent event, _ =>
      { last := event.seq, current := .stored event, dead := [], past := p.completed }
    | .getConnectionsByTask _, .ok conns => match p.current with
      | .stored event => { p with current := .telling event (streamTargets task conns) }
      | _ => p
    | .getConnectionsByTask _, .error _ => { p with current := .nothing }
    | .push id _, .pushed alive => match p.current with
      | .telling event (_ :: left) =>
        { p with current := .telling event left, dead := if alive then p.dead else id :: p.dead }
      | _ => p
    | .push .., .cancelled => { p with current := .nothing }
    | _, _ => p
  allows p
    | .putEvent event => p.AtRest ∧ event.taskID = task.taskID ∧ event.runID = run.runID ∧
        event.seq = p.last + 1
    | .getConnectionsByTask taskID => (∃ event, p.current = .stored event) ∧ taskID = task.taskID
    | .push id event => ∃ conn left, p.current = .telling event (conn :: left) ∧
        id = conn.connectionID
    | .deleteConnection id => id ∈ p.dead
    | _ => True

namespace Publication

private theorem ensures_pushTargets (event : StreamEvent F) (conns : List Connection)
    (stale : List String) (p : Publication F) (telling : p.current = .telling event conns)
    (dead : ∀ id ∈ stale, id ∈ p.dead) :
    (publishing task run).Ensures
      (fun p' stale' => p'.AtRest ∧ p'.last = p.last ∧ ∀ id ∈ stale', id ∈ p'.dead)
      (pushTargets event conns stale) p := by
  induction conns generalizing stale p with
  | nil => exact ⟨.inr ⟨event, telling⟩, rfl, dead⟩
  | cons conn rest ih =>
    refine ⟨⟨conn, rest, telling, rfl⟩, fun outcome => ?_⟩
    obtain ⟨last, current, gone, past⟩ := p
    subst telling
    match outcome with
    | .cancelled => exact ⟨.inl rfl, rfl, dead⟩
    | .pushed true => exact ih stale ⟨last, .telling event rest, gone, past⟩ rfl dead
    | .pushed false =>
      refine ih (stale ++ [conn.connectionID])
        ⟨last, .telling event rest, conn.connectionID :: gone, past⟩ rfl fun id member => ?_
      rcases List.mem_append.mp member with before | here
      · exact List.mem_cons_of_mem _ (dead id before)
      · exact List.mem_singleton.mp here ▸ List.mem_cons_self ..

private theorem ensures_deleteConnections (ids : List String) (p : Publication F)
    (dead : ∀ id ∈ ids, id ∈ p.dead) :
    (publishing task run).Ensures (fun p' _ => p' = p) (deleteConnections ids) p := by
  induction ids with
  | nil => rfl
  | cons id rest ih =>
    obtain ⟨here, others⟩ := List.forall_mem_cons.mp dead
    exact ⟨here, fun _ => ih others⟩

/-- `pushEvent` publishes one event, and is done with it. -/
theorem publishes : Publishes env task run (publishing task run)
    fun seq p => p.AtRest ∧ p.last = seq where
  ignores call aside := by
    cases call <;> first | exact ⟨fun _ => trivial, fun _ _ => rfl⟩ | cases aside
  pushEvent eventSeq type data p rest := by
    obtain ⟨atRest, rfl⟩ := rest
    unfold pushEvent
    split
    · exact ⟨atRest, rfl⟩
    refine Discipline.Quiet.then (.call (fun _ => trivial) fun _ _ => rfl) fun now => ?_
    refine ⟨⟨atRest, rfl, rfl, rfl⟩, fun _ => ⟨⟨⟨_, rfl⟩, rfl⟩, fun conns => ?_⟩⟩
    cases conns with
    | error e => exact ⟨.inl rfl, rfl⟩
    | ok conns =>
      refine (ensures_pushTargets task run _ _ [] _ rfl (by simp)).bind fun p' stale told => ?_
      obtain ⟨still, last, dead⟩ := told
      refine (ensures_deleteConnections task run _ p' fun id member => ?_).bind
        fun _ _ same => same ▸ ⟨still, last⟩
      exact dead id (List.mem_eraseDups.mp member)

end Publication

end Publication

/-! ## The engine and the client -/

/-- How an event got to the connection. -/
inductive Source where
  | live
  | replayed
  deriving DecidableEq

structure Delivery (F : Type) where
  source : Source
  event : StreamEvent F

/-- A client, with an identity, that reconnects to a run of a task while the engine executes
it. -/
structure Reconnection (F : Type) where
  env : EngineEnv F
  task : Task F
  run : Run F
  tenant : TenantInfo
  connectionID : String
  lastSeq : Int
  fromTS : Int
  connectionNamed : connectionID ≠ ""
  taskNamed : task.taskID ≠ ""
  runNamed : run.runID ≠ ""

/-- The engine and the handler at work over one world, how far the engine is with its
events, and what was pushed to the connection since it was registered, latest first. -/
structure Streaming (F : Type) where
  world : World F
  engine : Execution F
  connect : ConnectPC F
  published : Publication F := {}
  delivered : List (Delivery F) := []

/-- Who takes a step. -/
inductive Mover where
  | engine
  | connect
  | other
  deriving DecidableEq

section Pushes

variable {F : Type}

/-- A push of the engine that succeeds; other calls may answer anything. -/
def EngineCall.Succeeds : (call : EngineCall F) → call.Ans → Prop
  | .push .., outcome => outcome = .pushed true
  | _, _ => True

/-- The same for the handler. -/
def WSCall.Succeeds : (call : WSCall F) → call.Ans → Prop
  | .push .., outcome => outcome = (true, none)
  | _, _ => True

/-- What has been delivered after a call of the handler: registration begins it anew. -/
def WSCall.deliver (delivered : List (Delivery F)) : WSCall F → List (Delivery F)
  | .putConnection _ => []
  | .push _ event => ⟨.replayed, event⟩ :: delivered
  | _ => delivered

end Pushes

namespace Reconnection

variable {F : Type} (r : Reconnection F)

/-- The request of the client. -/
def body : ConnectBody := ⟨r.connectionID, r.task.taskID, r.run.runID, r.lastSeq, r.fromTS⟩

/-- The events of the run that are stored. -/
def stored (s : Streaming F) : List (StreamEvent F) :=
  s.world.store.storedEvents r.task.taskID r.run.runID

/-- The task is in the store, its user is the client's, and the run is there as well. -/
structure Serves (s : MemoryStore F) : Prop where
  task : ∃ stored, s.tasks.lookup r.task.taskID = some stored ∧
    stored.tenantID = r.task.tenantID ∧
    hasTaskAccess stored r.tenant.tenantID r.tenant.userID = true
  run : ∃ stored, s.runs.lookup (runKey r.task.taskID r.run.runID) = some stored

/-- What a call of the engine delivers to the connection. -/
def live : EngineCall F → List (Delivery F)
  | .push id event => if id = r.connectionID then [⟨.live, event⟩] else []
  | _ => []

/-- What anyone else does to the world: any method of the store, except that nobody else
stores events of the run. -/
def Others [Float64 F] (w w' : World F) : Prop :=
  w'.store = w.store ∨ ∃ (write : StoreWrite F) (now : Time),
    (∀ event, write = .putEvent event →
      eventKey event.taskID event.runID ≠ eventKey r.task.taskID r.run.runID) ∧
    w'.store = write.apply w.store now

/-- One step. All pushes succeed. -/
inductive Step [Float64 F] : Streaming F → Mover → Streaming F → Prop where
  | engine {s : Streaming F} {request : EngineCall F} {resume : request.Ans → Execution F}
      {answer : request.Ans} {w : World F} (calls : s.engine = .call request resume)
      (ran : s.world.EngineRuns r.env.sha256 request answer w)
      (succeeds : request.Succeeds answer) :
      Step s .engine ⟨w, resume answer, s.connect,
        (publishing r.task r.run).moves s.published request answer, r.live request ++ s.delivered⟩
  | connect {s : Streaming F} {request : WSCall F} {resume : request.Ans → ConnectPC F}
      {answer : request.Ans} {w : World F} (calls : s.connect.view {} r.tenant = .call request resume)
      (ran : s.world.WSRuns request answer w) (succeeds : request.Succeeds answer) :
      Step s .connect ⟨w, s.engine, resume answer, s.published, request.deliver s.delivered⟩
  | other {s : Streaming F} {w : World F} (changed : r.Others s.world w) :
      Step s .other { s with world := w }

/-- The engine begins to execute the run, of which no event is stored, and the client's
request comes in. -/
def system [Float64 F] : System (Streaming F) Mover where
  Initial s := s.world.store.Reached ∧ r.stored s = [] ∧ r.Serves s.world.store ∧
    s.engine = execute r.env r.task r.run ∧ s.connect = .start {} (some r.body) ∧
    s.published = {} ∧ s.delivered = []
  Step := r.Step

/-! ## What is so in every state -/

/-- The handler works on the client's request. -/
def Place : ConnectPC F → Prop
  | .getTask b | .readClock b | .readClockAgain b _ | .replayTask b | .replayRun b
  | .replayEvents b | .push b .. => b = r.body
  | .putConnection b conn => b = r.body ∧ conn.connectionID = r.connectionID ∧
      conn.taskID = r.task.taskID ∧ conn.tenantID = r.tenant.tenantID
  | .returned _ => True

/-- The engine follows the discipline, no connection was found dead, and every stored event
of the run has a number that was given out. -/
structure Sound [Float64 F] (s : Streaming F) : Prop where
  reached : s.world.store.Reached
  serves : r.Serves s.world.store
  follows : (publishing r.task r.run).Ensures (fun _ _ => True) s.engine s.published
  noneDead : s.published.dead = []
  counted : 0 ≤ s.published.last
  numbered : ∀ ev ∈ r.stored s, 1 ≤ ev.seq ∧ ev.seq ≤ s.published.last
  place : r.Place s.connect

variable {r}

private theorem Serves.persists (serves : r.Serves s) (kept : s.Persists s') : r.Serves s' := by
  obtain ⟨task, found, tenant, access⟩ := serves.task
  obtain ⟨task', found', tenant', user'⟩ := kept.task _ task found
  obtain ⟨run, there⟩ := serves.run
  refine ⟨⟨task', found', tenant'.trans tenant, ?_⟩, kept.run _ run there⟩
  simpa only [hasTaskAccess, hasTaskTenantAccess, tenant', user'] using access

/-- While pushes succeed, none is found dead. -/
theorem moves_dead (none : p.dead = []) (succeeds : call.Succeeds answer) :
    ((publishing r.task r.run).moves p call answer).dead = [] := by
  obtain ⟨last, current, dead, past⟩ := p
  subst none
  cases call with
  | putEvent event => rfl
  | getConnectionsByTask taskID =>
    cases answer with
    | error e => rfl
    | ok conns => cases current <;> rfl
  | push id event =>
    obtain rfl := succeeds
    match current with
    | .nothing | .stored _ | .telling _ [] | .telling _ (_ :: _) => rfl
  | _ => rfl

private theorem moves_last (other : ∀ event, call ≠ .putEvent event) :
    ((publishing r.task r.run).moves p call answer).last = p.last := by
  obtain ⟨last, current, dead, past⟩ := p
  cases call with
  | putEvent event => exact absurd rfl (other event)
  | getConnectionsByTask taskID =>
    cases answer with
    | error e => rfl
    | ok conns => cases current <;> rfl
  | push id event =>
    match answer, current with
    | .cancelled, _ | .pushed _, .nothing | .pushed _, .stored _ | .pushed _, .telling _ []
    | .pushed _, .telling _ (_ :: _) => rfl
  | _ => rfl

theorem start_eq (r : Reconnection F) :
    (ConnectPC.start {} (some r.body) : ConnectPC F) = .getTask r.body := by
  have named : ¬ (r.body.connectionID = "" ∨ r.body.taskID = "") :=
    not_or.mpr ⟨r.connectionNamed, r.taskNamed⟩
  unfold ConnectPC.start
  dsimp only
  rw [if_neg named]
  rfl

private theorem place_replay (events : List (StreamEvent F)) (replayed : Nat) :
    r.Place (.replay {} r.body events replayed) := by
  induction events generalizing replayed with
  | nil => trivial
  | cons ev rest ih =>
    unfold ConnectPC.replay
    split
    · exact ih replayed
    · rfl

private theorem place_call (place : r.Place pc) (calls : pc.view {} r.tenant = .call call resume)
    (answer : call.Ans) :
    r.Place (resume answer) := by
  cases pc with
  | getTask b | replayTask b =>
    cases calls
    dsimp only
    split
    · trivial
    · exact place
  | readClock b =>
    cases calls
    exact place
  | readClockAgain b connectedAt =>
    cases calls
    obtain rfl := place
    exact ⟨rfl, rfl, rfl, rfl⟩
  | putConnection b conn =>
    cases calls
    obtain ⟨rfl, -⟩ := place
    cases answer with
    | error e => trivial
    | ok done =>
      change r.Place (.registered {} r.body)
      unfold ConnectPC.registered
      split
      · rfl
      · trivial
  | replayRun b =>
    cases calls
    cases answer with
    | error e => trivial
    | ok run => exact place
  | replayEvents b =>
    cases calls
    obtain rfl := place
    cases answer with
    | error e => trivial
    | ok events => exact place_replay events 0
  | push b ev rest replayed =>
    cases calls
    obtain rfl := place
    obtain ⟨alive, pushErr⟩ := answer
    dsimp only
    split
    · trivial
    · exact place_replay rest _
  | returned response => cases calls

/-- The client has the tenant of the task. -/
theorem Serves.tenant (serves : r.Serves s) : r.tenant.tenantID = r.task.tenantID := by
  obtain ⟨task, -, same, access⟩ := serves.task
  rw [← (owner_of_access access).1, same]

private theorem Serves.shown (serves : r.Serves s) :
    ∃ task, accessible r.tenant.tenantID r.tenant.userID (s.getTask r.task.taskID) = .ok task := by
  obtain ⟨task, found, -, access⟩ := serves.task
  refine ⟨task, ?_⟩
  simp [accessible, MemoryStore.getTask, found, access]

variable [Float64 F]

/-- What a call of the engine does to the store is a write of it, or nothing. -/
theorem engineRuns_write {w w' : World F} {answer : call.Ans}
    (ran : w.EngineRuns sha256 call answer w') :
    w'.store = w.store ∨ ∃ (write : StoreWrite F) (now : Time),
      w'.store = write.apply w.store now ∧
      ∀ event, write = .putEvent event → call = .putEvent event := by
  cases call with
  | putStep step =>
    obtain ⟨-, rfl⟩ := ran
    exact .inr ⟨.putStep step, 0, rfl, by simp⟩
  | updateLastStepIndex taskID runID stepIndex =>
    obtain ⟨-, rfl⟩ := ran
    exact .inr ⟨.updateLastStepIndex taskID runID stepIndex, 0, rfl, by simp⟩
  | addRunUsage taskID runID usage costUSD =>
    obtain ⟨-, rfl⟩ := ran
    exact .inr ⟨.addRunUsage taskID runID usage costUSD, 0, rfl, by simp⟩
  | putEvent event =>
    obtain ⟨-, rfl⟩ := ran
    exact .inr ⟨.putEvent event, w.clock, rfl, by simp⟩
  | deleteConnection id =>
    obtain ⟨-, rfl⟩ := ran
    exact .inr ⟨.deleteConnection id, 0, rfl, by simp⟩
  | executeTool _ _ =>
    obtain ⟨blobs, -, rfl⟩ := ran
    exact .inl rfl
  | contextDone | push _ _ | workspaceSnapshot | workspaceRestore _ | chat _ =>
    obtain rfl := ran
    exact .inl rfl
  | _ =>
    obtain ⟨-, rfl⟩ := ran
    exact .inl rfl

/-- The same of a call of the handlers. -/
theorem wsRuns_write {w w' : World F} {answer : call.Ans} (ran : w.WSRuns call answer w') :
    w'.store = w.store ∨ ∃ write : StoreWrite F,
      w'.store = write.apply w.store 0 ∧ ∀ event, write ≠ .putEvent event := by
  cases call with
  | putConnection conn =>
    obtain ⟨-, rfl⟩ := ran
    exact .inr ⟨.putConnection conn, rfl, nofun⟩
  | deleteConnection id =>
    obtain ⟨-, rfl⟩ := ran
    exact .inr ⟨.deleteConnection id, rfl, nofun⟩
  | push _ _ =>
    obtain rfl := ran
    exact .inl rfl
  | _ =>
    obtain ⟨-, rfl⟩ := ran
    exact .inl rfl

/-- What anyone else does keeps what is so of the store. -/
theorem Sound.others (sound : r.Sound s) (changed : r.Others s.world w) :
    w.store.Reached ∧ r.Serves w.store ∧
      ∀ ev ∈ w.store.storedEvents r.task.taskID r.run.runID,
        1 ≤ ev.seq ∧ ev.seq ≤ s.published.last := by
  rcases changed with same | ⟨write, now, none, left⟩
  · rw [same]
    exact ⟨sound.reached, sound.serves, sound.numbered⟩
  · rw [left]
    exact ⟨.write sound.reached now write, sound.serves.persists (write.persists _ now),
      fun ev there => sound.numbered ev (write.storedEvents_subset none there)⟩

private theorem sound_step {e : Mover} (sound : r.Sound s) (step : r.system.Step s e t) :
    r.Sound t := by
  cases step with
  | @engine request resume answer w calls ran succeeds =>
    have follows := sound.follows
    rw [calls] at follows
    obtain ⟨allowed, next⟩ := follows
    have noneDead := moves_dead (r := r) sound.noneDead succeeds
    by_cases put : ∃ event, request = .putEvent event
    · obtain ⟨event, rfl⟩ := put
      obtain ⟨-, -, -, seq⟩ := allowed
      obtain ⟨-, rfl⟩ := ran
      have counted := sound.counted
      refine ⟨.write sound.reached s.world.clock (.putEvent event),
        sound.serves.persists (StoreWrite.persists (.putEvent event) _ s.world.clock), next answer,
        noneDead, ?_, fun ev there => ?_, sound.place⟩
      · change 0 ≤ event.seq
        omega
      · change 1 ≤ ev.seq ∧ ev.seq ≤ event.seq
        rcases of_mem_storedEvents_putEvent there with before | ⟨rfl, -⟩
        · obtain ⟨low, high⟩ := sound.numbered ev before
          omega
        · rw [(event.same_stamped _).seq]
          omega
    · have others : r.Others s.world w := by
        rcases engineRuns_write ran with same | ⟨write, now, left, puts⟩
        · exact .inl same
        · exact .inr ⟨write, now, fun event same => absurd ⟨event, puts event same⟩ put, left⟩
      obtain ⟨reached, serves, numbered⟩ := sound.others others
      have last : ((publishing r.task r.run).moves s.published request answer).last =
          s.published.last := moves_last fun event same => put ⟨event, same⟩
      exact ⟨reached, serves, next answer, noneDead, last ▸ sound.counted, last ▸ numbered,
        sound.place⟩
  | @connect request resume answer w calls ran succeeds =>
    have others : r.Others s.world w := by
      rcases wsRuns_write ran with same | ⟨write, left, puts⟩
      · exact .inl same
      · exact .inr ⟨write, 0, fun event same => absurd same (puts event), left⟩
    obtain ⟨reached, serves, numbered⟩ := sound.others others
    exact ⟨reached, serves, sound.follows, sound.noneDead, sound.counted, numbered,
      place_call sound.place calls answer⟩
  | other changed =>
    obtain ⟨reached, serves, numbered⟩ := sound.others changed
    exact ⟨reached, serves, sound.follows, sound.noneDead, sound.counted, numbered, sound.place⟩

theorem sound_of_reachable (reached : r.system.Reachable s) : r.Sound s := by
  refine reached.invariant ?_ fun _ _ _ _ => sound_step
  rintro s ⟨store, none, serves, engine, connect, published, -⟩
  refine ⟨store, serves, ?_, by rw [published], by rw [published], ?_, ?_⟩
  · rw [engine, published]
    exact (Publication.publishes r.env r.task r.run).execute ⟨.inl rfl, rfl⟩
  · rw [none]
    simp
  · rw [connect, start_eq]
    rfl

/-! ## What a step can do -/

/-- What a step of the engine comes to: it stores the next event, it looks up the connections
for the event it stored, it tells the next of them, or it does something that is not about
events. -/
inductive EngineMove (r : Reconnection F) (s : Streaming F) : Streaming F → Prop where
  | puts {event : StreamEvent F} {resume} {w : World F} {e : Execution F}
      (calls : s.engine = .call (.putEvent event) resume) (taskID : event.taskID = r.task.taskID)
      (runID : event.runID = r.run.runID) (seq : event.seq = s.published.last + 1)
      (left : w.store = (s.world.store.putEvent s.world.clock event).2) :
      EngineMove r s ⟨w, e, s.connect, ⟨event.seq, .stored event, [], s.published.completed⟩,
        s.delivered⟩
  | looks {event : StreamEvent F} {e : Execution F} (current : s.published.current = .stored event) :
      EngineMove r s ⟨s.world, e, s.connect, { s.published with
        current := .telling event
          (streamTargets r.task (s.world.store.getConnectionsByTask r.task.taskID)) }, s.delivered⟩
  | tells {event : StreamEvent F} {conn : Connection} {left : List Connection} {resume}
      {e : Execution F} (calls : s.engine = .call (.push conn.connectionID event) resume)
      (current : s.published.current = .telling event (conn :: left)) :
      EngineMove r s ⟨s.world, e, s.connect, { s.published with current := .telling event left },
        (if conn.connectionID = r.connectionID then [⟨.live, event⟩] else []) ++ s.delivered⟩
  | silent {w : World F} {e : Execution F} :
      EngineMove r s ⟨w, e, s.connect, s.published, s.delivered⟩

theorem engine_move (sound : r.Sound s) (step : r.system.Step s .engine t) : EngineMove r s t := by
  cases step with
  | @engine request resume answer w calls ran succeeds =>
  have follows := sound.follows
  rw [calls] at follows
  have allowed := follows.1
  cases request with
  | putEvent event =>
    obtain ⟨-, taskID, runID, seq⟩ := allowed
    obtain ⟨-, rfl⟩ := ran
    exact .puts calls taskID runID seq rfl
  | getConnectionsByTask taskID =>
    obtain ⟨⟨event, current⟩, rfl⟩ := allowed
    obtain ⟨rfl, rfl⟩ := ran
    simp only [publishing, current]
    exact .looks current
  | push id event =>
    obtain ⟨conn, left, current, rfl⟩ := allowed
    obtain rfl := ran
    obtain rfl := succeeds
    simp only [publishing, current, if_true]
    exact .tells calls current
  | _ => exact .silent

/-- Before the connection is stored. -/
def Early : ConnectPC F → Prop
  | .getTask _ | .readClock _ | .readClockAgain _ _ | .putConnection _ _ => True
  | _ => False

/-- Between that and the replay being read. -/
def Unread : ConnectPC F → Prop
  | .replayTask _ | .replayRun _ | .replayEvents _ => True
  | _ => False

/-- How many calls the handler still makes at most: a replay reads 2000 events at most. -/
def callsLeft : ConnectPC F → Nat
  | .getTask _ => 2007
  | .readClock _ => 2006
  | .readClockAgain _ _ => 2005
  | .putConnection _ _ => 2004
  | .replayTask _ => 2003
  | .replayRun _ => 2002
  | .replayEvents _ => 2001
  | .push _ _ rest _ => rest.length + 1
  | .returned _ => 0

/-- What a step of the handler comes to: it gets ready, it stores the connection, it gets
ready for the replay, it reads the events missed, or it pushes the next of them. -/
inductive ConnectMove (r : Reconnection F) (s : Streaming F) : Streaming F → Prop where
  | prepares {pc : ConnectPC F} (early : Early s.connect) (early' : Early pc)
      (less : callsLeft pc + 1 = callsLeft s.connect) : ConnectMove r s { s with connect := pc }
  | registers {b : ConnectBody} {conn : Connection} {w : World F}
      (atPut : s.connect = .putConnection b conn) (id : conn.connectionID = r.connectionID)
      (ofTask : conn.taskID = r.task.taskID) (tenant : conn.tenantID = r.task.tenantID)
      (left : w.store = s.world.store.putConnection conn) :
      ConnectMove r s ⟨w, s.engine, .replayTask r.body, s.published, []⟩
  | checks {pc : ConnectPC F} (unread : Unread s.connect) (unread' : Unread pc)
      (less : callsLeft pc + 1 = callsLeft s.connect) : ConnectMove r s { s with connect := pc }
  | reads {b : ConnectBody} (atRead : s.connect = .replayEvents b) :
      ConnectMove r s { s with
        connect := .replay {} r.body (s.world.store.replayEvents r.task.taskID r.run.runID
          r.lastSeq r.fromTS 2000) 0 }
  | replays {b : ConnectBody} {ev : StreamEvent F} {rest : List (StreamEvent F)} {replayed : Nat}
      (atPush : s.connect = .push b ev rest replayed) :
      ConnectMove r s ⟨s.world, s.engine, .replay {} r.body rest (replayed + 1), s.published,
        ⟨.replayed, ev⟩ :: s.delivered⟩

theorem connect_move (sound : r.Sound s) (step : r.system.Step s .connect t) :
    ConnectMove r s t := by
  cases step with
  | @connect request resume answer w calls ran succeeds =>
  obtain ⟨task, shown⟩ := sound.serves.shown
  have place := sound.place
  obtain ⟨world, engine, pc, published, delivered⟩ := s
  dsimp only at place shown calls ran ⊢
  have answered : accessible r.tenant.tenantID r.tenant.userID
      (world.store.getTask r.body.taskID) = .ok task := shown
  cases pc with
  | getTask b =>
    cases calls
    obtain rfl := place
    obtain ⟨rfl, rfl⟩ := ran
    dsimp only
    rw [answered]
    exact .prepares trivial trivial rfl
  | readClock b | readClockAgain b connectedAt =>
    cases calls
    obtain ⟨rfl, rfl⟩ := ran
    exact .prepares trivial trivial rfl
  | putConnection b conn =>
    cases calls
    obtain ⟨rfl, id, ofTask, tenant⟩ := place
    obtain ⟨rfl, rfl⟩ := ran
    have moves : (ConnectPC.registered {} r.body : ConnectPC F) = .replayTask r.body :=
      if_pos ⟨rfl, r.taskNamed, r.runNamed⟩
    dsimp only
    rw [moves]
    exact .registers rfl id ofTask (tenant.trans sound.serves.tenant) rfl
  | replayTask b =>
    cases calls
    obtain rfl := place
    obtain ⟨rfl, rfl⟩ := ran
    dsimp only
    rw [answered]
    exact .checks trivial trivial rfl
  | replayRun b =>
    cases calls
    obtain rfl := place
    obtain ⟨rfl, rfl⟩ := ran
    obtain ⟨run, there⟩ := sound.serves.run
    have answered : w.store.getRun r.body.taskID r.body.runID = .ok run :=
      getRun_eq_ok.mpr there
    dsimp only
    rw [answered]
    exact .checks trivial trivial rfl
  | replayEvents b =>
    cases calls
    obtain rfl := place
    obtain ⟨rfl, rfl⟩ := ran
    exact .reads rfl
  | push b ev rest replayed =>
    cases calls
    obtain rfl := place
    obtain rfl := ran
    obtain rfl := succeeds
    exact .replays rfl
  | returned response => cases calls

end Reconnection

end AgentForge
