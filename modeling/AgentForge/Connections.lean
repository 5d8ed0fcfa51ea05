import AgentForge.WSHandlers

/-! Whose connections a request may touch. A client names the connection it connects or
disconnects by an id of its own choosing. `handleDisconnect` looks whose the connection is
before it deletes it; `handleConnect` puts a connection under the id whatever is there. -/
namespace AgentForge

open Transition
open Transition.System (Along Within)

/-- A request to one of the two handlers. -/
inductive WSRequest where
  | connect (body : Option ConnectBody)
  | disconnect (body : Option String)

/-- A request being handled, and whose it is. -/
inductive WSThread (F : Type) where
  | connect (tenant : TenantInfo) (pc : ConnectPC F)
  | disconnect (tenant : TenantInfo) (pc : DisconnectPC)

section Requests

variable {F : Type}

def WSThread.view (h : WSHandler) : WSThread F → View (WSCall F) WSCall.Ans (WSThread F)
  | .connect tenant pc => (pc.view h tenant).map (.connect tenant)
  | .disconnect tenant pc => (pc.view tenant).map (.disconnect tenant)

def WSRequest.start (h : WSHandler) (tenant : TenantInfo) : WSRequest → WSThread F
  | .connect body => .connect tenant (.start h body)
  | .disconnect body => .disconnect tenant (.start body)

/-- The request is handled from beginning to end with nothing in between. -/
def Handled (h : WSHandler) (tenant : TenantInfo) (request : WSRequest) (w w' : World F) : Prop :=
  ∃ t, Solo (WSThread.view h) (fun _ w call answer w' => w.WSRuns call answer w') w
    (request.start h tenant) w' t ∧ WSThread.view h t = .done

/-- A request is handled, or something else happens. -/
inductive WSEvent where
  | request (tenant : TenantInfo) (request : WSRequest)
  | other

/-- Requests handled one after another, by any tenants. Between two requests anything may
happen to the world. -/
def requests (h : WSHandler) : System (World F) WSEvent where
  Initial _ := True
  Step w e w' := match e with
    | .request tenant request => Handled h tenant request w w'
    | .other => True

/-! ## What is asked of a request, and when it is so -/

/-- The connections of other tenants are what they were, and so is whom the engine tells of
the events of a task. -/
structure Isolated (tenantID : String) (s s' : MemoryStore F) : Prop where
  record : ∀ id conn, conn.tenantID ≠ tenantID →
    (s.connections.lookup id = some conn ↔ s'.connections.lookup id = some conn)
  stream : ∀ taskID conn, conn.tenantID ≠ tenantID →
    (conn ∈ s.getConnectionsByTask taskID ↔ conn ∈ s'.getConnectionsByTask taskID)

def IsolatesTenants (w : World F) : WSEvent → World F → Prop
  | .request tenant _, w' => Isolated tenant.tenantID w.store w'.store
  | .other, _ => True

/-- The request to connect gets as far as storing the connection. -/
def Registers (h : WSHandler) (tenant : TenantInfo) (body : ConnectBody) (s : MemoryStore F) : Prop :=
  body.connectionID ≠ "" ∧ body.taskID ≠ "" ∧
    (h.hasTaskSvc = true → ∃ task, getForUser s tenant.tenantID tenant.userID body.taskID = .ok task)

/-- Whoever connects takes an id that is free or that their own tenant has. -/
def ConnectsOwn (h : WSHandler) (w : World F) : WSEvent → Prop
  | .request tenant (.connect (some body)) => Registers h tenant body w.store →
      ∀ conn, w.store.connections.lookup body.connectionID = some conn →
        conn.tenantID = tenant.tenantID
  | _ => True

variable {s s' : MemoryStore F} {conn : Connection}

private theorem isolated_of_records (record : ∀ id conn, conn.tenantID ≠ tenantID →
    (s.connections.lookup id = some conn ↔ s'.connections.lookup id = some conn)) :
    Isolated tenantID s s' := by
  refine ⟨record, fun taskID conn other => ?_⟩
  rw [mem_getConnectionsByTask, mem_getConnectionsByTask]
  exact and_congr_left fun _ => exists_congr fun id => record id conn other

private theorem Isolated.refl : Isolated tenantID s s := isolated_of_records fun _ _ _ => .rfl

/-- A connection of one's own may go. -/
theorem isolated_deleteConnection {id : String} (found : s.connections.lookup id = some conn)
    (own : conn.tenantID = tenantID) : Isolated tenantID s (s.deleteConnection id) := by
  refine isolated_of_records fun id' conn' other => ?_
  unfold MemoryStore.deleteConnection
  by_cases same : id' = id
  · subst same
    rw [AList.lookup_erase, found]
    refine iff_of_false (fun here => other ?_) nofun
    rw [← Option.some.inj here]
    exact own
  · rw [AList.lookup_erase_ne same]

/-- A connection of one's own takes nobody's place exactly if its id was free or held by
one's own. -/
theorem isolated_putConnection_iff (own : conn.tenantID = tenantID) :
    Isolated tenantID s (s.putConnection conn) ↔
      ∀ conn', s.connections.lookup conn.connectionID = some conn' → conn'.tenantID = tenantID := by
  constructor
  · intro isolated conn' found
    by_contra foreign
    have kept := (isolated.record conn.connectionID conn' foreign).mp found
    rw [MemoryStore.putConnection, AList.lookup_insert, Option.some.injEq] at kept
    exact foreign (kept ▸ own)
  · intro free
    refine isolated_of_records fun id' conn' other => ?_
    unfold MemoryStore.putConnection
    by_cases same : id' = conn.connectionID
    · subst same
      rw [AList.lookup_insert, Option.some.injEq]
      exact iff_of_false (fun found => other (free conn' found)) fun here => other (here ▸ own)
    · rw [AList.lookup_insert_ne same]

/-! ## What a request does to the store -/

variable {h : WSHandler} {tenant : TenantInfo} {body : ConnectBody}

/-- The connection of the request was stored. -/
def Stored (tenant : TenantInfo) (body : ConnectBody) (s s' : MemoryStore F) : Prop :=
  ∃ conn : Connection, conn.connectionID = body.connectionID ∧ conn.tenantID = tenant.tenantID ∧
    s' = s.putConnection conn

/-- What is so of a `handleConnect` at each place, with `s` the store it began with. -/
def ConnectPC.Standing (h : WSHandler) (tenant : TenantInfo) (body : ConnectBody)
    (s s' : MemoryStore F) : ConnectPC F → Prop
  | .getTask b => b = body ∧ s' = s ∧ h.hasTaskSvc = true ∧ body.connectionID ≠ "" ∧
      body.taskID ≠ ""
  | .readClock b | .readClockAgain b _ => b = body ∧ s' = s ∧ Registers h tenant body s
  | .putConnection b conn => b = body ∧ s' = s ∧ Registers h tenant body s ∧
      conn.connectionID = body.connectionID ∧ conn.tenantID = tenant.tenantID
  | .replayTask _ | .replayRun _ | .replayEvents _ | .push .. =>
    Registers h tenant body s ∧ Stored tenant body s s'
  | .returned _ => (¬ Registers h tenant body s ∧ s' = s) ∨
      (Registers h tenant body s ∧ Stored tenant body s s')

private theorem standing_replay (b : ConnectBody) (events : List (StreamEvent F)) (replayed : Nat)
    (stored : Registers h tenant body s ∧ Stored tenant body s s') :
    (ConnectPC.replay h b events replayed).Standing h tenant body s s' := by
  induction events generalizing replayed with
  | nil => exact .inr stored
  | cons ev rest ih =>
    unfold ConnectPC.replay
    split
    · exact ih replayed
    split
    · exact stored
    · exact ih (replayed + 1)

private theorem standing_registered (b : ConnectBody)
    (stored : Registers h tenant body s ∧ Stored tenant body s s') :
    (ConnectPC.registered h b).Standing h tenant body s s' := by
  unfold ConnectPC.registered
  split
  · exact stored
  · exact .inr stored

/-- One call of `handleConnect`. -/
theorem standing_call {w w' : World F} {pc : ConnectPC F} {resume : call.Ans → ConnectPC F}
    {answer : call.Ans} (standing : pc.Standing h tenant body s w.store)
    (calls : pc.view h tenant = .call call resume) (ran : w.WSRuns call answer w') :
    (resume answer).Standing h tenant body s w'.store := by
  cases pc with
  | getTask b =>
    cases calls
    obtain ⟨rfl, same, service, named, named'⟩ := standing
    obtain ⟨rfl, rfl⟩ := ran
    rw [same]
    dsimp only
    split
    · rename_i refused
      refine .inl ⟨fun registers => ?_, rfl⟩
      obtain ⟨task, shown⟩ := registers.2.2 service
      cases refused.symm.trans shown
    · rename_i task shown
      exact ⟨rfl, rfl, named, named', fun _ => ⟨task, shown⟩⟩
  | readClock b =>
    cases calls
    obtain ⟨-, rfl⟩ := ran
    exact standing
  | readClockAgain b connectedAt =>
    cases calls
    obtain ⟨-, rfl⟩ := ran
    obtain ⟨rfl, same, registers⟩ := standing
    exact ⟨rfl, same, registers, rfl, rfl⟩
  | putConnection b conn =>
    cases calls
    obtain ⟨rfl, same, registers, named, own⟩ := standing
    obtain ⟨rfl, rfl⟩ := ran
    exact standing_registered b ⟨registers, conn, named, own, by rw [same]⟩
  | replayTask b =>
    cases calls
    obtain ⟨-, rfl⟩ := ran
    dsimp only
    split
    · exact .inr standing
    · exact standing
  | replayRun b =>
    cases calls
    obtain ⟨-, rfl⟩ := ran
    cases answer with
    | error e => exact .inr standing
    | ok run => exact standing
  | replayEvents b =>
    cases calls
    obtain ⟨rfl, rfl⟩ := ran
    exact standing_replay b _ 0 standing
  | push b ev rest replayed =>
    cases calls
    obtain rfl := ran
    obtain ⟨alive, pushErr⟩ := answer
    dsimp only
    split
    · exact .inr standing
    · exact standing_replay b rest _ standing
  | returned response => cases calls

/-- A request to connect stores its connection if it is in order, and changes nothing
otherwise. -/
theorem connect_effect {w w' : World F} (handled : Handled h tenant (.connect (some body)) w w') :
    (¬ Registers h tenant body w.store ∧ w'.store = w.store) ∨
      (Registers h tenant body w.store ∧ Stored tenant body w.store w'.store) := by
  obtain ⟨t, solo, returned⟩ := handled
  have start : (ConnectPC.start h (some body)).Standing h tenant body w.store w.store := by
    unfold ConnectPC.start
    dsimp only
    split
    · rename_i missing
      refine .inl ⟨fun registers => ?_, rfl⟩
      exact missing.elim registers.1 registers.2.1
    · rename_i named
      rw [not_or] at named
      split
      · rename_i service
        exact ⟨rfl, rfl, service, named⟩
      · rename_i service
        exact ⟨rfl, rfl, named.1, named.2, fun some => absurd some service⟩
  have stands : ∃ pc, t = .connect tenant pc ∧ pc.Standing h tenant body w.store w'.store := by
    refine solo.invariant (Q := fun w₁ t => ∃ pc, t = .connect tenant pc ∧
      pc.Standing h tenant body w.store w₁.store) ?_ ?_ ⟨_, rfl, start⟩
    · rintro w₁ _ next ⟨pc, rfl, -⟩ moves
      obtain ⟨pc', moves, -⟩ := View.map_eq_tau.mp moves
      cases pc <;> cases moves
    · rintro w₁ _ call resume answer w₂ ⟨pc, rfl, standing⟩ calls ran
      obtain ⟨resume', made, rfl⟩ := View.map_eq_call.mp calls
      exact ⟨_, rfl, standing_call standing made ran⟩
  obtain ⟨pc, rfl, standing⟩ := stands
  cases pc with
  | returned response => exact standing
  | _ => cases returned

/-- The store is as it was, or without a connection of the tenant. -/
def DroppedOwn (tenant : TenantInfo) (s s' : MemoryStore F) : Prop :=
  s' = s ∨ ∃ id conn, s.connections.lookup id = some conn ∧ conn.tenantID = tenant.tenantID ∧
    s' = s.deleteConnection id

/-- What is so of a `handleDisconnect` at each place. -/
def DisconnectPC.Standing (tenant : TenantInfo) (s s' : MemoryStore F) : DisconnectPC → Prop
  | .getConnection _ => s' = s
  | .deleteConnection id => s' = s ∧ ∃ conn, s.connections.lookup id = some conn ∧
      conn.tenantID = tenant.tenantID
  | .returned _ => DroppedOwn tenant s s'

/-- One call of `handleDisconnect`. -/
theorem disconnect_call {w w' : World F} {pc : DisconnectPC} {resume : call.Ans → DisconnectPC}
    {answer : call.Ans} (standing : pc.Standing tenant s w.store)
    (calls : pc.view tenant = .call call resume) (ran : w.WSRuns call answer w') :
    (resume answer).Standing tenant s w'.store := by
  cases pc with
  | getConnection id =>
    cases calls
    obtain ⟨rfl, rfl⟩ := ran
    unfold MemoryStore.getConnection
    cases found : w'.store.connections.lookup id with
    | none => exact .inl standing
    | some conn =>
      dsimp only
      split
      · exact .inl standing
      · rename_i own
        exact ⟨standing, conn, standing ▸ found, not_not.mp own⟩
  | deleteConnection id =>
    cases calls
    obtain ⟨rfl, rfl⟩ := ran
    obtain ⟨same, conn, found, own⟩ := standing
    exact .inr ⟨id, conn, found, own, by rw [same]⟩
  | returned response => cases calls

/-- A request to disconnect changes nothing, or deletes a connection of its own tenant. -/
theorem disconnect_effect {w w' : World F} {request : Option String}
    (handled : Handled h tenant (.disconnect request) w w') :
    DroppedOwn tenant w.store w'.store := by
  obtain ⟨t, solo, returned⟩ := handled
  have start : (DisconnectPC.start request).Standing tenant w.store w.store := by
    unfold DisconnectPC.start
    split
    · exact .inl rfl
    split
    · exact .inl rfl
    · rfl
  have stands : ∃ pc, t = .disconnect tenant pc ∧ pc.Standing tenant w.store w'.store := by
    refine solo.invariant (Q := fun w₁ t => ∃ pc, t = .disconnect tenant pc ∧
      pc.Standing tenant w.store w₁.store) ?_ ?_ ⟨_, rfl, start⟩
    · rintro w₁ _ next ⟨pc, rfl, -⟩ moves
      obtain ⟨pc', moved, -⟩ := View.map_eq_tau.mp moves
      cases pc <;> cases moved
    · rintro w₁ _ call resume answer w₂ ⟨pc, rfl, standing⟩ calls ran
      obtain ⟨resume', made, rfl⟩ := View.map_eq_call.mp calls
      exact ⟨_, rfl, disconnect_call standing made ran⟩
  obtain ⟨pc, rfl, standing⟩ := stands
  cases pc with
  | returned response => exact standing
  | _ => cases returned

/-- A request leaves the connections of other tenants alone exactly if it does not connect
under an id that one of them has. -/
theorem isolates_iff {e : WSEvent} (step : (requests h).Step w e w') :
    IsolatesTenants w e w' ↔ ConnectsOwn h w e := by
  match e, step with
  | .other, _ => exact iff_of_true trivial trivial
  | .request tenant (.disconnect body), handled =>
    refine iff_of_true ?_ trivial
    change Isolated tenant.tenantID w.store w'.store
    rcases disconnect_effect handled with same | ⟨id, conn, found, own, left⟩
    · rw [same]
      exact .refl
    · rw [left]
      exact isolated_deleteConnection found own
  | .request tenant (.connect none), handled =>
    refine iff_of_true ?_ trivial
    obtain ⟨t, solo, -⟩ := handled
    cases solo with
    | here => exact Isolated.refl
    | tau moves _ => cases moves
    | call calls _ _ => cases calls
  | .request tenant (.connect (some body)), handled =>
    change Isolated tenant.tenantID w.store w'.store ↔ (Registers h tenant body w.store → _)
    rcases connect_effect handled with ⟨refused, same⟩ | ⟨registers, conn, named, own, left⟩
    · rw [same]
      exact iff_of_true .refl fun registers => absurd registers refused
    · rw [left, isolated_putConnection_iff own, named]
      exact ⟨fun free _ => free, fun free => free registers⟩

/-- **Connections of other tenants.** In every sequence of requests by any tenants, no
request changes or removes a connection of another tenant, nor whom the engine tells of
events, if and only if whoever connects takes an id that is free or that their own tenant
has. -/
theorem connections_isolated_iff {history : List (World F × WSEvent)} {w : World F}
    (path : (requests h).Path history w) :
    Along IsolatesTenants history w ↔ Within (ConnectsOwn h) history :=
  path.along_iff_within fun _ _ _ => isolates_iff

/-- A request that is in order and asks for no replay is answered at once. -/
theorem connects_at_once {w : World F} (registers : Registers {} tenant body w.store)
    (noRun : body.runID = "") : Handled {} tenant (.connect (some body)) w
      { w with store := w.store.putConnection (registration tenant body w.clock w.clock) } := by
  obtain ⟨named, named', access⟩ := registers
  obtain ⟨task, shown⟩ := access rfl
  have start : WSRequest.start {} tenant (.connect (some body)) =
      (.connect tenant (.getTask body) : WSThread F) := by
    simp [WSRequest.start, ConnectPC.start, named, named']
  have registered : (ConnectPC.registered {} body : ConnectPC F) = .returned (.connected 0) := by
    simp [ConnectPC.registered, noRun]
  have clock : Solo (WSThread.view {}) (fun _ w call answer w' => w.WSRuns call answer w') w
      (.connect tenant (.readClock body))
      { w with store := w.store.putConnection (registration tenant body w.clock w.clock) }
      (.connect tenant (ConnectPC.registered {} body)) :=
    .call rfl ⟨rfl, rfl⟩ (.call rfl ⟨rfl, rfl⟩ (.call rfl ⟨rfl, rfl⟩ .here))
  refine ⟨.connect tenant (ConnectPC.registered {} body), ?_, ?_⟩
  · rw [start]
    refine .call rfl ⟨rfl, rfl⟩ ?_
    unfold getForUser at shown
    dsimp only
    rw [shown]
    exact clock
  · rw [registered]
    rfl

end Requests

/-! Two tenants, each with a task, and a client of each. -/

def firstClient : TenantInfo := ⟨"a", "u", "req_1"⟩

def secondClient : TenantInfo := ⟨"b", "u", "req_2"⟩

/-- The first client connects to its own task under this id. -/
def firstBody (id : String) : ConnectBody := ⟨id, "t1", "", 0, 0⟩

/-- The second client connects to its own task. -/
def secondBody : ConnectBody := ⟨"c", "t2", "", 0, 0⟩

def bothTasks : World Rat := { store := sharedStore }

/-- The second client is connected. -/
def secondConnected : World Rat :=
  { store := sharedStore.putConnection (registration secondClient secondBody 0 0) }

/-- And then the first. -/
def bothConnected (id : String) : World Rat :=
  { store := secondConnected.store.putConnection (registration firstClient (firstBody id) 0 0) }

/-- What happened. -/
def bothConnect (id : String) : List (World Rat × WSEvent) :=
  [(secondConnected, .request firstClient (.connect (some (firstBody id)))),
    (bothTasks, .request secondClient (.connect (some secondBody)))]

private theorem both_connect {id : String} (named : id ≠ "") :
    (requests {}).Path (bothConnect id) (bothConnected id) := by
  have second : Registers {} secondClient secondBody bothTasks.store :=
    ⟨by decide, by decide, fun _ => ⟨foreignTask, rfl⟩⟩
  have shown : getForUser secondConnected.store "a" "u" "t1" = .ok ownTask := by decide
  have first : Registers {} firstClient (firstBody id) secondConnected.store :=
    ⟨named, show "t1" ≠ "" by decide, fun _ => ⟨ownTask, shown⟩⟩
  have path : (requests {}).Path [(bothTasks, .request secondClient (.connect (some secondBody)))]
      secondConnected := .next (.start trivial) (connects_at_once second rfl)
  exact .next path (connects_at_once first rfl)

theorem connections_isolated_own_ids : Along IsolatesTenants (bothConnect "d") (bothConnected "d") := by
  refine (connections_isolated_iff (both_connect (by decide))).mpr ?_
  have free : secondConnected.store.connections.lookup "d" = none := by decide
  have free' : bothTasks.store.connections.lookup "c" = none := by decide
  intro past member
  rcases List.mem_cons.mp member with rfl | member
  · intro _ conn found
    cases free.symm.trans found
  · rw [List.mem_singleton.mp member]
    intro _ conn found
    cases free'.symm.trans found

/-- The first client takes the id of the second, whose events go nowhere from then on. -/
theorem connection_taken_over :
    (requests {}).Path (bothConnect "c") (bothConnected "c") ∧
      (secondConnected.store.getConnectionsByTask "t2").map Connection.tenantID = ["b"] ∧
      (bothConnected "c").store.getConnectionsByTask "t2" = [] ∧
      ¬ Along IsolatesTenants (bothConnect "c") (bothConnected "c") := by
  refine ⟨both_connect (by decide), by decide, by decide, ?_⟩
  rintro ⟨isolated, -⟩
  have kept := (isolated.record "c" (registration secondClient secondBody 0 0) (by decide)).mp
    (by decide)
  exact absurd kept (by decide)

end AgentForge
