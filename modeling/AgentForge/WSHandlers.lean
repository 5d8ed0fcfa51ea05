import AgentForge.Middleware
import AgentForge.Sequential
import AgentForge.UserReads

/-! `pkg/api/ws_handlers.go`: a client connects to the events of a task, which registers
the connection and replays what the client missed, and disconnects again. As in the task
service another request, or the engine, may act between any two calls of a handler, so a
handler is a table of the places it can stand at. -/
namespace AgentForge

open Transition (View)

/-- The body of a request to connect. -/
structure ConnectBody where
  connectionID : String
  taskID : String
  runID : String
  lastSeq : Int
  fromTS : Int
  deriving DecidableEq

/-- What a handler writes: an error, or that the client is connected, with the number of
events replayed to it, or disconnected. -/
inductive WSResponse where
  | error (status : Nat) (message : String)
  | internalError (requestID : String)
  | connected (replayed : Nat)
  | disconnected
  deriving DecidableEq

/-- The parts of `WSHandler` that may be missing. -/
structure WSHandler where
  hasTaskSvc : Bool := true
  hasPusher : Bool := true

/-- The calls of the two handlers, those of the task service included. -/
inductive WSCall (F : Type) where
  | now
  | getTask (taskID : String)
  | getRun (taskID runID : String)
  | replayEvents (taskID runID : String) (fromSeq fromTS limit : Int)
  | putConnection (conn : Connection)
  | getConnection (connectionID : String)
  | deleteConnection (connectionID : String)
  | push (connectionID : String) (event : StreamEvent F)

/-- What each call answers. A push tells whether the connection is alive, and the error if
there was one. -/
def WSCall.Ans {F : Type} : WSCall F → Type
  | .now => Time
  | .getTask _ => Except StoreError (Task F)
  | .getRun .. => Except StoreError (Run F)
  | .replayEvents .. => Except StoreError (List (StreamEvent F))
  | .putConnection _ | .deleteConnection _ => Except StoreError Unit
  | .getConnection _ => Except StoreError Connection
  | .push .. => Bool × Option String

/-- Where a `handleConnect` stands. -/
inductive ConnectPC (F : Type) where
  | getTask (body : ConnectBody)
  | readClock (body : ConnectBody)
  | readClockAgain (body : ConnectBody) (connectedAt : Time)
  | putConnection (body : ConnectBody) (conn : Connection)
  | replayTask (body : ConnectBody)
  | replayRun (body : ConnectBody)
  | replayEvents (body : ConnectBody)
  | push (body : ConnectBody) (event : StreamEvent F) (rest : List (StreamEvent F)) (replayed : Nat)
  | returned (response : WSResponse)

/-- Where a `handleDisconnect` stands. -/
inductive DisconnectPC where
  | getConnection (connectionID : String)
  | deleteConnection (connectionID : String)
  | returned (response : WSResponse)

section Handlers

variable {F : Type} (h : WSHandler) (tenant : TenantInfo)

/-- `handleConnect` up to its first call; a body that is not valid JSON is `none`. -/
def ConnectPC.start : Option ConnectBody → ConnectPC F
  | none => .returned (.error 400 "invalid body")
  | some body =>
    if body.connectionID = "" ∨ body.taskID = "" then
      .returned (.error 400 "connection_id and task_id required")
    else if h.hasTaskSvc then .getTask body
    else .readClock body

/-- The connection that is stored, to last for two hours. -/
def registration (body : ConnectBody) (connectedAt now : Time) : Connection where
  connectionID := body.connectionID
  tenantID := tenant.tenantID
  userID := tenant.userID
  taskID := body.taskID
  runID := body.runID
  connectedAt := connectedAt
  ttl := unix (now + 2 * 3600 * 1000000000)

/-- Once the connection is registered, the replay begins if there is a run to replay. -/
def ConnectPC.registered (body : ConnectBody) : ConnectPC F :=
  if h.hasTaskSvc ∧ body.taskID ≠ "" ∧ body.runID ≠ "" then .replayTask body
  else .returned (.connected 0)

/-- The loop of the replay up to its next push. -/
def ConnectPC.replay (body : ConnectBody) : List (StreamEvent F) → Nat → ConnectPC F
  | [], replayed => .returned (.connected replayed)
  | ev :: rest, replayed =>
    if 0 < body.lastSeq ∧ ev.seq ≤ body.lastSeq then replay body rest replayed
    else if h.hasPusher then .push body ev rest replayed
    else replay body rest (replayed + 1)

def ConnectPC.view : ConnectPC F → View (WSCall F) WSCall.Ans (ConnectPC F)
  | .getTask body => .call (.getTask body.taskID) fun answer =>
    match accessible tenant.tenantID tenant.userID answer with
    | .error _ => .returned (.error 404 "task not found")
    | .ok _ => .readClock body
  | .readClock body => .call .now fun connectedAt => .readClockAgain body connectedAt
  | .readClockAgain body connectedAt => .call .now fun now =>
    .putConnection body (registration tenant body connectedAt now)
  | .putConnection body conn => .call (.putConnection conn) fun
    | .error _ => .returned (.internalError tenant.requestID)
    | .ok () => .registered h body
  | .replayTask body => .call (.getTask body.taskID) fun answer =>
    match accessible tenant.tenantID tenant.userID answer with
    | .error _ => .returned (.connected 0)
    | .ok _ => .replayRun body
  | .replayRun body => .call (.getRun body.taskID body.runID) fun
    | .error _ => .returned (.connected 0)
    | .ok _ => .replayEvents body
  | .replayEvents body =>
    .call (.replayEvents body.taskID body.runID body.lastSeq body.fromTS 2000) fun
    | .error _ => .returned (.connected 0)
    | .ok events => .replay h body events 0
  | .push body ev rest replayed => .call (.push body.connectionID ev) fun (alive, pushErr) =>
    if pushErr.isSome || !alive then .returned (.connected replayed)
    else .replay h body rest (replayed + 1)
  | .returned _ => .done

/-- `handleDisconnect` up to its first call. -/
def DisconnectPC.start : Option String → DisconnectPC
  | none => .returned (.error 400 "invalid body")
  | some connectionID =>
    if connectionID = "" then .returned (.error 400 "connection_id required")
    else .getConnection connectionID

def DisconnectPC.view : DisconnectPC → View (WSCall F) WSCall.Ans DisconnectPC
  | .getConnection connectionID => .call (.getConnection connectionID) fun
    | .error _ => .returned (.error 404 "connection not found")
    | .ok conn =>
      if conn.tenantID ≠ tenant.tenantID then .returned (.error 404 "connection not found")
      else .deleteConnection connectionID
  | .deleteConnection connectionID => .call (.deleteConnection connectionID) fun
    | .error _ => .returned (.internalError tenant.requestID)
    | .ok () => .returned .disconnected
  | .returned _ => .done

end Handlers

/-! ## The calls over a `MemoryStore` -/

def MemoryStore.getConnection {F : Type} (s : MemoryStore F) (connectionID : String) :
    Except StoreError Connection :=
  match s.connections.lookup connectionID with
  | none => .error .notFound
  | some c => .ok c

/-- What a call of a handler does. Pushes answer freely. -/
def World.WSRuns {F : Type} (w : World F) : (call : WSCall F) → call.Ans → World F → Prop
  | .now, answer, w' => answer = w.clock ∧ w' = w
  | .getTask taskID, answer, w' => answer = w.store.getTask taskID ∧ w' = w
  | .getRun taskID runID, answer, w' => answer = w.store.getRun taskID runID ∧ w' = w
  | .replayEvents taskID runID fromSeq fromTS limit, answer, w' =>
    answer = .ok (w.store.replayEvents taskID runID fromSeq fromTS limit) ∧ w' = w
  | .putConnection conn, answer, w' =>
    answer = .ok () ∧ w' = { w with store := w.store.putConnection conn }
  | .getConnection connectionID, answer, w' =>
    answer = w.store.getConnection connectionID ∧ w' = w
  | .deleteConnection connectionID, answer, w' =>
    answer = .ok () ∧ w' = { w with store := w.store.deleteConnection connectionID }
  | .push .., _, w' => w' = w

end AgentForge
