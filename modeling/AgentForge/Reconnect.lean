import AgentForge.EventNumbers
import AgentForge.Streaming

/-! What reaches a client that reconnects. The connection is registered before the replay is
read, and an event is stored before the connections are looked up for it, so an event that
the replay does not read is pushed live and none is lost. The same order has the two
overlap: an event stored and pushed in between is pushed once more by the replay, and a live
event may overtake the replay. -/
namespace AgentForge

open Transition

namespace Reconnection

variable {F : Type} {r : Reconnection F}

/-- The events a replay has yet to push. -/
def pending : ConnectPC F → List (StreamEvent F)
  | .push _ ev rest _ => ev :: rest
  | _ => []

private theorem pending_replay_suffix (events : List (StreamEvent F)) (replayed : Nat) :
    pending (.replay {} r.body events replayed) <:+ events := by
  induction events generalizing replayed with
  | nil => exact List.suffix_refl _
  | cons ev rest ih =>
    unfold ConnectPC.replay
    split
    · exact (ih replayed).trans (List.suffix_cons ..)
    · exact List.suffix_refl _

/-- The loop of the replay passes over no event its client missed. -/
theorem mem_pending_replay (replayed : Nat) (member : ev ∈ events) (missed : r.lastSeq < ev.seq) :
    ev ∈ pending (.replay {} r.body events replayed) := by
  induction events generalizing replayed with
  | nil => cases member
  | cons first rest ih =>
    unfold ConnectPC.replay
    split
    · rename_i seen
      rcases List.mem_cons.mp member with rfl | later
      · exact absurd seen.2 (not_le.mpr missed)
      · exact ih replayed later
    · exact member

private theorem callsLeft_replay (events : List (StreamEvent F)) (replayed : Nat) :
    callsLeft (.replay {} r.body events replayed) =
      (pending (.replay {} r.body events replayed)).length := by
  induction events generalizing replayed with
  | nil => rfl
  | cons ev rest ih =>
    unfold ConnectPC.replay
    split
    · exact ih replayed
    · rfl

/-- Once the replay is read. -/
def Late (pc : ConnectPC F) : Prop := ¬ Early pc ∧ ¬ Unread pc

private theorem late_replay (events : List (StreamEvent F)) (replayed : Nat) :
    Late (.replay {} r.body events replayed) := by
  induction events generalizing replayed with
  | nil => exact ⟨id, id⟩
  | cons ev rest ih =>
    unfold ConnectPC.replay
    split
    · exact ih replayed
    · exact ⟨id, id⟩

theorem Unread.not_early (unread : Unread pc) : ¬ Early pc := by
  cases pc <;> first | exact id | cases unread

/-- `ReplayEvents` gives back 2000 events at most, of those that are stored. -/
theorem replayed_sublist (s : MemoryStore F) :
    (s.replayEvents r.task.taskID r.run.runID r.lastSeq r.fromTS 2000).Sublist
      (s.storedEvents r.task.taskID r.run.runID) := by
  rw [replayEvents_eq r.taskNamed _ _ _ (by decide)]
  exact (List.take_sublist ..).trans List.filter_sublist

private theorem length_replayed (s : MemoryStore F) :
    (s.replayEvents r.task.taskID r.run.runID r.lastSeq r.fromTS 2000).length ≤ 2000 := by
  rw [replayEvents_eq r.taskNamed _ _ _ (by decide)]
  exact List.length_take_le ..

/-! ## The handler returns -/

/-- Every step of the handler is one call fewer. -/
theorem callsLeft_step [Float64 F] (sound : r.Sound s) (step : r.system.Step s .connect t) :
    callsLeft t.connect + 1 ≤ callsLeft s.connect := by
  cases connect_move sound step with
  | prepares _ _ less => exact less.le
  | registers atPut => exact atPut ▸ le_rfl
  | checks _ _ less => exact less.le
  | reads atRead =>
    have read := (pending_replay_suffix (r := r) _ 0).length_le.trans
      (length_replayed (r := r) s.world.store)
    rw [atRead, callsLeft_replay]
    exact Nat.succ_le_succ read
  | replays atPush =>
    rw [atPush, callsLeft_replay]
    exact Nat.succ_le_succ (pending_replay_suffix _ _).length_le

/-- The steps the handler took in a run. -/
def connectSteps : List (Streaming F × Mover) → Nat
  | [] => 0
  | (_, .connect) :: earlier => connectSteps earlier + 1
  | _ :: earlier => connectSteps earlier

/-- Whatever the engine and others do, the handler takes 2007 steps at most. -/
theorem connectSteps_le [Float64 F] (path : r.system.Path history s) :
    connectSteps history + callsLeft s.connect ≤ 2007 := by
  induction path with
  | start begun =>
    obtain ⟨-, -, -, -, connect, -⟩ := begun
    rw [connect, start_eq]
    exact le_rfl
  | @next history s t e before step ih =>
    have sound := sound_of_reachable ⟨_, before⟩
    cases e with
    | engine =>
      cases step
      exact ih
    | other =>
      cases step
      exact ih
    | connect =>
      have less := callsLeft_step sound step
      rw [connectSteps]
      omega

/-- The handler can always take a step until it has returned. -/
theorem connect_enabled [Float64 F] (r : Reconnection F) (s : Streaming F) :
    (∃ response, s.connect = .returned response) ∨ ∃ t, r.system.Step s .connect t := by
  have answers : ∀ call : WSCall F, ∃ (answer : call.Ans) (w : World F),
      s.world.WSRuns call answer w ∧ call.Succeeds answer := by
    intro call
    cases call with
    | push id event => exact ⟨(true, none), _, rfl, rfl⟩
    | _ => exact ⟨_, _, ⟨rfl, rfl⟩, trivial⟩
  have calls : (∃ response, s.connect = .returned response) ∨
      ∃ call resume, s.connect.view {} r.tenant = .call call resume := by
    cases s.connect with
    | returned response => exact .inl ⟨response, rfl⟩
    | _ => exact .inr ⟨_, _, rfl⟩
  rcases calls with done | ⟨call, resume, calls⟩
  · exact .inl done
  · obtain ⟨answer, w, ran, succeeds⟩ := answers call
    exact .inr ⟨_, .connect calls ran succeeds⟩

/-! ## No gap -/

/-- The record of the connection the engine can find. -/
def Registered (r : Reconnection F) (s : Streaming F) : Prop :=
  ∃ conn, s.world.store.connections.lookup r.connectionID = some conn ∧
    conn.connectionID = r.connectionID ∧ conn.taskID = r.task.taskID ∧
    conn.tenantID = r.task.tenantID

/-- What is taken for granted of a step: no stored event of the run is lost, be it to
compaction or to the retention, the record of the connection stays once it is there, and at
most 2000 missed events are stored when the replay reads them. -/
structure Undisturbed (r : Reconnection F) (s : Streaming F) (e : Mover) (t : Streaming F) :
    Prop where
  kept : ∀ ev ∈ r.stored s, ev ∈ r.stored t
  retained : ∀ call resume, e = .engine → s.engine = .call call resume → s.world.Retains call
  record : ¬ Early s.connect →
    t.world.store.connections.lookup r.connectionID =
      s.world.store.connections.lookup r.connectionID
  few : ∀ b, s.connect = .replayEvents b → e = .connect →
    ((r.stored s).filter fun ev => r.lastSeq < ev.seq).length ≤ 2000

/-- The event is in the store. -/
def OnRecord (r : Reconnection F) (s : Streaming F) (event : StreamEvent F) : Prop :=
  ∃ ev ∈ r.stored s, ev.Same event ∧ ev.taskID = r.task.taskID

theorem Undisturbed.onRecord (undisturbed : r.Undisturbed s e t) (there : r.OnRecord s event) :
    r.OnRecord t event := by
  obtain ⟨ev, stored, same⟩ := there
  exact ⟨ev, undisturbed.kept ev stored, same⟩

theorem Undisturbed.registered (undisturbed : r.Undisturbed s e t) (late : ¬ Early s.connect)
    (registered : r.Registered s) : r.Registered t := by
  obtain ⟨conn, there, about⟩ := registered
  exact ⟨conn, (undisturbed.record late).trans there, about⟩

/-- The event was pushed to the connection. -/
def Pushed (s : Streaming F) (event : StreamEvent F) : Prop :=
  ∃ d ∈ s.delivered, d.event.Same event

/-- It was, or the replay is going to push it. -/
def Covered (s : Streaming F) (event : StreamEvent F) : Prop :=
  Pushed s event ∨ ∃ ev ∈ pending s.connect, ev.Same event

/-- No event is lost. What was emitted is stored; once the replay is read, every event the
client missed was pushed, is about to be replayed, or is yet to be pushed live. -/
structure Gapless (r : Reconnection F) (s : Streaming F) : Prop where
  past : ∀ event ∈ s.published.past, r.OnRecord s event
  current : ∀ event, (s.published.current = .stored event ∨
      ∃ left, s.published.current = .telling event left) → r.OnRecord s event
  registered : ¬ Early s.connect → r.Registered s
  covered : Late s.connect → ∀ event ∈ s.published.past, r.lastSeq < event.seq → Covered s event
  telling : Late s.connect → ∀ event left, s.published.current = .telling event left →
    r.lastSeq < event.seq →
      Covered s event ∨ ∃ conn ∈ left, conn.connectionID = r.connectionID

theorem Gapless.completed (gapless : r.Gapless s) (complete : event ∈ s.published.completed) :
    r.OnRecord s event ∧ (Late s.connect → r.lastSeq < event.seq → Covered s event) := by
  unfold Publication.completed at complete
  split at complete
  · rename_i told current
    rcases List.mem_cons.mp complete with rfl | before
    · refine ⟨gapless.current _ (.inr ⟨_, current⟩), fun late missed => ?_⟩
      rcases gapless.telling late _ _ current missed with covered | ⟨conn, none, -⟩
      · exact covered
      · cases none
    · exact ⟨gapless.past _ before, fun late missed => gapless.covered late _ before missed⟩
  · exact ⟨gapless.past _ complete, fun late missed => gapless.covered late _ complete missed⟩

/-- What a push adds to the deliveries covers as much as before. -/
theorem Covered.mono {s t : Streaming F} (covered : Covered s event)
    (delivered : ∀ d ∈ s.delivered, d ∈ t.delivered)
    (replayed : ∀ ev ∈ pending s.connect, ev.Same event → Covered t event) : Covered t event := by
  rcases covered with ⟨d, there, same⟩ | ⟨ev, waiting, same⟩
  · exact .inl ⟨d, delivered d there, same⟩
  · exact replayed ev waiting same

/-- The engine finds the connection for every event it stores once it is registered. -/
theorem Registered.target (registered : r.Registered s) :
    ∃ conn ∈ streamTargets r.task (s.world.store.getConnectionsByTask r.task.taskID),
      conn.connectionID = r.connectionID := by
  obtain ⟨conn, there, id, ofTask, tenant⟩ := registered
  refine ⟨conn, List.mem_filter.mpr ⟨?_, ?_⟩, id⟩
  · exact mem_getConnectionsByTask.mpr ⟨⟨_, there⟩, ofTask⟩
  · simp [tenant]

variable [Float64 F]

/-- The event the engine puts is stored. -/
theorem stored_putEvent (sound : r.Sound s) (taskID : event.taskID = r.task.taskID)
    (runID : event.runID = r.run.runID) (seq : event.seq = s.published.last + 1)
    (lasting : s.world.store.NoneExpired s.world.clock event)
    (left : t.world.store = (s.world.store.putEvent s.world.clock event).2) :
    r.OnRecord t event := by
  have same := event.same_stamped s.world.clock
  rcases putEvent_cases s.world.store s.world.clock event lasting with
    ⟨-, missing⟩ | ⟨-, -, ⟨-, ev, there, taken⟩ | ⟨put, -⟩⟩
  · rw [taskID, runID] at missing
    exact absurd missing (not_or.mpr ⟨r.taskNamed, r.runNamed⟩)
  · rw [taskID, runID] at there
    have bounded := (sound.numbered ev there).2
    omega
  · refine ⟨event.stamped s.world.clock, ?_, same, same.taskID.trans taskID⟩
    unfold stored
    rw [left, put, mem_storedEvents_addEvent, same.taskID, same.runID, taskID, runID]
    exact .inr ⟨rfl, rfl⟩

private theorem gapless_engine (sound : r.Sound s) (gapless : r.Gapless s)
    (undisturbed : r.Undisturbed s .engine t) (step : r.system.Step s .engine t) :
    r.Gapless t := by
  have past : ∀ event ∈ s.published.past, r.OnRecord t event := fun event before =>
    undisturbed.onRecord (gapless.past event before)
  have registered : ¬ Early s.connect → r.Registered t := fun late =>
    undisturbed.registered late (gapless.registered late)
  cases engine_move sound step with
  | puts calls taskID runID seq left =>
    refine ⟨fun old complete => undisturbed.onRecord (gapless.completed complete).1, ?_, registered,
      fun late old complete => (gapless.completed complete).2 late, ?_⟩
    · rintro new (same | ⟨_, same⟩)
      · cases same
        exact stored_putEvent sound taskID runID seq (undisturbed.retained _ _ rfl calls) left
      · cases same
    · rintro - new left same
      cases same
  | @looks event e current =>
    refine ⟨past, ?_, registered, gapless.covered, ?_⟩
    · rintro new (same | ⟨_, same⟩)
      · cases same
      · cases same
        exact undisturbed.onRecord (gapless.current event (.inl current))
    · rintro late new left same -
      cases same
      exact .inr (gapless.registered late.1).target
  | @tells event conn left resume e calls current =>
    have still : ∀ {old}, Covered s old → Covered { s with delivered :=
        (if conn.connectionID = r.connectionID then [⟨.live, event⟩] else []) ++ s.delivered } old :=
      fun covered => covered.mono (fun _ => List.mem_append_right _) fun ev waiting same =>
        .inr ⟨ev, waiting, same⟩
    refine ⟨past, ?_, registered, fun late old before missed => ?_, ?_⟩
    · rintro new (same | ⟨_, same⟩)
      · cases same
      · cases same
        exact undisturbed.onRecord (gapless.current event (.inr ⟨_, current⟩))
    · exact still (gapless.covered late old before missed)
    · rintro late new rest same missed
      cases same
      -- The connection just told was the client's, or the client's is still to come.
      by_cases own : conn.connectionID = r.connectionID
      · refine .inl (.inl ⟨⟨.live, event⟩, ?_, ⟨rfl, rfl, rfl, rfl, rfl⟩⟩)
        rw [if_pos own]
        exact List.mem_cons_self ..
      · rcases gapless.telling late _ _ current missed with covered | ⟨target, among, id⟩
        · exact .inl (still covered)
        · rcases List.mem_cons.mp among with rfl | later
          · exact absurd id own
          · exact .inr ⟨target, later, id⟩
  | silent =>
    exact ⟨past, fun event under => undisturbed.onRecord (gapless.current event under), registered,
      gapless.covered, gapless.telling⟩

/-- A stored event that the client missed is among those the replay reads. -/
theorem mem_replayEvents (sound : r.Sound s) (fromSeq : 0 ≤ r.lastSeq) (fromTS : r.fromTS = 0)
    (few : ((r.stored s).filter fun ev => r.lastSeq < ev.seq).length ≤ 2000)
    (there : ev ∈ r.stored s) (ofTask : ev.taskID = r.task.taskID) (missed : r.lastSeq < ev.seq) :
    ev ∈ s.world.store.replayEvents r.task.taskID r.run.runID r.lastSeq r.fromTS 2000 := by
  rw [replayEvents_eq r.taskNamed _ _ _ (by decide), List.take_of_length_le]
  · refine List.mem_filter.mpr ⟨there, ?_⟩
    simp [ofTask, fromTS, missed]
  · refine le_trans ?_ few
    rw [MemoryStore.missedEvents, ← List.countP_eq_length_filter, ← List.countP_eq_length_filter]
    refine List.countP_mono_left fun other stored kept => ?_
    have positive := (sound.numbered other stored).1
    simp only [Bool.and_eq_true, Bool.not_eq_true', Bool.and_eq_false_iff, decide_eq_true_eq,
      decide_eq_false_iff_not, not_lt, not_le] at kept ⊢
    obtain ⟨⟨-, atStart | later⟩, -⟩ := kept <;> omega

section FromStart

variable (fromSeq : 0 ≤ r.lastSeq) (fromTS : r.fromTS = 0)

include fromSeq fromTS

private theorem gapless_connect (sound : r.Sound s)
    (gapless : r.Gapless s) (undisturbed : r.Undisturbed s .connect t)
    (step : r.system.Step s .connect t) : r.Gapless t := by
  have past : ∀ event ∈ s.published.past, r.OnRecord t event := fun event before =>
    undisturbed.onRecord (gapless.past event before)
  have current : ∀ event, (s.published.current = .stored event ∨
      ∃ left, s.published.current = .telling event left) → r.OnRecord t event := fun event under =>
    undisturbed.onRecord (gapless.current event under)
  have registered : ¬ Early s.connect → r.Registered t := fun late =>
    undisturbed.registered late (gapless.registered late)
  cases connect_move sound step with
  | prepares _ early =>
    exact ⟨past, current, fun late => absurd early late, fun late => absurd early late.1,
      fun late => absurd early late.1⟩
  | @registers b conn w atPut id ofTask tenant left =>
    refine ⟨past, current, fun _ => ⟨conn, ?_, id, ofTask, tenant⟩, fun late => absurd trivial late.2,
      fun late => absurd trivial late.2⟩
    rw [left, MemoryStore.putConnection, ← id]
    exact AList.lookup_insert _
  | checks unread unread' =>
    exact ⟨past, current, fun _ => registered unread.not_early, fun late => absurd unread' late.2,
      fun late => absurd unread' late.2⟩
  | @reads b atRead =>
    -- Whatever is stored when the replay reads is going to be replayed.
    have read : ∀ event, r.OnRecord s event → r.lastSeq < event.seq → Covered { s with
        connect := .replay {} r.body (s.world.store.replayEvents r.task.taskID r.run.runID
          r.lastSeq r.fromTS 2000) 0 } event := by
      rintro event ⟨ev, there, same, ofTask⟩ missed
      rw [← same.seq] at missed
      exact .inr ⟨ev, mem_pending_replay 0 (mem_replayEvents sound fromSeq fromTS
        (undisturbed.few b atRead rfl) there ofTask missed) missed, same⟩
    exact ⟨past, current, fun _ => registered (atRead ▸ id),
      fun _ event before => read event (gapless.past event before),
      fun _ event left telling missed =>
        .inl (read event (gapless.current event (.inr ⟨left, telling⟩)) missed)⟩
  | @replays b ev rest replayed atPush =>
    have late : Late s.connect := atPush ▸ ⟨id, id⟩
    have still : ∀ event, r.lastSeq < event.seq → Covered s event → Covered { s with
        connect := .replay {} r.body rest (replayed + 1)
        delivered := ⟨.replayed, ev⟩ :: s.delivered } event := by
      intro event missed covered
      refine covered.mono (fun _ => List.mem_cons_of_mem _) fun other waiting same => ?_
      rw [atPush] at waiting
      rcases List.mem_cons.mp waiting with rfl | later
      · exact .inl ⟨⟨.replayed, other⟩, List.mem_cons_self .., same⟩
      · exact .inr ⟨other, mem_pending_replay _ later (same.seq ▸ missed), same⟩
    exact ⟨past, current, fun _ => registered late.1,
      fun _ event before missed => still event missed (gapless.covered late event before missed),
      fun _ event left telling missed =>
        (gapless.telling late event left telling missed).imp_left (still event missed)⟩

private theorem gapless_step (sound : r.Sound s)
    (gapless : r.Gapless s) (undisturbed : r.Undisturbed s e t) (step : r.system.Step s e t) :
    r.Gapless t := by
  cases e with
  | engine => exact gapless_engine sound gapless undisturbed step
  | connect => exact gapless_connect fromSeq fromTS sound gapless undisturbed step
  | other =>
    cases step with
    | other changed =>
      exact ⟨fun event before => undisturbed.onRecord (gapless.past event before),
        fun event under => undisturbed.onRecord (gapless.current event under),
        fun late => undisturbed.registered late (gapless.registered late),
        gapless.covered, gapless.telling⟩

private theorem gapless_of_path
    (path : r.system.Path history s) (undisturbed : System.Along r.Undisturbed history s) :
    r.Gapless s := by
  refine (path.invariant_along ?_ (fun s e t reached gapless met step =>
    gapless_step fromSeq fromTS (sound_of_reachable reached) gapless met step) undisturbed).1
  rintro s ⟨-, -, -, -, connect, published, -⟩
  have early : Early s.connect := by
    rw [connect, start_eq]
    trivial
  refine ⟨by rw [published]; simp, ?_, fun late => absurd early late,
    fun late => absurd early late.1, fun late => absurd early late.1⟩
  rw [published]
  rintro event (same | ⟨_, same⟩) <;> cases same

end FromStart

/-! ## Order -/

/-- The deliveries to the connection, latest first, have decreasing numbers. -/
def Ordered (s : Streaming F) : Prop :=
  s.delivered.Pairwise fun later earlier => earlier.event.seq < later.event.seq

/-- The event the engine is about to push to the connection. -/
def pushing (r : Reconnection F) (s : Streaming F) : Option (StreamEvent F) :=
  match s.engine with
  | .call (.push id event) _ => if id = r.connectionID then some event else none
  | _ => none

/-- The handler is about to read the replay. -/
def AtRead : ConnectPC F → Prop
  | .replayEvents _ => True
  | _ => False

def Returned : ConnectPC F → Prop
  | .returned _ => True
  | _ => False

instance : DecidablePred (Early (F := F))
  | .getTask _ | .readClock _ | .readClockAgain _ _ | .putConnection _ _ => isTrue trivial
  | .replayTask _ | .replayRun _ | .replayEvents _ | .push _ _ _ _ | .returned _ => isFalse id

instance : DecidablePred (AtRead (F := F))
  | .replayEvents _ => isTrue trivial
  | .getTask _ | .readClock _ | .readClockAgain _ _ | .putConnection _ _ | .replayTask _
  | .replayRun _ | .push _ _ _ _ | .returned _ => isFalse id

instance : DecidablePred (Returned (F := F))
  | .returned _ => isTrue trivial
  | .getTask _ | .readClock _ | .readClockAgain _ _ | .putConnection _ _ | .replayTask _
  | .replayRun _ | .replayEvents _ | .push _ _ _ _ => isFalse id

/-- Each live push since the registration comes after the last push of the replay, and is of
an event that was not stored when the replay was read. -/
def TakesTurns (r : Reconnection F) (history : List (Streaming F × Mover)) : Prop :=
  ∀ push ∈ history, push.2 = .engine → ∀ event ∈ r.pushing push.1, ¬ Early push.1.connect →
    Returned push.1.connect ∧
      ∀ read ∈ history, read.2 = .connect → AtRead read.1.connect →
        ∀ ev ∈ r.stored read.1, ev.seq ≠ event.seq

omit [Float64 F] in
theorem TakesTurns.earlier (turns : r.TakesTurns (step :: history)) : r.TakesTurns history := by
  intro push member engine event about late
  obtain ⟨returned, fresh⟩ := turns push (List.mem_cons_of_mem _ member) engine event about late
  exact ⟨returned, fun read earlier => fresh read (List.mem_cons_of_mem _ earlier)⟩

/-- The live pushes alone are in order: none has a number that is yet to be given out, and the
connection was not told of an event before its turn. -/
structure LiveInOrder (r : Reconnection F) (p : Publication F) (delivered : List (Delivery F)) :
    Prop where
  bounded : ∀ d ∈ delivered, d.source = .live → d.event.seq ≤ p.last
  stored : ∀ event, p.current = .stored event → event.seq = p.last ∧
    ∀ d ∈ delivered, d.source = .live → d.event.seq < p.last
  telling : ∀ event left, p.current = .telling event left →
    event.seq = p.last ∧ (left.map Connection.connectionID).Nodup ∧
    (r.connectionID ∈ left.map Connection.connectionID →
      ∀ d ∈ delivered, d.source = .live → d.event.seq < p.last)

omit [Float64 F] in
theorem LiveInOrder.of_subset (inOrder : r.LiveInOrder p delivered)
    (subset : ∀ d ∈ delivered', d.source = .live → d ∈ delivered) :
    r.LiveInOrder p delivered' := by
  refine ⟨fun d there live => inOrder.bounded d (subset d there live) live,
    fun event current => ?_, fun event left current => ?_⟩
  · obtain ⟨seq, earlier⟩ := inOrder.stored event current
    exact ⟨seq, fun d there live => earlier d (subset d there live) live⟩
  · obtain ⟨seq, distinct, earlier⟩ := inOrder.telling event left current
    exact ⟨seq, distinct, fun waiting d there live => earlier waiting d (subset d there live) live⟩

private theorem liveInOrder_engine (sound : r.Sound s)
    (inOrder : r.LiveInOrder s.published s.delivered)
    (move : r.EngineMove s t) : r.LiveInOrder t.published t.delivered := by
  cases move with
  | @puts event resume w e calls taskID runID seq left =>
    have earlier : ∀ d ∈ s.delivered, d.source = .live → d.event.seq < event.seq := by
      intro d there live
      have := inOrder.bounded d there live
      omega
    refine ⟨fun d there live => (earlier d there live).le, ?_, ?_⟩
    · rintro new same
      cases same
      exact ⟨rfl, earlier⟩
    · rintro new left same
      cases same
  | @looks event e current =>
    obtain ⟨seq, earlier⟩ := inOrder.stored event current
    refine ⟨inOrder.bounded, ?_, ?_⟩
    · rintro new same
      cases same
    · rintro new left same
      cases same
      refine ⟨seq, ?_, fun _ => earlier⟩
      exact (getConnectionsByTask_nodup sound.reached.filed _).sublist (List.filter_sublist.map _)
  | @tells event conn left resume e calls current =>
    obtain ⟨seq, distinct, earlier⟩ := inOrder.telling event _ current
    rw [List.map_cons, List.nodup_cons] at distinct
    have told : ∀ d ∈ (if conn.connectionID = r.connectionID then [⟨.live, event⟩] else []) ++
        s.delivered, d ∈ s.delivered ∨ d = ⟨.live, event⟩ ∧ conn.connectionID = r.connectionID := by
      intro d there
      rcases List.mem_append.mp there with new | old
      · split at new
        · exact .inr ⟨List.mem_singleton.mp new, ‹_›⟩
        · cases new
      · exact .inl old
    refine ⟨fun d there live => ?_, ?_, ?_⟩
    · rcases told d there with old | ⟨rfl, -⟩
      · exact inOrder.bounded d old live
      · exact seq.le
    · rintro new same
      cases same
    · rintro new rest same
      cases same
      refine ⟨seq, distinct.2, fun waiting d there live => ?_⟩
      rcases told d there with old | ⟨-, own⟩
      · exact earlier (List.mem_cons_of_mem _ waiting) d old live
      · exact absurd (own ▸ waiting) distinct.1
  | silent => exact inOrder

private theorem liveInOrder_of_reachable (reached : r.system.Reachable s) :
    r.LiveInOrder s.published s.delivered := by
  refine reached.invariant (P := fun s => r.LiveInOrder s.published s.delivered) ?_
    fun s e t reached inOrder step => ?_
  · rintro s ⟨-, -, -, -, -, published, none⟩
    rw [published, none]
    exact ⟨nofun, nofun, nofun⟩
  · have sound := sound_of_reachable reached
    cases e with
    | engine => exact liveInOrder_engine sound inOrder (engine_move sound step)
    | connect =>
      cases connect_move sound step with
      | prepares | checks | reads => exact inOrder
      | registers => exact inOrder.of_subset nofun
      | replays =>
        refine inOrder.of_subset fun d there live => ?_
        rcases List.mem_cons.mp there with rfl | old
        · cases live
        · exact old
    | other =>
      cases step
      exact inOrder

omit [Float64 F] in
private theorem pending_of_not_late (unread : ¬ Late pc) : pending pc = [] := by
  cases pc with
  | push _ _ _ _ => exact absurd ⟨id, id⟩ unread
  | _ => rfl

omit [Float64 F] in
theorem Returned.idle (returned : Returned pc) : pending pc = [] ∧ ¬ Unread pc := by
  cases pc <;> first | exact ⟨rfl, id⟩ | cases returned

/-- The number is of an event that the replay pushed or has yet to push. -/
def Replays (s : Streaming F) (seq : Int) : Prop :=
  (∃ ev ∈ pending s.connect, ev.seq = seq) ∨
    ∃ d ∈ s.delivered, d.source = .replayed ∧ d.event.seq = seq

/-- Nothing is pushed live from the registration until the handler has returned, and what is
replayed, in the order of the numbers, was stored when the replay was read. -/
structure InTurn (r : Reconnection F) (history : List (Streaming F × Mover)) (s : Streaming F) :
    Prop where
  early : Early s.connect → ∀ d ∈ s.delivered, d.source = .live
  unread : Unread s.connect → s.delivered = []
  increasing : Increasing (pending s.connect)
  ahead : ∀ d ∈ s.delivered, ∀ ev ∈ pending s.connect, d.event.seq < ev.seq
  read : ∀ seq, Replays s seq → seq ≤ s.published.last ∧
    ∃ read ∈ history, read.2 = .connect ∧ AtRead read.1.connect ∧
      ∃ ev ∈ r.stored read.1, ev.seq = seq

omit [Float64 F] in
/-- After a step, what was replayed before is still so. -/
theorem InTurn.read_later (inTurn : r.InTurn history s) (bound : s.published.last ≤ last)
    (replays : Replays s seq) : seq ≤ last ∧
      ∃ read ∈ (s, e) :: history, read.2 = .connect ∧ AtRead read.1.connect ∧
        ∃ ev ∈ r.stored read.1, ev.seq = seq := by
  obtain ⟨bounded, read, member, about⟩ := inTurn.read seq replays
  exact ⟨bounded.trans bound, read, List.mem_cons_of_mem _ member, about⟩

omit [Float64 F] in
/-- A step after which nothing waits to be replayed, and nothing more was. -/
theorem InTurn.of_idle (inTurn : r.InTurn history s) (idle : pending t.connect = [])
    (early : Early t.connect → ∀ d ∈ t.delivered, d.source = .live)
    (unread : Unread t.connect → t.delivered = []) (last : s.published.last ≤ t.published.last)
    (pushed : ∀ d ∈ t.delivered, d.source = .replayed → d ∈ s.delivered) :
    r.InTurn ((s, e) :: history) t := by
  refine ⟨early, unread, idle ▸ .nil, idle ▸ fun _ _ => nofun, fun seq replays => ?_⟩
  rcases replays with ⟨ev, waiting, -⟩ | ⟨d, there, source, same⟩
  · rw [idle] at waiting
    cases waiting
  · exact inTurn.read_later last (.inr ⟨d, pushed d there source, source, same⟩)

private theorem inTurn_engine (sound : r.Sound s) (inTurn : r.InTurn history s)
    (turns : r.TakesTurns ((s, .engine) :: history)) (step : r.system.Step s .engine t) :
    r.InTurn ((s, .engine) :: history) t := by
  cases engine_move sound step with
  | puts _ _ _ seq =>
    exact ⟨inTurn.early, inTurn.unread, inTurn.increasing, inTurn.ahead,
      fun _ => inTurn.read_later (seq ▸ (Int.lt_succ _).le)⟩
  | looks | silent =>
    exact ⟨inTurn.early, inTurn.unread, inTurn.increasing, inTurn.ahead,
      fun _ => inTurn.read_later le_rfl⟩
  | @tells event conn left resume e calls current =>
    by_cases own : conn.connectionID = r.connectionID
    · rw [if_pos own]
      have about : event ∈ r.pushing s := by simp [pushing, calls, own]
      have idle : pending s.connect = [] ∧ ¬ Unread s.connect := by
        by_cases early : Early s.connect
        · exact ⟨pending_of_not_late fun late => late.1 early, fun unread => unread.not_early early⟩
        · exact (turns _ (List.mem_cons_self ..) rfl event about early).1.idle
      refine inTurn.of_idle idle.1 (fun early => ?_) (fun unread => absurd unread idle.2) le_rfl ?_
      · exact List.forall_mem_cons.mpr ⟨rfl, inTurn.early early⟩
      · intro d there source
        rcases List.mem_cons.mp there with rfl | there
        · cases source
        · exact there
    · rw [if_neg own]
      exact ⟨inTurn.early, inTurn.unread, inTurn.increasing, inTurn.ahead,
        fun _ => inTurn.read_later le_rfl⟩

private theorem inTurn_connect (sound : r.Sound s) (inTurn : r.InTurn history s)
    (step : r.system.Step s .connect t) : r.InTurn ((s, .connect) :: history) t := by
  cases connect_move sound step with
  | prepares early early' =>
    exact inTurn.of_idle (pending_of_not_late fun late => late.1 early')
      (fun _ => inTurn.early early) (fun unread => absurd early' unread.not_early) le_rfl
      fun _ there _ => there
  | registers => exact inTurn.of_idle rfl nofun (fun _ => rfl) le_rfl nofun
  | checks unread unread' =>
    exact inTurn.of_idle (pending_of_not_late fun late => late.2 unread')
      (fun early => absurd early unread'.not_early) (fun _ => inTurn.unread unread) le_rfl
      fun _ there _ => there
  | reads atRead =>
    have none := inTurn.unread (atRead ▸ trivial)
    have late := late_replay (r := r) (s.world.store.replayEvents r.task.taskID r.run.runID r.lastSeq
      r.fromTS 2000) 0
    have waiting := pending_replay_suffix (r := r) (s.world.store.replayEvents r.task.taskID
      r.run.runID r.lastSeq r.fromTS 2000) 0
    have read := waiting.sublist.trans (replayed_sublist s.world.store)
    refine ⟨fun early => absurd early late.1, fun unread => absurd unread late.2,
      (sound.reached.filed.increasing_getD _).sublist read, none ▸ nofun, fun seq replays => ?_⟩
    rcases replays with ⟨ev, waiting, rfl⟩ | ⟨d, there, -⟩
    · have there : ev ∈ r.stored s := read.subset waiting
      exact ⟨(sound.numbered ev there).2, (s, .connect), List.mem_cons_self .., rfl,
        atRead ▸ trivial, ev, there, rfl⟩
    · rw [none] at there
      cases there
  | @replays b ev rest replayed atPush =>
    have late := late_replay (r := r) rest (replayed + 1)
    have waiting := pending_replay_suffix (r := r) rest (replayed + 1)
    obtain ⟨first, others⟩ := List.pairwise_cons.mp (atPush ▸ inTurn.increasing)
    have ahead := atPush ▸ inTurn.ahead
    refine ⟨fun early => absurd early late.1, fun unread => absurd unread late.2,
      others.sublist waiting.sublist, List.forall_mem_cons.mpr ⟨fun ev' later => ?_, ?_⟩, ?_⟩
    · exact first ev' (waiting.subset later)
    · exact fun d there ev' later =>
        ahead d there ev' (List.mem_cons_of_mem _ (waiting.subset later))
    · intro seq replays
      refine inTurn.read_later le_rfl ?_
      rw [Replays, atPush]
      rcases replays with ⟨ev', later, same⟩ | ⟨d, there, source, same⟩
      · exact .inl ⟨ev', List.mem_cons_of_mem _ (waiting.subset later), same⟩
      · rcases List.mem_cons.mp there with rfl | there
        · exact .inl ⟨ev, List.mem_cons_self .., same⟩
        · exact .inr ⟨d, there, source, same⟩

private theorem inTurn_of_path (path : r.system.Path history s) (turns : r.TakesTurns history) :
    r.InTurn history s := by
  induction path with
  | @start s begun =>
    obtain ⟨-, -, -, -, connect, -, none⟩ := begun
    have idle : pending s.connect = [] := by rw [connect, start_eq]; rfl
    refine ⟨by simp [none], fun _ => none, idle ▸ .nil, by simp [none], fun seq replays => ?_⟩
    rw [Replays, none, idle] at replays
    rcases replays with ⟨ev, waiting, -⟩ | ⟨d, there, -⟩
    · cases waiting
    · cases there
  | @next history s t e before step ih =>
    have inTurn := ih turns.earlier
    have sound := sound_of_reachable ⟨_, before⟩
    cases e with
    | engine => exact inTurn_engine sound inTurn turns step
    | connect => exact inTurn_connect sound inTurn step
    | other =>
      cases step
      exact ⟨inTurn.early, inTurn.unread, inTurn.increasing, inTurn.ahead,
        fun _ => inTurn.read_later le_rfl⟩

/-- A step keeps the deliveries in order. A live push has the last number given out, and
what the replay pushed has another that is not greater. -/
theorem ordered_step {e : Mover} (reached : r.system.Reachable s) (ordered : Ordered s)
    (inTurn : r.InTurn history s) (turns : r.TakesTurns ((s, e) :: history))
    (step : r.system.Step s e t) : Ordered t := by
  have sound := sound_of_reachable reached
  cases e with
  | engine =>
    cases engine_move sound step with
    | puts | looks | silent => exact ordered
    | @tells event conn left resume e calls current =>
      by_cases own : conn.connectionID = r.connectionID
      · obtain ⟨seq, -, earlier⟩ := (liveInOrder_of_reachable reached).telling event _ current
        have live := earlier (List.mem_map.mpr ⟨conn, List.mem_cons_self .., own⟩)
        have about : event ∈ r.pushing s := by simp [pushing, calls, own]
        rw [Ordered, if_pos own, List.singleton_append, List.pairwise_cons]
        refine ⟨fun d there => ?_, ordered⟩
        cases source : d.source with
        | live => exact seq ▸ live d there source
        | replayed =>
          have late : ¬ Early s.connect := fun early => by
            cases source.symm.trans (inTurn.early early d there)
          obtain ⟨bounded, read, member, reads, atRead, ev, stored, number⟩ :=
            inTurn.read _ (.inr ⟨d, there, source, rfl⟩)
          have apart := (turns _ (List.mem_cons_self ..) rfl event about late).2 read
            (List.mem_cons_of_mem _ member) reads atRead ev stored
          change d.event.seq < event.seq
          omega
      · rw [Ordered, if_neg own]
        exact ordered
  | connect =>
    cases connect_move sound step with
    | prepares | checks | reads => exact ordered
    | registers => exact .nil
    | @replays b ev rest replayed atPush =>
      have ahead := atPush ▸ inTurn.ahead
      exact List.pairwise_cons.mpr ⟨fun d there => ahead d there ev (List.mem_cons_self ..), ordered⟩
  | other =>
    cases step
    exact ordered

/-! ## Runs -/

section Runs

variable {history : List (Streaming F × Mover)} {s : Streaming F}

/-- A run in which nothing is disturbed. -/
def Calm (r : Reconnection F) (history : List (Streaming F × Mover)) (s : Streaming F) : Prop :=
  r.system.Path history s ∧ System.Along r.Undisturbed history s

/-- The engine makes its next call. -/
theorem Calm.engine (calm : r.Calm history s) (calls : s.engine = .call call resume)
    (answer : call.Ans) (ran : s.world.EngineRuns r.env.sha256 call answer w)
    (succeeds : call.Succeeds answer) (lasting : s.world.Retains call)
    (kept : ∀ ev ∈ r.stored s, ev ∈ w.store.storedEvents r.task.taskID r.run.runID)
    (record : w.store.connections = s.world.store.connections) :
    r.Calm ((s, .engine) :: history) ⟨w, resume answer, s.connect,
      (publishing r.task r.run).moves s.published call answer, r.live call ++ s.delivered⟩ := by
  refine ⟨calm.1.next (.engine calls ran succeeds), ⟨kept, ?_, fun _ => ?_, ?_⟩, calm.2⟩
  · intro call' resume' _ calls'
    cases calls.symm.trans calls'
    exact lasting
  · dsimp only
    rw [record]
  · intro b _ same
    cases same

/-- The handler makes its next call. -/
theorem Calm.connect (calm : r.Calm history s)
    (calls : s.connect.view {} r.tenant = .call call resume) (answer : call.Ans)
    (ran : s.world.WSRuns call answer w) (succeeds : call.Succeeds answer)
    (kept : w.store.events = s.world.store.events)
    (record : Early s.connect ∨ w.store.connections = s.world.store.connections)
    (few : (r.stored s).length ≤ 2000) :
    r.Calm ((s, .connect) :: history)
      ⟨w, s.engine, resume answer, s.published, call.deliver s.delivered⟩ := by
  refine ⟨calm.1.next (.connect calls ran succeeds), ⟨?_, ?_, fun late => ?_, ?_⟩, calm.2⟩
  · intro ev there
    change ev ∈ w.store.storedEvents _ _
    rwa [storedEvents_of_events kept]
  · intro _ _ same
    cases same
  · dsimp only
    rw [record.resolve_left late]
  · exact fun _ _ _ => (List.length_filter_le ..).trans few

end Runs

end Reconnection

/-- A client reconnects just as the engine begins with its run. -/
def reconnection : Reconnection Rat where
  env := streamingEngine
  task := freshTask
  run := freshRun
  tenant := ⟨"acme", "ada", "req_1"⟩
  connectionID := "conn"
  lastSeq := 0
  fromTS := 0
  connectionNamed := by decide
  taskNamed := by decide
  runNamed := by decide

namespace Reconnection

/-- Nothing has happened yet. -/
theorem reconnection_begins : reconnection.Calm [] ⟨freshWorld,
    execute streamingEngine freshTask freshRun, .start {} (some reconnection.body), {}, []⟩ := by
  refine ⟨.start ⟨?_, rfl, ⟨⟨freshTask, rfl, rfl, rfl⟩, ⟨freshRun, rfl⟩⟩, rfl, rfl, rfl, rfl⟩, trivial⟩
  exact .write (.new _) 0 (.applyCreateTransition freshTask freshRun)

/-- The client's connection is registered, and then the engine stores its first event and
pushes it to the connection. The replay goes on to read that event as well, and pushes it a
second time. -/
theorem reconnection_overlaps : ∃ history s, reconnection.Calm history s ∧
    s.connect = .returned (.connected 1) ∧ s.published.completed.map StreamEvent.seq = [1] ∧
    s.delivered.map (fun d => (d.source, d.event.seq)) = [(.replayed, 1), (.live, 1)] := by
  have c1 := reconnection_begins.connect rfl _ ⟨rfl, rfl⟩ trivial rfl (.inr rfl) (by decide)
  have c2 := c1.connect rfl _ ⟨rfl, rfl⟩ trivial rfl (.inr rfl) (by decide)
  have c3 := c2.connect rfl _ ⟨rfl, rfl⟩ trivial rfl (.inr rfl) (by decide)
  have c4 := c3.connect rfl _ ⟨rfl, rfl⟩ trivial rfl (.inl trivial) (by decide)
  have c5 := c4.engine rfl _ ⟨rfl, rfl⟩ trivial trivial (fun _ => id) rfl
  have c6 := c5.engine rfl false rfl trivial trivial (fun _ => id) rfl
  have c7 := c6.engine rfl _ ⟨rfl, rfl⟩ trivial trivial (fun _ => id) rfl
  have c8 := c7.engine rfl _ ⟨rfl, rfl⟩ trivial (retains_putEvent (by decide)) (by decide) rfl
  have c9 := c8.engine rfl _ ⟨rfl, rfl⟩ trivial trivial (fun _ => id) rfl
  have c10 := c9.engine rfl (.pushed true) rfl rfl trivial (fun _ => id) rfl
  have c11 := c10.connect rfl _ ⟨rfl, rfl⟩ trivial rfl (.inr rfl) (by decide)
  have c12 := c11.connect rfl _ ⟨rfl, rfl⟩ trivial rfl (.inr rfl) (by decide)
  have c13 := c12.connect rfl _ ⟨rfl, rfl⟩ trivial rfl (.inr rfl) (by decide)
  have c14 := c13.connect rfl (true, none) rfl rfl rfl (.inr rfl) (by decide)
  exact ⟨_, _, c14, rfl, by decide, by decide⟩

/-- The engine is done with its first event when the client's connection is registered, and
stores the second one when the handler has returned. -/
theorem reconnection_in_turn : ∃ history s, reconnection.Calm history s ∧
    reconnection.TakesTurns history ∧
    s.delivered.map (fun d => (d.source, d.event.seq)) = [(.live, 2), (.replayed, 1)] := by
  have c1 := reconnection_begins.engine rfl _ ⟨rfl, rfl⟩ trivial trivial (fun _ => id) rfl
  have c2 := c1.engine rfl false rfl trivial trivial (fun _ => id) rfl
  have c3 := c2.engine rfl _ ⟨rfl, rfl⟩ trivial trivial (fun _ => id) rfl
  have c4 := c3.engine rfl _ ⟨rfl, rfl⟩ trivial (retains_putEvent (by decide)) (by decide) rfl
  have c5 := c4.engine rfl _ ⟨rfl, rfl⟩ trivial trivial (fun _ => id) rfl
  have c6 := c5.connect rfl _ ⟨rfl, rfl⟩ trivial rfl (.inr rfl) (by decide)
  have c7 := c6.connect rfl _ ⟨rfl, rfl⟩ trivial rfl (.inr rfl) (by decide)
  have c8 := c7.connect rfl _ ⟨rfl, rfl⟩ trivial rfl (.inr rfl) (by decide)
  have c9 := c8.connect rfl _ ⟨rfl, rfl⟩ trivial rfl (.inl trivial) (by decide)
  have c10 := c9.connect rfl _ ⟨rfl, rfl⟩ trivial rfl (.inr rfl) (by decide)
  have c11 := c10.connect rfl _ ⟨rfl, rfl⟩ trivial rfl (.inr rfl) (by decide)
  have c12 := c11.connect rfl _ ⟨rfl, rfl⟩ trivial rfl (.inr rfl) (by decide)
  have c13 := c12.connect rfl (true, none) rfl rfl rfl (.inr rfl) (by decide)
  have c14 := c13.engine rfl _ ⟨rfl, rfl⟩ trivial trivial (fun _ => id) rfl
  have c15 := c14.engine rfl (["a"], .ok (reply "a")) rfl trivial trivial (fun _ => id) rfl
  have c16 := c15.engine rfl _ ⟨rfl, rfl⟩ trivial trivial (fun _ => id) rfl
  have c17 := c16.engine rfl _ ⟨rfl, rfl⟩ trivial (retains_putEvent (by decide)) (by decide) rfl
  have c18 := c17.engine rfl _ ⟨rfl, rfl⟩ trivial trivial (fun _ => id) rfl
  have c19 := c18.engine rfl (.pushed true) rfl rfl trivial (fun _ => id) rfl
  exact ⟨_, _, c19, by unfold TakesTurns; decide, by decide⟩

end Reconnection

/-! ## What the client is told -/

section Told

variable {F : Type} [Float64 F] {r : Reconnection F} {history : List (Streaming F × Mover)}
  {s : Streaming F}

open Reconnection

/-- **A client that reconnects misses nothing.** However the engine, the handler and others
take turns: once the handler has returned, every event whose emission is complete and that
the client had not seen was pushed to its connection. The handler does return: it can take a
step until it has, and takes 2007 at most. -/
theorem reconnect_leaves_no_gap (fromSeq : 0 ≤ r.lastSeq) (fromTS : r.fromTS = 0)
    (path : r.system.Path history s) (undisturbed : System.Along r.Undisturbed history s) :
    ((∃ response, s.connect = .returned response) →
      ∀ event ∈ s.published.completed, r.lastSeq < event.seq → Pushed s event) ∧
    ((∃ response, s.connect = .returned response) ∨ ∃ t, r.system.Step s .connect t) ∧
    connectSteps history ≤ 2007 := by
  refine ⟨?_, connect_enabled r s, Nat.le_of_add_right_le (connectSteps_le path)⟩
  rintro ⟨response, returned⟩ event complete missed
  have gapless := gapless_of_path fromSeq fromTS path undisturbed
  have late : Late s.connect := returned ▸ ⟨id, id⟩
  rcases (gapless.completed complete).2 late missed with pushed | ⟨ev, waiting, -⟩
  · exact pushed
  · rw [returned] at waiting
    cases waiting

/-- The one event of the run is complete, and was pushed. -/
theorem reconnect_leaves_no_gap_overlap : ∃ history s, reconnection.system.Path history s ∧
    (∃ event ∈ s.published.completed, reconnection.lastSeq < event.seq) ∧
    ∀ event ∈ s.published.completed, reconnection.lastSeq < event.seq → Pushed s event := by
  obtain ⟨history, s, ⟨path, undisturbed⟩, returned, completed, -⟩ := reconnection_overlaps
  refine ⟨history, s, path, ?_,
    (reconnect_leaves_no_gap le_rfl rfl path undisturbed).1 ⟨_, returned⟩⟩
  have first : (1 : Int) ∈ s.published.completed.map StreamEvent.seq := by simp [completed]
  obtain ⟨event, member, seq⟩ := List.mem_map.mp first
  exact ⟨event, member, seq ▸ Int.zero_lt_one⟩

/-- **When a client that reconnects is told in order.** What is pushed to its connection has
increasing numbers throughout if each live push since the registration comes after the last
push of the replay and is of an event stored after the replay was read. -/
theorem reconnect_ordered (path : r.system.Path history s) (turns : r.TakesTurns history) :
    System.Throughout Reconnection.Ordered history s := by
  induction path with
  | start begun =>
    obtain ⟨-, -, -, -, -, -, none⟩ := begun
    refine ⟨?_, by simp⟩
    rw [Reconnection.Ordered, none]
    exact List.Pairwise.nil
  | next before step ih =>
    have ordered := ih turns.earlier
    have inTurn := inTurn_of_path before turns.earlier
    exact System.throughout_cons.mpr
      ⟨ordered_step ⟨_, before⟩ ordered.1 inTurn turns step, ordered⟩

/-- The first event is replayed, and the second one is pushed live after it. -/
theorem reconnect_ordered_in_turn : ∃ history s, reconnection.system.Path history s ∧
    s.delivered.map (fun d => (d.source, d.event.seq)) = [(.live, 2), (.replayed, 1)] ∧
    System.Throughout Reconnection.Ordered history s := by
  obtain ⟨history, s, ⟨path, -⟩, turns, delivered⟩ := reconnection_in_turn
  exact ⟨history, s, path, delivered, reconnect_ordered path turns⟩

/-- The event is pushed live, and then replayed. -/
theorem reconnect_pushes_event_twice : ∃ history s, reconnection.system.Path history s ∧
    s.connect = .returned (.connected 1) ∧
    s.delivered.map (fun d => (d.source, d.event.seq)) = [(.replayed, 1), (.live, 1)] ∧
    ¬ Reconnection.Ordered s := by
  obtain ⟨history, s, ⟨path, -⟩, returned, -, delivered⟩ := reconnection_overlaps
  refine ⟨history, s, path, returned, delivered, fun ordered => ?_⟩
  have seqs : (s.delivered.map fun d => (d.source, d.event.seq)).Pairwise
      fun later earlier => earlier.2 < later.2 := List.pairwise_map.mpr ordered
  rw [delivered] at seqs
  exact absurd seqs (by decide)

end Told

end AgentForge
