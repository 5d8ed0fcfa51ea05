import AgentForge.MessageFlow
import AgentForge.QueueContents

/-! Every step of the goroutines of a `MemoryQueue` is one move of the message flow. The
tokens of a state are read off its threads, its containers and its log; what a step
does to them, to the books and to the log is said here once, and the invariants of the
queue are proved on the moves. -/
namespace AgentForge

open Transition KeyedLists

section QueueFlow

variable {F : Type}

/-! ## The tokens of a state -/

def Origin.isRetry : Origin F → Bool
  | .retry => true
  | .caller | .redrive .. => false

/-- The message a goroutine carries. -/
def QueueThread.tokens : QueueThread F → Multiset (Token F)
  | .enqueue origin (.start msg) => {(.offered origin.isRetry, msg)}
  | .enqueue origin (.mark msg _) => {(.prepared origin.isRetry, msg)}
  | .enqueue origin (.admission msg) => {(.admitting origin.isRetry, msg)}
  | .enqueue origin (.unmark msg _) => {(.refused origin.isRetry, msg)}
  | .enqueue origin (.send msg) => {(.sending origin.isRetry, msg)}
  | .enqueue origin (.cancelUnmark msg) => {(.cancelling origin.isRetry, msg)}
  | .enqueue origin (.cancelManager msg) => {(.withdrawn origin.isRetry, msg)}
  | .ingress (.received msg) => {(.received, msg)}
  | .dispatch (.handling msg) => {(.handling, msg)}
  | .dispatch (.deadLettering msg) | .dispatch (.releasing msg _) => {(.finishing, msg)}
  | .retryTimer msg _ => {(.timer, msg)}
  | .ingress .waiting | .ingress .draining | .dispatch .idle | .dispatch (.popping _)
  | .returned _ | .redrive _ | .redriving .. | .putBack .. | .redriven .. => 0

/-- A message that was handled without an error. -/
def LogEntry.succeeded : LogEntry F → Multiset (SQSMessage F)
  | .finished msg false => {msg}
  | _ => 0

/-- A message put on the channel by an `Enqueue` that is not one of a retry. -/
def LogEntry.accepted : LogEntry F → Multiset (SQSMessage F)
  | .sent origin msg => if origin.isRetry then 0 else {msg}
  | _ => 0

/-- Messages in the channel, pending, dead-lettered and done with, at their stages. -/
def stockOf (channel pending dead done : Multiset (SQSMessage F)) : Multiset (Token F) :=
  channel.map (Prod.mk .channel) + pending.map (Prod.mk .pending) + dead.map (Prod.mk .dead) +
    done.map (Prod.mk .done)

namespace QueueWorld

variable (w : QueueWorld F)

def succeeded : Multiset (SQSMessage F) := (w.log.map LogEntry.succeeded).sum

def accepted : Multiset (SQSMessage F) := (w.log.map LogEntry.accepted).sum

/-- The messages no goroutine carries. -/
def stock : Multiset (Token F) :=
  stockOf w.queue.ch (contents w.queue.pending) w.queue.dlq w.succeeded

def books : Books F := ⟨w.queue.inQueue, w.queue.inFlight, w.manager⟩

end QueueWorld

section Stock

variable {msg : SQSMessage F}

private theorem stockOf_channel : stockOf (msg ::ₘ channel) pending dead done =
    {(.channel, msg)} + stockOf channel pending dead done := by
  simp [stockOf]

private theorem stockOf_pending : stockOf channel (msg ::ₘ pending) dead done =
    {(.pending, msg)} + stockOf channel pending dead done := by
  simp [stockOf]

private theorem stockOf_dead (batch : Multiset (SQSMessage F)) :
    stockOf channel pending (batch + dead) done =
    batch.map (Prod.mk .dead) + stockOf channel pending dead done := by
  simp only [stockOf, Multiset.map_add]
  ac_rfl

private theorem stockOf_done : stockOf channel pending dead (msg ::ₘ done) =
    {(.done, msg)} + stockOf channel pending dead done := by
  simp [stockOf]

private theorem coe_concat (msgs : List (SQSMessage F)) :
    (↑(msgs ++ [msg]) : Multiset (SQSMessage F)) = msg ::ₘ ↑msgs := by
  rw [← Multiset.coe_add, Multiset.coe_singleton, add_comm, Multiset.singleton_add]

end Stock

/-- All messages, each at its stage. -/
def tokens (w : QueueWorld F) (threads : Multiset (QueueThread F)) : Multiset (Token F) :=
  threads.bind QueueThread.tokens + w.stock

theorem tokens_cons (w : QueueWorld F) (thread : QueueThread F)
    (threads : Multiset (QueueThread F)) :
    tokens w (thread ::ₘ threads) =
      thread.tokens + w.stock + threads.bind QueueThread.tokens := by
  rw [tokens, Multiset.cons_bind, add_right_comm]

theorem tokens_add (w : QueueWorld F) (left threads : Multiset (QueueThread F)) :
    tokens w (left + threads) =
      left.bind QueueThread.tokens + w.stock + threads.bind QueueThread.tokens := by
  rw [tokens, Multiset.add_bind, add_right_comm]

theorem mem_tokens_of_carried (running : thread ∈ threads) (carried : token ∈ thread.tokens) :
    token ∈ tokens w threads :=
  Multiset.mem_add.mpr (.inl (Multiset.mem_bind.mpr ⟨thread, running, carried⟩))

theorem mem_tokens_of_pending (found : w.queue.pending.lookup tenantID = some waiting)
    (member : msg ∈ waiting) :
    (.pending, msg) ∈ tokens w threads := by
  have there : msg ∈ contents w.queue.pending := mem_contents found member
  simp [tokens, QueueWorld.stock, stockOf, there]

@[simp]
theorem finish_tokens (origin : Origin F) (result : Except EnqueueError Unit) :
    (origin.finish result).bind QueueThread.tokens = 0 := by
  cases origin with
  | caller => simp [Origin.finish, QueueThread.tokens]
  | retry => simp [Origin.finish]
  | redrive msg rest ok => cases result <;> simp [Origin.finish, QueueThread.tokens]

/-! ## What a move tells -/

/-- Whether a move writes nothing to the log. -/
def Move.silent : Move F → Bool
  | .send .. | .pop _ | .release .. => false
  | _ => true

/-- What a move writes to the log. -/
inductive Move.Tells : Move F → List (LogEntry F) → Prop where
  | send (origin : Origin F) (msg : SQSMessage F) :
      Tells (.send origin.isRetry msg) [.sent origin msg]
  | pop (msg : SQSMessage F) : Tells (.pop msg) [.dispatched msg]
  | release (msg : SQSMessage F) (failed : Bool) : Tells (.release msg failed) [.finished msg failed]
  | silent {move : Move F} (silent : move.silent = true) : Tells move []

/-- The message with this key is done with: it has succeeded, or its failure is final. -/
def Move.Settles (cfg : MemoryQueueConfig) (key : String) : Move F → Prop
  | .release msg failed =>
    key = messageKey msg ∧ (failed = true → isFinalFailure cfg msg failed = true)
  | _ => False

/-- What a move leaves in the log and among the keys remembered, and which event marks a
key. -/
structure Told (cfg : MemoryQueueConfig) (w w' : QueueWorld F) (e : Soup.Event (QueueThread F))
    (move : Move F) : Prop where
  log : ∃ entries, w'.log = entries ++ w.log ∧ move.Tells entries
  recent : ∀ key ts, w'.queue.recent.lookup key = some ts →
    w.queue.recent.lookup key = some ts ∨ move.Settles cfg key
  marked : ∀ retry msg, move = .mark retry msg →
    w'.queue.recent.lookup (messageKey msg) = none ∧
      ∃ origin now, e = .act (.enqueue origin (.mark msg now)) ∧ origin.isRetry = retry

private theorem Told.silent {cfg : MemoryQueueConfig} {e : Soup.Event (QueueThread F)}
    (log : w'.log = w.log) (recent : w'.queue.recent = w.queue.recent) (silent : move.silent = true)
    (unmarked : ∀ retry msg, move ≠ .mark retry msg) : Told cfg w w' e move where
  log := ⟨[], log, .silent silent⟩
  recent _ _ found := .inl (recent ▸ found)
  marked retry msg same := absurd same (unmarked retry msg)

variable [Float64 F]

/-- The messages given up when this goroutine takes its next step: a retry that finds
its key taken or remembered, or that the manager refuses. -/
def drops (cfg : MemoryQueueConfig) (w : QueueWorld F) : QueueThread F → Multiset (SQSMessage F)
  | .enqueue .retry (.mark msg now) =>
    if (w.queue.mark cfg now (messageKey msg)).1 then 0 else {msg}
  | .enqueue .retry (.admission msg) =>
    match (w.manager.tryEnqueue w.clock w.clock msg.tenantID (admissionInfo msg)).1 with
    | .ok () => 0
    | .error _ => {msg}
  | _ => 0

/-! ## Steps are moves -/

variable {setting : Setting F} {cfg : MemoryQueueConfig} {w w' : QueueWorld F}
  {left : Multiset (QueueThread F)} {thread : QueueThread F} {origin : Origin F}

/-- A step of a goroutine, with what it carries and the stock, as a move. -/
structure Flow (setting : Setting F) (w w' : QueueWorld F) (thread : QueueThread F)
    (left : Multiset (QueueThread F)) (move : Move F) (others : Multiset (Token F)) : Prop where
  before : thread.tokens + w.stock = move.out + others
  after : left.bind QueueThread.tokens + w'.stock = move.into setting.cfg.normalize + others
  allowed : Allowed setting w.books move w'.books
  accepted : w'.accepted = move.accepted + w.accepted
  lost : move.lost = drops setting.cfg.normalize w thread

/-- The first answer of the manager does not depend on when a breaker opens. -/
theorem tryEnqueue_answer (m : Manager F) (now opened opened' : Time) (tenantID : String)
    (info : AdmissionInfo F) :
    (m.tryEnqueue now opened tenantID info).1 = (m.tryEnqueue now opened' tenantID info).1 := by
  simp only [Manager.tryEnqueue, TenantState.tryEnqueue]
  split_ifs <;> rfl

/-- A step that moves what the goroutine carries and leaves the stock alone. -/
theorem Flow.carried (carried : thread.tokens = move.out)
    (put : left.bind QueueThread.tokens = move.into setting.cfg.normalize)
    (stock : w'.stock = w.stock) (allowed : Allowed setting w.books move w'.books)
    (accepted : w'.accepted = w.accepted) (none : move.accepted = 0)
    (lost : move.lost = drops setting.cfg.normalize w thread) :
    Flow setting w w' thread left move w.stock where
  before := by rw [carried]
  after := by rw [put, stock]
  allowed := allowed
  accepted := by rw [accepted, none, zero_add]
  lost := lost

/-- A step that moves nothing. -/
theorem Flow.still (out : move.out = 0) (into : move.into setting.cfg.normalize = 0)
    (carried : left.bind QueueThread.tokens = thread.tokens) (stock : w'.stock = w.stock)
    (allowed : Allowed setting w.books move w'.books) (accepted : w'.accepted = w.accepted)
    (none : move.accepted = 0) (lost : move.lost = drops setting.cfg.normalize w thread) :
    Flow setting w w' thread left move (thread.tokens + w.stock) where
  before := by rw [out, zero_add]
  after := by rw [into, zero_add, carried, stock]
  allowed := allowed
  accepted := by rw [accepted, none, zero_add]
  lost := lost

omit [Float64 F] in
private theorem accepted_sent :
    { w with queue := queue, log := .sent origin msg :: w.log }.accepted =
      (Move.send origin.isRetry msg).accepted + w.accepted := by
  cases origin <;> rfl

/-- Every step of `Enqueue` is a move. -/
theorem EnqueuePC.Acts.flow
    (acts : pc.Acts setting.cfg.normalize setting.consumerCancels origin w w' left) :
    ∃ move others, Flow setting w w' (.enqueue origin pc) left move others ∧
      Told setting.cfg.normalize w w' (.act (.enqueue origin pc)) move := by
  cases acts with
  | start msg =>
    exact ⟨.prepare origin.isRetry msg, _, .carried rfl (Multiset.singleton_bind ..) rfl (.prepare ..)
      rfl rfl (by cases origin <;> rfl), .silent rfl rfl rfl nofun⟩
  | mark msg now unlocked =>
    have kept : ∀ move : Move F, ∀ key ts,
        (w.queue.mark setting.cfg.normalize now (messageKey msg)).2.recent.lookup key = some ts →
          w.queue.recent.lookup key = some ts ∨ move.Settles setting.cfg.normalize key :=
      fun _ _ _ found => .inl (MemoryQueue.lookup_recent_mark found)
    rcases w.queue.mark_cases setting.cfg.normalize now (messageKey msg) with
      ⟨no, -, same⟩ | ⟨yes, notQueued, notInFlight, same⟩
    · refine ⟨.duplicate origin.isRetry msg, _, .carried rfl ?_ ?_ ?_ rfl rfl ?_,
        ⟨[], rfl, .silent rfl⟩, kept _, nofun⟩
      · simp [no, Move.into]
      · rw [same]
        rfl
      · rw [same]
        exact .duplicate ..
      · cases origin <;> simp [Move.lost, Origin.isRetry, drops, no]
    · refine ⟨.mark origin.isRetry msg, _, .carried rfl ?_ ?_ ?_ rfl rfl ?_,
        ⟨[], rfl, .silent rfl⟩, kept _, ?_⟩
      · simp [yes, Move.into, QueueThread.tokens]
      · rw [same]
        rfl
      · rw [same]
        exact .mark _ notQueued notInFlight
      · cases origin <;> simp [Move.lost, drops, yes]
      · rintro retry msg' ⟨⟩
        exact ⟨MemoryQueue.lookup_recent_of_mark yes, origin, now, rfl, rfl⟩
  | admission msg opened later =>
    have answered := tryEnqueue_answer w.manager w.clock w.clock opened msg.tenantID
      (admissionInfo msg)
    cases answer : (w.manager.tryEnqueue w.clock opened msg.tenantID (admissionInfo msg)).1 with
    | ok _ =>
      refine ⟨.admission origin.isRetry msg, _, .carried rfl ?_ rfl (.admission _ answer) rfl rfl ?_,
        .silent rfl rfl rfl nofun⟩
      · exact Multiset.singleton_bind ..
      · cases origin <;> simp [Move.lost, drops, answered, answer]
    | error violation =>
      refine ⟨.refuse origin.isRetry msg, _, .carried rfl ?_ rfl (.refuse _ answer) rfl rfl ?_,
        .silent rfl rfl rfl nofun⟩
      · exact Multiset.singleton_bind ..
      · cases origin <;> simp [Move.lost, Origin.isRetry, drops, answered, answer]
  | unmark msg violation unlocked =>
    exact ⟨.unmark origin.isRetry msg, _, .carried rfl (finish_tokens ..) rfl (.unmark ..) rfl rfl
      (by cases origin <;> rfl), .silent rfl rfl rfl nofun⟩
  | send msg room =>
    refine ⟨.send origin.isRetry msg, w.stock, ⟨rfl, ?_, .send .., accepted_sent,
      by cases origin <;> rfl⟩, ⟨_, rfl, .send ..⟩, fun _ _ found => .inl found, nofun⟩
    have sent : { w with
        queue := { w.queue with ch := w.queue.ch ++ [msg] }
        log := .sent origin msg :: w.log }.stock = {(.channel, msg)} + w.stock := by
      rw [QueueWorld.stock, coe_concat, stockOf_channel]
      simp [QueueWorld.stock, QueueWorld.succeeded, LogEntry.succeeded]
    rw [finish_tokens, zero_add, sent]
    rfl
  | cancel msg done =>
    refine ⟨.cancel origin.isRetry msg, _, .carried rfl (Multiset.singleton_bind ..) rfl
      (.cancel msg ?_) rfl rfl (by cases origin <;> rfl), .silent rfl rfl rfl nofun⟩
    intro retried
    cases origin with
    | retry => exact done
    | _ => cases retried
  | cancelUnmark msg unlocked =>
    exact ⟨.cancelUnmark origin.isRetry msg, _, .carried rfl (Multiset.singleton_bind ..) rfl
      (.cancelUnmark ..) rfl rfl (by cases origin <;> rfl), .silent rfl rfl rfl nofun⟩
  | cancelManager msg =>
    exact ⟨.cancelManager origin.isRetry msg, _, .carried rfl (finish_tokens ..) rfl
      (.cancelManager ..) rfl rfl (by cases origin <;> rfl), .silent rfl rfl rfl nofun⟩

/-- Every step of `ingressLoop` is a move. -/
theorem IngressPC.Acts.flow (acts : pc.Acts setting.consumerCancels w w' left) :
    ∃ move others, Flow setting w w' (.ingress pc) left move others ∧
      Told setting.cfg.normalize w w' (.act (.ingress pc)) move := by
  cases acts with
  | @receive msg rest first =>
    refine ⟨.receive msg, stockOf rest (contents w.queue.pending) w.queue.dlq w.succeeded,
      ⟨?_, ?_, .receive .., (zero_add _).symm, rfl⟩, .silent rfl rfl rfl nofun⟩
    · rw [QueueWorld.stock, first, ← Multiset.cons_coe, stockOf_channel]
      exact zero_add _
    · rw [Multiset.singleton_bind]
      rfl
  | lock msg unlocked =>
    refine ⟨.add msg, w.stock, ⟨rfl, ?_, ?_, (zero_add _).symm, rfl⟩,
      .silent rfl (w.queue.addPending_recent msg) rfl nofun⟩
    · rw [Multiset.singleton_bind, QueueWorld.stock, MemoryQueue.addPending_contents,
        MemoryQueue.addPending_ch, MemoryQueue.addPending_dlq, stockOf_pending]
      exact zero_add _
    · simpa [QueueWorld.books] using Allowed.add msg
  | @drain msg rest first =>
    refine ⟨.drain msg, stockOf rest (contents w.queue.pending) w.queue.dlq w.succeeded,
      ⟨?_, ?_, ?_, (zero_add _).symm, rfl⟩,
      .silent rfl (MemoryQueue.addPending_recent _ msg) rfl nofun⟩
    · rw [QueueWorld.stock, first, ← Multiset.cons_coe, stockOf_channel]
      exact zero_add _
    · rw [Multiset.singleton_bind, QueueWorld.stock, MemoryQueue.addPending_contents,
        MemoryQueue.addPending_ch, MemoryQueue.addPending_dlq, stockOf_pending]
      exact zero_add _
    · simpa [QueueWorld.books] using Allowed.drain msg
  | drained empty =>
    exact ⟨.quiet, _, .still rfl rfl (Multiset.singleton_bind ..) rfl .quiet rfl rfl rfl,
      .silent rfl rfl rfl nofun⟩
  | stop done =>
    exact ⟨.quiet, _, .still rfl rfl (Multiset.zero_bind _) rfl .quiet rfl rfl rfl,
      .silent rfl rfl rfl nofun⟩

omit [Float64 F] in
/-- What a release leaves: the message is done with, dead, or waits for its next attempt. -/
theorem release_tokens :
    (QueueThread.dispatch .idle ::ₘ retryTimers cfg clock msg failed).bind QueueThread.tokens +
        { w with
          queue := w.queue.releaseAttempt cfg w.clock msg failed (isFinalFailure cfg msg failed)
          log := .finished msg failed :: w.log }.stock =
      {released cfg msg failed} + w.stock := by
  obtain ⟨recent, same⟩ :=
    w.queue.releaseAttempt_eq msg cfg w.clock failed (isFinalFailure cfg msg failed)
  rw [same, Multiset.cons_bind, QueueThread.tokens, zero_add]
  cases failed with
  | false =>
    have notFinal : isFinalFailure cfg msg false = false := rfl
    simp [retryTimers, released, notFinal, QueueWorld.stock, QueueWorld.succeeded,
      LogEntry.succeeded, stockOf_done]
  | true =>
    have noSuccess : ∀ queue : MemoryQueue F,
        { w with queue := queue, log := .finished msg true :: w.log }.succeeded = w.succeeded := by
      intro queue
      simp [QueueWorld.succeeded, LogEntry.succeeded]
    cases final : isFinalFailure cfg msg true with
    | true =>
      simp only [retryTimers, released, final, QueueWorld.stock, noSuccess, coe_concat, if_true,
        Bool.not_true, Bool.and_false, Bool.false_eq_true, if_false, Multiset.zero_bind, zero_add]
      rw [← Multiset.singleton_add, stockOf_dead]
      rfl
    | false =>
      simp [retryTimers, released, final, QueueWorld.stock, noSuccess, QueueThread.tokens]

/-- Every step of `workerLoop` is a move, if the pending lists are those of their tenants. -/
theorem DispatchPC.Acts.flow
    (acts : pc.Acts setting.cfg.normalize setting.consumerCancels w w' left)
    (sorted : Sorted (fun msg => normalizeTenant msg.tenantID) w.queue.pending) :
    ∃ move others, Flow setting w w' (.dispatch pc) left move others ∧
      Told setting.cfg.normalize w w' (.act (.dispatch pc)) move := by
  cases acts with
  | lock unlocked | unlock checked all =>
    exact ⟨.quiet, _, .still rfl rfl (Multiset.singleton_bind ..) rfl .quiet rfl rfl rfl,
      .silent rfl rfl rfl nofun⟩
  | turn checked more =>
    have turn := w.queue.popTurn_turn w.clock w.manager
    generalize w.queue.popTurn w.clock w.manager = outcome at turn ⊢
    cases turn with
    | dropped tenantID empty =>
      refine ⟨.quiet, _, .still rfl rfl (Multiset.singleton_bind ..) ?_ .quiet rfl rfl rfl,
      .silent rfl rfl rfl nofun⟩
      simp only [QueueWorld.stock, afterTurn, contents_erase_of_empty empty]
      rfl
    | refused tenantID refused =>
      exact ⟨.passBy tenantID, _, .still rfl rfl (Multiset.singleton_bind ..) rfl
        (.passBy refused) rfl rfl rfl, .silent rfl rfl rfl nofun⟩
    | @popped order nextTenant msg rest pending tenantID found started remains =>
      obtain rfl := sorted tenantID _ found msg (List.mem_cons_self ..)
      refine ⟨.pop msg, stockOf w.queue.ch (contents pending) w.queue.dlq w.succeeded,
        ⟨?_, ?_, .pop started, ?_, rfl⟩, ⟨_, rfl, .pop msg⟩, fun _ _ found => .inl found, nofun⟩
      · rw [QueueWorld.stock, MemoryQueue.contents_of_popped found remains, stockOf_pending]
        exact zero_add _
      · simp only [afterTurn, Multiset.singleton_bind]
        simp [QueueThread.tokens, Move.into, QueueWorld.stock, QueueWorld.succeeded,
          LogEntry.succeeded]
      · simp [afterTurn, QueueWorld.accepted, LogEntry.accepted, Move.accepted]
  | stop done =>
    exact ⟨.quiet, _, .still rfl rfl (Multiset.zero_bind _) rfl .quiet rfl rfl rfl,
      .silent rfl rfl rfl nofun⟩
  | complete msg failed =>
    refine ⟨.complete msg failed, _, .carried rfl ?_ rfl (.complete ..) rfl rfl rfl,
      .silent rfl rfl rfl nofun⟩
    rw [Multiset.singleton_bind]
    split <;> rfl
  | deadLetter msg =>
    exact ⟨.deadLetter msg, _, .still rfl rfl (Multiset.singleton_bind ..) rfl (.deadLetter ..) rfl
      rfl rfl, .silent rfl rfl rfl nofun⟩
  | release msg failed unlocked =>
    refine ⟨.release msg failed, w.stock, ⟨rfl, release_tokens, ?_, ?_, rfl⟩,
      ⟨_, rfl, .release ..⟩, fun _ _ found => MemoryQueue.lookup_recent_releaseAttempt found, nofun⟩
    · obtain ⟨recent, same⟩ :=
        w.queue.releaseAttempt_eq msg setting.cfg.normalize w.clock failed
          (isFinalFailure setting.cfg.normalize msg failed)
      rw [same]
      exact .release ..
    · simp [QueueWorld.accepted, LogEntry.accepted, Move.accepted]

/-- The goroutines of a `RedriveDeadLetters`. -/
def QueueThread.OfRedrive : QueueThread F → Prop
  | .redrive _ | .redriving .. | .putBack .. | .enqueue (.redrive ..) _ => True
  | _ => False

/-- Every step of a goroutine is a move. -/
theorem QueueThread.Acts.flow
    (acts : thread.Acts setting.cfg.normalize setting.consumerCancels w w' left)
    (sorted : Sorted (fun msg => normalizeTenant msg.tenantID) w.queue.pending)
    (allowed : thread.OfRedrive → setting.redrives) :
    ∃ move others, Flow setting w w' thread left move others ∧
      Told setting.cfg.normalize w w' (.act thread) move := by
  cases acts with
  | enqueue acts => exact acts.flow
  | ingress acts => exact acts.flow
  | dispatch acts => exact acts.flow sorted
  | fire msg due elapsed =>
    exact ⟨.fire msg, _, .carried rfl (Multiset.singleton_bind ..) rfl (.fire ..) rfl rfl rfl,
      .silent rfl rfl rfl nofun⟩
  | giveUp msg due done =>
    exact ⟨.giveUp msg, _, .carried rfl (Multiset.zero_bind _) rfl (.giveUp msg done) rfl rfl rfl,
      .silent rfl rfl rfl nofun⟩
  | redrive limit unlocked =>
    have split : (w.queue.dlq : Multiset (SQSMessage F)) =
        ↑(w.queue.takeDeadLetters limit).1 + ↑(w.queue.takeDeadLetters limit).2.dlq := by
      simp [MemoryQueue.takeDeadLetters]
    refine ⟨.redrive (w.queue.takeDeadLetters limit).1,
      stockOf w.queue.ch (contents w.queue.pending) (w.queue.takeDeadLetters limit).2.dlq
        w.succeeded, ⟨?_, ?_, .redrive _ (allowed trivial), (zero_add _).symm, rfl⟩,
      .silent rfl rfl rfl nofun⟩
    · rw [QueueWorld.stock, split, stockOf_dead]
      exact zero_add _
    · rw [Multiset.singleton_bind]
      rfl
  | redriveNext msg rest ok =>
    exact ⟨.offer (redriveMessage msg), _, .carried rfl (Multiset.singleton_bind ..) rfl (.offer ..)
      rfl rfl rfl, .silent rfl rfl rfl nofun⟩
  | redriven ok =>
    exact ⟨.quiet, _, .still rfl rfl (Multiset.singleton_bind ..) rfl .quiet rfl rfl rfl,
      .silent rfl rfl rfl nofun⟩
  | putBack msg ok error unlocked =>
    refine ⟨.putBack msg, w.stock, ⟨rfl, ?_, .putBack msg (allowed trivial), (zero_add _).symm, rfl⟩,
      .silent rfl rfl rfl nofun⟩
    rw [Multiset.singleton_bind, QueueWorld.stock, coe_concat, ← Multiset.singleton_add,
      stockOf_dead]
    exact zero_add _

/-! ## Runs -/

/-- Pending lists hold messages of their tenants, and dead letters are redriven only
where that is allowed. -/
structure Ordered (redrives : Prop) (w : QueueWorld F) (threads : Multiset (QueueThread F)) :
    Prop where
  sorted : Sorted (fun msg => normalizeTenant msg.tenantID) w.queue.pending
  redriven : ∀ thread ∈ threads, thread.OfRedrive → redrives

omit [Float64 F] in
theorem sorted_addPending {q : MemoryQueue F}
    (sorted : Sorted (fun msg => normalizeTenant msg.tenantID) q.pending) :
    Sorted (fun msg => normalizeTenant msg.tenantID) (q.addPending msg).pending := by
  obtain ⟨order, same⟩ := q.addPending_eq msg
  rw [same]
  refine sorted.insert fun other member => ?_
  rcases List.mem_append.mp member with there | last
  · cases found : q.pending.lookup (normalizeTenant msg.tenantID) with
    | none => simp [found] at there
    | some waiting => exact sorted _ _ found other (by simpa [found] using there)
  · rw [List.mem_singleton.mp last]

/-- What the dispatcher reads: the pending lists, the ring and the cursor. -/
def MemoryQueue.ring (q : MemoryQueue F) : GoMap (List (SQSMessage F)) × List String × Nat :=
  (q.pending, q.tenantOrder, q.nextTenant)

omit [Float64 F] in
private theorem ring_addPending {q q' : MemoryQueue F} (same : q'.ring = q.ring)
    (msg : SQSMessage F) :
    (q'.addPending msg).ring = (q.addPending msg).ring := by
  obtain ⟨ch, pending, order, next, inQueue, inFlight, recent, dlq⟩ := q
  obtain ⟨ch', pending', order', next', inQueue', inFlight', recent', dlq'⟩ := q'
  obtain ⟨rfl, rfl, rfl⟩ : pending' = pending ∧ order' = order ∧ next' = next := by
    simpa [MemoryQueue.ring] using same
  simp only [MemoryQueue.addPending]
  split <;> rfl

/-- A step leaves the dispatcher's data alone, adds a message, or takes a turn. -/
theorem QueueThread.Acts.ring_cases (acts : thread.Acts cfg consumerCancels w w' left) :
    w'.queue.ring = w.queue.ring ∨ (∃ msg, w'.queue.ring = (w.queue.addPending msg).ring) ∨
      w.queue.tenantOrder ≠ [] ∧
        ∃ now m, w'.queue.ring = (w.queue.popTurn now m).2.1.ring := by
  cases acts with
  | enqueue acts =>
    cases acts with
    | mark msg now unlocked =>
      left
      rcases w.queue.mark_cases cfg now (messageKey msg) with ⟨-, -, same⟩ | ⟨-, -, -, same⟩
      all_goals
        rw [same]
        rfl
    | _ => exact .inl rfl
  | ingress acts =>
    cases acts with
    | lock msg unlocked => exact .inr (.inl ⟨msg, rfl⟩)
    | @drain msg rest first =>
      refine .inr (.inl ⟨msg, ?_⟩)
      apply ring_addPending
      rfl
    | _ => exact .inl rfl
  | dispatch acts =>
    cases acts with
    | turn checked more =>
      refine .inr (.inr ⟨List.ne_nil_of_length_pos (Nat.zero_lt_of_lt more), w.clock, w.manager, ?_⟩)
      generalize w.queue.popTurn w.clock w.manager = outcome
      obtain ⟨result, queue, manager⟩ := outcome
      cases result <;> rfl
    | release msg failed unlocked =>
      obtain ⟨recent, same⟩ :=
        w.queue.releaseAttempt_eq msg cfg w.clock failed (isFinalFailure cfg msg failed)
      left
      rw [same]
      rfl
    | _ => exact .inl rfl
  | _ => exact .inl rfl

private theorem QueueThread.Acts.sorted (acts : thread.Acts cfg consumerCancels w w' left)
    (sorted : Sorted (fun msg => normalizeTenant msg.tenantID) w.queue.pending) :
    Sorted (fun msg => normalizeTenant msg.tenantID) w'.queue.pending := by
  rcases acts.ring_cases with same | ⟨msg, same⟩ | ⟨-, now, m, same⟩
  · have pending : w'.queue.pending = w.queue.pending := congrArg Prod.fst same
    rwa [pending]
  · have pending : w'.queue.pending = (w.queue.addPending msg).pending := congrArg Prod.fst same
    rw [pending]
    exact sorted_addPending sorted
  · have pending : w'.queue.pending = (w.queue.popTurn now m).2.1.pending :=
      congrArg Prod.fst same
    rw [pending]
    have turn := w.queue.popTurn_turn now m
    generalize w.queue.popTurn now m = outcome at turn ⊢
    cases turn with
    | dropped => exact sorted.erase
    | refused => exact sorted
    | popped tenantID found started remains =>
      rcases remains with ⟨-, rfl⟩ | rfl
      · exact sorted.erase
      · exact sorted.insert fun msg member =>
          sorted tenantID _ found msg (List.mem_cons_of_mem _ member)

/-- What a goroutine may go on as, or leave beside itself. -/
inductive QueueThread.Becomes (w : QueueWorld F) : QueueThread F → QueueThread F → Prop where
  | enqueuing {origin : Origin F} {pc pc' : EnqueuePC F} (begun : ∀ msg, pc' ≠ .start msg) :
      Becomes w (.enqueue origin pc) (.enqueue origin pc')
  | returned : Becomes w (.enqueue .caller pc) (.returned result)
  | goesOn : Becomes w (.enqueue (.redrive msg rest ok) pc) (.redriving rest (ok + 1))
  | stops : Becomes w (.enqueue (.redrive msg rest ok) pc) (.putBack msg ok error)
  | ingress : Becomes w (.ingress pc) (.ingress pc')
  | dispatch : Becomes w (.dispatch pc) (.dispatch pc')
  | timer : Becomes w (.dispatch pc) (.retryTimer msg due)
  | fire : Becomes w (.retryTimer msg due) (.enqueue .retry (.start msg))
  | redrive : Becomes w (.redrive limit) (.redriving (w.queue.takeDeadLetters limit).1 0)
  | redriveNext : Becomes w (.redriving (msg :: rest) ok)
      (.enqueue (.redrive (redriveMessage msg) rest ok) (.start (redriveMessage msg)))
  | redriven : Becomes w (.redriving [] ok) (.redriven ok none)
  | putBack : Becomes w (.putBack msg ok error) (.redriven ok (some error))

private theorem EnqueuePC.Acts.becomes {pc : EnqueuePC F}
    (acts : pc.Acts cfg consumerCancels origin w w' left) (member : next ∈ left) :
    (QueueThread.enqueue origin pc).Becomes w next := by
  have finished : ∀ result, next ∈ origin.finish result →
      (QueueThread.enqueue origin pc).Becomes w next := by
    intro result member
    cases origin with
    | retry => simp [Origin.finish] at member
    | caller =>
      obtain rfl := Multiset.mem_singleton.mp member
      exact .returned
    | redrive msg rest ok =>
      cases result <;> obtain rfl := Multiset.mem_singleton.mp member
      · exact .stops
      · exact .goesOn
  cases acts with
  | start | cancel | cancelUnmark =>
    obtain rfl := Multiset.mem_singleton.mp member
    exact .enqueuing nofun
  | mark msg now unlocked =>
    split at member
    · obtain rfl := Multiset.mem_singleton.mp member
      exact .enqueuing nofun
    · exact finished _ member
  | admission msg opened later =>
    split at member <;> obtain rfl := Multiset.mem_singleton.mp member <;> exact .enqueuing nofun
  | _ => exact finished _ member

private theorem DispatchPC.Acts.becomes {pc : DispatchPC F}
    (acts : pc.Acts cfg consumerCancels w w' left)
    (member : next ∈ left) : (QueueThread.dispatch pc).Becomes w next := by
  cases acts with
  | stop => simp at member
  | turn checked more =>
    generalize w.queue.popTurn w.clock w.manager = outcome at member
    obtain ⟨result, queue, manager⟩ := outcome
    cases result <;> obtain rfl := Multiset.mem_singleton.mp member <;> exact .dispatch
  | release msg failed unlocked =>
    rcases Multiset.mem_cons.mp member with rfl | timer
    · exact .dispatch
    · unfold retryTimers at timer
      split at timer
      · obtain rfl := Multiset.mem_singleton.mp timer
        exact .timer
      · simp at timer
  | _ =>
    obtain rfl := Multiset.mem_singleton.mp member
    exact .dispatch

theorem QueueThread.Acts.becomes (acts : thread.Acts cfg consumerCancels w w' left)
    (member : next ∈ left) : thread.Becomes w next := by
  cases acts with
  | enqueue acts => exact acts.becomes member
  | dispatch acts => exact acts.becomes member
  | ingress acts =>
    cases acts with
    | stop => simp at member
    | _ =>
      obtain rfl := Multiset.mem_singleton.mp member
      exact .ingress
  | giveUp => simp at member
  | _ =>
    obtain rfl := Multiset.mem_singleton.mp member
    constructor

omit [Float64 F] in
/-- Only a redrive goes on as one. -/
theorem QueueThread.Becomes.ofRedrive (becomes : thread.Becomes w next)
    (redrive : next.OfRedrive) : thread.OfRedrive := by
  cases becomes with
  | @enqueuing origin =>
    cases origin with
    | redrive => trivial
    | _ => exact redrive
  | goesOn | stops | redrive | redriveNext | redriven | putBack => trivial
  | _ => exact redrive

theorem ordered_of_reachable (reached : setting.soup.system.Reachable s) :
    Ordered setting.redrives s.world s.threads := by
  refine Soup.invariant ?_ ?_ ?_ ?_ reached
  · rintro w ⟨-, fresh⟩
    rw [fresh]
    exact ⟨Sorted.empty, by simp⟩
  · intro w threads thread held started
    refine ⟨held.sorted, fun other member redrive => ?_⟩
    rcases Multiset.mem_cons.mp member with rfl | member
    · cases started with
      | redrive limit allowed => exact allowed
      | _ => cases redrive
    · exact held.redriven other member redrive
  · intro w w' thread left rest held acts
    refine ⟨acts.sorted held.sorted, fun next member redrive => ?_⟩
    rcases Multiset.mem_add.mp member with there | member
    · exact held.redriven thread (Multiset.mem_cons_self ..) ((acts.becomes there).ofRedrive redrive)
    · exact held.redriven next (Multiset.mem_cons_of_mem member) redrive
  · intro w w' threads held passed
    rw [passed.same]
    exact ⟨held.sorted, held.redriven⟩

/-- The messages given up by an event. -/
def lostAt (cfg : MemoryQueueConfig) (s : QueueState F) :
    Soup.Event (QueueThread F) → Multiset (SQSMessage F)
  | .act thread => drops cfg s.world thread
  | .spawn _ | .env => 0

/-- An event of the queue as a move between all the tokens of two states. -/
structure StateFlow (setting : Setting F) (s t : QueueState F) (e : Soup.Event (QueueThread F))
    (move : Move F) (others : Multiset (Token F)) : Prop where
  before : tokens s.world s.threads = move.out + others
  after : tokens t.world t.threads = move.into setting.cfg.normalize + others
  allowed : Allowed setting s.world.books move t.world.books
  accepted : t.world.accepted = move.accepted + s.world.accepted
  lost : move.lost = lostAt setting.cfg.normalize s e

/-- **Every event of a run is a move.** -/
theorem step_told {s t : QueueState F} (reached : setting.soup.system.Reachable s)
    (step : setting.soup.system.Step s e t) :
    ∃ move others, StateFlow setting s t e move others ∧
      Told setting.cfg.normalize s.world t.world e move := by
  have ordered := ordered_of_reachable reached
  cases step with
  | spawn started =>
    cases started with
    | enqueue msg =>
      refine ⟨.offer msg, _, ⟨(zero_add _).symm, ?_, .offer .., (zero_add _).symm, rfl⟩,
        .silent rfl rfl rfl nofun⟩
      rw [tokens_cons, add_assoc, add_comm s.world.stock]
      rfl
    | _ =>
      exact ⟨.quiet, _, ⟨(zero_add _).symm, by simp [tokens, QueueThread.tokens, Move.into], .quiet,
        (zero_add _).symm, rfl⟩, .silent rfl rfl rfl nofun⟩
  | @act w w' thread left rest acts =>
    obtain ⟨move, others, flow, told⟩ :=
      acts.flow ordered.sorted (ordered.redriven _ (Multiset.mem_cons_self ..))
    refine ⟨move, others + rest.bind QueueThread.tokens,
      ⟨?_, ?_, flow.allowed, flow.accepted, flow.lost⟩, told⟩
    · rw [tokens_cons, flow.before, add_assoc]
    · rw [tokens_add, flow.after, add_assoc]
  | @env s w passed =>
    have same : tokens w s.threads = tokens s.world s.threads := by rw [passed.same]; rfl
    have kept : w.accepted = s.world.accepted := by rw [passed.same]; rfl
    have books : w.books = { s.world.books with manager := w.manager } := by rw [passed.same]; rfl
    have log : w.log = s.world.log := by rw [passed.same]
    have recent : w.queue.recent = s.world.queue.recent := by rw [passed.same]
    rcases passed.manager with unused | used
    · refine ⟨.quiet, _, ⟨(zero_add _).symm, ?_, ?_, ?_, rfl⟩, .silent log recent rfl nofun⟩
      · exact same.trans (zero_add _).symm
      · rw [books, unused]
        exact .quiet
      · exact kept.trans (zero_add _).symm
    · refine ⟨.others, _, ⟨(zero_add _).symm, ?_, ?_, ?_, rfl⟩, .silent log recent rfl nofun⟩
      · exact same.trans (zero_add _).symm
      · rw [books]
        exact .others used
      · exact kept.trans (zero_add _).symm

theorem step_flow (reached : setting.soup.system.Reachable s)
    (step : setting.soup.system.Step s e t) :
    ∃ move others, StateFlow setting s t e move others := by
  obtain ⟨move, others, flow, -⟩ := step_told reached step
  exact ⟨move, others, flow⟩

/-- What every move keeps, every reachable state has. -/
theorem flow_invariant {J : Books F → Multiset (Token F) → Prop}
    (initial : ∀ m, setting.given m → J ⟨∅, ∅, m⟩ 0)
    (keeps : ∀ b b' move others, J b (move.out + others) → Allowed setting b move b' →
      J b' (move.into setting.cfg.normalize + others)) (reached : setting.soup.system.Reachable s) :
    J s.world.books (tokens s.world s.threads) := by
  refine reached.invariant (P := fun s => J s.world.books (tokens s.world s.threads)) ?_ ?_
  · rintro ⟨w, threads⟩ ⟨⟨given, fresh⟩, none⟩
    subst none
    rw [fresh]
    exact initial _ given
  · intro s e t reached held step
    obtain ⟨move, others, flow⟩ := step_flow reached step
    rw [flow.after]
    exact keeps _ _ move others (flow.before ▸ held) flow.allowed

end QueueFlow

/-! ## One message on its way to a worker -/

section FirstAttempt

/-- One message a minute, one of them at a time. -/
def onceAMinute : Policy Rat where
  maxRunning := 1
  maxQueued := 1
  rateLimitPerMinute := 1
  maxConsecutiveErrors := 5
  breakerCooldown := 0
  tokenBudget := 0
  costBudget := 0

/-- A channel for one message; the other fields are left to their defaults. -/
def smallQueue : MemoryQueueConfig := ⟨1, 0, 0, 0, 0⟩

def firstMessage : SQSMessage Rat where
  tenantID := "a"
  taskID := "t"
  runID := "r"
  submittedAt := 0
  attempt := 1
  estimatedTokens := 0
  estimatedCost := 0

def sentWorld : QueueWorld Rat where
  queue := { ch := [firstMessage], inQueue := {"a#t#r"} }
  manager := ((Manager.newManager onceAMinute).tryEnqueue 1 1 "a" ⟨"a#t#r", 0, 0⟩).2
  clock := 1
  log := [.sent .caller firstMessage]

def pendingWorld : QueueWorld Rat :=
  { sentWorld with queue :=
      { pending := AList.insert "a" [firstMessage] ∅, tenantOrder := ["a"], inQueue := {"a#t#r"} } }

def handlingWorld : QueueWorld Rat :=
  { sentWorld with
    queue := { inFlight := {"a#t#r"} }
    manager := (sentWorld.manager.tryStartRun 1 "a").2
    log := [.dispatched firstMessage, .sent .caller firstMessage] }

variable (setting : Setting Rat)

section Fresh

variable (fresh : setting.given (.newManager onceAMinute))

include fresh

/-- `Enqueue` puts the message on the channel. -/
theorem sent_reached (met : ∀ s e,
      lostAt smallQueue.normalize s e = 0 → (∀ pc, e ≠ .spawn (.ingress pc)) → ok s e) :
    { setting with cfg := smallQueue }.soup.ReachedWithin ok
      ⟨sentWorld, .returned (.ok ()) ::ₘ 0⟩ := by
  have start : { setting with cfg := smallQueue }.soup.ReachedWithin ok
      ⟨{ manager := .newManager onceAMinute, clock := 1 }, 0⟩ := .start ⟨fresh, rfl⟩
  have called := start.spawn (.enqueue firstMessage) (met _ _ rfl nofun)
  have prepared := called.turns (.enqueue .caller (.mark firstMessage 1)) (.enqueue (.start _))
    (met _ _ rfl nofun)
  have marked := prepared.turns (.enqueue .caller (.admission firstMessage))
    (.enqueue (.mark _ _ rfl)) (met _ _ rfl nofun)
  have admitted := marked.turns (.enqueue .caller (.send firstMessage))
    (.enqueue (.admission _ 1 (le_refl _))) (met _ _ rfl nofun)
  exact admitted.turns (.returned (.ok ())) (.enqueue (.send _ Int.zero_lt_one)) (met _ _ rfl nofun)

/-- `ingressLoop` adds it to the pending ones. -/
theorem pending_reached (met : ∀ s e, lostAt smallQueue.normalize s e = 0 → ok s e) :
    { setting with cfg := smallQueue }.soup.ReachedWithin ok
      ⟨pendingWorld, .ingress .waiting ::ₘ .returned (.ok ()) ::ₘ 0⟩ := by
  have begun := (sent_reached setting fresh fun s e kept _ => met s e kept).spawn .ingress
    (met _ _ rfl)
  have received := begun.turns (.ingress (.received firstMessage)) (.ingress (.receive rfl))
    (met _ _ rfl)
  have added := received.turns (.ingress .draining) (.ingress (.lock _ rfl)) (met _ _ rfl)
  exact added.turns (.ingress .waiting) (.ingress (.drained rfl)) (met _ _ rfl)

/-- A worker is given it. -/
theorem handling_reached (met : ∀ s e, lostAt smallQueue.normalize s e = 0 → ok s e) :
    { setting with cfg := smallQueue }.soup.ReachedWithin ok
      ⟨handlingWorld, .dispatch (.handling firstMessage) ::ₘ .ingress .waiting ::ₘ
        .returned (.ok ()) ::ₘ 0⟩ := by
  have begun := (pending_reached setting fresh met).spawn .dispatch (met _ _ rfl)
  have locked := begun.turns (.dispatch (.popping 0)) (.dispatch (.lock rfl)) (met _ _ rfl)
  exact locked.turns (.dispatch (.handling firstMessage)) (.dispatch (.turn _ Nat.zero_lt_one))
    (met _ _ rfl)

theorem handling_reachable : { setting with cfg := smallQueue }.soup.system.Reachable
      ⟨handlingWorld, .dispatch (.handling firstMessage) ::ₘ .ingress .waiting ::ₘ
        .returned (.ok ()) ::ₘ 0⟩ :=
  (handling_reached setting fresh (by exact fun _ _ lost => lost)).reachable

end Fresh

end FirstAttempt

end AgentForge
