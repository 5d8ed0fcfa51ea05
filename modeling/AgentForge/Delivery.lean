import AgentForge.QueueFlow

/-! What becomes of a message that a `MemoryQueue` has accepted. Every message stands at
one stage, so it is lost exactly when it leaves the flow: a retry goes through `Enqueue`
like any other message, and what `Enqueue` turns away is gone. -/
namespace AgentForge

open Transition

section Delivery

variable {F : Type}

/-- Where an accepted message may be. -/
inductive Place where
  | channel | pending | inFlight | retrying | deadLetters | completed
  deriving DecidableEq, Repr

/-- The place of a stage. A retry that was refused, or whose context is done, only has
its mark to take back: nothing will put its message on the channel any more. -/
def Stage.place : Stage → Option Place
  | .channel | .received => some .channel
  | .pending => some .pending
  | .handling | .finishing => some .inFlight
  | .timer | .offered true | .prepared true | .admitting true | .sending true => some .retrying
  | .dead => some .deadLetters
  | .done => some .completed
  | .offered false | .prepared false | .admitting false | .sending false | .refused _
  | .cancelling _ | .withdrawn _ => none

/-- A message apart from the number of the attempt. -/
def content (msg : SQSMessage F) : SQSMessage F :=
  { msg with attempt := 0, tenantID := normalizeTenant msg.tenantID }

def messagesAt (place : Place) (all : Multiset (Token F)) : Multiset (SQSMessage F) :=
  (all.filter fun token => token.1.place = some place).map fun token => content token.2

/-- Each accepted message is in one of the places, and each as often as it was accepted. -/
def Conserved (s : QueueState F) : Prop :=
  messagesAt .channel (tokens s.world s.threads) + messagesAt .pending (tokens s.world s.threads) +
      messagesAt .inFlight (tokens s.world s.threads) +
      messagesAt .retrying (tokens s.world s.threads) +
      messagesAt .deadLetters (tokens s.world s.threads) +
      messagesAt .completed (tokens s.world s.threads) =
    s.world.accepted.map content

/-! ## The account -/

/-- All messages that are in some place. -/
def placed (all : Multiset (Token F)) : Multiset (SQSMessage F) :=
  (all.filter fun token => token.1.place.isSome).map fun token => content token.2

section Placed

private theorem placed_cons : placed ((stage, msg) ::ₘ all) =
    if stage.place.isSome = true then content msg ::ₘ placed all else placed all := by
  split_ifs with there <;> simp [placed, there]

private theorem messagesAt_cons : messagesAt place ((stage, msg) ::ₘ all) =
    if stage.place = some place then content msg ::ₘ messagesAt place all
    else messagesAt place all := by
  split_ifs with there <;> simp [messagesAt, there]

/-- A message in some place is in one place. -/
theorem placed_eq_sum (all : Multiset (Token F)) :
    messagesAt .channel all + messagesAt .pending all + messagesAt .inFlight all +
      messagesAt .retrying all + messagesAt .deadLetters all + messagesAt .completed all =
    placed all := by
  induction all using Multiset.induction with
  | empty => rfl
  | cons token all ih =>
    obtain ⟨stage, msg⟩ := token
    simp only [messagesAt_cons, placed_cons, ← ih]
    cases stage.place with
    | none => simp
    | some place => cases place <;> simp

end Placed

private theorem content_prepare (msg : SQSMessage F) :
    content (prepareMessage msg) = content msg := by
  unfold content prepareMessage
  dsimp only
  by_cases empty : msg.tenantID = "" <;> simp [normalizeTenant, empty]

variable [Float64 F] {setting : Setting F}

/-- What a move accepts it puts in a place, and what leaves the places is lost. -/
theorem placed_move (others : Multiset (Token F)) (uncancelled : ¬ setting.consumerCancels)
    (undriven : ¬ setting.redrives) (allowed : Allowed setting b move b') :
    move.lost.map content + placed (move.into setting.cfg.normalize + others) =
      move.accepted.map content + placed (move.out + others) := by
  cases allowed with
  | @cancel retry msg done =>
    cases retry with
    | true => exact absurd (done rfl) uncancelled
    | false => simp [Move.out, Move.into, Move.lost, Move.accepted, placed_cons, Stage.place]
  | giveUp msg done => exact absurd done uncancelled
  | redrive batch allowed | putBack msg allowed => exact absurd allowed undriven
  | release msg failed =>
    have somewhere : placed (released setting.cfg.normalize msg failed ::ₘ others) =
        content msg ::ₘ placed others := by
      unfold released
      split_ifs <;> exact placed_cons
    simp [Move.out, Move.into, Move.lost, Move.accepted, placed_cons, Stage.place, somewhere]
  | prepare retry | mark retry | duplicate retry | admission retry | refuse retry | unmark retry
  | send retry | cancelUnmark retry | cancelManager retry =>
    cases retry <;>
      simp [Move.out, Move.into, Move.lost, Move.accepted, placed_cons, Stage.place,
        content_prepare]
  | _ => simp [Move.out, Move.into, Move.lost, Move.accepted, placed_cons, Stage.place]

/-- A step keeps the account exactly if nothing is lost in it. -/
theorem conserved_step (uncancelled : ¬ setting.consumerCancels) (undriven : ¬ setting.redrives)
    (reached : setting.soup.system.Reachable s) (held : Conserved s)
    (step : setting.soup.system.Step s e t) :
    Conserved t ↔ lostAt setting.cfg.normalize s e = 0 := by
  obtain ⟨move, others, flow⟩ := step_flow reached step
  have account := placed_move others uncancelled undriven flow.allowed
  unfold Conserved at held ⊢
  rw [placed_eq_sum] at held ⊢
  rw [flow.lost, ← flow.after, ← flow.before, held, ← Multiset.map_add, ← flow.accepted] at account
  constructor
  · intro kept
    rw [kept, add_eq_right] at account
    exact Multiset.map_eq_zero.mp account
  · intro none
    rwa [none, Multiset.map_zero, zero_add] at account

/-! ## No message is lost -/

/-- A retry finds its key neither queued, in flight nor remembered, and the manager
admits it. -/
def RetryAccepted (cfg : MemoryQueueConfig) (s : QueueState F) : Soup.Event (QueueThread F) → Prop
  | .act (.enqueue .retry (.mark msg now)) =>
    (s.world.queue.pruneRecent cfg now).duplicate cfg now (messageKey msg) = false
  | .act (.enqueue .retry (.admission msg)) =>
    (s.world.manager.tryEnqueue s.world.clock s.world.clock msg.tenantID (admissionInfo msg)).1 =
      .ok ()
  | _ => True

private theorem lostAt_eq_zero_iff {s : QueueState F} :
    lostAt cfg s e = 0 ↔ RetryAccepted cfg s e := by
  cases e with
  | spawn | env => simp [lostAt, RetryAccepted]
  | act thread =>
    cases thread with
    | enqueue origin pc =>
      cases origin with
      | retry =>
        cases pc with
        | mark msg now =>
          simp only [lostAt, drops, RetryAccepted, MemoryQueue.mark]
          by_cases found : (s.world.queue.pruneRecent cfg now).duplicate cfg now (messageKey msg) <;>
            simp [found]
        | admission msg =>
          simp only [lostAt, drops, RetryAccepted]
          cases (s.world.manager.tryEnqueue s.world.clock s.world.clock msg.tenantID
            (admissionInfo msg)).1 <;> simp
        | _ => simp [lostAt, drops, RetryAccepted]
      | _ => simp [lostAt, drops, RetryAccepted]
    | _ => simp [lostAt, drops, RetryAccepted]

omit [Float64 F] in
/-- A message accepted once is then in exactly one place. -/
theorem Conserved.one_place (held : Conserved s)
    (accepted : s.world.accepted.map content = msg ::ₘ others) (once : msg ∉ others) :
    ∃! place, msg ∈ messagesAt place (tokens s.world s.threads) := by
  classical
  have counts := congrArg (Multiset.count msg) (held.trans accepted)
  simp only [Multiset.count_add, Multiset.count_cons_self, Multiset.count_eq_zero_of_notMem once]
    at counts
  have somewhere : msg ∈ placed (tokens s.world s.threads) := by
    rw [← placed_eq_sum, held, accepted]
    exact Multiset.mem_cons_self ..
  obtain ⟨⟨stage, msg'⟩, member, rfl⟩ := Multiset.mem_map.mp somewhere
  obtain ⟨there, isSome⟩ := Multiset.mem_filter.mp member
  obtain ⟨place, found⟩ := Option.isSome_iff_exists.mp isSome
  have inPlace : content msg' ∈ messagesAt place (tokens s.world s.threads) :=
    Multiset.mem_map.mpr ⟨_, Multiset.mem_filter.mpr ⟨there, found⟩, rfl⟩
  refine ⟨place, inPlace, fun other inOther => ?_⟩
  have one := Multiset.count_pos.mpr inPlace
  have two := Multiset.count_pos.mpr inOther
  dsimp only at counts two
  cases place <;> cases other <;> first | rfl | (exfalso; omega)

/-- **No accepted message is lost, unless a retry is turned away.** In a run in which no
consumer stops and no dead letter is redriven, the accepted messages are at all times in
their places, if and only if `Enqueue` takes every retry: none finds its key queued, in
flight or remembered, and none is refused by the manager. A message accepted once is then
in exactly one place. -/
theorem accepted_messages_conserved_iff
    {history : List (QueueState F × Soup.Event (QueueThread F))} {s : QueueState F}
    (uncancelled : ¬ setting.consumerCancels) (undriven : ¬ setting.redrives)
    (path : setting.soup.system.Path history s) :
    (System.Throughout Conserved history s ↔
      System.Within (RetryAccepted setting.cfg.normalize) history) ∧
      (Conserved s → ∀ msg others, s.world.accepted.map content = msg ::ₘ others →
        msg ∉ others → ∃! place, msg ∈ messagesAt place (tokens s.world s.threads)) := by
  refine ⟨System.Path.throughout_iff_within ?_ ?_ path,
    fun held msg others accepted once => held.one_place accepted once⟩
  · rintro ⟨w, threads⟩ ⟨⟨-, fresh⟩, none⟩
    obtain rfl : threads = 0 := none
    have new : w = { manager := w.manager, clock := w.clock } := fresh
    rw [new]
    rfl
  · intro s e t reached held step
    rw [conserved_step uncancelled undriven reached held step, lostAt_eq_zero_iff]

/-! ## A message that fails once -/

section Retry

/-- The retry of `firstMessage`. -/
def secondMessage : SQSMessage Rat := retryMessage firstMessage

def failedWorld : QueueWorld Rat :=
  { handlingWorld with
    queue := {}
    manager := handlingWorld.manager.completeRun 1 "a"
      (completionInfo smallQueue.normalize firstMessage true)
    log := .finished firstMessage true :: handlingWorld.log }

variable (setting : Setting Rat)

/-- The first attempt fails, and a timer waits 250 ms. -/
theorem failed_reached (fresh : setting.given (.newManager onceAMinute))
    (met : ∀ s e, lostAt smallQueue.normalize s e = 0 → ok s e) :
    { setting with cfg := smallQueue }.soup.ReachedWithin ok
      ⟨failedWorld, .retryTimer secondMessage 250000001 ::ₘ .dispatch .idle ::ₘ
        .ingress .waiting ::ₘ .returned (.ok ()) ::ₘ 0⟩ := by
  have completed := (handling_reached setting fresh met).turns
    (.dispatch (.releasing firstMessage true)) (.dispatch (.complete _ true)) (met _ _ rfl)
  have released : { setting with cfg := smallQueue }.soup.ReachedWithin ok
      ⟨failedWorld, .dispatch .idle ::ₘ .retryTimer secondMessage 250000001 ::ₘ
        .ingress .waiting ::ₘ .returned (.ok ()) ::ₘ 0⟩ :=
    completed.act (.dispatch (.release _ _ rfl)) (met _ _ rfl)
  exact released.swap

/-- The timer fires at some time, and the retry's key is marked. -/
theorem retry_reached (fresh : setting.given (.newManager onceAMinute))
    (met : ∀ s e, lostAt smallQueue.normalize s e = 0 → ok s e) (later : Time)
    (elapsed : 250000001 ≤ later) :
    { setting with cfg := smallQueue }.soup.ReachedWithin ok
      ⟨{ failedWorld with queue := { inQueue := {"a#t#r"} }, clock := later },
        .enqueue .retry (.admission secondMessage) ::ₘ .dispatch .idle ::ₘ .ingress .waiting ::ₘ
          .returned (.ok ()) ::ₘ 0⟩ := by
  have waited : { setting with cfg := smallQueue }.soup.ReachedWithin ok
      ⟨{ failedWorld with clock := later }, _⟩ :=
    (failed_reached setting fresh met).env ⟨.inl rfl, le_trans (by decide) elapsed, rfl⟩
      (met _ _ rfl)
  have fired := waited.turns (.enqueue .retry (.start secondMessage)) (.fire _ _ elapsed)
    (met _ _ rfl)
  have prepared := fired.turns (.enqueue .retry (.mark secondMessage later))
    (.enqueue (.start _)) (met _ _ rfl)
  exact prepared.turns (.enqueue .retry (.admission secondMessage)) (.enqueue (.mark _ _ rfl))
    (met _ _ rfl)

/-- A queue of its own, with a consumer that never stops. -/
def steadySetting : Setting Rat :=
  ⟨smallQueue, (· = .newManager onceAMinute), False, False, fun _ _ => False⟩

/-- A retry after more than a minute is admitted and sent, and the message is kept. -/
theorem message_conserved_late_retry : ∃ history s,
    steadySetting.soup.system.Path history s ∧
      messagesAt .channel (tokens s.world s.threads) = {content firstMessage} ∧
      System.Throughout Conserved history s := by
  have marked := retry_reached steadySetting rfl
    (by exact fun s e => lostAt_eq_zero_iff.mp) 61000000001 (by decide)
  have admitted := marked.turns (.enqueue .retry (.send secondMessage))
    (.enqueue (.admission _ 61000000001 (le_refl _))) rfl
  have sent := admitted.act (.enqueue (.send _ Int.zero_lt_one)) trivial
  obtain ⟨history, path, within⟩ := sent
  exact ⟨history, _, path, rfl, (accepted_messages_conserved_iff id id path).1.mpr within⟩

/-- A retry within the same minute is refused by the rate limit, and the message is
nowhere any more: not in the queue, not dead-lettered, and with no goroutine. -/
theorem message_lost_early_retry : ∃ s, steadySetting.soup.system.Reachable s ∧
    s.world.accepted = {firstMessage} ∧ tokens s.world s.threads = 0 ∧ ¬ Conserved s := by
  have marked : steadySetting.soup.ReachedWithin (fun _ _ => True) _ :=
    retry_reached steadySetting rfl (fun _ _ _ => trivial) 250000001 (le_refl _)
  have refused := marked.turns (.enqueue .retry (.unmark secondMessage .rateLimit))
    (.enqueue (.admission _ 250000001 (le_refl _))) trivial
  have returned := refused.act (.enqueue (.unmark _ _ rfl)) trivial
  refine ⟨_, returned.reachable, rfl, rfl, fun kept => ?_⟩
  have none : (0 : Multiset (SQSMessage Rat)) = {content firstMessage} := kept
  exact Multiset.zero_ne_singleton _ none

end Retry

end Delivery

end AgentForge
