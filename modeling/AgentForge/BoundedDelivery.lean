import AgentForge.LiveMessages
import AgentForge.Reenqueue

/-! How often a message comes to a handler. A message that is enqueued once makes one trip: it is
at one stage at a time, a failed attempt below the limit sends it round again with the next
number, and anything else ends the trip. The numbers of the attempts that were dispatched are
therefore consecutive, and the last of them is not beyond the limit unless it is also the
first. -/
namespace AgentForge

open Transition

section BoundedDelivery

variable {F : Type}

/-! ## What the log tells of a key -/

/-- The attempts of a key that were given to the handler, in their order. -/
def handled (key : String) (log : List (LogEntry F)) : List Int :=
  log.reverse.filterMap fun
    | .dispatched msg => if messageKey msg = key then some msg.attempt else none
    | _ => none

/-- The messages of a key whose attempt failed with no attempt left, in their order. -/
def finalFailures (cfg : MemoryQueueConfig) (key : String) (log : List (LogEntry F)) :
    List (SQSMessage F) :=
  log.reverse.filterMap fun
    | .finished msg failed =>
      if messageKey msg = key ∧ failed = true ∧ cfg.maxAttempts ≤ msg.attempt then some msg else none
    | _ => none

/-- What a move adds to the attempts given to the handler. -/
def Move.handles (key : String) : Move F → List Int
  | .pop msg => if messageKey msg = key then [msg.attempt] else []
  | _ => []

/-- What a move adds to the final failures. -/
def Move.fails (cfg : MemoryQueueConfig) (key : String) : Move F → List (SQSMessage F)
  | .release msg failed =>
    if messageKey msg = key ∧ failed = true ∧ cfg.maxAttempts ≤ msg.attempt then [msg] else []
  | _ => []

section Told

private theorem Told.handled (told : Told cfg w w' e move) (key : String) :
    AgentForge.handled key w'.log = AgentForge.handled key w.log ++ move.handles key := by
  obtain ⟨entries, log, tells⟩ := told.log
  rw [log, AgentForge.handled, List.reverse_append, List.filterMap_append]
  refine congrArg _ ?_
  cases tells with
  | pop msg =>
    rw [Move.handles]
    by_cases own : messageKey msg = key <;> simp [own]
  | send | release => rfl
  | silent silent =>
    cases move with
    | send | pop | release => cases silent
    | _ => rfl

private theorem Told.finalFailures (told : Told cfg w w' e move) (key : String) :
    AgentForge.finalFailures cfg key w'.log =
      AgentForge.finalFailures cfg key w.log ++ move.fails cfg key := by
  obtain ⟨entries, log, tells⟩ := told.log
  rw [log, AgentForge.finalFailures, List.reverse_append, List.filterMap_append]
  refine congrArg _ ?_
  cases tells with
  | release msg failed =>
    rw [Move.fails]
    split_ifs with final <;> simp [final]
  | send | pop => rfl
  | silent silent =>
    cases move with
    | send | pop | release => cases silent
    | _ => rfl

end Told

/-! ## Messages on their way -/

/-- Neither dead nor done. -/
def Stage.travels : Stage → Bool
  | .dead | .done => false
  | _ => true

/-- The stages and attempts of the messages of a key that are on their way. -/
def travelling (key : String) (all : Multiset (Token F)) : Multiset (Stage × Int) :=
  all.filterMap fun token =>
    if messageKey token.2 = key ∧ token.1.travels = true then some (token.1, token.2.attempt)
    else none

section Travelling

private theorem travelling_in (own : messageKey msg = key) (travels : stage.travels = true) :
    travelling key ({(stage, msg)} + all) = (stage, msg.attempt) ::ₘ travelling key all := by
  rw [travelling, Multiset.singleton_add]
  exact Multiset.filterMap_cons_some _ _ _ (if_pos ⟨own, travels⟩)

private theorem travelling_of_ne (other : messageKey msg ≠ key) :
    travelling key ({(stage, msg)} + all) = travelling key all := by
  rw [travelling, Multiset.singleton_add]
  exact Multiset.filterMap_cons_none _ _ (if_neg fun both => other both.1)

private theorem travelling_over (halted : stage.travels = false) :
    travelling key ({(stage, msg)} + all) = travelling key all := by
  rw [travelling, Multiset.singleton_add]
  exact Multiset.filterMap_cons_none _ _ (by simp [halted])

private theorem travelling_dead (batch : Multiset (SQSMessage F)) :
    travelling key (batch.map (Prod.mk .dead) + all) = travelling key all := by
  induction batch using Multiset.induction with
  | empty => rw [Multiset.map_zero, zero_add]
  | cons msg batch ih =>
    rw [Multiset.map_cons, ← Multiset.singleton_add, add_assoc, travelling_over rfl, ih]

end Travelling

/-! ## The trip of a message -/

/-- So many attempts in a row. -/
def attemptsFrom (first : Int) (count : Nat) : List Int :=
  (List.range count).map fun i : Nat => first + (i : Int)

private theorem attemptsFrom_succ (first : Int) (count : Nat) :
    attemptsFrom first (count + 1) = attemptsFrom first count ++ [first + count] := by
  simp [attemptsFrom, List.range_succ]

private theorem length_attemptsFrom (first : Int) (count : Nat) :
    (attemptsFrom first count).length = count := by
  simp [attemptsFrom]

private theorem attemptsFrom_increasing (first : Int) (count : Nat) :
    (attemptsFrom first count).Pairwise (· < ·) := by
  refine List.Pairwise.map _ (fun i j less => ?_) List.pairwise_lt_range
  omega

/-- How often a message may be given to the handler that begins with this attempt. -/
def mostCalls (limit first : Int) : Int := max 1 (limit - first + 1)

/-- The trip of a key: the attempts its callers began with, where it is, the attempts given to
the handler and the number of final failures. -/
inductive Trip (limit : Int) : List Int → Multiset (Stage × Int) → List Int → Nat → Prop where
  | untouched : Trip limit [] 0 [] 0
  | waiting (first : Int) (count : Nat) {stage : Stage} (ungiven : stage.inFlight = false)
      (room : count + 1 ≤ mostCalls limit first) :
      Trip limit [first] {(stage, first + count)} (attemptsFrom first count) 0
  | given (first : Int) (count : Nat) {stage : Stage} (given : stage.inFlight = true)
      (room : count + 1 ≤ mostCalls limit first) :
      Trip limit [first] {(stage, first + count)} (attemptsFrom first (count + 1)) 0
  | halted (first : Int) (count : Nat) {failures : Nat} (room : count ≤ mostCalls limit first)
      (once : failures ≤ 1) : Trip limit [first] 0 (attemptsFrom first count) failures

namespace Trip

section Travels

variable (trip : Trip limit calls ((stage, attempt) ::ₘ rest) before failures)

include trip

/-- A message on its way is the only one of its key. -/
theorem only :
    rest = 0 ∧ failures = 0 ∧ ∃ first count, calls = [first] ∧ attempt = first + (count : Nat) ∧
      count + 1 ≤ mostCalls limit first ∧
      before = attemptsFrom first (if stage.inFlight then count + 1 else count) := by
  generalize same : (stage, attempt) ::ₘ rest = all at trip
  cases trip with
  | untouched | halted => exact absurd same Multiset.cons_ne_zero
  | waiting first count ungiven room =>
    obtain ⟨token, rfl⟩ := (Multiset.singleton_eq_cons_iff _).mp same.symm
    cases token
    exact ⟨rfl, rfl, first, count, rfl, rfl, room, by rw [ungiven]; rfl⟩
  | given first count given room =>
    obtain ⟨token, rfl⟩ := (Multiset.singleton_eq_cons_iff _).mp same.symm
    cases token
    exact ⟨rfl, rfl, first, count, rfl, rfl, room, by rw [given]; rfl⟩

/-- It goes on with the same attempt, still before or still after its dispatch. -/
theorem goesOn (same : stage'.inFlight = stage.inFlight) :
    Trip limit calls ((stage', attempt) ::ₘ rest) before failures := by
  obtain ⟨rfl, rfl, first, count, rfl, rfl, room, rfl⟩ := trip.only
  cases flying : stage.inFlight with
  | false => exact .waiting first count (same.trans flying) room
  | true => exact .given first count (same.trans flying) room

/-- It is dispatched. -/
theorem dispatch (ungiven : stage.inFlight = false) (given : stage'.inFlight = true) :
    Trip limit calls ((stage', attempt) ::ₘ rest) (before ++ [attempt]) failures := by
  obtain ⟨rfl, rfl, first, count, rfl, rfl, room, rfl⟩ := trip.only
  rw [ungiven, if_neg Bool.false_ne_true, ← attemptsFrom_succ]
  exact .given first count given room

/-- Its attempt fails, and there is another. -/
theorem again
    (given : stage.inFlight = true) (ungiven : stage'.inFlight = false) (more : attempt < limit) :
    Trip limit calls ((stage', attempt + 1) ::ₘ rest) before failures := by
  obtain ⟨rfl, rfl, first, count, rfl, rfl, room, rfl⟩ := trip.only
  rw [given, if_pos rfl, add_assoc]
  refine .waiting first (count + 1) ungiven ?_
  unfold mostCalls
  push_cast
  omega

/-- It is on its way no more. -/
theorem ends (once : last ≤ 1) : Trip limit calls rest before (failures + last) := by
  obtain ⟨rfl, rfl, first, count, rfl, rfl, room, rfl⟩ := trip.only
  rw [zero_add]
  refine .halted first _ ?_ once
  split_ifs
  · exact room
  · omega

end Travels

private theorem bounds (trip : Trip limit [first] all before failures) :
    ∃ count : Nat, count ≤ mostCalls limit first ∧ before = attemptsFrom first count ∧
      Multiset.card all ≤ 1 ∧ failures ≤ 1 := by
  cases trip with
  | waiting _ count _ room => exact ⟨count, by omega, rfl, Nat.le_refl 1, Nat.zero_le 1⟩
  | given _ count _ room => exact ⟨count + 1, room, rfl, Nat.le_refl 1, Nat.zero_le 1⟩
  | halted _ count room once => exact ⟨count, room, rfl, Nat.zero_le 1, once⟩

end Trip

section Moves

private theorem Trip.relay
    (trip : Trip limit calls (travelling key ({(stage, msg)} + others)) before failures)
    (sameKey : messageKey msg' = messageKey msg)
    (sameAttempt : messageKey msg = key → msg'.attempt = msg.attempt)
    (travels : stage.travels = true) (travels' : stage'.travels = true)
    (same : stage'.inFlight = stage.inFlight) :
    Trip limit calls (travelling key ({(stage', msg')} + others)) before failures := by
  by_cases own : messageKey msg = key
  · rw [travelling_in own travels] at trip
    rw [travelling_in (sameKey.trans own) travels', sameAttempt own]
    exact trip.goesOn same
  · rw [travelling_of_ne own] at trip
    rwa [travelling_of_ne (sameKey ▸ own)]

private theorem Trip.leave
    (trip : Trip limit calls (travelling key ({(stage, msg)} + others)) before failures)
    (travels : stage.travels = true) :
    Trip limit calls (travelling key others) before failures := by
  by_cases own : messageKey msg = key
  · rw [travelling_in own travels] at trip
    exact trip.ends (Nat.zero_le 1)
  · rwa [travelling_of_ne own] at trip

private theorem Trip.popped
    (trip : Trip limit calls (travelling key ({(.pending, msg)} + others)) before failures) :
    Trip limit calls (travelling key ({(.handling, msg)} + others))
      (before ++ (Move.pop msg).handles key) failures := by
  rw [Move.handles]
  split_ifs with own
  · rw [travelling_in own rfl] at trip ⊢
    exact trip.dispatch rfl rfl
  · rw [travelling_of_ne own] at trip ⊢
    rwa [List.append_nil]

private theorem Trip.released
    (trip : Trip cfg.maxAttempts calls (travelling key ({(.finishing, msg)} + others)) before
      failures) :
    Trip cfg.maxAttempts calls (travelling key ({released cfg msg failed} + others)) before
      (failures + ((Move.release msg failed).fails cfg key).length) := by
  by_cases own : messageKey msg = key
  · rw [travelling_in own rfl] at trip
    rw [AgentForge.released, Move.fails]
    split_ifs with didFail final counts counts counts
    · rw [travelling_over rfl]
      exact trip.ends (Nat.le_refl 1)
    · rw [travelling_over rfl]
      exact trip.ends (Nat.zero_le 1)
    · exact absurd counts.2.2 (by simpa [isFinalFailure, didFail] using final)
    · have next : messageKey (retryMessage msg) = key := own
      have more : msg.attempt < cfg.maxAttempts := by simpa [isFinalFailure, didFail] using final
      rw [travelling_in next rfl]
      exact trip.again rfl rfl more
    · exact absurd counts.2.1 didFail
    · rw [travelling_over rfl]
      exact trip.ends (Nat.zero_le 1)
  · have next : messageKey (retryMessage msg) ≠ key := own
    have left : travelling key ({AgentForge.released cfg msg failed} + others) =
        travelling key others := by
      unfold AgentForge.released
      split_ifs
      · exact travelling_of_ne own
      · exact travelling_of_ne next
      · exact travelling_of_ne own
    rw [travelling_of_ne own] at trip
    rw [left, Move.fails, if_neg fun all => own all.1]
    exact trip

variable [Float64 F]

/-- Every move keeps the trip of a key, except that of another call with it. -/
theorem Trip.move {move : Move F}
    (trip : Trip setting.cfg.normalize.maxAttempts calls (travelling key (move.out + others)) before
      failures) (numbered : ∀ first ∈ calls, 1 ≤ first)
    (uncalled : ∀ msg, move = .offer msg → messageKey msg ≠ key)
    (allowed : Allowed setting b move b') :
    Trip setting.cfg.normalize.maxAttempts calls
      (travelling key (move.into setting.cfg.normalize + others)) (before ++ move.handles key)
      (failures + (move.fails setting.cfg.normalize key).length) := by
  have still : ∀ {all}, Trip setting.cfg.normalize.maxAttempts calls all before failures →
      Trip setting.cfg.normalize.maxAttempts calls all (before ++ []) (failures + 0) := by
    intro all trip
    rwa [List.append_nil]
  cases allowed with
  | quiet | passBy | deadLetter | others => exact still trip
  | offer msg =>
    rw [Move.out, zero_add] at trip
    rw [Move.into, travelling_of_ne (uncalled msg rfl)]
    exact still trip
  | putBack =>
    rw [Move.out, zero_add] at trip
    rw [Move.into, travelling_over rfl]
    exact still trip
  | redrive batch =>
    rw [Move.out, travelling_dead] at trip
    rw [Move.into, zero_add]
    exact still trip
  | prepare retry msg =>
    refine still (trip.relay (messageKey_prepareMessage msg) (fun own => ?_) rfl rfl rfl)
    rw [Move.out, travelling_in own rfl] at trip
    obtain ⟨-, -, first, count, rfl, same, -⟩ := trip.only
    have positive := numbered first (List.mem_singleton_self _)
    exact prepareMessage_attempt (by omega)
  | mark | admission | refuse | send | cancel | cancelUnmark | receive | add | drain | complete
  | fire =>
    exact still (trip.relay rfl (fun _ => rfl) rfl rfl rfl)
  | duplicate | unmark | cancelManager | giveUp =>
    rw [Move.into, zero_add]
    exact still (trip.leave rfl)
  | pop => exact trip.popped
  | release msg failed =>
    have none : (Move.release msg failed).handles key = [] := rfl
    rw [none, List.append_nil]
    exact trip.released

end Moves

/-! ## Calls and redrives -/

/-- The message that a caller gives to `Enqueue`, if it has this key. -/
def callOf (key : String) : Soup.Event (QueueThread F) → List (SQSMessage F)
  | .spawn (.enqueue .caller (.start msg)) => if messageKey msg = key then [msg] else []
  | _ => []

/-- All that callers have given to `Enqueue` with this key. -/
def enqueued (key : String) (history : List (QueueState F × Soup.Event (QueueThread F))) :
    List (SQSMessage F) :=
  history.flatMap fun past => callOf key past.2

/-- No redrive takes a message with this key. -/
def NotRedriven (key : String) (s : QueueState F) : Soup.Event (QueueThread F) → Prop
  | .act (.redrive limit) =>
    ∀ msg ∈ (s.world.queue.takeDeadLetters limit).1, messageKey msg ≠ key
  | _ => True

/-- The messages a redrive has in hand. -/
def QueueThread.redrives : QueueThread F → List (SQSMessage F)
  | .redriving batch _ => batch
  | .enqueue (.redrive msg rest _) _ => msg :: rest
  | .putBack msg _ _ => [msg]
  | _ => []

section Redrives

variable {cfg : MemoryQueueConfig} {consumerCancels : Prop} {w w' : QueueWorld F}
  {thread next : QueueThread F} {left : Multiset (QueueThread F)} {origin : Origin F}
  {msg : SQSMessage F} {key : String}

/-- What a redrive has in hand it had before, apart from the number of the attempt, or has just
taken from the dead letters. -/
theorem QueueThread.Becomes.redrives (becomes : thread.Becomes w next)
    (held : msg ∈ next.redrives) :
    (∃ before ∈ thread.redrives, messageKey before = messageKey msg) ∨
      ∃ limit, thread = .redrive limit ∧ msg ∈ (w.queue.takeDeadLetters limit).1 := by
  cases becomes with
  | @enqueuing origin => exact .inl ⟨msg, by cases origin <;> exact held, rfl⟩
  | goesOn => exact .inl ⟨msg, List.mem_cons_of_mem _ held, rfl⟩
  | stops =>
    obtain rfl := List.mem_singleton.mp held
    exact .inl ⟨msg, List.mem_cons_self .., rfl⟩
  | redrive => exact .inr ⟨_, rfl, held⟩
  | redriveNext =>
    rcases List.mem_cons.mp held with rfl | held
    · exact .inl ⟨_, List.mem_cons_self .., rfl⟩
    · exact .inl ⟨msg, List.mem_cons_of_mem _ held, rfl⟩
  | _ => cases held

/-- Only a caller or a redrive begins an `Enqueue` that is not a retry. -/
theorem QueueThread.Becomes.begins (becomes : thread.Becomes w (.enqueue origin (.start msg))) :
    origin.isRetry = true ∨ ∃ first rest ok, thread = .redriving (first :: rest) ok ∧
      msg = redriveMessage first := by
  cases becomes with
  | enqueuing begun => exact absurd rfl (begun msg)
  | fire => exact .inl rfl
  | redriveNext => exact .inr ⟨_, _, _, rfl, rfl⟩

/-- The dead letters with this key. -/
def deadLetters (key : String) (w : QueueWorld F) : List (SQSMessage F) :=
  w.queue.dlq.filter fun msg => messageKey msg = key

private theorem begun_of_offered (offered : (.offered false, msg) ∈ thread.tokens) :
    ∃ origin, thread = .enqueue origin (.start msg) ∧ origin.isRetry = false := by
  cases thread with
  | enqueue origin pc =>
    cases pc with
    | start =>
      obtain ⟨retried, rfl⟩ := Prod.mk.inj (Multiset.mem_singleton.mp offered)
      exact ⟨origin, rfl, (Stage.offered.inj retried).symm⟩
    | _ => cases Multiset.mem_singleton.mp offered
  | ingress pc =>
    cases pc with
    | received => cases Multiset.mem_singleton.mp offered
    | _ => cases offered
  | dispatch pc =>
    cases pc with
    | handling | deadLettering | releasing => cases Multiset.mem_singleton.mp offered
    | _ => cases offered
  | retryTimer => cases Multiset.mem_singleton.mp offered
  | _ => cases offered

private theorem stock_unoffered (w : QueueWorld F) :
    w.stock.filter (fun token => token.1 = .offered false) = 0 := by
  refine Multiset.filter_eq_nil.mpr fun token member => ?_
  simp only [QueueWorld.stock, stockOf, Multiset.mem_add, Multiset.mem_map] at member
  rcases member with ((⟨_, -, rfl⟩ | ⟨_, -, rfl⟩) | ⟨_, -, rfl⟩) | ⟨_, -, rfl⟩
  all_goals simp

variable [Float64 F]

/-- A step dead-letters what it releases as a final failure, if it redrives nothing with the
key. -/
theorem QueueThread.Acts.deadLetters (acts : thread.Acts cfg consumerCancels w w' left)
    (before : AgentForge.deadLetters key w = finalFailures cfg key w.log)
    (untaken : ∀ limit, thread = .redrive limit →
      ∀ msg ∈ (w.queue.takeDeadLetters limit).1, messageKey msg ≠ key)
    (unheld : ∀ msg ∈ thread.redrives, messageKey msg ≠ key) :
    AgentForge.deadLetters key w' = finalFailures cfg key w'.log := by
  have kept : ∀ {w' : QueueWorld F}, w'.queue.dlq = w.queue.dlq →
      finalFailures cfg key w'.log = finalFailures cfg key w.log →
      AgentForge.deadLetters key w' = finalFailures cfg key w'.log := by
    intro w' dlq log
    rw [log, ← before, AgentForge.deadLetters, dlq]
    rfl
  cases acts with
  | enqueue acts =>
    cases acts with
    | mark msg now unlocked =>
      exact kept (w.queue.mark_dlq cfg now (messageKey msg)) rfl
    | send msg room => exact kept rfl (by simp [finalFailures])
    | _ => exact kept rfl rfl
  | ingress acts =>
    cases acts with
    | lock msg unlocked | drain first => exact kept (MemoryQueue.addPending_dlq ..) rfl
    | _ => exact kept rfl rfl
  | dispatch acts =>
    cases acts with
    | turn checked more =>
      have turn := w.queue.popTurn_turn w.clock w.manager
      generalize w.queue.popTurn w.clock w.manager = outcome at turn
      cases turn with
      | dropped | refused => exact kept rfl rfl
      | popped => exact kept rfl (by simp [finalFailures, afterTurn])
    | release msg failed unlocked =>
      obtain ⟨recent, same⟩ :=
        w.queue.releaseAttempt_eq msg cfg w.clock failed (isFinalFailure cfg msg failed)
      have more : finalFailures cfg key (.finished msg failed :: w.log) =
          finalFailures cfg key w.log ++
            if messageKey msg = key ∧ failed = true ∧ cfg.maxAttempts ≤ msg.attempt then [msg]
            else [] := by
        rw [finalFailures, List.reverse_cons, List.filterMap_append]
        refine congrArg _ ?_
        split_ifs with counts <;> simp [counts]
      rw [AgentForge.deadLetters, same, more, ← before]
      by_cases own : messageKey msg = key <;> by_cases last : cfg.maxAttempts ≤ msg.attempt <;>
        cases failed <;> simp [AgentForge.deadLetters, isFinalFailure, own, last]
    | _ => exact kept rfl rfl
  | redrive limit unlocked =>
    rw [AgentForge.deadLetters, w.queue.takeDeadLetters_append limit, List.filter_append,
      List.filter_eq_nil_iff.mpr] at before
    · exact before
    · intro msg member
      simpa using untaken limit rfl msg member
  | putBack msg ok error unlocked =>
    have other := unheld msg (List.mem_singleton_self _)
    rw [← before, AgentForge.deadLetters, List.filter_append]
    simp [other, AgentForge.deadLetters]
  | _ => exact kept rfl rfl

/-- A step that offers a message is one of a redrive. -/
theorem redrive_of_offer (acts : thread.Acts cfg consumerCancels w w' left)
    (offered : tokens w' (left + rest) = {(.offered false, msg)} + tokens w (thread ::ₘ rest)) :
    ∃ first, first ∈ thread.redrives ∧ messageKey first = messageKey msg := by
  have there : (.offered false, msg) ∈ left.bind QueueThread.tokens := by
    rw [tokens_add, tokens_cons] at offered
    have filtered := congrArg (Multiset.filter fun token => token.1 = .offered false) offered
    simp only [Multiset.filter_add, stock_unoffered, add_zero, ← add_assoc, add_left_inj] at filtered
    have member : (.offered false, msg) ∈
        (left.bind QueueThread.tokens).filter (fun token => token.1 = .offered false) := by
      rw [filtered]
      simp
    exact (Multiset.mem_filter.mp member).1
  obtain ⟨next, member, carried⟩ := Multiset.mem_bind.mp there
  obtain ⟨origin, rfl, external⟩ := begun_of_offered carried
  rcases (acts.becomes member).begins with retried | ⟨first, batch, ok, rfl, rfl⟩
  · rw [external] at retried
    cases retried
  · exact ⟨first, List.mem_cons_self .., rfl⟩

end Redrives

/-! ## Runs -/

/-- What holds of a key with these calls, as long as nothing with it is redriven. -/
structure Bounded (cfg : MemoryQueueConfig) (key : String) (calls : List (SQSMessage F))
    (s : QueueState F) : Prop where
  trip : Trip cfg.maxAttempts (calls.map (·.attempt)) (travelling key (tokens s.world s.threads))
    (handled key s.world.log) (finalFailures cfg key s.world.log).length
  unheld : ∀ thread ∈ s.threads, ∀ msg ∈ thread.redrives, messageKey msg ≠ key
  dead : deadLetters key s.world = finalFailures cfg key s.world.log

section Runs

variable {setting : Setting F} {s t : QueueState F} {e : Soup.Event (QueueThread F)}
  {key : String} {calls : List (SQSMessage F)}

private theorem tokens_spawn (w : QueueWorld F) (thread : QueueThread F)
    (threads : Multiset (QueueThread F)) :
    tokens w (thread ::ₘ threads) = thread.tokens + tokens w threads := by
  rw [tokens, tokens, Multiset.cons_bind, add_assoc]

/-- A caller enqueues the message for the first time. -/
theorem Bounded.called (bounded : Bounded cfg key [] s) (msg : SQSMessage F)
    (own : messageKey msg = key) :
    Bounded cfg key [msg] ⟨s.world, .enqueue .caller (.start msg) ::ₘ s.threads⟩ where
  trip := by
    have trip := bounded.trip
    rw [tokens_spawn, QueueThread.tokens, travelling_in own rfl]
    generalize travelling key (tokens s.world s.threads) = all at trip ⊢
    generalize handled key s.world.log = before at trip ⊢
    generalize (finalFailures cfg key s.world.log).length = failures at trip ⊢
    cases trip with
    | untouched =>
      have begun : Trip cfg.maxAttempts [msg.attempt]
          {(.offered false, msg.attempt + (0 : Nat))} (attemptsFrom msg.attempt 0) 0 :=
        .waiting msg.attempt 0 rfl (le_max_left ..)
      rwa [Int.natCast_zero, add_zero] at begun
  unheld := by
    intro thread member
    rcases Multiset.mem_cons.mp member with rfl | member
    · simp [QueueThread.redrives]
    · exact bounded.unheld thread member
  dead := bounded.dead

/-- Something else is started. -/
theorem Bounded.spawn (bounded : Bounded cfg key calls s)
    (elsewhere : ∀ all, travelling key (thread.tokens + all) = travelling key all)
    (none : thread.redrives = []) : Bounded cfg key calls ⟨s.world, thread ::ₘ s.threads⟩ where
  trip := by
    rw [tokens_spawn, elsewhere]
    exact bounded.trip
  unheld := by
    intro other member
    rcases Multiset.mem_cons.mp member with rfl | member
    · rw [none]
      exact nofun
    · exact bounded.unheld other member
  dead := bounded.dead

/-- A worker is calling the handler with a message of this key. -/
def QueueThread.handling (key : String) : QueueThread F → Bool
  | .dispatch (.handling msg) => messageKey msg = key
  | _ => false

private theorem eq_of_handling {thread : QueueThread F} (calls : thread.handling key = true) :
    ∃ msg, thread = .dispatch (.handling msg) ∧ messageKey msg = key := by
  cases thread with
  | dispatch pc =>
    cases pc with
    | handling msg => exact ⟨msg, rfl, of_decide_eq_true calls⟩
    | _ => cases calls
  | _ => cases calls

/-- Whoever calls the handler has a message that is on its way. -/
theorem card_handling_le (w : QueueWorld F) (threads : Multiset (QueueThread F)) :
    Multiset.card (threads.filter fun thread => thread.handling key) ≤
      Multiset.card (travelling key (tokens w threads)) := by
  induction threads using Multiset.induction with
  | empty => exact Nat.zero_le _
  | cons thread threads ih =>
    rw [tokens_spawn, Multiset.filter_cons]
    split_ifs with calls
    · obtain ⟨msg, rfl, own⟩ := eq_of_handling calls
      rw [QueueThread.tokens, travelling_in own rfl, Multiset.singleton_add, Multiset.card_cons,
        Multiset.card_cons]
      exact Nat.succ_le_succ ih
    · rw [zero_add]
      exact ih.trans (Multiset.card_le_card
        (Multiset.filterMap_le_filterMap _ (Multiset.le_add_left ..)))

variable [Float64 F]

/-- One step of a goroutine. -/
theorem Bounded.act {w w' : QueueWorld F} {left rest : Multiset (QueueThread F)}
    (bounded : Bounded setting.cfg.normalize key calls ⟨w, thread ::ₘ rest⟩)
    (reached : setting.soup.system.Reachable ⟨w, thread ::ₘ rest⟩)
    (numbered : ∀ msg ∈ calls, 1 ≤ msg.attempt)
    (kept : NotRedriven key ⟨w, thread ::ₘ rest⟩ (.act thread))
    (acts : setting.soup.acts w thread w' left) :
    Bounded setting.cfg.normalize key calls ⟨w', left + rest⟩ := by
  have unheld := bounded.unheld thread (Multiset.mem_cons_self ..)
  have untaken : ∀ limit, thread = .redrive limit →
      ∀ msg ∈ (w.queue.takeDeadLetters limit).1, messageKey msg ≠ key := by
    rintro limit rfl
    exact kept
  obtain ⟨move, others, flow, told⟩ := step_told reached (.act acts)
  refine ⟨?_, ?_, acts.deadLetters bounded.dead untaken unheld⟩
  · have trip := bounded.trip
    rw [flow.before] at trip
    rw [flow.after, told.handled, told.finalFailures, List.length_append]
    refine trip.move ?_ ?_ flow.allowed
    · intro first member
      obtain ⟨msg, called, rfl⟩ := List.mem_map.mp member
      exact numbered msg called
    · rintro msg rfl same
      have offered := flow.after
      rw [Move.into, ← zero_add others] at offered
      obtain ⟨first, held, key⟩ := redrive_of_offer acts (offered.trans (by rw [flow.before]; rfl))
      exact unheld first held (key.trans same)
  · intro next member msg held
    rcases Multiset.mem_add.mp member with there | there
    · rcases (acts.becomes there).redrives held with ⟨before, member, same⟩ | ⟨limit, taken, member⟩
      · exact same ▸ unheld before member
      · exact untaken limit taken msg member
    · exact bounded.unheld next (Multiset.mem_cons_of_mem there) msg held

variable {history : List (QueueState F × Soup.Event (QueueThread F))}

private theorem bounded_of_path (path : setting.soup.system.Path history s)
    (kept : System.Within (NotRedriven key) history) (once : (enqueued key history).length ≤ 1)
    (numbered : ∀ msg ∈ enqueued key history, 1 ≤ msg.attempt) :
    Bounded setting.cfg.normalize key (enqueued key history) s := by
  induction path with
  | @start s begun =>
    obtain ⟨w, threads⟩ := s
    obtain ⟨⟨-, fresh⟩, none⟩ := begun
    obtain rfl : threads = 0 := none
    have new : w = { manager := w.manager, clock := w.clock } := fresh
    rw [new]
    exact ⟨.untouched, by simp, rfl⟩
  | @next history s t e before step ih =>
    have more : enqueued key ((s, e) :: history) = callOf key e ++ enqueued key history := rfl
    rw [more] at once numbered ⊢
    rw [List.length_append] at once
    obtain ⟨now, earlier⟩ := System.within_cons.mp kept
    have bounded := ih earlier (by omega) fun msg member =>
      numbered msg (List.mem_append_right _ member)
    cases step with
    | spawn allowed =>
      cases allowed with
      | enqueue msg =>
        rw [callOf] at once ⊢
        split_ifs at once ⊢ with own
        · have first : enqueued key history = [] := by
            rw [List.length_singleton] at once
            exact List.eq_nil_of_length_eq_zero (by omega)
          rw [first] at bounded ⊢
          exact bounded.called msg own
        · exact bounded.spawn (fun _ => travelling_of_ne own) rfl
      | _ => exact bounded.spawn (fun all => by rw [QueueThread.tokens, zero_add]) rfl
    | @act w w' thread left rest acts =>
      exact bounded.act ⟨history, before⟩
        (fun msg member => numbered msg (List.mem_append_right _ member)) now acts
    | @env _ w passed =>
      obtain ⟨trip, unheld, dead⟩ := bounded
      have same := passed.same
      generalize w.manager = manager at same
      generalize w.clock = clock at same
      subst same
      exact ⟨trip, unheld, dead⟩

/-- **Bounded delivery.** A message that a caller enqueues once, and that is not redriven, is given
to the handler at most as often as there are attempts left, and at least its first attempt counts.
Its attempts are numbered upwards, no two calls of the handler with it overlap, and its dead letters
are its final failures, of which there is at most one. -/
theorem delivery_bounded {msg : SQSMessage F} (path : setting.soup.system.Path history s)
    (once : enqueued (messageKey msg) history = [msg]) (numbered : 1 ≤ msg.attempt)
    (kept : System.Within (NotRedriven (messageKey msg)) history) :
    (handled (messageKey msg) s.world.log).length ≤
        max 1 (setting.cfg.normalize.maxAttempts - msg.attempt + 1) ∧
      (handled (messageKey msg) s.world.log).Pairwise (· < ·) ∧
      Multiset.card (s.threads.filter fun thread => thread.handling (messageKey msg)) ≤ 1 ∧
      deadLetters (messageKey msg) s.world =
        finalFailures setting.cfg.normalize (messageKey msg) s.world.log ∧
      (deadLetters (messageKey msg) s.world).length ≤ 1 := by
  have bounded : Bounded setting.cfg.normalize (messageKey msg) [msg] s := by
    have run := bounded_of_path path kept (by rw [once]; exact Nat.le_refl 1) (by simpa [once])
    rwa [once] at run
  rw [bounded.dead]
  obtain ⟨count, room, attempts, alone, failures⟩ := bounded.trip.bounds
  rw [attempts]
  refine ⟨?_, attemptsFrom_increasing .., (card_handling_le ..).trans alone, rfl, failures⟩
  rw [length_attemptsFrom]
  exact room

/-- The third attempt of three fails: it was given to the handler once and is dead-lettered
once. -/
theorem delivery_bounded_last_attempt : ∃ history s,
    redriveSetting.soup.system.Path history s ∧
      handled "a#t#r" s.world.log = [3] ∧ deadLetters "a#t#r" s.world = [lastMessage] ∧
      (handled "a#t#r" s.world.log).length ≤ max 1 (3 - lastMessage.attempt + 1) := by
  obtain ⟨history, threads, path, events⟩ := exhausted_path
  have calls : enqueued (messageKey lastMessage) history = [lastMessage] := by
    have all : enqueued "a#t#r" history = exhaustedEvents.flatMap (callOf "a#t#r") := by
      rw [← events, List.flatMap_map]
      rfl
    exact all
  have kept : System.Within (NotRedriven "a#t#r") history := by
    have none : ∀ e ∈ exhaustedEvents, ∀ s, NotRedriven "a#t#r" s e := by
      simp [exhaustedEvents, NotRedriven]
    exact fun past member => none _ (events ▸ List.mem_map_of_mem member) _
  exact ⟨history, _, path, rfl, rfl, (delivery_bounded path calls (by decide) kept).1⟩

end Runs

end BoundedDelivery

end AgentForge
