import AgentForge.Custody
import AgentForge.QueueFlow

/-! Each key of a `MemoryQueue` has at most one holder. `inQueue` and `inFlight` are the
registers of a two-stage custody: `Enqueue` takes a key, its rollbacks give it up,
`popEligibleLocked` passes it to a worker and `finishAttempt` finishes with it. Every
other move carries a key from one holder of a stage to another. -/
namespace AgentForge

open Transition Custody

section KeyExclusion

variable {F : Type}

/-- Marked by an `Enqueue` that has neither sent the message nor taken the mark back, in
the channel, just received, or pending. -/
def Stage.queued : Stage → Bool
  | .admitting _ | .refused _ | .sending _ | .cancelling _ | .channel | .received | .pending => true
  | .offered _ | .prepared _ | .withdrawn _ | .handling | .finishing | .timer | .dead | .done =>
    false

/-- Dispatched to a worker and not yet released by `finishAttempt`. -/
def Stage.inFlight : Stage → Bool
  | .handling | .finishing => true
  | _ => false

/-- The keys of the messages at some of the stages. -/
def keysAt (stages : Stage → Bool) (all : Multiset (Token F)) : Multiset String :=
  (all.filter fun token => stages token.1).map fun token => messageKey token.2

section Keys

theorem keysAt_add (some more : Multiset (Token F)) :
    keysAt stages (some + more) = keysAt stages some + keysAt stages more := by
  rw [keysAt, Multiset.filter_add, Multiset.map_add]
  rfl

theorem keysAt_singleton : keysAt stages ({(stage, msg)} + all) =
    if stages stage = true then messageKey msg ::ₘ keysAt stages all else keysAt stages all := by
  split_ifs with there <;> simp [keysAt, there]

theorem keysAt_in (there : stages stage = true) :
    keysAt stages ({(stage, msg)} + all) = messageKey msg ::ₘ keysAt stages all := by
  rw [keysAt_singleton, if_pos there]

private theorem keysAt_out (elsewhere : stages stage = false) :
    keysAt stages ({(stage, msg)} + all) = keysAt stages all := by
  rw [keysAt_singleton, elsewhere, if_neg Bool.false_ne_true]

theorem mem_keysAt :
    key ∈ keysAt stages all ↔ ∃ token ∈ all, stages token.1 = true ∧ messageKey token.2 = key := by
  simp only [keysAt, Multiset.mem_map, Multiset.mem_filter, and_assoc]

private theorem keysAt_dead (batch : Multiset (SQSMessage F)) (elsewhere : stages .dead = false) :
    keysAt stages (batch.map (Prod.mk .dead) + all) = keysAt stages all := by
  have none : (batch.map (Prod.mk Stage.dead)).filter (fun token => stages token.1) = 0 := by
    refine Multiset.filter_eq_nil.mpr fun token member => ?_
    obtain ⟨msg, -, rfl⟩ := Multiset.mem_map.mp member
    simp [elsewhere]
  rw [keysAt_add, keysAt, none, Multiset.map_zero, zero_add]

end Keys

/-- The registers of the queue are exactly the keys held. -/
def KeysHeld (b : Books F) (all : Multiset (Token F)) : Prop :=
  Exclusive b.inQueue b.inFlight (keysAt Stage.queued all) (keysAt Stage.inFlight all)

variable [Float64 F] {setting : Setting F}

/-- No move gives a key a second holder. -/
theorem KeysHeld.move {move : Move F} (held : KeysHeld b (move.out + others))
    (allowed : Allowed setting b move b') :
    KeysHeld b' (move.into setting.cfg.normalize + others) := by
  unfold KeysHeld at held ⊢
  cases allowed with
  | mark retry notQueued notInFlight =>
    rw [Move.out, keysAt_out rfl, keysAt_out rfl] at held
    rw [Move.into, keysAt_in rfl, keysAt_out rfl]
    exact held.take notQueued notInFlight
  | unmark retry msg =>
    rw [Move.out, keysAt_in rfl, keysAt_out rfl] at held
    rw [Move.into, zero_add]
    exact held.giveUp
  | cancelUnmark retry msg =>
    rw [Move.out, keysAt_in rfl, keysAt_out rfl] at held
    rw [Move.into, keysAt_out rfl, keysAt_out rfl]
    exact held.giveUp
  | pop ok =>
    rw [Move.out, keysAt_in rfl, keysAt_out rfl] at held
    rw [Move.into, keysAt_out rfl, keysAt_in rfl]
    exact held.pass
  | release msg failed =>
    rw [Move.out, keysAt_out rfl, keysAt_in rfl] at held
    have gone : ∀ stages : Stage → Bool, stages .dead = false → stages .timer = false →
        stages .done = false →
        keysAt stages ((Move.release msg failed).into setting.cfg.normalize + others) =
          keysAt stages others := by
      intro stages dead timer done
      rw [Move.into, released]
      split_ifs
      · exact keysAt_out dead
      · exact keysAt_out timer
      · exact keysAt_out done
    rw [gone Stage.queued rfl rfl rfl, gone Stage.inFlight rfl rfl rfl]
    exact held.finish
  | redrive batch allowed =>
    rw [Move.out, keysAt_dead batch rfl, keysAt_dead batch rfl] at held
    rwa [Move.into, zero_add]
  | _ =>
    -- The token stays among the queued ones, among those in flight, or among neither.
    simpa only [Move.out, Move.into, zero_add, keysAt_singleton, Stage.queued, Stage.inFlight,
      if_true, Bool.false_eq_true, if_false] using held

theorem keysHeld_of_reachable (reached : setting.soup.system.Reachable s) :
    KeysHeld s.world.books (tokens s.world s.threads) :=
  flow_invariant (fun _ _ => Exclusive.empty) (fun _ _ _ _ held allowed => held.move allowed) reached

/-- **No key has two holders.** In every reachable state the keys of messages being
admitted, in the channel, just received or pending are pairwise distinct and are the
set `inQueue`; those of messages dispatched and not yet released are pairwise distinct
and are `inFlight`; and the two sets are disjoint. No two workers handle one key. -/
theorem keys_have_one_holder {s : QueueState F} (reached : setting.soup.system.Reachable s) :
    (keysAt Stage.queued (tokens s.world s.threads)).Nodup ∧
      (keysAt Stage.queued (tokens s.world s.threads)).toFinset = s.world.queue.inQueue ∧
      (keysAt Stage.inFlight (tokens s.world s.threads)).Nodup ∧
      (keysAt Stage.inFlight (tokens s.world s.threads)).toFinset = s.world.queue.inFlight ∧
      Disjoint s.world.queue.inQueue s.world.queue.inFlight ∧
      ∀ msg msg' rest, s.threads =
        .dispatch (.handling msg) ::ₘ .dispatch (.handling msg') ::ₘ rest →
          messageKey msg ≠ messageKey msg' := by
  have held := keysHeld_of_reachable reached
  have queued : (keysAt Stage.queued (tokens s.world s.threads)).Nodup :=
    held.waits ▸ s.world.queue.inQueue.nodup
  have flying : (keysAt Stage.inFlight (tokens s.world s.threads)).Nodup :=
    held.works ▸ s.world.queue.inFlight.nodup
  refine ⟨queued, ?_, flying, ?_, held.apart, ?_⟩
  · rw [held.waits]
    exact Finset.val_toFinset _
  · rw [held.works]
    exact Finset.val_toFinset _
  · intro msg msg' rest both same
    rw [both, tokens, Multiset.cons_bind, Multiset.cons_bind, add_assoc, add_assoc,
      QueueThread.tokens, QueueThread.tokens, keysAt_in rfl, keysAt_in rfl, same] at flying
    exact (Multiset.nodup_cons.mp flying).1 (Multiset.mem_cons_self ..)

/-- A message with a worker, in a queue whose consumer may stop and whose dead letters
may be redriven. -/
theorem handled_key_has_one_holder : ∃ s : QueueState Rat,
    (Setting.mk smallQueue (fun _ => True) True True fun _ _ => True).soup.system.Reachable s ∧
      keysAt Stage.inFlight (tokens s.world s.threads) = {"a#t#r"} ∧
      (keysAt Stage.inFlight (tokens s.world s.threads)).toFinset = s.world.queue.inFlight := by
  have reached := handling_reachable ⟨smallQueue, fun _ => True, True, True, fun _ _ => True⟩ trivial
  exact ⟨_, reached, rfl, (keys_have_one_holder reached).2.2.2.1⟩

end KeyExclusion

end AgentForge
