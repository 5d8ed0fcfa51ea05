import AgentForge.QueueFlow
import AgentForge.TenantEffects

/-! The tenant manager's counters are what the queue holds. Each tenant's `queued` is a
tally of its messages from their admission to their dispatch, and `running` one of its
messages with a handler; a move that shifts a message across one of these bounds calls
the manager for its tenant, and no other move does. -/
namespace AgentForge

open Transition KeyedLists Tally

section QueueCounters

variable {F : Type}

/-- Admitted by `TryEnqueue` and neither dispatched nor undone by `CancelEnqueue`. -/
def Stage.admitted : Stage → Bool
  | .sending _ | .cancelling _ | .withdrawn _ | .channel | .received | .pending => true
  | .offered _ | .prepared _ | .admitting _ | .refused _ | .handling | .finishing | .timer
  | .dead | .done => false

/-- Between `TryStartRun` and `CompleteRun`. -/
def Stage.running : Stage → Bool
  | .handling => true
  | _ => false

/-- How many messages of a tenant are at some of the stages. -/
def countAt (stages : Stage → Bool) (tenantID : String) (all : Multiset (Token F)) : Nat :=
  all.countP fun token => stages token.1 = true ∧ token.2.tenantID = tenantID

section Count

private theorem countAt_singleton : countAt stages tenantID ({(stage, msg)} + all) =
    countAt stages tenantID all + if stages stage = true ∧ msg.tenantID = tenantID then 1 else 0 := by
  rw [countAt, Multiset.singleton_add, Multiset.countP_cons]
  rfl

private theorem countAt_in (there : stages stage = true) :
    countAt stages msg.tenantID ({(stage, msg)} + all) = countAt stages msg.tenantID all + 1 := by
  rw [countAt_singleton, if_pos ⟨there, rfl⟩]

private theorem countAt_out (elsewhere : stages stage = false) :
    countAt stages tenantID ({(stage, msg)} + all) = countAt stages tenantID all := by
  rw [countAt_singleton, if_neg (by simp [elsewhere]), add_zero]

private theorem countAt_of_ne (other : tenantID ≠ msg.tenantID) :
    countAt stages tenantID ({(stage, msg)} + all) = countAt stages tenantID all := by
  rw [countAt_singleton, if_neg fun both => other both.2.symm, add_zero]

private theorem countAt_dead (batch : Multiset (SQSMessage F)) (elsewhere : stages .dead = false) :
    countAt stages tenantID (batch.map (Prod.mk .dead) + all) = countAt stages tenantID all := by
  have none : (batch.map (Prod.mk Stage.dead)).countP
      (fun token => stages token.1 = true ∧ token.2.tenantID = tenantID) = 0 := by
    refine Multiset.countP_eq_zero.mpr fun token member => ?_
    obtain ⟨msg, -, rfl⟩ := Multiset.mem_map.mp member
    simp [elsewhere]
  rw [countAt, Multiset.countP_add, none, zero_add, countAt]

private theorem countAt_pos (member : (stage, msg) ∈ all) (there : stages stage = true) :
    0 < countAt stages msg.tenantID all :=
  Multiset.countP_pos.mpr ⟨_, member, there, rfl⟩

end Count

/-! ## Tenants are normalised -/

/-- From `Enqueue`'s own copy of a message to its release. -/
def Stage.copied : Stage → Bool
  | .offered _ | .timer | .dead | .done => false
  | _ => true

/-- Messages that `Enqueue` has copied name their tenant in full. -/
def Normal (all : Multiset (Token F)) : Prop :=
  ∀ token ∈ all, token.1.copied = true → normalizeTenant token.2.tenantID = token.2.tenantID

private theorem normal_singleton :
    Normal ({(stage, msg)} + all) ↔
      (stage.copied = true → normalizeTenant msg.tenantID = msg.tenantID) ∧ Normal all := by
  simp [Normal, Multiset.mem_cons]

variable [Float64 F] {setting : Setting F}

private theorem Normal.move {move : Move F} (held : Normal (move.out + others))
    (allowed : Allowed setting b move b') :
    Normal (move.into setting.cfg.normalize + others) := by
  cases allowed with
  | prepare retry msg =>
    rw [Move.out, normal_singleton] at held
    exact normal_singleton.mpr ⟨fun _ => normalizeTenant_idem msg.tenantID, held.2⟩
  | release msg failed =>
    rw [Move.out, normal_singleton] at held
    rw [Move.into, released]
    split_ifs <;> exact normal_singleton.mpr ⟨by simp [Stage.copied], held.2⟩
  | redrive batch allowed =>
    intro token member
    exact held token (Multiset.mem_add.mpr (.inr (by simpa [Move.into] using member)))
  | _ =>
    -- The message stays as it is, or is not one of `Enqueue`'s copies any more.
    simp only [Move.out, Move.into, zero_add, normal_singleton, Stage.copied] at held ⊢
    tauto

/-! ## The tallies -/

/-- Every tenant has positive limits. -/
def Manager.Limited (m : Manager F) : Prop :=
  ∀ tenantID, 0 < (m.policy tenantID).maxQueued ∧ 0 < (m.policy tenantID).maxRunning

/-- The counters of every tenant say what the queue holds of it. -/
structure Tallied (m : Manager F) (all : Multiset (Token F)) : Prop where
  limited : m.Limited
  queued : ∀ tenantID, Counts (m.state tenantID).queued (m.policy tenantID).maxQueued
    (countAt Stage.admitted tenantID all)
  running : ∀ tenantID, Counts (m.state tenantID).running (m.policy tenantID).maxRunning
    (countAt Stage.running tenantID all)

variable {m : Manager F} {tenantID : String}

/-- A call for one tenant is right if it is right for that tenant. -/
theorem Tallied.update (held : Tallied m all)
    (elsewhere : ∀ other, other ≠ tenantID → ∀ stages, countAt stages other all' =
      countAt stages other all) (queued : Counts st.queued (m.policy tenantID).maxQueued
      (countAt Stage.admitted tenantID all'))
    (running : Counts st.running (m.policy tenantID).maxRunning
      (countAt Stage.running tenantID all')) : Tallied (m.setState tenantID st) all' where
  limited := held.limited
  queued other := by
    by_cases same : other = tenantID
    · subst same
      rw [Manager.state_setState]
      exact queued
    · rw [Manager.state_setState_of_ne same, elsewhere other same]
      exact held.queued other
  running other := by
    by_cases same : other = tenantID
    · subst same
      rw [Manager.state_setState]
      exact running
    · rw [Manager.state_setState_of_ne same, elsewhere other same]
      exact held.running other

/-- A call that leaves the counters of its tenant as they were. -/
theorem Tallied.keep (held : Tallied m all) (same : st.counters = (m.state tenantID).counters) :
    Tallied (m.setState tenantID st) all := by
  have queued : st.queued = (m.state tenantID).queued :=
    congrArg TenantState.Counters.queued same
  have running : st.running = (m.state tenantID).running :=
    congrArg TenantState.Counters.running same
  refine held.update (fun _ _ _ => rfl) ?_ ?_
  · rw [queued]
    exact held.queued tenantID
  · rw [running]
    exact held.running tenantID

/-- Moving a token between stages that are counted alike. -/
theorem Tallied.recount (held : Tallied m all)
    (admitted : ∀ tenantID, countAt Stage.admitted tenantID all' =
      countAt Stage.admitted tenantID all)
    (running : ∀ tenantID, countAt Stage.running tenantID all' =
      countAt Stage.running tenantID all) : Tallied m all' where
  limited := held.limited
  queued tenantID := admitted tenantID ▸ held.queued tenantID
  running tenantID := running tenantID ▸ held.running tenantID

section Calls

/-- A call made for a message that goes from one stage to another. -/
theorem Tallied.call (held : Tallied m ({(stage, msg)} + others)) (counters : st.counters = ⟨q, r⟩)
    (queued : Counts q (m.policy msg.tenantID).maxQueued
      (countAt Stage.admitted msg.tenantID ({(stage', msg)} + others)))
    (running : Counts r (m.policy msg.tenantID).maxRunning
      (countAt Stage.running msg.tenantID ({(stage', msg)} + others))) :
    Tallied (m.setState msg.tenantID st) ({(stage', msg)} + others) := by
  cases counters
  refine held.update (fun other apart stages => ?_) queued running
  rw [countAt_of_ne apart, countAt_of_ne apart]

end Calls

/-- **The step of the tallies.** -/
theorem Tallied.move {move : Move F} (alone : ∀ m m', ¬ setting.shared m m')
    (normal : Normal (move.out + others)) (held : Tallied b.manager (move.out + others))
    (allowed : Allowed setting b move b') :
    Tallied b'.manager (move.into setting.cfg.normalize + others) := by
  cases allowed with
  | @admission retry msg now opened ok =>
    have counted := (b.manager.state msg.tenantID).tryEnqueue_counters
      (b.manager.policy msg.tenantID) now opened (admissionInfo msg)
    dsimp only [Manager.tryEnqueue] at ok
    rw [ok] at counted
    obtain ⟨room, counters⟩ := counted
    have below : ¬ (b.manager.policy msg.tenantID).maxQueued ≤
        (b.manager.state msg.tenantID).queued := by
      intro full
      exact room ⟨(held.limited msg.tenantID).1, full⟩
    have before := held.queued msg.tenantID
    have before' := held.running msg.tenantID
    rw [Move.out, countAt_out rfl] at before before'
    refine Tallied.call held counters ?_ ?_
    · rw [countAt_in rfl]
      exact before.raise below
    · rw [countAt_out rfl]
      exact before'
  | @refuse retry msg now opened violation error =>
    have counted := (b.manager.state msg.tenantID).tryEnqueue_counters
      (b.manager.policy msg.tenantID) now opened (admissionInfo msg)
    dsimp only [Manager.tryEnqueue] at error
    rw [error] at counted
    have moved : Tallied b.manager ((Move.refuse retry msg).into setting.cfg.normalize + others) := by
      refine held.recount (fun tenantID => ?_) (fun tenantID => ?_) <;>
        rw [Move.into, Move.out, countAt_out rfl, countAt_out rfl]
    exact moved.keep counted
  | @cancelManager retry msg =>
    have counters := congrArg TenantView.counters
      ((b.manager.state msg.tenantID).cancelEnqueue_view (messageKey msg))
    have before := held.queued msg.tenantID
    have before' := held.running msg.tenantID
    rw [Move.out, countAt_in rfl] at before
    rw [Move.out, countAt_out rfl] at before'
    refine held.update (fun other apart stages => ?_) ?_ ?_
    · rw [Move.into, Move.out, zero_add, countAt_of_ne apart]
    · rw [show TenantState.queued _ = _ from congrArg TenantState.Counters.queued counters,
        Move.into, zero_add]
      exact before.lower
    · rw [show TenantState.running _ = _ from congrArg TenantState.Counters.running counters,
        Move.into, zero_add]
      exact before'
  | @passBy tenantID now violation error =>
    have counted := (b.manager.state tenantID).tryStartRun_counters (b.manager.policy tenantID) now
    dsimp only [Manager.tryStartRun] at error
    rw [error] at counted
    exact held.keep counted
  | @pop msg now ok =>
    have own : normalizeTenant msg.tenantID = msg.tenantID := (normal_singleton.mp normal).1 rfl
    rw [own] at ok ⊢
    have counted := (b.manager.state msg.tenantID).tryStartRun_counters
      (b.manager.policy msg.tenantID) now
    dsimp only [Manager.tryStartRun] at ok
    rw [ok] at counted
    obtain ⟨room, counters⟩ := counted
    have below : ¬ (b.manager.policy msg.tenantID).maxRunning ≤
        (b.manager.state msg.tenantID).running := by
      intro full
      exact room ⟨(held.limited msg.tenantID).2, full⟩
    have before := held.queued msg.tenantID
    have before' := held.running msg.tenantID
    rw [Move.out, countAt_in rfl] at before
    rw [Move.out, countAt_out rfl] at before'
    refine Tallied.call held counters ?_ ?_
    · rw [countAt_out rfl]
      exact before.lower
    · rw [countAt_in rfl]
      exact before'.raise below
  | complete msg failed opened =>
    have counters := TenantState.completeRun_counters (F := F)
      (b.manager.policy msg.tenantID) opened (b.manager.state msg.tenantID)
      (completionInfo setting.cfg.normalize msg failed)
    have before := held.queued msg.tenantID
    have before' := held.running msg.tenantID
    rw [Move.out, countAt_out rfl] at before
    rw [Move.out, countAt_in rfl] at before'
    refine Tallied.call held counters ?_ ?_
    · rw [countAt_out rfl]
      exact before
    · rw [countAt_out rfl]
      exact before'.lower
  | deadLetter msg =>
    exact held.keep (congrArg TenantView.counters (TenantState.markDeadLetter_view ..))
  | release msg failed =>
    refine held.recount (fun tenantID => ?_) (fun tenantID => ?_)
    all_goals
      rw [Move.into, Move.out, released]
      split_ifs <;> rw [countAt_out rfl, countAt_out rfl]
  | redrive batch allowed =>
    refine held.recount (fun tenantID => ?_) (fun tenantID => ?_) <;>
      rw [Move.into, Move.out, zero_add, countAt_dead batch rfl]
  | others used => exact absurd used (alone _ _)
  | _ =>
    -- No call: the token stays counted as it was.
    refine held.recount (fun tenantID => ?_) (fun tenantID => ?_) <;>
      simp only [Move.out, Move.into, zero_add, countAt_singleton, Stage.admitted, Stage.running,
        Bool.false_eq_true, false_and, if_false, add_zero]

/-- What the counters rest on: full tenant names, and right tallies. -/
theorem tallied_of_reachable (alone : ∀ m m', ¬ setting.shared m m')
    (fresh : ∀ m, setting.given m → m.states = ∅) (limited : ∀ m, setting.given m → m.Limited)
    (reached : setting.soup.system.Reachable s) :
    Normal (tokens s.world s.threads) ∧ Tallied s.world.manager (tokens s.world s.threads) := by
  refine flow_invariant (J := fun b all => Normal all ∧ Tallied b.manager all) ?_ ?_ reached
  · intro m given
    have unseen : ∀ tenantID, m.state tenantID = .fresh := by
      intro tenantID
      rw [Manager.state, fresh m given]
      rfl
    refine ⟨by simp [Normal], limited m given, fun tenantID => ?_, fun tenantID => ?_⟩
    · rw [unseen]
      exact .zero (limited m given tenantID).1
    · rw [unseen]
      exact .zero (limited m given tenantID).2
  · rintro b b' move others ⟨normal, held⟩ allowed
    exact ⟨normal.move allowed, held.move alone normal allowed⟩

/-- **Queue and tenant manager agree.** In every reachable state of a queue that is the
only user of its manager, whose policies have positive limits, each tenant's `queued` is
the number of its messages admitted and neither dispatched nor cancelled, and `running`
the number of its messages with a handler. So no more handlers of a tenant run, and no
more of its messages wait, than its policy allows; and wherever a counter is about to be
lowered it is positive. -/
theorem manager_counters_agree (alone : ∀ m m', ¬ setting.shared m m')
    (fresh : ∀ m, setting.given m → m.states = ∅) (limited : ∀ m, setting.given m → m.Limited)
    {s : QueueState F} (reached : setting.soup.system.Reachable s) :
    (∀ tenantID,
      (s.world.manager.state tenantID).queued.toInt =
          countAt Stage.admitted tenantID (tokens s.world s.threads) ∧
        (s.world.manager.state tenantID).running.toInt =
          countAt Stage.running tenantID (tokens s.world s.threads) ∧
        countAt Stage.running tenantID (tokens s.world s.threads) ≤
          (s.world.manager.policy tenantID).maxRunning.toInt ∧
        (s.world.manager.state tenantID).queued ≤ (s.world.manager.policy tenantID).maxQueued) ∧
      (∀ origin msg, .enqueue origin (.cancelManager msg) ∈ s.threads →
        0 < (s.world.manager.state msg.tenantID).queued) ∧
      (∀ tenantID msg rest, s.world.queue.pending.lookup tenantID = some (msg :: rest) →
        0 < (s.world.manager.state tenantID).queued) ∧
      ∀ msg, .dispatch (.handling msg) ∈ s.threads →
        0 < (s.world.manager.state msg.tenantID).running := by
  obtain ⟨normal, held⟩ := tallied_of_reachable alone fresh limited reached
  refine ⟨fun tenantID => ⟨(held.queued tenantID).value, (held.running tenantID).value, ?_,
    (held.queued tenantID).within⟩, ?_, ?_, ?_⟩
  · rw [← (held.running tenantID).value]
    exact Int64.le_iff_toInt_le.mp (held.running tenantID).within
  · intro origin msg cancelling
    have token : (.withdrawn origin.isRetry, msg) ∈ tokens s.world s.threads :=
      mem_tokens_of_carried cancelling (Multiset.mem_singleton_self _)
    exact (held.queued msg.tenantID).positive (countAt_pos token rfl)
  · intro tenantID msg rest found
    have token : (.pending, msg) ∈ tokens s.world s.threads :=
      mem_tokens_of_pending found (List.mem_cons_self ..)
    have own : normalizeTenant msg.tenantID = tenantID :=
      (ordered_of_reachable reached).sorted tenantID _ found msg (List.mem_cons_self ..)
    obtain rfl : msg.tenantID = tenantID := (normal _ token rfl).symm.trans own
    exact (held.queued msg.tenantID).positive (countAt_pos token rfl)
  · intro msg handling
    have token : (.handling, msg) ∈ tokens s.world s.threads :=
      mem_tokens_of_carried handling (Multiset.mem_singleton_self _)
    exact (held.running msg.tenantID).positive (countAt_pos token rfl)

/-- A message with a worker: its tenant has one handler and nothing queued. -/
theorem manager_counts_handled_message : ∃ s : QueueState Rat,
    (Setting.mk smallQueue (· = .newManager onceAMinute) True True
        fun _ _ => False).soup.system.Reachable s ∧
      .dispatch (.handling firstMessage) ∈ s.threads ∧
      countAt Stage.running "a" (tokens s.world s.threads) = 1 ∧
      (s.world.manager.state "a").running.toInt =
        countAt Stage.running "a" (tokens s.world s.threads) := by
  have reached := handling_reachable
    ⟨smallQueue, (· = .newManager onceAMinute), True, True, fun _ _ => False⟩ rfl
  refine ⟨_, reached, by simp, rfl,
    ((manager_counters_agree (fun _ _ => id) ?_ ?_ reached).1 "a").2.1⟩
  · rintro m rfl
    rfl
  · rintro m rfl tenantID
    exact ⟨show (0 : Int64) < 1 by decide, show (0 : Int64) < 1 by decide⟩

end QueueCounters

end AgentForge
