import AgentForge.KeyExclusion
import AgentForge.TokenBudget

/-! The budget a message holds reserved. `TryEnqueue` reserves its estimate under the
tenant and the key of the message, and `CompleteRun`, `CancelEnqueue` and `MarkDeadLetter`
give back whatever is reserved there. A cancelled `Enqueue` gives up the key before it
calls `CancelEnqueue`, so that by then another `Enqueue` of the key may have reserved in its
turn; that reservation is the one that is given back. -/
namespace AgentForge

open Transition Custody
open Transition.System (Throughout Within)

section Reservations

variable {F : Type}

/-! ## What the manager holds -/

section Manager

variable [Float64 F]

def Manager.reservation (m : Manager F) (tenantID key : String) : Option (AdmissionInfo F) :=
  (m.state tenantID).reservations.lookup key

/-- What `TryEnqueue` reserves for a message. -/
def reservationOf (msg : SQSMessage F) : AdmissionInfo F :=
  ⟨messageKey msg, max64 0 msg.estimatedTokens, maxFloat (Float64.lit 0) msg.estimatedCost⟩

namespace Manager

/-- Nothing changes but what is reserved for one key of one tenant. -/
def Rewrites (m : Manager F) (tenantID key : String) (reserved : Option (AdmissionInfo F))
    (m' : Manager F) : Prop :=
  m'.reservation tenantID key = reserved ∧ ∀ tenantID' key', ¬ (tenantID' = tenantID ∧ key' = key) →
    m'.reservation tenantID' key' = m.reservation tenantID' key'

def KeepsAll (m m' : Manager F) : Prop :=
  ∀ tenantID key, m'.reservation tenantID key = m.reservation tenantID key

variable {m : Manager F} {tenantID key : String} {st : TenantState F}

private theorem rewrites_setState (here : st.reservations.lookup key = reserved)
    (others : ∀ key', key' ≠ key →
      st.reservations.lookup key' = (m.state tenantID).reservations.lookup key') :
    m.Rewrites tenantID key reserved (m.setState tenantID st) := by
  refine ⟨?_, fun tenantID' key' other => ?_⟩
  · rw [reservation, state_setState, here]
  · by_cases same : tenantID' = tenantID
    · subst same
      rw [reservation, state_setState, others key' fun keys => other ⟨rfl, keys⟩]
      rfl
    · rw [reservation, state_setState_of_ne same]
      rfl

private theorem keepsAll_setState (same : st.holdings = (m.state tenantID).holdings) :
    m.KeepsAll (m.setState tenantID st) := by
  intro tenantID' key
  by_cases here : tenantID' = tenantID
  · subst here
    rw [reservation, state_setState]
    exact congrArg (AList.lookup key) (congrArg Holdings.reservations same)
  · rw [reservation, state_setState_of_ne here]
    rfl

/-- Giving a reservation back leaves none under its key. -/
theorem rewrites_without
    (left : st.reservations = ((m.state tenantID).holdings.without key).reservations) :
    m.Rewrites tenantID key none (m.setState tenantID st) := by
  have lookups : ∀ key', st.reservations.lookup key' =
      if key' = key then none else (m.state tenantID).reservations.lookup key' := by
    intro key'
    rw [left]
    unfold Holdings.without
    split <;> rename_i found
    · split_ifs with same
      · exact same ▸ found
      · rfl
    · split_ifs with same
      · exact same ▸ AList.lookup_erase ..
      · exact AList.lookup_erase_ne same
  refine rewrites_setState ((lookups key).trans (if_pos rfl)) fun key' other => ?_
  exact (lookups key').trans (if_neg other)

end Manager

omit [Float64 F] in
private theorem messageKey_ne_empty (msg : SQSMessage F) : messageKey msg ≠ "" := by
  unfold messageKey
  split_ifs <;> simp [String.append_eq_empty_iff]

variable (m : Manager F) (now opened : Time) (msg : SQSMessage F)

/-- An admission reserves for the message; a refusal changes nothing. -/
theorem tryEnqueue_reservation :
    match (m.tryEnqueue now opened msg.tenantID (admissionInfo msg)).1 with
    | .ok () => m.Rewrites msg.tenantID (messageKey msg) (some (reservationOf msg))
        (m.tryEnqueue now opened msg.tenantID (admissionInfo msg)).2
    | .error _ => m.KeepsAll (m.tryEnqueue now opened msg.tenantID (admissionInfo msg)).2 := by
  have named : (admissionInfo msg).messageKey ≠ "" := messageKey_ne_empty msg
  have spec := (m.state msg.tenantID).tryEnqueue_holdings (m.policy msg.tenantID) now opened
    (admissionInfo msg)
  rw [Holdings.reserving, if_neg named] at spec
  unfold Manager.tryEnqueue
  cases answer : ((m.state msg.tenantID).tryEnqueue (m.policy msg.tenantID) now opened
      (admissionInfo msg)).1 with
  | ok done =>
    simp only [answer] at spec ⊢
    have reservations := congrArg Holdings.reservations spec.2
    refine Manager.rewrites_setState ?_ fun key other => ?_
    · exact (congrArg (AList.lookup _) reservations).trans (AList.lookup_insert _)
    · exact (congrArg (AList.lookup _) reservations).trans (AList.lookup_insert_ne other)
  | error violation =>
    simp only [answer] at spec ⊢
    exact Manager.keepsAll_setState spec

private theorem tryStartRun_reservation (tenantID : String) :
    m.KeepsAll (m.tryStartRun now tenantID).2 :=
  Manager.keepsAll_setState (TenantState.tryStartRun_holdings ..)

private theorem completeRun_reservation (cfg : MemoryQueueConfig) (failed : Bool) :
    m.Rewrites msg.tenantID (messageKey msg) none
      (m.completeRun opened msg.tenantID (completionInfo cfg msg failed)) := by
  refine Manager.rewrites_without ?_
  have named : (completionInfo cfg msg failed).messageKey ≠ "" := messageKey_ne_empty msg
  have spec := (m.state msg.tenantID).completeRun_holdings (m.policy msg.tenantID) opened
    (completionInfo cfg msg failed)
  rw [Holdings.freed, if_neg named] at spec
  refine (congrArg Holdings.reservations spec).trans ?_
  split_ifs <;> rfl

private theorem cancelEnqueue_reservation :
    m.Rewrites msg.tenantID (messageKey msg) none (m.cancelEnqueue msg.tenantID (messageKey msg)) :=
  Manager.rewrites_without
    (congrArg Holdings.reservations ((TenantState.cancelEnqueue_holdings ..).trans
      (if_neg (messageKey_ne_empty msg))))

private theorem markDeadLetter_reservation :
    m.Rewrites msg.tenantID (messageKey msg) none (m.markDeadLetter msg.tenantID (messageKey msg)) :=
  Manager.rewrites_without
    (congrArg Holdings.reservations ((TenantState.markDeadLetter_holdings ..).trans
      (if_neg (messageKey_ne_empty msg))))

end Manager

/-! ## What the messages hold -/

/-- Admitted, with the key still held, and `CompleteRun` not called. -/
def Stage.reserves : Stage → Bool
  | .sending _ | .cancelling _ | .channel | .received | .pending | .handling => true
  | .offered _ | .prepared _ | .admitting _ | .refused _ | .withdrawn _ | .finishing | .timer
  | .dead | .done => false

/-- Admitted, and the reservation not given back yet. -/
def Stage.owes (stage : Stage) : Bool := stage.reserves || stage matches .withdrawn _

/-- The key is in `inQueue` or in `inFlight`. -/
def Stage.held (stage : Stage) : Bool := stage.queued || stage.inFlight

private theorem Stage.held_of_reserves {stage : Stage} (reserves : stage.reserves = true) :
    stage.held = true := by
  cases stage <;> first | rfl | cases reserves

/-- A key that is held by one message is held by no other. -/
theorem KeysHeld.unique (keys : KeysHeld b ({(stage, msg)} + others)) (holds : stage.held = true)
    (member : token ∈ others) (holds' : token.1.held = true) :
    messageKey token.2 ≠ messageKey msg := by
  intro same
  obtain ⟨waits, works, apart⟩ := keys
  have here : ∀ {stages : Stage → Bool}, stages stage = true →
      messageKey msg ∈ keysAt stages ({(stage, msg)} + others) :=
    fun there => mem_keysAt.mpr ⟨_, Multiset.mem_add.mpr (.inl (Multiset.mem_singleton_self _)), there, rfl⟩
  have there : ∀ {stages : Stage → Bool}, stages token.1 = true →
      messageKey msg ∈ keysAt stages ({(stage, msg)} + others) :=
    fun there => mem_keysAt.mpr ⟨token, Multiset.mem_add.mpr (.inr member), there, same⟩
  have once : ∀ {stages : Stage → Bool}, (keysAt stages ({(stage, msg)} + others)).Nodup →
      stages stage = true → stages token.1 = true → False := by
    intro stages nodup first second
    rw [keysAt_in first] at nodup
    exact (Multiset.nodup_cons.mp nodup).1 (mem_keysAt.mpr ⟨token, member, second, same⟩)
  have both : messageKey msg ∈ keysAt Stage.queued ({(stage, msg)} + others) →
      messageKey msg ∈ keysAt Stage.inFlight ({(stage, msg)} + others) → False := by
    intro queued flying
    rw [waits] at queued
    rw [works] at flying
    exact Finset.disjoint_left.mp apart queued flying
  rcases Bool.or_eq_true _ _ ▸ holds with first | first <;>
    rcases Bool.or_eq_true _ _ ▸ holds' with second | second
  · exact once (waits ▸ b.inQueue.nodup) first second
  · exact both (here first) (there second)
  · exact both (there second) (here first)
  · exact once (works ▸ b.inFlight.nodup) first second

variable [Float64 F]

/-- Each message that reserves holds its own reservation. -/
def Kept (m : Manager F) (all : Multiset (Token F)) : Prop :=
  ∀ token ∈ all, token.1.reserves = true →
    m.reservation token.2.tenantID (messageKey token.2) = some (reservationOf token.2)

/-- Each reservation is one that a message owes. -/
def Accounted (m : Manager F) (all : Multiset (Token F)) : Prop :=
  ∀ tenantID key reserved, m.reservation tenantID key = some reserved →
    ∃ token ∈ all, token.1.owes = true ∧ token.2.tenantID = tenantID ∧ messageKey token.2 = key

variable {m m' : Manager F} {msg : SQSMessage F} {others : Multiset (Token F)}

private theorem kept_singleton : Kept m ({(stage, msg)} + others) ↔
    (stage.reserves = true → m.reservation msg.tenantID (messageKey msg) = some (reservationOf msg)) ∧
      Kept m others := by
  simp only [Kept, Multiset.mem_add, Multiset.mem_singleton, or_imp, forall_and, forall_eq]

private theorem Kept.congr (kept : Kept m all) (same : m.KeepsAll m') : Kept m' all := by
  intro token member reserves
  rw [same]
  exact kept token member reserves

/-- Tokens that reserve nothing may come. -/
theorem Kept.exchange {some more : Multiset (Token F)} (kept : Kept m (some + others))
    (free : ∀ token ∈ more, token.1.reserves = false) : Kept m (more + others) := by
  intro token member reserves
  rcases Multiset.mem_add.mp member with here | there
  · rw [free token here] at reserves
    cases reserves
  · exact kept token (Multiset.mem_add.mpr (.inr there)) reserves

/-- Rewriting what is reserved for a key that nothing else reserves under. -/
theorem Kept.rewrite (kept : Kept m others)
    (rewrites : m.Rewrites msg.tenantID (messageKey msg) reserved m')
    (alone : ∀ token ∈ others, token.1.reserves = true → token.2.tenantID = msg.tenantID →
      messageKey token.2 ≠ messageKey msg) : Kept m' others := by
  intro token member reserves
  rw [rewrites.2 _ _ fun both => alone token member reserves both.1 both.2]
  exact kept token member reserves

private theorem Accounted.congr (accounted : Accounted m all) (same : m.KeepsAll m') :
    Accounted m' all := by
  intro tenantID key reserved found
  exact accounted tenantID key reserved (by rwa [same] at found)

/-- The message goes on to a stage at which it still owes. -/
theorem Accounted.shift (accounted : Accounted m ({(stage, msg)} + others))
    (owes : stage.owes = true → stage'.owes = true) : Accounted m ({(stage', msg)} + others) := by
  intro tenantID key reserved found
  obtain ⟨token, member, owing, own⟩ := accounted tenantID key reserved found
  rcases Multiset.mem_add.mp member with here | there
  · rw [Multiset.mem_singleton.mp here] at owing own
    exact ⟨_, Multiset.mem_add.mpr (.inl (Multiset.mem_singleton_self _)), owes owing, own⟩
  · exact ⟨token, Multiset.mem_add.mpr (.inr there), owing, own⟩

/-- Tokens that owe nothing may come and go. -/
theorem Accounted.exchange {some more : Multiset (Token F)} (accounted : Accounted m (some + others))
    (free : ∀ token ∈ some, token.1.owes = false) : Accounted m (more + others) := by
  intro tenantID key reserved found
  obtain ⟨token, member, owing, own⟩ := accounted tenantID key reserved found
  rcases Multiset.mem_add.mp member with here | there
  · rw [free token here] at owing
    cases owing
  · exact ⟨token, Multiset.mem_add.mpr (.inr there), owing, own⟩

/-- What a message owed was given back. -/
theorem Accounted.drop (accounted : Accounted m ({(stage, msg)} + others))
    (rewrites : m.Rewrites msg.tenantID (messageKey msg) none m') :
    Accounted m' (more + others) := by
  intro tenantID key reserved found
  have elsewhere : ¬ (tenantID = msg.tenantID ∧ key = messageKey msg) := by
    rintro ⟨rfl, rfl⟩
    cases rewrites.1.symm.trans found
  obtain ⟨token, member, owing, own⟩ :=
    accounted tenantID key reserved (rewrites.2 _ _ elsewhere ▸ found)
  rcases Multiset.mem_add.mp member with here | there
  · rw [Multiset.mem_singleton.mp here] at own
    exact absurd ⟨own.1.symm, own.2.symm⟩ elsewhere
  · exact ⟨token, Multiset.mem_add.mpr (.inr there), owing, own⟩

variable {setting : Setting F}

/-- No move leaves a reservation behind that no message owes. -/
theorem Accounted.move {move : Move F} (unshared : ∀ m m', ¬ setting.shared m m')
    (accounted : Accounted b.manager (move.out + others)) (allowed : Allowed setting b move b') :
    Accounted b'.manager (move.into setting.cfg.normalize + others) := by
  cases allowed with
  | @admission retry msg now opened ok =>
    have spec := tryEnqueue_reservation b.manager now opened msg
    rw [ok] at spec
    intro tenantID key reserved found
    by_cases here : tenantID = msg.tenantID ∧ key = messageKey msg
    · obtain ⟨rfl, rfl⟩ := here
      exact ⟨_, Multiset.mem_add.mpr (.inl (Multiset.mem_singleton_self _)), rfl, rfl, rfl⟩
    · have shifted : Accounted b.manager ({(.sending retry, msg)} + others) := accounted.shift nofun
      exact shifted tenantID key reserved (spec.2 _ _ here ▸ found)
  | @refuse retry msg now opened violation error =>
    have spec := tryEnqueue_reservation b.manager now opened msg
    rw [error] at spec
    exact (accounted.shift nofun).congr spec
  | cancelManager retry msg => exact accounted.drop (cancelEnqueue_reservation b.manager msg)
  | complete msg failed opened =>
    exact accounted.drop (completeRun_reservation b.manager opened msg _ failed)
  | deadLetter msg =>
    have rewrites := markDeadLetter_reservation b.manager msg
    intro tenantID key reserved found
    refine accounted tenantID key reserved (rewrites.2 _ _ ?_ ▸ found)
    rintro ⟨rfl, rfl⟩
    cases rewrites.1.symm.trans found
  | passBy error => exact accounted.congr (tryStartRun_reservation _ _ _)
  | pop ok => exact (accounted.shift fun _ => rfl).congr (tryStartRun_reservation _ _ _)
  | others used => exact absurd used (unshared _ _)
  | redrive batch allowed =>
    refine accounted.exchange fun token member => ?_
    obtain ⟨msg, -, rfl⟩ := Multiset.mem_map.mp member
    rfl
  | send | cancel | cancelUnmark | receive | add | drain => exact accounted.shift fun _ => rfl
  | _ => exact accounted.exchange (by simp [Move.out, Stage.owes, Stage.reserves])

/-- Giving back the reservation of a message that is finishing, which has none. -/
theorem Kept.deadLetter (keys : KeysHeld b all) (kept : Kept m all)
    (finishing : (.finishing, msg) ∈ all)
    (rewrites : m.Rewrites msg.tenantID (messageKey msg) none m') : Kept m' all := by
  obtain ⟨rest, rfl⟩ := Multiset.exists_cons_of_mem finishing
  rw [← Multiset.singleton_add] at keys kept ⊢
  refine kept_singleton.mpr ⟨nofun, (kept_singleton.mp kept).2.rewrite rewrites ?_⟩
  exact fun token member reserves _ => keys.unique rfl member (Stage.held_of_reserves reserves)

/-- Every other move but `CancelEnqueue` leaves each message its reservation. -/
theorem Kept.move {move : Move F} (unshared : ∀ m m', ¬ setting.shared m m')
    (keys : KeysHeld b (move.out + others)) (kept : Kept b.manager (move.out + others))
    (allowed : Allowed setting b move b') (goesOn : ∀ retry msg, move ≠ .cancelManager retry msg)
    (alive : ∀ msg, move ≠ .deadLetter msg) :
    Kept b'.manager (move.into setting.cfg.normalize + others) := by
  cases allowed with
  | @admission retry msg now opened ok =>
    have spec := tryEnqueue_reservation b.manager now opened msg
    rw [ok] at spec
    refine kept_singleton.mpr ⟨fun _ => spec.1, (kept_singleton.mp kept).2.rewrite spec ?_⟩
    exact fun token member reserves _ => keys.unique rfl member (Stage.held_of_reserves reserves)
  | @refuse retry msg now opened violation error =>
    have spec := tryEnqueue_reservation b.manager now opened msg
    rw [error] at spec
    exact kept_singleton.mpr ⟨nofun, (kept_singleton.mp kept).2.congr spec⟩
  | cancelManager retry msg => exact absurd rfl (goesOn retry msg)
  | complete msg failed opened =>
    have spec := completeRun_reservation b.manager opened msg setting.cfg.normalize failed
    refine kept_singleton.mpr ⟨nofun, (kept_singleton.mp kept).2.rewrite spec ?_⟩
    exact fun token member reserves _ => keys.unique rfl member (Stage.held_of_reserves reserves)
  | deadLetter msg => exact absurd rfl (alive msg)
  | passBy error => exact kept.congr (tryStartRun_reservation _ _ _)
  | pop ok =>
    refine Kept.congr ?_ (tryStartRun_reservation _ _ _)
    exact kept_singleton.mpr ((kept_singleton.mp kept).imp_left fun held _ => held rfl)
  | others used => exact absurd used (unshared _ _)
  | release msg failed =>
    refine kept.exchange fun token member => ?_
    rw [Multiset.mem_singleton.mp member, released]
    split_ifs <;> rfl
  | send | cancel | receive | add | drain =>
    exact kept_singleton.mpr ((kept_singleton.mp kept).imp_left fun held _ => held rfl)
  | _ => exact kept.exchange (by simp [Move.into, Stage.reserves])

/-! ## The steps of the queue -/

/-- The goroutine of a cancelled `Enqueue` calls `CancelEnqueue` while no other message of
its tenant and key holds a reservation. -/
def CancelsOwn (s : QueueState F) : Soup.Event (QueueThread F) → Prop
  | .act (.enqueue _ (.cancelManager msg)) => ∀ token ∈ tokens s.world s.threads,
      token.1.reserves = true → token.2.tenantID = msg.tenantID → messageKey token.2 ≠ messageKey msg
  | _ => True

/-- The manager has not counted another dead letter. -/
def SameDeadLetters (m m' : Manager F) : Prop :=
  ∀ tenantID, (m'.state tenantID).deadLetter = (m.state tenantID).deadLetter

/-- Only `MarkDeadLetter` counts a dead letter. -/
theorem deadLetter_after {st : TenantState F} (call : TenantCall F)
    (other : ∀ key, call ≠ .markDeadLetter key) :
    (st.after pol call).deadLetter = st.deadLetter := by
  cases call with
  | tryEnqueue now opened info =>
    cases st.tryEnqueue_effect pol now opened info with
    | refused _ _ left | limited _ _ left | overBudget _ _ _ _ left | admitted _ _ _ _ _ left =>
      exact congrArg TenantView.deadLetter left
  | tryStartRun now =>
    cases st.tryStartRun_effect pol now with
    | refused _ left | started _ _ _ left | probe _ _ _ _ left =>
      exact congrArg TenantView.deadLetter left
  | completeRun opened info =>
    obtain ⟨_, -, left⟩ := st.completeRun_effect pol opened info
    exact congrArg TenantView.deadLetter left
  | cancelEnqueue key => exact congrArg TenantView.deadLetter (st.cancelEnqueue_view key)
  | markDeadLetter key => exact absurd rfl (other key)

private theorem sameDeadLetters_setState {st : TenantState F}
    (same : st.deadLetter = (m.state tenantID).deadLetter) :
    SameDeadLetters m (m.setState tenantID st) := by
  intro other
  by_cases here : other = tenantID
  · rw [here, Manager.state_setState, same]
  · rw [Manager.state_setState_of_ne here]

/-- Only the step that dead-letters a message is counted as one. -/
theorem sameDeadLetters_of_step (unshared : ∀ m m', ¬ setting.shared m m')
    (step : setting.soup.system.Step s e t)
    (other : ∀ msg, e ≠ .act (.dispatch (.deadLettering msg))) :
    SameDeadLetters s.world.manager t.world.manager := by
  cases step with
  | spawn _ => exact fun _ => rfl
  | env passed =>
    rcases passed.manager with same | used
    · rw [same]
      exact fun _ => rfl
    · exact absurd used (unshared _ _)
  | @act w w' thread left rest acts =>
    cases acts with
    | enqueue acts =>
      cases acts with
      | admission =>
        exact sameDeadLetters_setState (deadLetter_after (.tryEnqueue _ _ _) nofun)
      | cancelManager =>
        exact sameDeadLetters_setState
          (congrArg TenantView.deadLetter (TenantState.cancelEnqueue_view ..))
      | _ => exact fun _ => rfl
    | ingress acts => cases acts <;> exact fun _ => rfl
    | dispatch acts =>
      cases acts with
      | turn checked more =>
        have turn := w.queue.popTurn_turn w.clock w.manager
        generalize w.queue.popTurn w.clock w.manager = outcome at turn
        cases turn with
        | dropped => exact fun _ => rfl
        | refused | popped =>
          exact sameDeadLetters_setState (deadLetter_after (.tryStartRun _) nofun)
      | complete => exact sameDeadLetters_setState (deadLetter_after (.completeRun _ _) nofun)
      | deadLetter msg => exact absurd rfl (other msg)
      | _ => exact fun _ => rfl
    | _ => exact fun _ => rfl

private theorem deadLetter_books (allowed : Allowed setting b (.deadLetter msg) b') :
    b' = { b with manager := b.manager.markDeadLetter msg.tenantID (messageKey msg) } := by
  cases allowed
  rfl

/-- A step that dead-letters a message finds it finishing, and moves no message. -/
theorem deadLetter_step
    (step : setting.soup.system.Step s (.act (.dispatch (.deadLettering msg))) t) :
    (.finishing, msg) ∈ tokens s.world s.threads ∧
      tokens t.world t.threads = tokens s.world s.threads ∧
      t.world.manager = s.world.manager.markDeadLetter msg.tenantID (messageKey msg) := by
  cases step with
  | act acts =>
    cases acts with
    | dispatch acts =>
      cases acts with
      | deadLetter =>
        refine ⟨mem_tokens_of_carried (Multiset.mem_cons_self ..) (Multiset.mem_singleton_self _),
          ?_, rfl⟩
        rw [tokens_add, tokens_cons, Multiset.singleton_bind]
        rfl

/-- A step that calls `CancelEnqueue` takes a withdrawn message away. -/
theorem cancelManager_step
    (step : setting.soup.system.Step s (.act (.enqueue origin (.cancelManager msg))) t) :
    tokens s.world s.threads = {(.withdrawn origin.isRetry, msg)} + tokens t.world t.threads ∧
      t.world.manager = s.world.manager.cancelEnqueue msg.tenantID (messageKey msg) := by
  cases step with
  | act acts =>
    cases acts with
    | enqueue acts =>
      cases acts with
      | cancelManager =>
        refine ⟨?_, rfl⟩
        rw [tokens_add, tokens_cons, finish_tokens, zero_add, add_assoc]
        rfl

omit [Float64 F] in
private theorem withdrawn_of_carried {thread : QueueThread F}
    (carried : (.withdrawn retry, msg) ∈ thread.tokens) :
    ∃ origin, thread = .enqueue origin (.cancelManager msg) := by
  cases thread with
  | enqueue origin pc =>
    cases pc with
    | cancelManager msg' =>
      cases Multiset.mem_singleton.mp carried
      exact ⟨origin, rfl⟩
    | _ => cases Multiset.mem_singleton.mp carried
  | ingress pc =>
    cases pc with
    | received => cases Multiset.mem_singleton.mp carried
    | _ => cases carried
  | dispatch pc =>
    cases pc with
    | handling | deadLettering | releasing => cases Multiset.mem_singleton.mp carried
    | _ => cases carried
  | retryTimer => cases Multiset.mem_singleton.mp carried
  | _ => cases carried

/-- Only such a step takes a withdrawn message away. -/
theorem cancelManager_of_flow {e : Soup.Event (QueueThread F)} {msg : SQSMessage F}
    (step : setting.soup.system.Step s e t)
    (flow : StateFlow setting s t e (.cancelManager retry msg) others) :
    ∃ origin, e = .act (.enqueue origin (.cancelManager msg)) := by
  have fewer : tokens s.world s.threads = {(.withdrawn retry, msg)} + tokens t.world t.threads := by
    rw [flow.before, flow.after, Move.out, Move.into, zero_add]
  have card := congrArg Multiset.card fewer
  rw [Multiset.card_add, Multiset.card_singleton] at card
  cases step with
  | spawn _ =>
    simp only [tokens, Multiset.cons_bind, Multiset.card_add] at card
    omega
  | env passed =>
    rw [passed.same] at card
    exact absurd card (by simp [tokens, QueueWorld.stock, QueueWorld.succeeded])
  | @act w w' thread left rest acts =>
    rw [tokens_cons, tokens_add, ← add_assoc, add_left_inj] at fewer
    have there : (.withdrawn retry, msg) ∈ thread.tokens + w.stock := by
      rw [fewer]
      exact Multiset.mem_add.mpr (.inl (Multiset.mem_singleton_self _))
    rcases Multiset.mem_add.mp there with carried | stocked
    · obtain ⟨origin, rfl⟩ := withdrawn_of_carried carried
      exact ⟨origin, rfl⟩
    · simp [QueueWorld.stock, stockOf] at stocked

/-- Each message that reserves holds its own reservation. -/
def KeepsReservations (s : QueueState F) : Prop := Kept s.world.manager (tokens s.world s.threads)

private theorem keepsReservations_step_iff {e : Soup.Event (QueueThread F)}
    (unshared : ∀ m m', ¬ setting.shared m m') (reached : setting.soup.system.Reachable s)
    (kept : KeepsReservations s) (step : setting.soup.system.Step s e t) :
    KeepsReservations t ↔ CancelsOwn s e := by
  have keys := keysHeld_of_reachable reached
  unfold KeepsReservations at kept ⊢
  by_cases cancels : ∃ origin msg, e = .act (.enqueue origin (.cancelManager msg))
  · obtain ⟨origin, msg, rfl⟩ := cancels
    obtain ⟨before, left⟩ := cancelManager_step step
    have rewrites := cancelEnqueue_reservation s.world.manager msg
    rw [← left] at rewrites
    rw [before, kept_singleton] at kept
    constructor
    · intro still token member reserves tenant key
      rw [before] at member
      rcases Multiset.mem_add.mp member with here | there
      · rw [Multiset.mem_singleton.mp here] at reserves
        cases reserves
      · have held := still token there reserves
        rw [tenant, key, rewrites.1] at held
        cases held
    · intro own
      refine kept.2.rewrite rewrites fun token member reserves => ?_
      exact own token (before ▸ Multiset.mem_add.mpr (.inr member)) reserves
  · refine iff_of_true ?_ ?_
    · by_cases dead : ∃ msg, e = .act (.dispatch (.deadLettering msg))
      · obtain ⟨msg, rfl⟩ := dead
        obtain ⟨finishing, same, left⟩ := deadLetter_step step
        rw [left, same]
        exact kept.deadLetter keys finishing (markDeadLetter_reservation ..)
      · obtain ⟨move, others, flow⟩ := step_flow reached step
        rw [flow.before] at kept keys
        rw [flow.after]
        refine kept.move unshared keys flow.allowed ?_ ?_
        · rintro retry msg rfl
          obtain ⟨origin, same⟩ := cancelManager_of_flow step flow
          exact cancels ⟨origin, msg, same⟩
        · rintro msg rfl
          have counted := sameDeadLetters_of_step unshared step
            (fun msg same => dead ⟨msg, same⟩) msg.tenantID
          have left : t.world.manager = s.world.manager.markDeadLetter msg.tenantID (messageKey msg) :=
            congrArg Books.manager (deadLetter_books flow.allowed)
          rw [left, Manager.markDeadLetter, Manager.state_setState,
            show TenantState.deadLetter _ = _ from
              congrArg TenantView.deadLetter (TenantState.markDeadLetter_view ..)] at counted
          exact absurd counted (by simp)
    · unfold CancelsOwn
      split
      · exact absurd ⟨_, _, rfl⟩ cancels
      · trivial

private theorem accounted_of_reachable (unshared : ∀ m m', ¬ setting.shared m m')
    (fresh : ∀ m, setting.given m → m.states = ∅) (reached : setting.soup.system.Reachable s) :
    Accounted s.world.manager (tokens s.world s.threads) := by
  refine flow_invariant (J := fun b all => Accounted b.manager all) ?_ ?_ reached
  · intro m given tenantID key reserved found
    rw [Manager.reservation, Manager.state, fresh m given] at found
    cases found
  · exact fun b b' move others accounted allowed => accounted.move unshared allowed

/-- In the channel or just received, pending, or in flight before its `CompleteRun`. -/
def Stage.underway : Stage → Bool
  | .channel | .received | .pending | .handling => true
  | _ => false

/-- With no call of `Enqueue` in progress, the manager holds exactly one reservation for
each live message, its own, and no other. -/
def ReservesLive (s : QueueState F) : Prop :=
  (∀ origin pc, .enqueue origin pc ∉ s.threads) →
    (keysAt Stage.underway (tokens s.world s.threads)).Nodup ∧
      (∀ token ∈ tokens s.world s.threads, token.1.underway = true →
        s.world.manager.reservation token.2.tenantID (messageKey token.2) =
          some (reservationOf token.2)) ∧
      ∀ tenantID key reserved, s.world.manager.reservation tenantID key = some reserved →
        ∃ token ∈ tokens s.world s.threads, token.1.underway = true ∧ token.2.tenantID = tenantID ∧
          messageKey token.2 = key

omit [Float64 F] in
/-- What owes a reservation while no `Enqueue` is in progress is live. -/
theorem underway_of_owes {s : QueueState F} (idle : ∀ origin pc, .enqueue origin pc ∉ s.threads)
    (member : token ∈ tokens s.world s.threads) (owes : token.1.owes = true) :
    token.1.underway = true := by
  rcases Multiset.mem_add.mp member with carried | stocked
  · obtain ⟨thread, running, carried⟩ := Multiset.mem_bind.mp carried
    cases thread with
    | enqueue origin pc => exact absurd running (idle origin pc)
    | ingress pc =>
      cases pc with
      | received => rw [Multiset.mem_singleton.mp carried]; rfl
      | _ => cases carried
    | dispatch pc =>
      cases pc with
      | handling => rw [Multiset.mem_singleton.mp carried]; rfl
      | deadLettering | releasing =>
        rw [Multiset.mem_singleton.mp carried] at owes
        cases owes
      | _ => cases carried
    | retryTimer =>
      rw [Multiset.mem_singleton.mp carried] at owes
      cases owes
    | _ => cases carried
  · simp only [QueueWorld.stock, stockOf, Multiset.mem_add, Multiset.mem_map] at stocked
    rcases stocked with ((⟨msg, -, rfl⟩ | ⟨msg, -, rfl⟩) | ⟨msg, -, rfl⟩) | ⟨msg, -, rfl⟩
    · rfl
    · rfl
    · cases owes
    · cases owes

omit [Float64 F] in
/-- No two live messages have one key. -/
theorem KeysHeld.underway (keys : KeysHeld b all) : (keysAt Stage.underway all).Nodup := by
  have both : (keysAt Stage.queued all + keysAt Stage.inFlight all).Nodup := by
    rw [keys.waits, keys.works]
    exact Multiset.nodup_add.mpr ⟨b.inQueue.nodup, b.inFlight.nodup,
      Multiset.disjoint_left.mpr fun there => Finset.disjoint_left.mp keys.apart there⟩
  refine Multiset.nodup_of_le ?_ both
  rw [keysAt, keysAt, keysAt, ← Multiset.map_add, Multiset.filter_add_filter]
  refine Multiset.map_le_map (le_trans (Multiset.monotone_filter_right _ ?_)
    (Multiset.le_add_right _ _))
  rintro ⟨stage, msg⟩ live
  cases stage <;> first | exact .inl rfl | exact .inr rfl | cases live

private theorem reservesLive_of_kept (unshared : ∀ m m', ¬ setting.shared m m')
    (fresh : ∀ m, setting.given m → m.states = ∅) (reached : setting.soup.system.Reachable s)
    (kept : KeepsReservations s) : ReservesLive s := by
  intro idle
  refine ⟨(keysHeld_of_reachable reached).underway, fun token member live => ?_, ?_⟩
  · refine kept token member ?_
    obtain ⟨stage, msg⟩ := token
    cases stage <;> first | rfl | cases live
  · intro tenantID key reserved found
    obtain ⟨token, member, owes, own⟩ :=
      accounted_of_reachable unshared fresh reached tenantID key reserved found
    exact ⟨token, member, underway_of_owes idle member owes, own⟩

/-- **Reservations of live messages.** In every run of a queue that is the only user of a
fresh manager, each message that was admitted, holds its key and has not completed keeps
its own reservation in every state if and only if each `CancelEnqueue` of a cancelled
`Enqueue` is called while no other message of that tenant and key holds one. In such a run,
whenever no `Enqueue` is in progress, the manager holds exactly one reservation for each
live message, its own, and no other. -/
theorem live_messages_reserved_iff (unshared : ∀ m m', ¬ setting.shared m m')
    (fresh : ∀ m, setting.given m → m.states = ∅)
    {history : List (QueueState F × Soup.Event (QueueThread F))} {s : QueueState F}
    (path : setting.soup.system.Path history s) :
    (Throughout KeepsReservations history s ↔ Within CancelsOwn history) ∧
      (Within CancelsOwn history → Throughout ReservesLive history s) := by
  have exact : Throughout KeepsReservations history s ↔ Within CancelsOwn history := by
    refine path.throughout_iff_within ?_ fun s e t reached =>
      keepsReservations_step_iff unshared reached
    rintro ⟨w, threads⟩ ⟨⟨-, begun⟩, none⟩ token member
    subst none
    rw [begun] at member
    cases member
  refine ⟨exact, fun within => ?_⟩
  have kept := exact.mpr within
  have reached := path.throughout_reachable
  exact ⟨reservesLive_of_kept unshared fresh reached.1 kept.1, fun past member =>
    reservesLive_of_kept unshared fresh (reached.2 past member) (kept.2 past member)⟩

end Reservations

/-! A queue whose manager lets two messages of a tenant wait. -/

def twoAMinute : Policy Rat := { onceAMinute with maxQueued := 2, rateLimitPerMinute := 2 }

def twoWaiting : Setting Rat := ⟨smallQueue, (· = .newManager twoAMinute), True, True, fun _ _ => False⟩

private theorem twoWaiting_fresh (m : Manager Rat) (given : twoWaiting.given m) : m.states = ∅ := by
  rw [show m = .newManager twoAMinute from given]
  rfl

/-- Whether the event is a call of `CancelEnqueue`. -/
def callsCancel : Soup.Event (QueueThread Rat) → Bool
  | .act (.enqueue _ (.cancelManager _)) => true
  | _ => false

/-- The world once the manager has admitted the message. -/
def admittedWorld : QueueWorld Rat where
  queue := { inQueue := {"a#t#r"} }
  manager := ((Manager.newManager twoAMinute).tryEnqueue 1 1 "a" ⟨"a#t#r", 0, 0⟩).2
  clock := 1

/-- `Enqueue` waits for room in the channel. -/
theorem admitted_reached (met : ∀ s e, callsCancel e = false → ok s e) :
    twoWaiting.soup.ReachedWithin ok ⟨admittedWorld, .enqueue .caller (.send firstMessage) ::ₘ 0⟩ := by
  have start : twoWaiting.soup.ReachedWithin ok
      ⟨{ manager := .newManager twoAMinute, clock := 1 }, 0⟩ := .start ⟨rfl, rfl⟩
  have called := start.spawn (.enqueue firstMessage) (met _ _ rfl)
  have prepared := called.turns (.enqueue .caller (.mark firstMessage 1)) (.enqueue (.start _))
    (met _ _ rfl)
  have marked := prepared.turns (.enqueue .caller (.admission firstMessage))
    (.enqueue (.mark _ _ rfl)) (met _ _ rfl)
  exact marked.turns (.enqueue .caller (.send firstMessage))
    (.enqueue (.admission _ 1 (le_refl _))) (met _ _ rfl)

/-- A message is sent: the manager holds its reservation. -/
theorem sent_message_reserved : ∃ history s, twoWaiting.soup.system.Path history s ∧
    (.channel, firstMessage) ∈ tokens s.world s.threads ∧ Throughout ReservesLive history s := by
  have admitted : twoWaiting.soup.ReachedWithin CancelsOwn _ := admitted_reached fun s e other => by
    unfold CancelsOwn
    split
    · cases other
    · trivial
  have sent := admitted.turns (.returned (.ok ())) (.enqueue (.send _ Int.zero_lt_one)) trivial
  obtain ⟨history, path, within⟩ := sent
  exact ⟨history, _, path, by simp [tokens, QueueWorld.stock, stockOf],
    (live_messages_reserved_iff (fun _ _ used => used) twoWaiting_fresh path).2 within⟩

/-- The first `Enqueue` is cancelled and gives up the key; a second one of the same message
is admitted and puts it on the channel; then the first calls `CancelEnqueue`. -/
theorem reservation_lost_late_cancel : ∃ s, twoWaiting.soup.system.Reachable s ∧
    (.channel, firstMessage) ∈ tokens s.world s.threads ∧ ¬ ReservesLive s := by
  have admitted : twoWaiting.soup.ReachedWithin (fun _ _ => True) _ :=
    admitted_reached fun _ _ _ => trivial
  have cancelled := admitted.turns (.enqueue .caller (.cancelUnmark firstMessage))
    (.enqueue (.cancel _ trivial)) trivial
  have withdrawn := cancelled.turns (.enqueue .caller (.cancelManager firstMessage))
    (.enqueue (.cancelUnmark _ rfl)) trivial
  have called := withdrawn.spawn (.enqueue firstMessage) trivial
  have prepared := called.turns (.enqueue .caller (.mark firstMessage 1)) (.enqueue (.start _)) trivial
  have marked := prepared.turns (.enqueue .caller (.admission firstMessage))
    (.enqueue (.mark _ _ rfl)) trivial
  have again := marked.turns (.enqueue .caller (.send firstMessage))
    (.enqueue (.admission _ 1 (le_refl _))) trivial
  have sent := again.turns (.returned (.ok ())) (.enqueue (.send _ Int.zero_lt_one)) trivial
  have late := sent.swap.turns (.returned (.error .cancelled)) (.enqueue (.cancelManager _)) trivial
  refine ⟨_, late.reachable, by simp [tokens, QueueWorld.stock, stockOf], fun reserves => ?_⟩
  have held := (reserves (by simp)).2.1 (.channel, firstMessage)
    (by simp [tokens, QueueWorld.stock, stockOf]) rfl
  cases (cancelEnqueue_reservation _ firstMessage).1.symm.trans held

end AgentForge
