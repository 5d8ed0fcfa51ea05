import AgentForge.KeyExclusion

/-! A message that was put on the channel is live until it succeeds or is dead-lettered.
Its key is marked while it is queued and while it is in flight, so that another `Enqueue`
of the key changes nothing then; from a failed attempt until the retry marks the key again
nothing marks it.

Each key is followed on its own: who holds it, which attempt of it the log has open, and
whether it is remembered. As long as no caller enqueues a key that is open and held by
nobody in the queue or in flight, these three agree. -/
namespace AgentForge

open Transition

section LiveMessages

variable {F : Type}

/-! ## The account of the log -/

/-- The attempt last put on the channel with this key, if that message has neither
succeeded nor been dead-lettered since. -/
def unsettled (cfg : MemoryQueueConfig) (key : String) : List (LogEntry F) → Option Int
  | [] => none
  | .sent _ msg :: log => if messageKey msg = key then some msg.attempt else unsettled cfg key log
  | .dispatched _ :: log => unsettled cfg key log
  | .finished msg failed :: log =>
    if key = messageKey msg ∧ (failed = true → isFinalFailure cfg msg failed = true) then none
    else unsettled cfg key log

/-- Whatever is put on the channel while its key is unsettled is the next attempt. -/
def CountsOn (cfg : MemoryQueueConfig) : List (LogEntry F) → Prop
  | [] => True
  | .sent _ msg :: log =>
    (∀ attempt, unsettled cfg (messageKey msg) log = some attempt → msg.attempt = attempt + 1) ∧
      CountsOn cfg log
  | .dispatched _ :: log | .finished .. :: log => CountsOn cfg log

/-- What a move does to the account of a key. -/
def Move.account (cfg : MemoryQueueConfig) (key : String) (before : Option Int) :
    Move F → Option Int
  | .send _ msg => if messageKey msg = key then some msg.attempt else before
  | .release msg failed =>
    if key = messageKey msg ∧ (failed = true → isFinalFailure cfg msg failed = true) then none
    else before
  | _ => before

theorem Told.account (told : Told cfg w w' e move) (key : String) :
    unsettled cfg key w'.log = move.account cfg key (unsettled cfg key w.log) := by
  obtain ⟨entries, log, tells⟩ := told.log
  rw [log]
  cases tells with
  | send | pop | release => rfl
  | silent silent =>
    cases move with
    | send | pop | release => cases silent
    | _ => rfl

/-! ## The holders of a key -/

/-- What a holder of a key is about: putting a message on the channel for the first time,
the attempt on its way from there, or the next one. -/
inductive Role where
  | entering | attempting | retrying
  deriving DecidableEq

def Stage.role : Stage → Option Role
  | .admitting false | .refused false | .sending false | .cancelling false => some .entering
  | .channel | .received | .pending | .handling | .finishing => some .attempting
  | .timer | .offered true | .prepared true | .admitting true | .refused true | .sending true
  | .cancelling true => some .retrying
  | .offered false | .prepared false | .withdrawn _ | .dead | .done => none

/-- The attempt that is open while one with this number is held in this role. -/
def Role.opened (attempt : Int) : Role → Option Int
  | .entering => none
  | .attempting => some attempt
  | .retrying => some (attempt - 1)

/-- In the channel, just received, pending, in flight, or waiting for the next attempt to
be put on the channel. -/
def Stage.live : Stage → Bool
  | .channel | .received | .pending | .handling | .finishing | .timer | .offered true
  | .prepared true | .admitting true | .sending true => true
  | _ => false

/-- The holders of a key, each with the number of its attempt. -/
def holders (key : String) (all : Multiset (Token F)) : Multiset (Role × Int) :=
  all.filterMap fun token =>
    if messageKey token.2 = key then token.1.role.map fun role => (role, token.2.attempt) else none

section Holders

private theorem holders_in (same : messageKey msg = key) (held : stage.role = some role) :
    holders key ({(stage, msg)} + all) = (role, msg.attempt) ::ₘ holders key all := by
  rw [holders, Multiset.singleton_add]
  exact Multiset.filterMap_cons_some _ _ _ (by simp [same, held])

private theorem holders_free (free : stage.role = none) :
    holders key ({(stage, msg)} + all) = holders key all := by
  rw [holders, Multiset.singleton_add]
  exact Multiset.filterMap_cons_none _ _ (by simp [free])

private theorem holders_of_ne (other : messageKey msg ≠ key) :
    holders key ({(stage, msg)} + all) = holders key all := by
  rw [holders, Multiset.singleton_add]
  exact Multiset.filterMap_cons_none _ _ (by simp [other])

/-- A message that goes on in its role. -/
theorem holders_relay (sameKey : messageKey msg' = messageKey msg)
    (sameAttempt : msg'.attempt = msg.attempt) (sameRole : stage'.role = stage.role) :
    holders key ({(stage', msg')} + all) = holders key ({(stage, msg)} + all) := by
  by_cases own : messageKey msg = key
  · cases held : stage.role with
    | none => rw [holders_free (sameRole.trans held), holders_free held]
    | some role =>
      rw [holders_in (sameKey.trans own) (sameRole.trans held), holders_in own held, sameAttempt]
  · rw [holders_of_ne own, holders_of_ne (sameKey ▸ own)]

private theorem holders_dead (batch : Multiset (SQSMessage F)) :
    holders key (batch.map (Prod.mk .dead) + all) = holders key all := by
  induction batch using Multiset.induction with
  | empty => rw [Multiset.map_zero, zero_add]
  | cons msg batch ih =>
    rw [Multiset.map_cons, ← Multiset.singleton_add, add_assoc, holders_free rfl, ih]

private theorem mem_holders (member : holder ∈ holders key all) :
    ∃ token ∈ all, messageKey token.2 = key ∧ token.1.role = some holder.1 := by
  obtain ⟨token, there, found⟩ := (Multiset.mem_filterMap _ _).mp member
  split at found
  · rename_i same
    obtain ⟨role, held, rfl⟩ := Option.map_eq_some_iff.mp found
    exact ⟨token, there, same, held⟩
  · cases found

end Holders

/-! ## The standing of a key -/

/-- Holders, account and memory of a key that agree. A key that is open and has no holder
is one whose retry was given up. -/
inductive Standing : Multiset (Role × Int) → Option Int → Option Time → Prop where
  | idle (recent : Option Time) : Standing 0 none recent
  | entering (attempt : Int) : Standing {(.entering, attempt)} none none
  | attempting (attempt : Int) : Standing {(.attempting, attempt)} (some attempt) none
  | retrying (attempt : Int) : Standing {(.retrying, attempt + 1)} (some attempt) none
  | given_up (attempt : Int) : Standing 0 (some attempt) none

namespace Standing

private theorem forget (standing : Standing held account recent)
    (kept : ∀ ts, recent' = some ts → recent = some ts) : Standing held account recent' := by
  have none_of_none : recent = none → recent' = none := by
    rintro rfl
    cases recent' with
    | none => rfl
    | some ts => cases kept ts rfl
  cases standing with
  | idle => exact .idle recent'
  | entering attempt =>
    rw [none_of_none rfl]
    exact .entering attempt
  | attempting attempt =>
    rw [none_of_none rfl]
    exact .attempting attempt
  | retrying attempt =>
    rw [none_of_none rfl]
    exact .retrying attempt
  | given_up attempt =>
    rw [none_of_none rfl]
    exact .given_up attempt

private theorem card_le (standing : Standing held account recent) : Multiset.card held ≤ 1 := by
  cases standing with
  | idle | given_up => exact Nat.zero_le 1
  | _ => exact Nat.le_refl 1

/-- An open key is not remembered. -/
theorem forgotten (standing : Standing held account recent) (isOpen : account.isSome) :
    recent = none := by
  cases standing with
  | idle => cases isOpen
  | _ => rfl

section Holder

variable (standing : Standing ((role, attempt) ::ₘ held) account recent)

include standing

/-- A holder is the only one, and its role says what the account is. -/
theorem only : held = 0 ∧ recent = none ∧ account = role.opened attempt := by
  generalize same : (role, attempt) ::ₘ held = all at standing
  cases standing with
  | idle | given_up => exact absurd same Multiset.cons_ne_zero
  | entering | attempting =>
    obtain ⟨first, rfl⟩ := (Multiset.singleton_eq_cons_iff _).mp same.symm
    cases first
    exact ⟨rfl, rfl, rfl⟩
  | retrying before =>
    obtain ⟨first, rfl⟩ := (Multiset.singleton_eq_cons_iff _).mp same.symm
    cases first
    exact ⟨rfl, rfl, by rw [Role.opened, add_sub_cancel_right]⟩

/-- A message that never came to the channel, or a retry, is given up. -/
theorem leave (other : role ≠ .attempting) : Standing held account recent := by
  obtain ⟨rfl, rfl, rfl⟩ := standing.only
  cases role with
  | entering => exact .idle none
  | attempting => exact absurd rfl other
  | retrying => exact .given_up _

/-- It comes to the channel. -/
theorem send : Standing ((.attempting, attempt) ::ₘ held) (some attempt) recent := by
  obtain ⟨rfl, rfl, -⟩ := standing.only
  exact .attempting attempt

end Holder

/-- The attempt fails, and is not the last. -/
theorem fail (standing : Standing ((.attempting, attempt) ::ₘ held) account recent) :
    Standing ((.retrying, attempt + 1) ::ₘ held) account recent := by
  obtain ⟨rfl, rfl, rfl⟩ := standing.only
  exact .retrying attempt

/-- The message is done with. -/
theorem settle (standing : Standing ((.attempting, attempt) ::ₘ held) account recent) :
    Standing held none recent' := by
  obtain ⟨rfl, -, -⟩ := standing.only
  exact .idle recent'

end Standing

/-- A message goes on in its role. -/
theorem Standing.relay (standing : Standing (holders key ({(stage, msg)} + others)) account recent)
    (sameKey : messageKey msg' = messageKey msg) (sameAttempt : msg'.attempt = msg.attempt)
    (sameRole : stage'.role = stage.role) :
    Standing (holders key ({(stage', msg')} + others)) account recent := by
  rwa [holders_relay sameKey sameAttempt sameRole]

/-- A message that is not on its way to a worker is given up. -/
theorem Standing.gone (standing : Standing (holders key ({(stage, msg)} + others)) account recent)
    (other : stage.role ≠ some .attempting) : Standing (holders key others) account recent := by
  by_cases own : messageKey msg = key
  · cases held : stage.role with
    | none => rwa [holders_free held] at standing
    | some role =>
      rw [holders_in own held] at standing
      exact standing.leave fun attempting => other (attempting ▸ held)
  · rwa [holders_of_ne own] at standing

theorem Standing.sent (standing : Standing (holders key ({(stage, msg)} + others)) account recent)
    (held : stage.role = some role) :
    Standing (holders key ({(.channel, msg)} + others))
      (if messageKey msg = key then some msg.attempt else account) recent := by
  split
  · rename_i own
    rw [holders_in own held] at standing
    rw [holders_in own rfl]
    exact standing.send
  · rename_i other
    rw [holders_of_ne other] at standing ⊢
    exact standing

theorem Standing.released
    (standing : Standing (holders key ({(.finishing, msg)} + others)) account recent)
    (kept : ¬ (Move.release msg failed).Settles cfg key →
      ∀ ts, recent' = some ts → recent = some ts) :
    Standing (holders key ({released cfg msg failed} + others))
      ((Move.release msg failed).account cfg key account) recent' := by
  by_cases own : messageKey msg = key
  · rw [holders_in own rfl] at standing
    by_cases settled : failed = true → isFinalFailure cfg msg failed = true
    · have closed : (Move.release msg failed).account cfg key account = none :=
        if_pos ⟨own.symm, settled⟩
      rw [closed, AgentForge.released]
      split_ifs with didFail final
      · rw [holders_free rfl]
        exact standing.settle
      · exact absurd (settled didFail) final
      · rw [holders_free rfl]
        exact standing.settle
    · have still : (Move.release msg failed).account cfg key account = account :=
        if_neg fun both => settled both.2
      obtain ⟨didFail, more⟩ := Classical.not_imp.mp settled
      have next : messageKey (retryMessage msg) = key := own
      rw [still, AgentForge.released, if_pos didFail, if_neg more, holders_in next rfl]
      exact standing.fail.forget (kept fun both => settled both.2)
  · have still : (Move.release msg failed).account cfg key account = account :=
      if_neg fun both => own both.1.symm
    have next : messageKey (retryMessage msg) ≠ key := own
    have left : holders key ({AgentForge.released cfg msg failed} + others) = holders key others := by
      unfold AgentForge.released
      split_ifs
      · exact holders_of_ne own
      · exact holders_of_ne next
      · exact holders_of_ne own
    rw [holders_of_ne own] at standing
    rw [still, left]
    exact standing.forget (kept fun both => own both.1.symm)

/-! ## Attempts are numbered from 1 -/

/-- From `Enqueue`'s own copy of a message to its release, and while it is to be retried. -/
def Stage.numbered : Stage → Bool
  | .offered false | .dead | .done => false
  | _ => true

def Numbered (all : Multiset (Token F)) : Prop :=
  ∀ token ∈ all, token.1.numbered = true → 1 ≤ token.2.attempt

private theorem numbered_singleton :
    Numbered ({(stage, msg)} + all) ↔
      (stage.numbered = true → 1 ≤ msg.attempt) ∧ Numbered all := by
  simp [Numbered, Multiset.mem_cons]

private theorem one_le_prepareMessage (msg : SQSMessage F) : 1 ≤ (prepareMessage msg).attempt := by
  unfold prepareMessage
  dsimp only
  split <;> omega

/-- A number from 1 on is kept. -/
theorem prepareMessage_attempt (positive : 1 ≤ msg.attempt) :
    (prepareMessage msg).attempt = msg.attempt := by
  unfold prepareMessage
  exact if_neg (by omega)

variable [Float64 F] {setting : Setting F}

theorem Numbered.move {move : Move F} (held : Numbered (move.out + others))
    (allowed : Allowed setting b move b') :
    Numbered (move.into setting.cfg.normalize + others) := by
  cases allowed with
  | prepare retry msg =>
    rw [Move.out, numbered_singleton] at held
    exact numbered_singleton.mpr ⟨fun _ => one_le_prepareMessage msg, held.2⟩
  | fire msg =>
    rw [Move.out, numbered_singleton] at held
    exact numbered_singleton.mpr ⟨fun _ => held.1 rfl, held.2⟩
  | release msg failed =>
    rw [Move.out, numbered_singleton] at held
    have positive := held.1 rfl
    rw [Move.into, released]
    split_ifs
    · exact numbered_singleton.mpr ⟨(fun dead => by cases dead), held.2⟩
    · exact numbered_singleton.mpr ⟨fun _ => by simp only [retryMessage]; omega, held.2⟩
    · exact numbered_singleton.mpr ⟨(fun done => by cases done), held.2⟩
  | redrive batch allowed =>
    intro token member
    exact held token (Multiset.mem_add.mpr (.inr (by simpa [Move.into] using member)))
  | _ =>
    -- The message stays as it is, or is not counted any more.
    simp only [Move.out, Move.into, zero_add, numbered_singleton, Stage.numbered] at held ⊢
    tauto

private theorem numbered_of_reachable (reached : setting.soup.system.Reachable s) :
    Numbered (tokens s.world s.threads) :=
  flow_invariant (J := fun _ all => Numbered all) (fun _ _ => by simp [Numbered])
    (fun _ _ _ _ held allowed => held.move allowed) reached

/-! ## Moves keep the standing -/

/-- Every move keeps the standing of a key, if one that marks the key for a caller finds
it idle. -/
theorem Standing.move {move : Move F}
    (standing : Standing (holders key (move.out + others)) account recent)
    (numbered : Numbered (move.out + others))
    (kept : ¬ move.Settles setting.cfg.normalize key → ∀ ts, recent' = some ts → recent = some ts)
    (marked : ∀ msg, move = .mark false msg → messageKey msg = key →
      holders key others = 0 ∧ account = none ∧ recent' = none)
    (allowed : Allowed setting b move b') :
    Standing (holders key (move.into setting.cfg.normalize + others))
      (move.account setting.cfg.normalize key account) recent' := by
  cases allowed with
  | quiet | passBy | deadLetter | others => exact standing.forget (kept id)
  | offer | putBack =>
    rw [Move.out, zero_add] at standing
    rw [Move.into, holders_free rfl]
    exact standing.forget (kept id)
  | prepare retry msg =>
    cases retry with
    | false =>
      rw [Move.out, holders_free rfl] at standing
      rw [Move.into, holders_free rfl]
      exact standing.forget (kept id)
    | true =>
      have same := prepareMessage_attempt ((numbered_singleton.mp numbered).1 rfl)
      exact (standing.forget (kept id)).relay (messageKey_prepareMessage msg) same rfl
  | @mark retry msg =>
    cases retry with
    | false =>
      by_cases own : messageKey msg = key
      · obtain ⟨free, rfl, rfl⟩ := marked msg rfl own
        rw [Move.into, holders_in own rfl, free]
        exact .entering msg.attempt
      · rw [Move.out, holders_of_ne own] at standing
        rw [Move.into, holders_of_ne own]
        exact standing.forget (kept id)
    | true => exact (standing.forget (kept id)).relay rfl rfl rfl
  | admission retry | refuse retry | @cancel retry =>
    cases retry <;> exact (standing.forget (kept id)).relay rfl rfl rfl
  | duplicate retry | unmark retry =>
    rw [Move.into, zero_add]
    cases retry <;> exact (standing.gone (by decide)).forget (kept id)
  | cancelUnmark retry =>
    rw [Move.into, holders_free rfl]
    cases retry <;> exact (standing.gone (by decide)).forget (kept id)
  | cancelManager | giveUp =>
    rw [Move.into, zero_add]
    exact (standing.gone (by simp [Stage.role])).forget (kept id)
  | send retry => cases retry <;> exact (standing.sent rfl).forget (kept id)
  | receive | add | drain | pop | complete | fire =>
    exact (standing.forget (kept id)).relay rfl rfl rfl
  | release => exact standing.released kept
  | redrive batch =>
    rw [Move.out, holders_dead] at standing
    rw [Move.into, zero_add]
    exact standing.forget (kept id)

/-! ## Runs -/

/-- Every key stands well, and attempts count on. -/
structure Followed (cfg : MemoryQueueConfig) (s : QueueState F) : Prop where
  standing : ∀ key, Standing (holders key (tokens s.world s.threads))
    (unsettled cfg key s.world.log) (s.world.queue.recent.lookup key)
  countsOn : CountsOn cfg s.world.log

/-- An `Enqueue` by anyone but a retry, of a key that is not settled, returns nil at its
first look at the key, and the queue keeps its messages and its marks. -/
def TurnedAway (cfg : MemoryQueueConfig) (s : QueueState F) :
    Soup.Event (QueueThread F) → QueueState F → Prop
  | .act (.enqueue origin (.mark msg now)), t =>
    origin.isRetry = false → (unsettled cfg (messageKey msg) s.world.log).isSome →
      ∃ rest, s.threads = .enqueue origin (.mark msg now) ::ₘ rest ∧
        t.threads = origin.finish (.ok ()) + rest ∧
        t.world.queue = { s.world.queue with recent := t.world.queue.recent } ∧
        t.world.log = s.world.log
  | _, _ => True

/-- When it looks, the message is in the queue or in flight: it neither waits for its next
attempt nor was the retry given up. -/
def CopyHeld (cfg : MemoryQueueConfig) (s : QueueState F) : Soup.Event (QueueThread F) → Prop
  | .act (.enqueue origin (.mark msg _)) =>
    origin.isRetry = false → (unsettled cfg (messageKey msg) s.world.log).isSome →
      messageKey msg ∈ keysAt Stage.queued (tokens s.world s.threads) ∨
        messageKey msg ∈ keysAt Stage.inFlight (tokens s.world s.threads)
  | _ => True

section Runs

variable {s : QueueState F} {key : String}

omit [Float64 F] in
theorem KeysHeld.queued_iff (held : KeysHeld b all) :
    key ∈ keysAt Stage.queued all ↔ key ∈ b.inQueue := by
  rw [held.waits, Finset.mem_val]

omit [Float64 F] in
theorem KeysHeld.inFlight_iff (held : KeysHeld b all) :
    key ∈ keysAt Stage.inFlight all ↔ key ∈ b.inFlight := by
  rw [held.works, Finset.mem_val]

private theorem queued_of_entering {stage : Stage} (entering : stage.role = some .entering) :
    stage.queued = true := by
  cases stage with
  | admitting retry | refused retry | sending retry | cancelling retry => rfl
  | offered retry | prepared retry => cases retry <;> cases entering
  | _ => cases entering

omit [Float64 F] in
/-- A key that is settled and not marked has no holder. -/
theorem Standing.idle_of_free {recent : Option Time}
    (standing : Standing (holders key all) none recent) (free : key ∉ keysAt Stage.queued all) :
    holders key all = 0 := by
  generalize same : holders key all = held at standing
  cases standing with
  | idle => rfl
  | entering attempt =>
    obtain ⟨token, member, own, entering⟩ := mem_holders (same ▸ Multiset.mem_singleton_self _)
    exact absurd (mem_keysAt.mpr ⟨token, member, queued_of_entering entering, own⟩) free

/-- A key is marked only if it is neither queued nor in flight. -/
theorem Allowed.mark_free (allowed : Allowed setting b (.mark retry msg) b') :
    messageKey msg ∉ b.inQueue ∧ messageKey msg ∉ b.inFlight := by
  cases allowed with
  | mark retry notQueued notInFlight => exact ⟨notQueued, notInFlight⟩

theorem Followed.step (followed : Followed setting.cfg.normalize s)
    (reached : setting.soup.system.Reachable s) (copied : CopyHeld setting.cfg.normalize s e)
    (step : setting.soup.system.Step s e t) : Followed setting.cfg.normalize t := by
  obtain ⟨move, others, flow, told⟩ := step_told reached step
  have keys := keysHeld_of_reachable reached
  refine ⟨fun key => ?_, ?_⟩
  · have before := followed.standing key
    have numbered := numbered_of_reachable reached
    rw [flow.before] at before numbered
    rw [flow.after, told.account key]
    refine before.move numbered ?_ ?_ flow.allowed
    · exact fun open' ts found => (told.recent key ts found).resolve_right open'
    · rintro msg rfl rfl
      obtain ⟨forgotten, origin, now, rfl, external⟩ := told.marked false msg rfl
      obtain ⟨notQueued, notInFlight⟩ := flow.allowed.mark_free
      have closed : unsettled setting.cfg.normalize (messageKey msg) s.world.log = none := by
        rw [← Option.not_isSome_iff_eq_none]
        intro isOpen
        rcases copied external isOpen with queued | flying
        · exact notQueued (keys.queued_iff.mp queued)
        · exact notInFlight (keys.inFlight_iff.mp flying)
      have free : messageKey msg ∉ keysAt Stage.queued ((Move.mark false msg).out + others) := by
        rw [← flow.before, keys.queued_iff]
        exact notQueued
      rw [closed] at before
      have idle := before.idle_of_free free
      rw [Move.out, holders_free rfl] at idle
      exact ⟨idle, closed, forgotten⟩
  · obtain ⟨entries, log, tells⟩ := told.log
    rw [log]
    cases tells with
    | send origin msg =>
      refine ⟨fun attempt isOpen => ?_, followed.countsOn⟩
      have sameOpen : unsettled setting.cfg.normalize (messageKey msg) s.world.log = some attempt :=
        isOpen
      have before := followed.standing (messageKey msg)
      rw [flow.before, sameOpen] at before
      cases retried : origin.isRetry with
      | false =>
        rw [retried, Move.out, holders_in rfl rfl] at before
        cases before.only.2.2
      | true =>
        rw [retried, Move.out, holders_in rfl rfl] at before
        have same : attempt = msg.attempt - 1 := Option.some.inj before.only.2.2
        omega
    | pop | release | silent => exact followed.countsOn

/-- The call is turned away exactly if the message is in the queue or in flight. -/
theorem turnedAway_iff (followed : Followed setting.cfg.normalize s)
    (reached : setting.soup.system.Reachable s) (step : setting.soup.system.Step s e t) :
    TurnedAway setting.cfg.normalize s e t ↔ CopyHeld setting.cfg.normalize s e := by
  have keys := keysHeld_of_reachable reached
  cases step with
  | spawn | env => exact Iff.rfl
  | @act w w' thread left rest acts =>
    cases acts with
    | @enqueue origin pc _ _ acts =>
      cases acts with
      | mark msg now unlocked =>
        refine forall_congr' fun external => forall_congr' fun isOpen => ?_
        rcases w.queue.mark_cases setting.cfg.normalize now (messageKey msg) with
          ⟨no, found, same⟩ | ⟨yes, notQueued, notInFlight, same⟩
        · refine iff_of_true ⟨rest, rfl, ?_, ?_, rfl⟩ ?_
          · simp only [no, Bool.false_eq_true, if_false]
          · simp only [same]
            rfl
          · rcases MemoryQueue.duplicate_cases found with queued | flying | ⟨ts, remembered⟩
            · exact .inl (keys.queued_iff.mpr queued)
            · exact .inr (keys.inFlight_iff.mpr flying)
            · cases ((followed.standing (messageKey msg)).forgotten isOpen).symm.trans remembered
        · refine iff_of_false ?_ ?_
          · rintro ⟨-, -, -, kept, -⟩
            have unmarked := congrArg MemoryQueue.inQueue kept
            simp only [same] at unmarked
            exact notQueued (unmarked ▸ Finset.mem_insert_self ..)
          · rintro (queued | flying)
            · exact notQueued (keys.queued_iff.mp queued)
            · exact notInFlight (keys.inFlight_iff.mp flying)
      | _ => exact Iff.rfl
    | _ => exact Iff.rfl

/-- In a run whose calls meet the condition every key is followed, and they meet it exactly
if they are turned away. -/
theorem followed_of_path (path : setting.soup.system.Path history s) :
    (System.Along (TurnedAway setting.cfg.normalize) history s ↔
      System.Within (CopyHeld setting.cfg.normalize) history) ∧
    (System.Within (CopyHeld setting.cfg.normalize) history →
      Followed setting.cfg.normalize s) := by
  induction path with
  | @start s begun =>
    refine ⟨iff_of_true trivial (by simp [System.Within]), fun _ => ?_⟩
    obtain ⟨w, threads⟩ := s
    obtain ⟨⟨-, fresh⟩, none⟩ := begun
    obtain rfl : threads = 0 := none
    have new : w = { manager := w.manager, clock := w.clock } := fresh
    rw [new]
    exact ⟨fun key => .idle _, trivial⟩
  | @next history s t e before step ih =>
    obtain ⟨same, follows⟩ := ih
    rw [System.Along, System.within_cons, same]
    refine ⟨?_, fun within => (follows within.2).step ⟨_, before⟩ within.1 step⟩
    exact and_congr_left fun within => turnedAway_iff (follows within) ⟨_, before⟩ step

private theorem role_of_live {stage : Stage} (live : stage.live = true) :
    ∃ role, stage.role = some role := by
  cases stage with
  | channel | received | pending | handling | finishing | timer => exact ⟨_, rfl⟩
  | offered retry | prepared retry | admitting retry | sending retry =>
    cases retry with
    | false => cases live
    | true => exact ⟨_, rfl⟩
  | _ => cases live

omit [Float64 F] in
/-- Whoever is live holds its key. -/
theorem count_live_le (key : String) (all : Multiset (Token F)) :
    (keysAt Stage.live all).count key ≤ Multiset.card (holders key all) := by
  induction all using Multiset.induction with
  | empty => exact Nat.zero_le _
  | cons token all ih =>
    obtain ⟨stage, msg⟩ := token
    rw [← Multiset.singleton_add, keysAt_singleton]
    split_ifs with live
    · obtain ⟨role, held⟩ := role_of_live live
      by_cases own : messageKey msg = key
      · rw [holders_in own held, own, Multiset.count_cons_self, Multiset.card_cons]
        omega
      · rw [holders_of_ne own, Multiset.count_cons_of_ne fun same => own same.symm]
        exact ih
    · have grown : Multiset.card (holders key all) ≤
          Multiset.card (holders key ({(stage, msg)} + all)) :=
        Multiset.card_le_card (Multiset.filterMap_le_filterMap _ (Multiset.le_add_left ..))
      omega

omit [Float64 F] in
theorem Followed.live_nodup (followed : Followed cfg s) :
    (keysAt Stage.live (tokens s.world s.threads)).Nodup := by
  rw [Multiset.nodup_iff_count_le_one]
  intro key
  have most := count_live_le key (tokens s.world s.threads)
  have one := (followed.standing key).card_le
  omega

/-- **A live message is alone while nobody enqueues it between two attempts.** In every run,
the calls of `Enqueue` that are not retries and whose key is not settled are all turned away
with nil and leave the queue's messages alone, if and only if each of them comes while the
message is in the queue or in flight. No key then has two live messages, and whatever is put
on the channel before its key is settled counts its attempts on. -/
theorem live_message_alone_iff {history : List (QueueState F × Soup.Event (QueueThread F))}
    (path : setting.soup.system.Path history s) :
    (System.Along (TurnedAway setting.cfg.normalize) history s ↔
      System.Within (CopyHeld setting.cfg.normalize) history) ∧
    (System.Within (CopyHeld setting.cfg.normalize) history →
      (keysAt Stage.live (tokens s.world s.threads)).Nodup ∧
        CountsOn setting.cfg.normalize s.world.log) := by
  obtain ⟨same, follows⟩ := followed_of_path path
  exact ⟨same, fun within => ⟨(follows within).live_nodup, (follows within).countsOn⟩⟩

end Runs

end LiveMessages

/-! ## A message enqueued again -/

section EnqueuedAgain

/-- A queue whose tenants have the default limits. -/
def relaxedSetting : Setting Rat :=
  ⟨smallQueue, (· = .newManager ⟨0, 0, 0, 0, 0, 0, 0⟩), False, False, fun _ _ => False⟩

/-- The message is with a worker. -/
def busyWorld : QueueWorld Rat where
  queue := { inFlight := {"a#t#r"} }
  manager := ((((Manager.newManager ⟨0, 0, 0, 0, 0, 0, 0⟩).tryEnqueue 1 1 "a"
    ⟨"a#t#r", 0, 0⟩).2).tryStartRun 1 "a").2
  clock := 1
  log := [.dispatched firstMessage, .sent .caller firstMessage]

theorem busy_reached : relaxedSetting.soup.ReachedWithin (CopyHeld smallQueue.normalize)
    ⟨busyWorld, .dispatch (.handling firstMessage) ::ₘ .ingress .waiting ::ₘ
      .returned (.ok ()) ::ₘ 0⟩ := by
  have start : relaxedSetting.soup.ReachedWithin (CopyHeld smallQueue.normalize)
      ⟨{ manager := .newManager ⟨0, 0, 0, 0, 0, 0, 0⟩, clock := 1 }, 0⟩ := .start ⟨rfl, rfl⟩
  have called := start.spawn (.enqueue firstMessage) trivial
  have prepared := called.turns (.enqueue .caller (.mark firstMessage 1)) (.enqueue (.start _))
    trivial
  have marked := prepared.turns (.enqueue .caller (.admission firstMessage))
    (.enqueue (.mark _ _ rfl)) (by rintro - ⟨⟩)
  have admitted := marked.turns (.enqueue .caller (.send firstMessage))
    (.enqueue (.admission _ 1 (le_refl _))) trivial
  have sent := admitted.turns (.returned (.ok ())) (.enqueue (.send _ Int.zero_lt_one)) trivial
  have listening := sent.spawn .ingress trivial
  have received := listening.turns (.ingress (.received firstMessage)) (.ingress (.receive rfl))
    trivial
  have added := received.turns (.ingress .draining) (.ingress (.lock _ rfl)) trivial
  have pending := added.turns (.ingress .waiting) (.ingress (.drained rfl)) trivial
  have idle := pending.spawn .dispatch trivial
  have locked := idle.turns (.dispatch (.popping 0)) (.dispatch (.lock rfl)) trivial
  exact locked.turns (.dispatch (.handling firstMessage)) (.dispatch (.turn _ Nat.zero_lt_one))
    trivial

/-- Enqueued again while a worker has it, the message is turned away. -/
theorem live_message_alone_in_flight : ∃ history s,
    relaxedSetting.soup.system.Path history s ∧
      (∃ past ∈ history, past.2 = .act (.enqueue .caller (.mark firstMessage 1)) ∧
        unsettled smallQueue.normalize "a#t#r" past.1.world.log = some 1) ∧
      System.Along (TurnedAway smallQueue.normalize) history s := by
  have called := busy_reached.spawn (.enqueue firstMessage) trivial
  have prepared := called.turns (.enqueue .caller (.mark firstMessage 1)) (.enqueue (.start _))
    trivial
  obtain ⟨history, path, within⟩ := prepared
  have turned := path.next (.act (.enqueue (.mark _ _ rfl)))
  refine ⟨_, _, turned, ⟨_, List.mem_cons_self .., rfl, rfl⟩,
    (live_message_alone_iff turned).1.mpr (System.within_cons.mpr ⟨fun _ _ => .inr ?_, within⟩)⟩
  have running : QueueThread.dispatch (.handling firstMessage) ∈
      QueueThread.enqueue .caller (.mark firstMessage 1) ::ₘ .dispatch (.handling firstMessage) ::ₘ
        .ingress .waiting ::ₘ .returned (.ok ()) ::ₘ 0 :=
    Multiset.mem_cons_of_mem (Multiset.mem_cons_self ..)
  exact mem_keysAt.mpr ⟨(.handling, firstMessage),
    mem_tokens_of_carried running (Multiset.mem_singleton_self _), rfl, rfl⟩

/-- The first attempt has failed. -/
def waitingWorld : QueueWorld Rat :=
  { busyWorld with
    queue := {}
    manager := busyWorld.manager.completeRun 1 "a"
      (completionInfo smallQueue.normalize firstMessage true)
    log := .finished firstMessage true :: busyWorld.log }

/-- Enqueued again while it waits for its second attempt, the message is put on the channel
as a first attempt beside the one that waits. -/
theorem waiting_message_doubled : ∃ s, relaxedSetting.soup.system.Reachable s ∧
    s.world.queue.ch = [firstMessage] ∧
      .retryTimer (retryMessage firstMessage) 250000001 ∈ s.threads ∧
      keysAt Stage.live (tokens s.world s.threads) = {"a#t#r", "a#t#r"} ∧
      ¬ CountsOn smallQueue.normalize s.world.log := by
  have completed := busy_reached.turns (.dispatch (.releasing firstMessage true))
    (.dispatch (.complete _ true)) trivial
  have released : relaxedSetting.soup.ReachedWithin (CopyHeld smallQueue.normalize)
      ⟨waitingWorld, .dispatch .idle ::ₘ .retryTimer (retryMessage firstMessage) 250000001 ::ₘ
        .ingress .waiting ::ₘ .returned (.ok ()) ::ₘ 0⟩ :=
    completed.act (.dispatch (.release _ _ rfl)) trivial
  have called := released.spawn (.enqueue firstMessage) trivial
  have prepared := called.turns (.enqueue .caller (.mark firstMessage 1)) (.enqueue (.start _))
    trivial
  obtain ⟨history, path, -⟩ := prepared
  have again : relaxedSetting.soup.ReachedWithin (fun _ _ => True) _ :=
    ⟨history, path, fun _ _ => trivial⟩
  have marked := again.turns (.enqueue .caller (.admission firstMessage))
    (.enqueue (.mark _ _ rfl)) trivial
  have admitted := marked.turns (.enqueue .caller (.send firstMessage))
    (.enqueue (.admission _ 1 (le_refl _))) trivial
  have sent := admitted.turns (.returned (.ok ())) (.enqueue (.send _ Int.zero_lt_one)) trivial
  refine ⟨_, sent.reachable, rfl, ?_, rfl, ?_⟩
  · dsimp only
    exact Multiset.mem_cons_of_mem (Multiset.mem_cons_of_mem (Multiset.mem_cons_self ..))
  · intro counts
    have two : (1 : Int) = 1 + 1 := counts.1 1 rfl
    omega

end EnqueuedAgain

end AgentForge
