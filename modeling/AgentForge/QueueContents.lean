import AgentForge.KeyedLists
import AgentForge.QueueSystem

/-! What the operations of a `MemoryQueue` do to the messages it holds. A turn of
`popEligibleLocked` either finds nothing, or moves one message out of the pending list
of the tenant for which the manager started a run. -/
namespace AgentForge

open KeyedLists

section QueueContents

variable {F : Type}

theorem normalizeTenant_idem (tenantID : String) :
    normalizeTenant (normalizeTenant tenantID) = normalizeTenant tenantID := by
  by_cases empty : tenantID = "" <;> simp [normalizeTenant, empty]

/-- `Enqueue`'s copy has the key of the message it was given. -/
theorem messageKey_prepareMessage (msg : SQSMessage F) :
    messageKey (prepareMessage msg) = messageKey msg := by
  simp [messageKey, prepareMessage, normalizeTenant_idem]

namespace MemoryQueue

variable {now : Time} {q : MemoryQueue F} {msg : SQSMessage F}

theorem addPending_eq (q : MemoryQueue F) (msg : SQSMessage F) :
    ∃ order, q.addPending msg = { q with
      tenantOrder := order
      pending := q.pending.insert (normalizeTenant msg.tenantID)
        ((q.pending.lookup (normalizeTenant msg.tenantID)).getD [] ++ [msg]) } := by
  unfold addPending
  dsimp only
  cases q.pending.lookup (normalizeTenant msg.tenantID) with
  | none => exact ⟨_, rfl⟩
  | some waiting => exact ⟨_, rfl⟩

@[simp]
theorem addPending_contents (q : MemoryQueue F) (msg : SQSMessage F) :
    contents (q.addPending msg).pending = msg ::ₘ contents q.pending := by
  obtain ⟨order, same⟩ := addPending_eq q msg
  rw [same]
  exact contents_insert_append rfl

section Fields

variable (q : MemoryQueue F) (msg : SQSMessage F)

@[simp]
theorem addPending_ch : (q.addPending msg).ch = q.ch := by
  obtain ⟨order, same⟩ := addPending_eq q msg
  rw [same]

@[simp]
theorem addPending_dlq : (q.addPending msg).dlq = q.dlq := by
  obtain ⟨order, same⟩ := addPending_eq q msg
  rw [same]

@[simp]
theorem addPending_inQueue : (q.addPending msg).inQueue = q.inQueue := by
  obtain ⟨order, same⟩ := addPending_eq q msg
  rw [same]

@[simp]
theorem addPending_inFlight : (q.addPending msg).inFlight = q.inFlight := by
  obtain ⟨order, same⟩ := addPending_eq q msg
  rw [same]

@[simp]
theorem addPending_recent : (q.addPending msg).recent = q.recent := by
  obtain ⟨order, same⟩ := addPending_eq q msg
  rw [same]

/-- `Enqueue`'s first section marks a key that is neither queued nor in flight, or
changes nothing but the keys remembered. -/
theorem mark_cases (cfg : MemoryQueueConfig) (now : Time) (key : String) :
    (q.mark cfg now key).1 = false ∧ (q.pruneRecent cfg now).duplicate cfg now key = true ∧
        (q.mark cfg now key).2 = q.pruneRecent cfg now ∨
      (q.mark cfg now key).1 = true ∧ key ∉ q.inQueue ∧ key ∉ q.inFlight ∧
        (q.mark cfg now key).2 =
          { q.pruneRecent cfg now with inQueue := insert key q.inQueue } := by
  unfold mark
  by_cases found : (q.pruneRecent cfg now).duplicate cfg now key
  · simp [found]
  · refine .inr ⟨by simp [found], ?_, ?_, by simp [found]; rfl⟩
    · intro there
      exact found (by simp [duplicate, pruneRecent, there])
    · intro there
      exact found (by simp [duplicate, pruneRecent, there])

theorem releaseAttempt_eq (cfg : MemoryQueueConfig) (now : Time) (failed final : Bool) :
    ∃ recent, q.releaseAttempt cfg now msg failed final = { q with
      inFlight := q.inFlight.erase (messageKey msg)
      recent := recent
      dlq := if final then q.dlq ++ [msg] else q.dlq } := by
  unfold releaseAttempt
  cases final <;> cases failed <;> exact ⟨_, rfl⟩

/-- What a redrive takes and what it leaves. -/
theorem takeDeadLetters_append (limit : Int) :
    q.dlq = (q.takeDeadLetters limit).1 ++ (q.takeDeadLetters limit).2.dlq :=
  (List.take_append_drop ..).symm

theorem mark_dlq (cfg : MemoryQueueConfig) (now : Time) (key : String) :
    (q.mark cfg now key).2.dlq = q.dlq := by
  rcases mark_cases q cfg now key with ⟨-, -, same⟩ | ⟨-, -, -, same⟩
  all_goals
    rw [same]
    rfl

end Fields

/-! ## The keys remembered -/

theorem lookup_pruneRecent (found : (q.pruneRecent cfg now).recent.lookup key = some ts) :
    q.recent.lookup key = some ts ∧ now - ts ≤ cfg.dedupeWindow := by
  have member := AList.mem_lookup_iff.mp (Option.mem_def.mpr found)
  obtain ⟨there, kept⟩ := List.mem_filter.mp member
  exact ⟨AList.mem_lookup_iff.mpr there, of_decide_eq_true kept⟩

/-- A duplicate is queued, in flight, or remembered. -/
theorem duplicate_cases (found : (q.pruneRecent cfg now).duplicate cfg now key = true) :
    key ∈ q.inQueue ∨ key ∈ q.inFlight ∨ ∃ ts, q.recent.lookup key = some ts := by
  unfold duplicate at found
  rcases Bool.or_eq_true_iff.mp found with marked | remembered
  · rcases Bool.or_eq_true_iff.mp marked with queued | flying
    · exact .inl (of_decide_eq_true queued)
    · exact .inr (.inl (of_decide_eq_true flying))
  · cases there : (q.pruneRecent cfg now).recent.lookup key with
    | none => simp [there] at remembered
    | some ts => exact .inr (.inr ⟨ts, (lookup_pruneRecent there).1⟩)

/-- A key that is marked is not remembered. -/
theorem lookup_recent_of_mark (marked : (q.mark cfg now key).1 = true) :
    (q.mark cfg now key).2.recent.lookup key = none := by
  unfold mark at marked ⊢
  dsimp only at marked ⊢
  split at marked
  · cases marked
  · rename_i fresh
    rw [if_neg fresh]
    cases found : (q.pruneRecent cfg now).recent.lookup key with
    | none => rfl
    | some ts =>
      refine absurd ?_ fresh
      simp [duplicate, found, (lookup_pruneRecent found).2]

theorem lookup_recent_mark (found : (q.mark cfg now key).2.recent.lookup other = some ts) :
    q.recent.lookup other = some ts := by
  rcases mark_cases q cfg now key with ⟨-, -, same⟩ | ⟨-, -, -, same⟩
  all_goals
    rw [same] at found
    exact (lookup_pruneRecent found).1

/-- `finishAttempt` remembers the key of a message that is done with, and no other. -/
theorem lookup_recent_releaseAttempt
    (found : (q.releaseAttempt cfg now msg failed final).recent.lookup other = some ts) :
    q.recent.lookup other = some ts ∨ other = messageKey msg ∧ (failed = true → final = true) := by
  have pruned : ({ q with
      recent := if !failed || final then q.recent.insert (messageKey msg) now else q.recent
      }.pruneRecent cfg now).recent.lookup other = some ts := by
    revert found
    unfold releaseAttempt
    cases failed <;> cases final <;> exact id
  have kept := (lookup_pruneRecent pruned).1
  dsimp only at kept
  split at kept
  · rename_i settled
    by_cases same : other = messageKey msg
    · refine .inr ⟨same, fun didFail => ?_⟩
      simpa [didFail] using settled
    · rw [AList.lookup_insert_ne same] at kept
      exact .inl kept
  · exact .inl kept

/-! ## A turn of the dispatcher -/

/-- The message a turn dispatches is the one it takes out of the pending lists. -/
theorem contents_of_popped {tenantID : String} {pending : GoMap (List (SQSMessage F))}
    (found : q.pending.lookup tenantID = some (msg :: rest))
    (left : rest = [] ∧ pending = q.pending.erase tenantID ∨
      pending = q.pending.insert tenantID rest) :
    contents q.pending = msg ::ₘ contents pending := by
  rcases left with ⟨rfl, rfl⟩ | rfl
  · exact contents_eq_cons_erase found
  · exact contents_eq_cons_insert found

variable [Float64 F]

/-- What a turn of `popEligibleLocked` may do. -/
inductive Turn (q : MemoryQueue F) (now : Time) (m : Manager F) :
    PopResult F × MemoryQueue F × Manager F → Prop where
  | dropped {order : List String} {nextTenant : Nat} (tenantID : String)
      (empty : (q.pending.lookup tenantID).getD [] = []) :
      Turn q now m (.dropped, { q with
        pending := q.pending.erase tenantID
        tenantOrder := order
        nextTenant := nextTenant }, m)
  | refused {nextTenant : Nat} {violation : PolicyViolation} (tenantID : String)
      (refused : (m.tryStartRun now tenantID).1 = .error violation) :
      Turn q now m (.refused, { q with nextTenant := nextTenant }, (m.tryStartRun now tenantID).2)
  | popped {order : List String} {nextTenant : Nat} {msg : SQSMessage F}
      {rest : List (SQSMessage F)} {pending : GoMap (List (SQSMessage F))} (tenantID : String)
      (found : q.pending.lookup tenantID = some (msg :: rest))
      (started : (m.tryStartRun now tenantID).1 = .ok ())
      (left : rest = [] ∧ pending = q.pending.erase tenantID ∨
        pending = q.pending.insert tenantID rest) :
      Turn q now m (.popped msg, { q with
        pending := pending
        tenantOrder := order
        nextTenant := nextTenant
        inQueue := q.inQueue.erase (messageKey msg)
        inFlight := insert (messageKey msg) q.inFlight }, (m.tryStartRun now tenantID).2)

theorem popTurn_turn (q : MemoryQueue F) (now : Time) (m : Manager F) :
    Turn q now m (q.popTurn now m) := by
  unfold popTurn
  dsimp only
  generalize q.tenantOrder.getD (q.nextTenant % q.tenantOrder.length) "" = tenantID
  cases found : q.pending.lookup tenantID with
  | none => exact .dropped tenantID (by rw [found]; rfl)
  | some waiting =>
    cases waiting with
    | nil => exact .dropped tenantID (by rw [found]; rfl)
    | cons msg rest =>
      cases answered : m.tryStartRun now tenantID with
      | mk answer m' =>
        have left : m' = (m.tryStartRun now tenantID).2 := by rw [answered]
        cases answer with
        | error violation =>
          subst left
          exact .refused tenantID (by rw [answered])
        | ok started =>
          subst left
          cases rest with
          | nil => exact .popped tenantID found (by rw [answered]) (.inl ⟨rfl, rfl⟩)
          | cons next rest => exact .popped tenantID found (by rw [answered]) (.inr rfl)

end MemoryQueue

end QueueContents

end AgentForge
