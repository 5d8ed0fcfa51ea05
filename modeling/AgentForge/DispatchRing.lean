import AgentForge.QueueFlow
import AgentForge.RoundRobin

/-! The ring of a `MemoryQueue`: `tenantOrder` has each tenant with pending messages once
and no other, and `nextTenant` points into it. A turn of `popEligibleLocked` is then a
visit of the first tenant due, which is passed by if the manager refuses it, and gives
its first message otherwise. -/
namespace AgentForge

open Transition RoundRobin

section DispatchRing

variable {F : Type}

/-- The tenants in the order in which they are due. -/
def MemoryQueue.due (q : MemoryQueue F) : List String := turns q.tenantOrder q.nextTenant

/-- The ring is the tenants with pending messages. -/
structure RingOk (q : MemoryQueue F) : Prop where
  distinct : q.due.Nodup
  waiting : ∀ tenantID, tenantID ∈ q.due ↔
    ∃ msg rest, q.pending.lookup tenantID = some (msg :: rest)
  filled : ∀ tenantID, q.pending.lookup tenantID ≠ some []
  cursor : q.nextTenant = 0 ∨ q.nextTenant < q.tenantOrder.length

variable {q q' : MemoryQueue F} {msg : SQSMessage F} {tenantID : String}
  {more : List (SQSMessage F)}

private theorem RingOk.congr (ok : RingOk q) (same : q'.ring = q.ring) : RingOk q' := by
  obtain ⟨pending, order, next⟩ :
      q'.pending = q.pending ∧ q'.tenantOrder = q.tenantOrder ∧ q'.nextTenant = q.nextTenant := by
    simpa [MemoryQueue.ring] using same
  have list : q'.due = q.due := by rw [MemoryQueue.due, order, next, MemoryQueue.due]
  exact ⟨list ▸ ok.distinct, list ▸ pending ▸ ok.waiting, pending ▸ ok.filled,
    order ▸ next ▸ ok.cursor⟩

private theorem RingOk.empty : RingOk ({} : MemoryQueue F) where
  distinct := List.nodup_nil
  waiting tenantID := by
    constructor
    · intro member
      cases member
    · rintro ⟨msg, rest, found⟩
      cases found
  filled tenantID found := by cases found
  cursor := .inl rfl

theorem RingOk.inside (ok : RingOk q) (some : q.tenantOrder ≠ []) :
    q.nextTenant < q.tenantOrder.length := by
  rcases ok.cursor with zero | inside
  · rw [zero]
    exact List.length_pos_iff.mpr some
  · exact inside

theorem RingOk.not_due (ok : RingOk q) (absent : q.pending.lookup tenantID = none) :
    tenantID ∉ q.due := by
  intro member
  obtain ⟨msg, rest, found⟩ := (ok.waiting tenantID).mp member
  rw [absent] at found
  cases found

/-! ## Adding a message -/

/-- A tenant that is not in the ring joins it at the end of the list. -/
theorem RingOk.due_join (ok : RingOk q)
    (absent : q.pending.lookup (normalizeTenant msg.tenantID) = none) :
    (q.addPending msg).due = q.tenantOrder.drop q.nextTenant ++
      normalizeTenant msg.tenantID :: q.tenantOrder.take q.nextTenant := by
  have inside : q.nextTenant ≤ q.tenantOrder.length := by
    rcases ok.cursor with zero | inside
    · rw [zero]
      exact Nat.zero_le _
    · exact inside.le
  simp only [MemoryQueue.due, MemoryQueue.addPending, absent]
  exact turns_append inside

/-- One that is keeps its place. -/
theorem due_stay (found : q.pending.lookup (normalizeTenant msg.tenantID) = some waiting) :
    (q.addPending msg).due = q.due := by
  simp only [MemoryQueue.due, MemoryQueue.addPending, found]

theorem RingOk.addPending (ok : RingOk q) (msg : SQSMessage F) : RingOk (q.addPending msg) := by
  obtain ⟨order, same⟩ := q.addPending_eq msg
  have lookup : ∀ tenantID, (q.addPending msg).pending.lookup tenantID =
      if tenantID = normalizeTenant msg.tenantID then
        some ((q.pending.lookup (normalizeTenant msg.tenantID)).getD [] ++ [msg])
      else q.pending.lookup tenantID := by
    intro tenantID
    rw [same]
    split_ifs with here
    · rw [here, AList.lookup_insert]
    · rw [AList.lookup_insert_ne here]
  have filled : ∀ tenantID, (q.addPending msg).pending.lookup tenantID ≠ some [] := by
    intro tenantID
    rw [lookup]
    split_ifs
    · simp
    · exact ok.filled tenantID
  cases found : q.pending.lookup (normalizeTenant msg.tenantID) with
  | none =>
    have joined := ok.due_join found
    have perm : (q.addPending msg).due.Perm (normalizeTenant msg.tenantID :: q.due) := by
      rw [joined]
      exact List.perm_middle
    refine ⟨perm.nodup_iff.mpr (List.nodup_cons.mpr ⟨ok.not_due found, ok.distinct⟩), ?_, filled, ?_⟩
    · intro tenantID
      rw [perm.mem_iff, List.mem_cons, ok.waiting, lookup]
      split_ifs with here
      · simp [here, found]
      · simp [here]
    · rcases ok.cursor with zero | inside
      · left
        simpa [MemoryQueue.addPending, found] using zero
      · right
        simp only [MemoryQueue.addPending, found, List.length_append]
        exact Nat.lt_add_right _ inside
  | some waiting =>
    have stayed := due_stay found
    refine ⟨stayed ▸ ok.distinct, ?_, filled, ?_⟩
    · intro tenantID
      rw [stayed, ok.waiting, lookup]
      split_ifs with here
      · cases waiting with
        | nil => exact absurd found (ok.filled _)
        | cons first rest =>
          exact iff_of_true ⟨first, rest, here ▸ found⟩ ⟨first, rest ++ [msg], by simp [found]⟩
      · rfl
    · simpa [MemoryQueue.addPending, found] using ok.cursor

/-! ## A turn -/

variable [Float64 F] {now : Time} {m : Manager F}

/-- A visit of the first tenant due. -/
inductive Visit (q : MemoryQueue F) (now : Time) (m : Manager F) :
    MemoryQueue.PopResult F → MemoryQueue F → Prop where
  | refused {q' : MemoryQueue F} {tenantID : String} {rest : List String}
      {violation : PolicyViolation} (first : q.due = tenantID :: rest)
      (error : (m.tryStartRun now tenantID).1 = .error violation)
      (passed : q'.due = rest ++ [tenantID]) (kept : q'.pending = q.pending)
      (cursor : q'.nextTenant < q'.tenantOrder.length) : Visit q now m .refused q'
  | popped {q' : MemoryQueue F} {tenantID : String} {rest : List String} {msg : SQSMessage F}
      {more : List (SQSMessage F)} (first : q.due = tenantID :: rest)
      (found : q.pending.lookup tenantID = some (msg :: more))
      (left : more = [] ∧ q'.due = rest ∧ q'.pending = q.pending.erase tenantID ∨
        more ≠ [] ∧ q'.due = rest ++ [tenantID] ∧ q'.pending = q.pending.insert tenantID more)
      (cursor : q'.nextTenant = 0 ∨ q'.nextTenant < q'.tenantOrder.length) :
      Visit q now m (.popped msg) q'

omit [Float64 F] in
private theorem removeTenant_cursor (q : MemoryQueue F) (idx : Nat) :
    (q.removeTenant idx).nextTenant = 0 ∨
      (q.removeTenant idx).nextTenant < (q.removeTenant idx).tenantOrder.length := by
  unfold MemoryQueue.removeTenant
  dsimp only
  split_ifs with last
  · exact .inl rfl
  · exact .inr (not_le.mp last)

theorem RingOk.visit (ok : RingOk q) (some : q.tenantOrder ≠ []) (now : Time) (m : Manager F) :
    Visit q now m (q.popTurn now m).1 (q.popTurn now m).2.1 := by
  have inside := ok.inside some
  obtain ⟨tenantID, rest, first⟩ : ∃ tenantID rest, q.due = tenantID :: rest := by
    cases list : q.due with
    | nil => exact absurd ((turns_perm _ _).symm.trans (.of_eq list)).eq_nil some
    | cons tenantID rest => exact ⟨tenantID, rest, rfl⟩
  obtain ⟨msg, more, found⟩ := (ok.waiting tenantID).mp (first ▸ List.mem_cons_self ..)
  have under : q.tenantOrder.getD q.nextTenant "" = tenantID := by
    rw [List.getD_eq_getElem?_getD, getElem?_of_turns inside first]
    rfl
  have length : 0 < q.tenantOrder.length := List.length_pos_iff.mpr some
  unfold MemoryQueue.popTurn
  dsimp only
  rw [Nat.mod_eq_of_lt inside, under, found]
  dsimp only [Option.getD_some]
  cases answered : m.tryStartRun now tenantID with
  | mk answer m' =>
    cases answer with
    | error violation =>
      exact .refused first (by rw [answered]) (turns_advance inside first) rfl
        (Nat.mod_lt _ length)
    | ok started =>
      cases more with
      | nil =>
        exact .popped first found (.inl ⟨rfl, turns_remove inside first, rfl⟩)
          (removeTenant_cursor { q with pending := q.pending.erase tenantID } q.nextTenant)
      | cons next more =>
        exact .popped first found
          (.inr ⟨List.cons_ne_nil _ _, turns_advance inside first, rfl⟩) (.inr (Nat.mod_lt _ length))

theorem RingOk.of_visit (ok : RingOk q) (visit : Visit q now m result q') : RingOk q' := by
  cases visit with
  | @refused _ tenantID rest violation first error passed kept cursor =>
    have perm : q'.due.Perm q.due := by
      rw [passed, first]
      exact List.perm_append_singleton tenantID rest
    exact ⟨perm.nodup_iff.mpr ok.distinct, fun other => by rw [perm.mem_iff, kept, ok.waiting],
      kept ▸ ok.filled, .inr cursor⟩
  | @popped _ tenantID rest msg more first found left cursor =>
    have distinct := ok.distinct
    rw [first] at distinct
    obtain ⟨notAgain, distinct⟩ := List.nodup_cons.mp distinct
    have others : ∀ other, other ≠ tenantID → (other ∈ rest ↔
        ∃ msg rest, q.pending.lookup other = some (msg :: rest)) := by
      intro other apart
      rw [← ok.waiting, first, List.mem_cons]
      simp [apart]
    rcases left with ⟨rfl, due, pending⟩ | ⟨more', due, pending⟩
    · refine ⟨due ▸ distinct, fun other => ?_, fun other => ?_, cursor⟩
      · rw [due, pending]
        by_cases same : other = tenantID
        · subst same
          rw [AList.lookup_erase]
          simp [notAgain]
        · rw [AList.lookup_erase_ne same, others other same]
      · rw [pending]
        by_cases same : other = tenantID
        · subst same
          rw [AList.lookup_erase]
          simp
        · rw [AList.lookup_erase_ne same]
          exact ok.filled other
    · have perm : q'.due.Perm (tenantID :: rest) := by
        rw [due]
        exact List.perm_append_singleton tenantID rest
      refine ⟨perm.nodup_iff.mpr (List.nodup_cons.mpr ⟨notAgain, distinct⟩), fun other => ?_,
        fun other => ?_, cursor⟩
      · rw [perm.mem_iff, List.mem_cons, pending]
        by_cases same : other = tenantID
        · subst same
          obtain ⟨next, more, rfl⟩ := List.exists_cons_of_ne_nil more'
          rw [AList.lookup_insert]
          exact iff_of_true (.inl rfl) ⟨next, more, rfl⟩
        · rw [AList.lookup_insert_ne same, ← others other same]
          simp [same]
      · rw [pending]
        by_cases same : other = tenantID
        · subst same
          rw [AList.lookup_insert]
          simpa using more'
        · rw [AList.lookup_insert_ne same]
          exact ok.filled other

/-- The ring of every reachable state is the tenants with pending messages. -/
theorem ringOk_of_reachable {setting : Setting F} (reached : setting.soup.system.Reachable s) :
    RingOk s.world.queue := by
  refine Soup.invariant (J := fun w _ => RingOk w.queue) ?_ ?_ ?_ ?_ reached
  · rintro w ⟨-, fresh⟩
    rw [fresh]
    exact .empty
  · intro w threads thread held started
    exact held
  · intro w w' thread left rest held acts
    rcases acts.ring_cases with same | ⟨msg, same⟩ | ⟨some, now, m, same⟩
    · exact held.congr same
    · exact (held.addPending msg).congr same
    · exact (held.of_visit (held.visit some now m)).congr same
  · intro w w' threads held passed
    rw [passed.same]
    exact held

end DispatchRing

end AgentForge
