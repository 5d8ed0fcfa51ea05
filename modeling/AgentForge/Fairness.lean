import Mathlib.Data.Finset.Card
import AgentForge.DispatchRing
import AgentForge.TenantEffects

/-! How often a tenant of a `MemoryQueue` can be overtaken. While it has something
pending and the manager would start a run for it, every other tenant is served at most
once between two of its turns, unless a tenant that was served and left the ring joins it
again at the end of the list after the cursor has passed the waiting one. -/
namespace AgentForge

open Transition RoundRobin KeyedLists

section Fairness

variable {F : Type} [Float64 F]

/-- The two operations on the ring: a message arrives, or a worker looks for one to
handle, with the manager and the clock as they are then. -/
inductive DispatchOp (F : Type) where
  | add (msg : SQSMessage F)
  | pop (clock : Nat → Time) (m : Manager F)

namespace DispatchOp

/-- The queue after an operation. -/
def run (q : MemoryQueue F) : DispatchOp F → MemoryQueue F
  | .add msg => q.addPending msg
  | .pop clock m => (MemoryQueue.popEligible clock q m).2.1

/-- The tenant of the message an operation dispatches, if it does. -/
def served (q : MemoryQueue F) : DispatchOp F → Option String
  | .add _ => none
  | .pop clock m =>
    (MemoryQueue.popEligible clock q m).1.map fun msg => normalizeTenant msg.tenantID

end DispatchOp

/-- The sequences of operations from a given queue. -/
def dispatching (start : MemoryQueue F) : System (MemoryQueue F) (DispatchOp F) where
  Initial q := q = start
  Step q op q' := q' = op.run q

/-- The tenants served in a sequence of operations, latest first. -/
def servedTenants (history : List (MemoryQueue F × DispatchOp F)) : List String :=
  history.filterMap fun past => past.2.served past.1

/-- The tenants served since the last turn of one, or since the beginning. -/
def servedSince (tenantID : String) (history : List (MemoryQueue F × DispatchOp F)) : List String :=
  ahead tenantID (servedTenants history)

/-- The tenants that were in the ring at some time. -/
def tenantsSeen (history : List (MemoryQueue F × DispatchOp F)) (q : MemoryQueue F) :
    Finset String :=
  (q.tenantOrder ++ history.flatMap fun past => past.1.tenantOrder).toFinset

def HasPending (tenantID : String) (q : MemoryQueue F) : Prop :=
  ∃ msg rest, q.pending.lookup tenantID = some (msg :: rest)

/-- Whenever the ring is looked at, `TryStartRun` would succeed for the tenant. -/
def WouldStart (tenantID : String) (_ : MemoryQueue F) : DispatchOp F → Prop
  | .add _ => True
  | .pop clock m => ∀ turn, (m.tryStartRun (clock turn) tenantID).1 = .ok ()

/-- No tenant joins the ring behind the waiting one that was served since its turn. -/
def RejoinsFairly (tenantID : String) : List (MemoryQueue F × DispatchOp F) → Prop
  | [] => True
  | (q, .add msg) :: earlier =>
    (q.pending.lookup (normalizeTenant msg.tenantID) = none →
        q.tenantOrder.idxOf tenantID < q.nextTenant →
        normalizeTenant msg.tenantID ∉ servedSince tenantID earlier) ∧
      RejoinsFairly tenantID earlier
  | (_, .pop ..) :: earlier => RejoinsFairly tenantID earlier

/-! ## One pop -/

variable {q q' : MemoryQueue F} {tenantID other : String} {served : List String}

/-- A queue whose ring and pending lists are in order. -/
structure Orderly (q : MemoryQueue F) : Prop where
  ring : RingOk q
  sorted : Sorted (fun msg => normalizeTenant msg.tenantID) q.pending

/-- What `popEligibleLocked` may do while a tenant waits. -/
inductive Pops (tenantID : String) (served : List String) (q : MemoryQueue F) :
    Option (SQSMessage F) → MemoryQueue F → Prop where
  | none {q' : MemoryQueue F} (waits : Waits tenantID served q'.due) :
      Pops tenantID served q none q'
  | other {q' : MemoryQueue F} {msg : SQSMessage F}
      (apart : normalizeTenant msg.tenantID ≠ tenantID)
      (there : normalizeTenant msg.tenantID ∈ q.due)
      (waits : Waits tenantID (normalizeTenant msg.tenantID :: served) q'.due) :
      Pops tenantID served q (some msg) q'
  | turn {q' : MemoryQueue F} {msg : SQSMessage F} (own : normalizeTenant msg.tenantID = tenantID)
      (waits : HasPending tenantID q' → Waits tenantID [] q'.due) :
      Pops tenantID served q (some msg) q'

omit [Float64 F] in
private theorem Pops.mono (pops : Pops tenantID served q result q')
    (within : ∀ other ∈ q.due, other ∈ start.due) : Pops tenantID served start result q' := by
  cases pops with
  | none waits => exact .none waits
  | other apart there waits => exact .other apart (within _ there) waits
  | turn own waits => exact .turn own waits

/-- A call for one tenant leaves the answer to another as it was. -/
theorem tryStartRun_of_ne (m : Manager F) (now now' : Time) (apart : other ≠ tenantID) :
    (((m.tryStartRun now tenantID).2).tryStartRun now' other).1 = (m.tryStartRun now' other).1 := by
  have state : (m.tryStartRun now tenantID).2.state other = m.state other :=
    Manager.state_setState_of_ne apart
  have policy : (m.tryStartRun now tenantID).2.policy other = m.policy other := rfl
  simp only [Manager.tryStartRun] at state policy ⊢
  rw [state, policy]

/-- Only the answer to the tenant that is passed by changes. -/
theorem popTurn_manager (turn : q.popTurn now m = (.refused, q', m'))
    (starts : (m.tryStartRun now tenantID).1 = .ok ()) (now' : Time) :
    (m'.tryStartRun now' tenantID).1 = (m.tryStartRun now' tenantID).1 := by
  unfold MemoryQueue.popTurn at turn
  dsimp only at turn
  generalize q.tenantOrder.getD (q.nextTenant % q.tenantOrder.length) "" = visited at turn
  cases waiting : (q.pending.lookup visited).getD [] with
  | nil => simp [waiting] at turn
  | cons msg rest =>
    rw [waiting] at turn
    rcases answered : m.tryStartRun now visited with ⟨answer, left⟩
    rw [answered] at turn
    cases answer with
    | ok started => simp at turn
    | error violation =>
      have apart : tenantID ≠ visited := by
        rintro rfl
        rw [answered] at starts
        cases starts
      have kept := tryStartRun_of_ne m now now' apart
      rw [answered] at kept
      simp only [Prod.mk.injEq, true_and] at turn
      rw [← turn.2]
      exact kept

/-- The loop of `popEligibleLocked` while a tenant waits that it could start. -/
theorem popLoop_pops (clock : Nat → Time) (turns : Nat) : ∀ (checked : Nat) (q : MemoryQueue F)
    (m : Manager F), Orderly q → Waits tenantID served q.due →
    (∀ turn, (m.tryStartRun (clock turn) tenantID).1 = .ok ()) →
    Orderly (MemoryQueue.popLoop clock turns checked q m).2.1 ∧
      Pops tenantID served q (MemoryQueue.popLoop clock turns checked q m).1
        (MemoryQueue.popLoop clock turns checked q m).2.1 := by
  induction turns with
  | zero => exact fun checked q m ok waits starts => ⟨ok, .none waits⟩
  | succ turns ih =>
    intro checked q m ok waits starts
    unfold MemoryQueue.popLoop
    split_ifs with more
    · have visit := ok.ring.visit (List.ne_nil_of_length_pos (Nat.zero_lt_of_lt more))
        (clock turns) m
      rcases turn : q.popTurn (clock turns) m with ⟨answer, q', m'⟩
      rw [turn] at visit
      have ring := ok.ring.of_visit visit
      cases visit with
      | @refused _ visited rest violation first error passed kept cursor =>
        have other : visited ≠ tenantID := by
          rintro rfl
          rw [starts] at error
          cases error
        rw [first] at waits
        obtain ⟨ok', pops⟩ := ih (checked + 1) q' m' ⟨ring, kept ▸ ok.sorted⟩
          (passed ▸ waits.skip other) fun later => (popTurn_manager turn (starts turns) _).trans (starts later)
        refine ⟨ok', pops.mono fun other there => ?_⟩
        rw [passed] at there
        rw [first]
        simpa [or_comm] using there
      | @popped _ visited rest msg more first found left cursor =>
        have own : normalizeTenant msg.tenantID = visited :=
          ok.sorted visited _ found msg (List.mem_cons_self ..)
        have sorted : Sorted (fun msg => normalizeTenant msg.tenantID) q'.pending := by
          rcases left with ⟨-, -, pending⟩ | ⟨-, -, pending⟩
          · exact pending ▸ ok.sorted.erase
          · exact pending ▸ ok.sorted.insert fun other member =>
              ok.sorted visited _ found other (List.mem_cons_of_mem _ member)
        refine ⟨⟨ring, sorted⟩, ?_⟩
        rw [first] at waits
        by_cases same : visited = tenantID
        · refine .turn (own.trans same) fun pending => ?_
          exact .start ring.distinct ((ring.waiting tenantID).mpr pending)
        · refine .other (own ▸ same) (by simp [own, first]) ?_
          rw [own]
          rcases left with ⟨-, due, -⟩ | ⟨-, due, -⟩
          · exact due ▸ waits.serve_last same
          · exact due ▸ waits.serve same
    · exact ⟨ok, .none waits⟩

/-! ## A sequence of operations -/

variable {history : List (MemoryQueue F × DispatchOp F)}

/-- What holds while a tenant waits. -/
structure Waiting (tenantID : String) (history : List (MemoryQueue F × DispatchOp F))
    (q : MemoryQueue F) : Prop where
  orderly : Orderly q
  waits : Waits tenantID (servedSince tenantID history) q.due

private theorem servedTenants_cons_none (none : op.served q = none) :
    servedTenants ((q, op) :: history) = servedTenants history := by
  simp [servedTenants, none]

private theorem servedTenants_cons_some (some : op.served q = some other) :
    servedTenants ((q, op) :: history) = other :: servedTenants history := by
  simp [servedTenants, some]

/-- A newcomer that was served since is due before the waiting tenant only if the cursor
has passed that one. -/
theorem Waiting.add (waiting : Waiting tenantID history q)
    (fair : q.pending.lookup (normalizeTenant msg.tenantID) = none →
      q.tenantOrder.idxOf tenantID < q.nextTenant →
      normalizeTenant msg.tenantID ∉ servedSince tenantID history) :
    Waiting tenantID ((q, .add msg) :: history) (q.addPending msg) := by
  have since : servedSince tenantID ((q, .add msg) :: history) = servedSince tenantID history := by
    rw [servedSince, servedTenants_cons_none rfl, servedSince]
  refine ⟨⟨waiting.orderly.ring.addPending msg, sorted_addPending waiting.orderly.sorted⟩, ?_⟩
  rw [since]
  cases found : q.pending.lookup (normalizeTenant msg.tenantID) with
  | some list =>
    rw [due_stay found]
    exact waiting.waits
  | none =>
    rw [waiting.orderly.ring.due_join found]
    refine waiting.waits.join (waiting.orderly.ring.not_due found) fun again => ?_
    refine mem_drop_of_le_idxOf ((turns_perm _ _).mem_iff.mp waiting.waits.present) ?_
    exact not_lt.mp fun passed => fair found passed again

private theorem Waiting.pop (waiting : Waiting tenantID history q)
    (starts : WouldStart tenantID q (.pop clock m))
    (pending : HasPending tenantID ((DispatchOp.pop clock m).run q)) :
    Waiting tenantID ((q, .pop clock m) :: history) ((DispatchOp.pop clock m).run q) := by
  obtain ⟨orderly, pops⟩ := popLoop_pops clock q.tenantOrder.length 0 q m waiting.orderly
    waiting.waits starts
  refine ⟨orderly, ?_⟩
  generalize called : MemoryQueue.popLoop clock q.tenantOrder.length 0 q m = outcome at pops
  have served : (DispatchOp.pop clock m).served q =
      outcome.1.map fun msg => normalizeTenant msg.tenantID := called ▸ rfl
  have left : (DispatchOp.pop clock m).run q = outcome.2.1 := called ▸ rfl
  rw [left] at pending ⊢
  obtain ⟨result, q', m'⟩ := outcome
  rw [servedSince]
  cases pops with
  | none waits =>
    rw [servedTenants_cons_none served]
    exact waits
  | other apart there waits =>
    rw [servedTenants_cons_some served, ahead_cons apart]
    exact waits
  | turn own waits =>
    rw [servedTenants_cons_some served]
    simpa [ahead, own] using waits pending

/-- Whoever is served stands in the ring. -/
theorem Waiting.served_mem (waiting : Waiting tenantID history q)
    (starts : WouldStart tenantID q op) (served : op.served q = some other) :
    other ∈ q.tenantOrder := by
  have inRing : ∀ {tenantID}, tenantID ∈ q.due → tenantID ∈ q.tenantOrder :=
    (turns_perm _ _).mem_iff.mp
  cases op with
  | add msg => cases served
  | pop clock m =>
    have pops := (popLoop_pops clock q.tenantOrder.length 0 q m waiting.orderly
      waiting.waits starts).2
    rw [DispatchOp.served, MemoryQueue.popEligible] at served
    generalize MemoryQueue.popLoop clock q.tenantOrder.length 0 q m = outcome at pops served
    obtain ⟨result, q', m'⟩ := outcome
    cases pops with
    | none waits => cases served
    | other apart there waits =>
      cases served
      exact inRing there
    | turn own waits =>
      cases served
      exact inRing (by simpa only [own] using waiting.waits.present)

private theorem waiting_of_path (orderly : Orderly start)
    (path : (dispatching start).Path history q)
    (pending : System.Throughout (HasPending tenantID) history q)
    (starts : System.Within (WouldStart tenantID) history) (fair : RejoinsFairly tenantID history) :
    Waiting tenantID history q := by
  induction path with
  | start initial =>
    cases initial
    exact ⟨orderly, .start orderly.ring.distinct ((orderly.ring.waiting tenantID).mpr pending.1)⟩
  | @next history s t e before step ih =>
    obtain ⟨now, earlier⟩ := System.throughout_cons.mp pending
    obtain ⟨would, startsBefore⟩ := System.within_cons.mp starts
    cases step
    cases e with
    | add msg => exact (ih earlier startsBefore fair.2).add fair.1
    | pop clock m => exact (ih earlier startsBefore fair).pop would now

omit [Float64 F] in
private theorem mem_tenantsSeen : other ∈ tenantsSeen history q ↔
    other ∈ q.tenantOrder ∨ ∃ past ∈ history, other ∈ past.1.tenantOrder := by
  simp [tenantsSeen]

/-- Whoever is served was in the ring, and nobody is served twice where the waiting
tenant is not. -/
theorem overtaken_once (orderly : Orderly start) (path : (dispatching start).Path history q)
    (pending : System.Throughout (HasPending tenantID) history q)
    (starts : System.Within (WouldStart tenantID) history) (fair : RejoinsFairly tenantID history) :
    (∀ other ∈ servedTenants history, ∃ past ∈ history, other ∈ past.1.tenantOrder) ∧
      ∀ window, window <:+: servedTenants history → tenantID ∉ window → window.Nodup := by
  induction path with
  | start initial => simp [servedTenants, List.infix_nil]
  | @next history s t e before step ih =>
    have waiting := waiting_of_path orderly (before.next step) pending starts fair
    obtain ⟨-, earlier⟩ := System.throughout_cons.mp pending
    obtain ⟨would, startsBefore⟩ := System.within_cons.mp starts
    have fairBefore : RejoinsFairly tenantID history := by
      cases e with
      | add msg => exact fair.2
      | pop clock m => exact fair
    have waitingBefore := waiting_of_path orderly before earlier startsBefore fairBefore
    obtain ⟨seen, once⟩ := ih earlier startsBefore fairBefore
    have seenLater : ∀ other ∈ servedTenants history,
        ∃ past ∈ (s, e) :: history, other ∈ past.1.tenantOrder := by
      intro other member
      obtain ⟨past, there, inRing⟩ := seen other member
      exact ⟨past, List.mem_cons_of_mem _ there, inRing⟩
    cases served : e.served s with
    | none =>
      rw [servedTenants_cons_none served]
      exact ⟨seenLater, once⟩
    | some next =>
      rw [servedTenants_cons_some served]
      refine ⟨fun other member => ?_, fun window part absent => ?_⟩
      · rcases List.mem_cons.mp member with rfl | member
        · exact ⟨(s, e), List.mem_cons_self .., waitingBefore.served_mem would served⟩
        · exact seenLater other member
      · rcases List.infix_cons_iff.mp part with ⟨rest, whole⟩ | inside
        -- A window that reaches to the present lies after the last turn of the tenant.
        · have since := waiting.waits.once
          rw [servedSince, servedTenants_cons_some served, ← whole,
            ahead_append_of_notMem absent] at since
          exact since.of_append_left
        · exact once window inside absent

variable {setting : Setting F} {s : QueueState F}

/-- **Bounded overtaking.** While a tenant has something pending that it could start,
one of any as many consecutive dispatches as there are tenants is its own, if no tenant
that was served since its turn joins the ring again after the cursor has passed it. -/
theorem waiting_tenant_served_in_turn (reached : setting.soup.system.Reachable s)
    (path : (dispatching s.world.queue).Path history q)
    (pending : System.Throughout (HasPending tenantID) history q)
    (starts : System.Within (WouldStart tenantID) history)
    (fair : RejoinsFairly tenantID history) {window : List String}
    (part : window <:+: servedTenants history)
    (long : window.length = (tenantsSeen history q).card) : tenantID ∈ window := by
  have orderly : Orderly s.world.queue :=
    ⟨ringOk_of_reachable reached, (ordered_of_reachable reached).sorted⟩
  obtain ⟨seen, once⟩ := overtaken_once orderly path pending starts fair
  have waiting := waiting_of_path orderly path pending starts fair
  by_contra absent
  have others : window.toFinset ⊆ (tenantsSeen history q).erase tenantID := by
    intro other member
    rw [List.mem_toFinset] at member
    refine Finset.mem_erase.mpr ⟨fun same => absent (same ▸ member), mem_tenantsSeen.mpr (.inr ?_)⟩
    exact seen other (part.subset member)
  have present : tenantID ∈ tenantsSeen history q :=
    mem_tenantsSeen.mpr (.inl ((turns_perm _ _).mem_iff.mp waiting.waits.present))
  have few := Finset.card_le_card others
  rw [List.toFinset_card_of_nodup (once window part absent), long,
    Finset.card_erase_of_mem present] at few
  have some := Finset.card_pos.mpr ⟨tenantID, present⟩
  omega

end Fairness

/-! ## A tenant that rejoins -/

section Rejoining

def messageOf (tenantID runID : String) : SQSMessage Rat :=
  { firstMessage with tenantID := tenantID, runID := runID }

/-- A look at the ring when no run is going on. -/
def popIdle : DispatchOp Rat := .pop (fun _ => 1) (.newManager onceAMinute)

variable {q : MemoryQueue Rat} {history : List (MemoryQueue Rat × DispatchOp Rat)}

/-- A run from the queue with one pending message of `a`, in which that tenant always
has something pending that it could start. -/
structure Overtaking (history : List (MemoryQueue Rat × DispatchOp Rat)) (q : MemoryQueue Rat) :
    Prop where
  path : (dispatching pendingWorld.queue).Path history q
  pending : System.Throughout (HasPending "a") history q
  starts : System.Within (WouldStart "a") history

private theorem Overtaking.start : Overtaking [] pendingWorld.queue :=
  ⟨.start rfl, ⟨⟨_, _, rfl⟩, by simp⟩, by simp [System.Within]⟩

private theorem Overtaking.add (before : Overtaking history q) (tenantID runID : String)
    (pending : HasPending "a" (q.addPending (messageOf tenantID runID))) :
    Overtaking ((q, .add (messageOf tenantID runID)) :: history)
      (q.addPending (messageOf tenantID runID)) :=
  ⟨before.path.next rfl, System.throughout_cons.mpr ⟨pending, before.pending⟩,
    System.within_cons.mpr ⟨trivial, before.starts⟩⟩

private theorem Overtaking.pop (before : Overtaking history q)
    (pending : HasPending "a" (popIdle.run q)) :
    Overtaking ((q, popIdle) :: history) (popIdle.run q) :=
  ⟨before.path.next rfl, System.throughout_cons.mpr ⟨pending, before.pending⟩,
    System.within_cons.mpr ⟨fun _ => rfl, before.starts⟩⟩

/-- Two tenants are served in turn. -/
theorem two_tenants_served : ∃ history q, Overtaking history q ∧ RejoinsFairly "a" history ∧
    servedTenants history = ["b", "a"] ∧ (tenantsSeen history q).card = 2 := by
  have run := (((Overtaking.start.add "a" "2" ⟨_, _, rfl⟩).add "b" "1" ⟨_, _, rfl⟩).pop
    ⟨_, _, rfl⟩).pop ⟨_, _, rfl⟩
  exact ⟨_, _, run, ⟨by decide, by decide, trivial⟩, rfl, rfl⟩

/-- The queue that only `a` waits in is reachable. -/
theorem pendingQueue_reachable : ∃ (setting : Setting Rat) (s : QueueState Rat),
    setting.soup.system.Reachable s ∧ s.world.queue = pendingWorld.queue :=
  ⟨_, _, (pending_reached ⟨smallQueue, fun _ => True, False, False, fun _ _ => False⟩ trivial
    (by exact fun _ _ lost => lost)).reachable, rfl⟩

theorem waiting_tenant_served_in_turn_two_tenants :
    ∃ history q, Overtaking history q ∧ servedTenants history = ["b", "a"] ∧
      (tenantsSeen history q).card = 2 ∧
      ∀ window, window <:+: servedTenants history → window.length = 2 → "a" ∈ window := by
  obtain ⟨history, q, run, fair, served, two⟩ := two_tenants_served
  obtain ⟨setting, s, reached, same⟩ := pendingQueue_reachable
  refine ⟨history, q, run, served, two, fun window part long => ?_⟩
  exact waiting_tenant_served_in_turn reached (same ▸ run.path) run.pending run.starts fair part
    (long.trans two.symm)

/-- A tenant with one message at a time is served, joins the ring again at the end of
the list and is served again, while `a` waits for its turn. -/
theorem waiting_tenant_overtaken_twice :
    ∃ (setting : Setting Rat) (s : QueueState Rat) (history : List (MemoryQueue Rat × DispatchOp Rat))
      (q : MemoryQueue Rat) (window : List String),
      setting.soup.system.Reachable s ∧ (dispatching s.world.queue).Path history q ∧
      System.Throughout (HasPending "a") history q ∧ System.Within (WouldStart "a") history ∧
      window <:+: servedTenants history ∧ window.length = (tenantsSeen history q).card ∧
      "a" ∉ window := by
  have passed := ((Overtaking.start.add "a" "2" ⟨_, _, rfl⟩).add "b" "1" ⟨_, _, rfl⟩).pop
    ⟨_, _, rfl⟩
  have first := (passed.add "c" "1" ⟨_, _, rfl⟩).pop ⟨_, _, rfl⟩
  have run := ((first.add "b" "2" ⟨_, _, rfl⟩).pop ⟨_, _, rfl⟩).pop ⟨_, _, rfl⟩
  obtain ⟨setting, s, reached, same⟩ := pendingQueue_reachable
  exact ⟨setting, s, _, _, ["b", "c", "b"], reached, same ▸ run.path, run.pending, run.starts,
    ⟨[], ["a"], rfl⟩, rfl, by decide⟩

end Rejoining

end AgentForge
