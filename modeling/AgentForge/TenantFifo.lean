import AgentForge.Delivery
import AgentForge.Fairness
import AgentForge.KeyedFifo

/-! The dispatcher as one queue per tenant, first in first out. A message that was sent waits
in the channel, in the hands of the ingress loop and in the pending list of its tenant, in
this order; for its tenant the three are one line. Sending puts a message at the end of the
line, dispatching takes it from the front, and what the ingress loop does leaves the lines as
they are, as long as there is one ingress loop only. -/
namespace AgentForge

open Transition KeyedLists

section Lines

variable {F : Type}

/-- The tenant whose message it is. -/
abbrev tenantOf (msg : SQSMessage F) : String := normalizeTenant msg.tenantID

/-- What the log says happened to the lines. -/
def LogEntry.op : LogEntry F → Option (KeyedFifo.Op (SQSMessage F))
  | .sent _ msg => some (.put msg)
  | .dispatched msg => some (.take msg)
  | .finished .. => none

def QueueWorld.ops (w : QueueWorld F) : List (KeyedFifo.Op (SQSMessage F)) :=
  w.log.filterMap LogEntry.op

/-- The messages sent for a tenant, and those dispatched for it, oldest first. -/
def QueueWorld.sentFor (w : QueueWorld F) (tenantID : String) : List (SQSMessage F) :=
  KeyedFifo.putFor tenantOf tenantID w.ops

def QueueWorld.dispatchedFor (w : QueueWorld F) (tenantID : String) : List (SQSMessage F) :=
  KeyedFifo.takenFor tenantOf tenantID w.ops

def MemoryQueue.pendingFor (q : MemoryQueue F) (tenantID : String) : List (SQSMessage F) :=
  (q.pending.lookup tenantID).getD []

/-- The messages of a tenant among these. -/
def ofTenant (tenantID : String) (msgs : List (SQSMessage F)) : List (SQSMessage F) :=
  msgs.filter fun msg => tenantOf msg = tenantID

/-- The line of a tenant, with these messages in the hands of the ingress loop. -/
def MemoryQueue.line (q : MemoryQueue F) (hand : List (SQSMessage F)) (tenantID : String) :
    List (SQSMessage F) :=
  q.pendingFor tenantID ++ ofTenant tenantID (hand ++ q.ch)

/-- The lines are the queues that what was sent and dispatched leaves. -/
def Lined (w : QueueWorld F) (hand : List (SQSMessage F)) : Prop :=
  KeyedFifo.Reached tenantOf w.ops (w.queue.line hand)

/-- The message a thread has taken from the channel and not yet added to a pending list. -/
def QueueThread.inHand : QueueThread F → List (SQSMessage F)
  | .ingress (.received msg) => [msg]
  | _ => []

def QueueThread.isIngress : QueueThread F → Bool
  | .ingress _ => true
  | _ => false

def ingressLoops (threads : Multiset (QueueThread F)) : Multiset (QueueThread F) :=
  threads.filter (·.isIngress = true)

/-- An ingress loop starts where there is none. -/
def OneIngress (s : QueueState F) : Soup.Event (QueueThread F) → Prop
  | .spawn (.ingress _) => ingressLoops s.threads = 0
  | _ => True

/-! ## What keeps the lines -/

variable {w w' : QueueWorld F} {hand : List (SQSMessage F)} {msg : SQSMessage F}
  {more : List (SQSMessage F)} {tenantID : String}

/-- A step that neither sends nor dispatches, and leaves every line as it was. -/
theorem Lined.still (lined : Lined w hand) (ops : w'.ops = w.ops)
    (lines : ∀ tenantID, w'.queue.line hand' tenantID = w.queue.line hand tenantID) :
    Lined w' hand' := by
  have same : w'.queue.line hand' = w.queue.line hand := funext lines
  unfold Lined
  rw [ops, same]
  exact lined

private theorem Lined.congr (lined : Lined w hand) (log : w'.log = w.log)
    (pending : w'.queue.pending = w.queue.pending) (ch : w'.queue.ch = w.queue.ch) :
    Lined w' hand := by
  refine lined.still ?_ fun tenantID => ?_
  · rw [QueueWorld.ops, log, QueueWorld.ops]
  · rw [MemoryQueue.line, MemoryQueue.pendingFor, pending, ch]
    rfl

/-- A message is sent: it stands at the end of the line of its tenant. -/
theorem Lined.send (lined : Lined w hand) (origin : Origin F) (msg : SQSMessage F) :
    Lined { w with
      queue := { w.queue with ch := w.queue.ch ++ [msg] }
      log := .sent origin msg :: w.log } hand := by
  have put := KeyedFifo.Reached.put lined msg
  have lines : Function.update (w.queue.line hand) (tenantOf msg)
      (w.queue.line hand (tenantOf msg) ++ [msg]) =
      MemoryQueue.line { w.queue with ch := w.queue.ch ++ [msg] } hand := by
    funext tenantID
    have split : MemoryQueue.line { w.queue with ch := w.queue.ch ++ [msg] } hand tenantID =
        w.queue.line hand tenantID ++ ofTenant tenantID [msg] := by
      simp [MemoryQueue.line, MemoryQueue.pendingFor, ofTenant]
    rw [split]
    by_cases own : tenantID = tenantOf msg
    · subst own
      simp [ofTenant]
    · rw [Function.update_of_ne own]
      simp [ofTenant, Ne.symm own]
  rw [lines] at put
  exact put

/-- The line of a tenant when a message is added to the pending lists. -/
theorem pendingFor_addPending (q : MemoryQueue F) (msg : SQSMessage F) (tenantID : String) :
    (q.addPending msg).pendingFor tenantID = q.pendingFor tenantID ++ ofTenant tenantID [msg] := by
  obtain ⟨order, same⟩ := q.addPending_eq msg
  rw [same]
  unfold MemoryQueue.pendingFor
  by_cases own : tenantID = tenantOf msg
  · subst own
    rw [tenantOf, AList.lookup_insert, Option.getD_some]
    simp [ofTenant, tenantOf]
  · rw [AList.lookup_insert_ne own]
    simp [ofTenant, Ne.symm own]

/-- A message in hand is added to the pending lists. -/
theorem line_addPending (q : MemoryQueue F) (msg : SQSMessage F) (tenantID : String) :
    (q.addPending msg).line [] tenantID = q.line [msg] tenantID := by
  rw [MemoryQueue.line, MemoryQueue.line, pendingFor_addPending, MemoryQueue.addPending_ch,
    List.append_assoc, ofTenant, ofTenant, ofTenant, ← List.filter_append]
  rfl

/-- A message is dispatched: it was the first in the line of its tenant. -/
theorem Lined.dispatch (lined : Lined w hand)
    (sorted : Sorted (fun msg => normalizeTenant msg.tenantID) w.queue.pending)
    (found : w.queue.pending.lookup tenantID = some (msg :: more))
    (log : w'.log = .dispatched msg :: w.log)
    (left : more = [] ∧ w'.queue.pending = w.queue.pending.erase tenantID ∨
      w'.queue.pending = w.queue.pending.insert tenantID more)
    (ch : w'.queue.ch = w.queue.ch) : Lined w' hand := by
  have own : tenantOf msg = tenantID := sorted tenantID _ found msg (List.mem_cons_self ..)
  subst own
  have first : w.queue.line hand (tenantOf msg) =
      msg :: (more ++ ofTenant (tenantOf msg) (hand ++ w.queue.ch)) := by
    rw [MemoryQueue.line, MemoryQueue.pendingFor, found]
    rfl
  have taken := KeyedFifo.Reached.take lined first
  have pending : ∀ tenantID, w'.queue.pendingFor tenantID =
      Function.update w.queue.pendingFor (tenantOf msg) more tenantID := by
    intro tenantID
    unfold MemoryQueue.pendingFor
    by_cases own : tenantID = tenantOf msg
    · subst own
      rw [Function.update_self]
      rcases left with ⟨rfl, pending⟩ | pending
      · rw [pending, AList.lookup_erase]
        rfl
      · rw [pending, AList.lookup_insert]
        rfl
    · rw [Function.update_of_ne own]
      rcases left with ⟨-, pending⟩ | pending
      · rw [pending, AList.lookup_erase_ne own]
      · rw [pending, AList.lookup_insert_ne own]
  have lines : Function.update (w.queue.line hand) (tenantOf msg)
      (more ++ ofTenant (tenantOf msg) (hand ++ w.queue.ch)) = w'.queue.line hand := by
    funext tenantID
    rw [MemoryQueue.line, pending, ch]
    by_cases own : tenantID = tenantOf msg
    · subst own
      rw [Function.update_self, Function.update_self]
    · rw [Function.update_of_ne own, Function.update_of_ne own, MemoryQueue.line]
  rw [lines] at taken
  unfold Lined
  rw [QueueWorld.ops, log]
  exact taken

end Lines

/-! ## The steps -/

section Steps

variable {F : Type} {w w' : QueueWorld F} {hand : List (SQSMessage F)} {origin : Origin F}
  {cfg : MemoryQueueConfig} {consumerCancels : Prop} {left rest : Multiset (QueueThread F)}
  {thread : QueueThread F}

/-- What the ingress loop does moves messages along their lines. -/
theorem IngressPC.Acts.lined (acts : pc.Acts consumerCancels w w' left)
    (lined : Lined w (QueueThread.ingress pc).inHand) :
    (∃ pc', left = {.ingress pc'} ∧ Lined w' (QueueThread.ingress pc').inHand) ∨
      left = 0 ∧ Lined w' [] := by
  cases acts with
  | receive first =>
    refine .inl ⟨_, rfl, lined.still rfl fun tenantID => ?_⟩
    rw [MemoryQueue.line, MemoryQueue.line, first]
    rfl
  | lock msg unlocked =>
    refine .inl ⟨_, rfl, lined.still rfl fun tenantID => ?_⟩
    exact line_addPending w.queue msg tenantID
  | @drain msg rest first =>
    refine .inl ⟨_, rfl, lined.still rfl fun tenantID => ?_⟩
    refine (line_addPending { w.queue with ch := rest } msg tenantID).trans ?_
    rw [MemoryQueue.line, MemoryQueue.line, first]
    rfl
  | drained empty => exact .inl ⟨_, rfl, lined.congr rfl rfl rfl⟩
  | stop done => exact .inr ⟨rfl, lined⟩

private theorem ingressLoops_eq_zero : ingressLoops threads = 0 ↔
    ∀ thread ∈ threads, thread.isIngress = false := by
  simp [ingressLoops, Multiset.filter_eq_nil]

private theorem ingressLoops_cons_other (other : thread.isIngress = false) :
    ingressLoops (thread ::ₘ threads) = ingressLoops threads :=
  Multiset.filter_cons_of_neg _ (by simp [other])

private theorem ingressLoops_cons_ingress (pc : IngressPC F) :
    ingressLoops (.ingress pc ::ₘ threads) = .ingress pc ::ₘ ingressLoops threads := by
  apply Multiset.filter_cons_of_pos
  rfl

private theorem ingressLoops_add :
    ingressLoops (left + threads) = ingressLoops left + ingressLoops threads :=
  Multiset.filter_add ..

variable [Float64 F]

private theorem EnqueuePC.Acts.lined {pc : EnqueuePC F}
    (acts : pc.Acts cfg consumerCancels origin w w' left)
    (lined : Lined w hand) : Lined w' hand := by
  cases acts with
  | start msg => exact lined
  | mark msg now unlocked =>
    rcases w.queue.mark_cases cfg now (messageKey msg) with ⟨-, -, same⟩ | ⟨-, -, -, same⟩
    all_goals
      rw [same]
      exact lined.congr rfl rfl rfl
  | send msg room => exact lined.send origin msg
  | admission | unmark | cancel | cancelUnmark | cancelManager => exact lined.congr rfl rfl rfl

private theorem DispatchPC.Acts.lined {pc : DispatchPC F}
    (acts : pc.Acts cfg consumerCancels w w' left)
    (sorted : Sorted (fun msg => normalizeTenant msg.tenantID) w.queue.pending)
    (lined : Lined w hand) : Lined w' hand := by
  cases acts with
  | turn checked more =>
    have turn := w.queue.popTurn_turn w.clock w.manager
    generalize w.queue.popTurn w.clock w.manager = outcome at turn ⊢
    cases turn with
    | dropped tenantID empty =>
      refine lined.still rfl fun other => ?_
      have pending : ((w.queue.pending.erase tenantID).lookup other).getD [] =
          w.queue.pendingFor other := by
        by_cases same : other = tenantID
        · rw [same, AList.lookup_erase]
          exact empty.symm
        · rw [AList.lookup_erase_ne same]
          rfl
      exact congrArg (· ++ ofTenant other (hand ++ w.queue.ch)) pending
    | refused tenantID refused => exact lined.congr rfl rfl rfl
    | popped tenantID found started remains => exact lined.dispatch sorted found rfl remains rfl
  | release msg failed unlocked =>
    obtain ⟨recent, same⟩ :=
      w.queue.releaseAttempt_eq msg cfg w.clock failed (isFinalFailure cfg msg failed)
    rw [same]
    exact lined.still rfl fun _ => rfl
  | lock | unlock | stop | complete | deadLetter => exact lined.congr rfl rfl rfl

/-- A step of any other goroutine leaves the lines as what it sends or dispatches says. -/
theorem QueueThread.Acts.lined (acts : thread.Acts cfg consumerCancels w w' left)
    (other : thread.isIngress = false)
    (sorted : Sorted (fun msg => normalizeTenant msg.tenantID) w.queue.pending)
    (lined : Lined w hand) : Lined w' hand := by
  cases acts with
  | enqueue acts => exact acts.lined lined
  | ingress acts => cases other
  | dispatch acts => exact acts.lined sorted lined
  | fire | giveUp | redrive | redriveNext | redriven | putBack => exact lined.congr rfl rfl rfl

/-- No other goroutine becomes an ingress loop. -/
theorem QueueThread.Acts.ingressLoops (acts : thread.Acts cfg consumerCancels w w' left)
    (other : thread.isIngress = false) : AgentForge.ingressLoops left = 0 := by
  rw [ingressLoops_eq_zero]
  intro next member
  cases acts.becomes member with
  | ingress => cases other
  | _ => rfl

end Steps

/-! ## Runs -/

section Runs

variable {F : Type} [Float64 F] {setting : Setting F} {s : QueueState F}
  {history : List (QueueState F × Soup.Event (QueueThread F))}

/-- There is no ingress loop and nothing in hand, or there is one with what it has in hand. -/
def Attended (w : QueueWorld F) (threads : Multiset (QueueThread F)) : Prop :=
  ingressLoops threads = 0 ∧ Lined w [] ∨
    ∃ pc, ingressLoops threads = {.ingress pc} ∧ Lined w (QueueThread.ingress pc).inHand

omit [Float64 F] in
/-- The ingress loop stands where it stood, and the lines are in order as before. -/
theorem Attended.keeps (attended : Attended w threads)
    (loops : ingressLoops threads' = ingressLoops threads)
    (lines : ∀ hand, Lined w hand → Lined w' hand) : Attended w' threads' := by
  rcases attended with ⟨none, lined⟩ | ⟨pc, one, lined⟩
  · exact .inl ⟨loops.trans none, lines _ lined⟩
  · exact .inr ⟨pc, loops.trans one, lines _ lined⟩

omit [Float64 F] in
private theorem Attended.spawn (attended : Attended w threads) (none : ingressLoops threads = 0) :
    Attended w (.ingress .waiting ::ₘ threads) := by
  refine .inr ⟨.waiting, by rw [ingressLoops_cons_ingress, none]; rfl, ?_⟩
  rcases attended with ⟨-, lined⟩ | ⟨pc, one, -⟩
  · exact lined
  · rw [none] at one
    exact absurd one.symm (Multiset.singleton_ne_zero _)

private theorem Attended.act {consumerCancels : Prop} {thread : QueueThread F}
    (attended : Attended w (thread ::ₘ rest)) (acts : thread.Acts cfg consumerCancels w w' left)
    (sorted : Sorted (fun msg => normalizeTenant msg.tenantID) w.queue.pending) :
    Attended w' (left + rest) := by
  cases kind : thread.isIngress with
  | false =>
    refine attended.keeps ?_ fun hand => acts.lined kind sorted
    rw [ingressLoops_add, acts.ingressLoops kind, zero_add, ingressLoops_cons_other kind]
  | true =>
    cases acts with
    | @ingress pc _ _ acts =>
      unfold Attended at attended ⊢
      rw [ingressLoops_cons_ingress] at attended
      rcases attended with ⟨none, -⟩ | ⟨pc', one, lined⟩
      · exact absurd none (Multiset.cons_ne_zero)
      · obtain ⟨same, none⟩ := (Multiset.singleton_eq_cons_iff _).mp one.symm
        cases same
        rw [ingressLoops_add, none, add_zero]
        rcases acts.lined lined with ⟨pc', rfl, lined'⟩ | ⟨rfl, lined'⟩
        · exact .inr ⟨pc', ingressLoops_cons_ingress pc', lined'⟩
        · exact .inl ⟨rfl, lined'⟩
    | _ => cases kind

private theorem attended_of_path (path : setting.soup.system.Path history s)
    (one : System.Within OneIngress history) : Attended s.world s.threads := by
  have both : System.Throughout (fun s => setting.soup.system.Reachable s ∧
      Attended s.world s.threads) history s := by
    refine path.invariant ?_ ?_ one
    · rintro s ⟨⟨given, fresh⟩, none⟩
      refine ⟨.initial ⟨⟨given, fresh⟩, none⟩, .inl ⟨?_, ?_⟩⟩
      · rw [none]
        rfl
      · rw [fresh]
        exact .empty
    · rintro s e t ⟨reached, held⟩ met step
      refine ⟨reached.next step, ?_⟩
      cases step with
      | @spawn _ thread allowed =>
        cases allowed with
        | ingress => exact held.spawn met
        | enqueue | dispatch | redrive =>
          exact held.keeps (ingressLoops_cons_other rfl) fun _ lined => lined
      | act acts => exact held.act acts (ordered_of_reachable reached).sorted
      | env changed =>
        have same : s.world.Passes setting.shared _ := changed
        exact held.keeps rfl fun _ lined =>
          lined.congr (same.same ▸ rfl) (same.same ▸ rfl) (same.same ▸ rfl)
  exact both.1.2

end Runs

/-! ## Looking for a message -/

section Search

variable {F : Type} [Float64 F] {q : MemoryQueue F} {tenantID : String}

omit [Float64 F] in
private theorem due_length (q : MemoryQueue F) : q.due.length = q.tenantOrder.length :=
  (RoundRobin.turns_perm _ _).length_eq

/-- A turn asks the manager for the first tenant due. -/
theorem RingOk.asks_first (ok : RingOk q) (first : q.due = tenantID :: rest) (now : Time)
    (m : Manager F) :
    ((∃ violation, (m.tryStartRun now tenantID).1 = .error violation) ∧
        ∃ q', q.popTurn now m = (.refused, q', (m.tryStartRun now tenantID).2)) ∨
      ((m.tryStartRun now tenantID).1 = .ok () ∧ ∃ msg left, q.popTurn now m = (.popped msg, left)) := by
  obtain ⟨msg, more, found⟩ := (ok.waiting tenantID).mp (first ▸ List.mem_cons_self ..)
  have some : q.tenantOrder ≠ [] := by
    intro none
    have length := due_length q
    rw [none, first, List.length_cons, List.length_nil] at length
    omega
  have inside := ok.inside some
  have under : q.tenantOrder.getD q.nextTenant "" = tenantID := by
    rw [List.getD_eq_getElem?_getD, RoundRobin.getElem?_of_turns inside first]
    rfl
  unfold MemoryQueue.popTurn
  dsimp only
  rw [Nat.mod_eq_of_lt inside, under, found]
  dsimp only [Option.getD_some]
  cases answered : m.tryStartRun now tenantID with
  | mk answer m' =>
    cases answer with
    | error violation => exact .inl ⟨⟨violation, rfl⟩, _, rfl⟩
    | ok started => exact .inr ⟨rfl, _, _, rfl⟩

/-- The loop finds nothing just if each tenant it comes to is refused when it does. -/
theorem popLoop_none_iff (clock : Nat → Time) (turns : Nat) : ∀ (checked : Nat)
    (q : MemoryQueue F) (m : Manager F), RingOk q → checked + turns = q.tenantOrder.length →
    ((MemoryQueue.popLoop clock turns checked q m).1 = none ↔
      ∀ i tenantID, i < turns → q.due[i]? = some tenantID →
        ∃ violation, (m.tryStartRun (clock (turns - 1 - i)) tenantID).1 = .error violation) := by
  induction turns with
  | zero => simp [MemoryQueue.popLoop]
  | succ turns ih =>
    intro checked q m ok count
    have length := due_length q
    obtain ⟨tenantID, rest, first⟩ : ∃ tenantID rest, q.due = tenantID :: rest := by
      cases list : q.due with
      | nil => rw [list, List.length_nil] at length; omega
      | cons tenantID rest => exact ⟨tenantID, rest, rfl⟩
    have visit := ok.visit (List.ne_nil_of_length_pos (by omega)) (clock turns) m
    unfold MemoryQueue.popLoop
    rw [if_pos (by omega)]
    rcases ok.asks_first first (clock turns) m with ⟨refused, q', turn⟩ | ⟨started, msg, left, turn⟩
    · rw [turn] at visit ⊢
      have ring := ok.of_visit visit
      have passed : q'.due = rest ++ [tenantID] := by
        cases visit with
        | refused first' error passed kept cursor =>
          rw [first] at first'
          cases first'
          exact passed
      have distinct := ok.distinct
      rw [first, List.nodup_cons] at distinct
      rw [first, List.length_cons] at length
      have length' := due_length q'
      rw [passed, List.length_append, List.length_singleton] at length'
      refine (ih (checked + 1) q' _ ring (by omega)).trans ?_
      have later : ∀ i other, i < turns → rest[i]? = some other →
          q'.due[i]? = some other ∧ ∀ now, (((m.tryStartRun (clock turns) tenantID).2).tryStartRun
            now other).1 = (m.tryStartRun now other).1 := by
        intro i other below there
        have apart : other ≠ tenantID := fun same =>
          distinct.1 (same ▸ List.mem_of_getElem? there)
        refine ⟨?_, fun now => tryStartRun_of_ne m _ now apart⟩
        rw [passed, List.getElem?_append_left (by omega)]
        exact there
      constructor
      · intro all i other below there
        cases i with
        | zero =>
          rw [first] at there
          cases there
          exact refused
        | succ i =>
          rw [first, List.getElem?_cons_succ] at there
          obtain ⟨due, same⟩ := later i other (by omega) there
          have shift : turns + 1 - 1 - (i + 1) = turns - 1 - i := by omega
          rw [shift, ← same]
          exact all i other (by omega) due
      · intro all i other below there
        have there' : rest[i]? = some other := by
          rw [passed, List.getElem?_append_left (by omega)] at there
          exact there
        have shift : turns + 1 - 1 - (i + 1) = turns - 1 - i := by omega
        have refused' := all (i + 1) other (by omega) (by rw [first]; exact there')
        rw [shift] at refused'
        rw [(later i other below there').2]
        exact refused'
    · rw [turn]
      refine iff_of_false nofun fun all => ?_
      obtain ⟨violation, refused⟩ := all 0 tenantID (by omega) (by rw [first]; rfl)
      rw [Nat.sub_zero, Nat.add_sub_cancel, started] at refused
      cases refused

/-- The turn in which the loop comes to a tenant; the turns count down. -/
def MemoryQueue.turnOf (q : MemoryQueue F) (tenantID : String) : Nat :=
  q.tenantOrder.length - 1 - q.due.idxOf tenantID

private theorem popEligible_none_iff (ok : RingOk q) (clock : Nat → Time) (m : Manager F) :
    (MemoryQueue.popEligible clock q m).1 = none ↔ ∀ tenantID, HasPending tenantID q →
      ∃ violation, (m.tryStartRun (clock (q.turnOf tenantID)) tenantID).1 = .error violation := by
  refine (popLoop_none_iff clock _ 0 q m ok (Nat.zero_add _)).trans ?_
  have length := due_length q
  constructor
  · intro all tenantID pending
    have due := (ok.waiting tenantID).mpr pending
    have below := List.idxOf_lt_length_of_mem due
    exact all _ tenantID (by omega) (List.getElem?_idxOf due)
  · intro all i tenantID below there
    obtain ⟨inside, same⟩ := List.getElem?_eq_some_iff.mp there
    have index : q.due.idxOf tenantID = i := by
      rw [← same]
      exact ok.distinct.idxOf_getElem i inside
    have refused := all tenantID ((ok.waiting tenantID).mp (List.mem_of_getElem? there))
    rw [MemoryQueue.turnOf, index] at refused
    exact refused

/-- Where the worker and the queue are once the loop is done. -/
def afterPop (w : QueueWorld F) :
    Option (SQSMessage F) × MemoryQueue F × Manager F → QueueWorld F × QueueThread F
  | (some msg, queue, manager) =>
    ({ w with
        queue := queue
        manager := manager
        locked := false
        log := .dispatched msg :: w.log }, .dispatch (.handling msg))
  | (none, queue, manager) =>
    ({ w with queue := queue, manager := manager, locked := false }, .dispatch .idle)

/-- The turns a worker takes, with nobody else at the manager and the clock standing still, are
the loop of `popEligibleLocked`. -/
theorem worker_runs_popLoop {setting : Setting F} (turns : Nat) : ∀ (checked : Nat)
    (w : QueueWorld F) (rest : Multiset (QueueThread F)), RingOk w.queue →
    checked + turns = w.queue.tenantOrder.length →
    setting.soup.system.Reachable ⟨w, .dispatch (.popping checked) ::ₘ rest⟩ →
    setting.soup.system.Reachable
      ⟨(afterPop w (MemoryQueue.popLoop (fun _ => w.clock) turns checked w.queue w.manager)).1,
        (afterPop w (MemoryQueue.popLoop (fun _ => w.clock) turns checked w.queue w.manager)).2 ::ₘ
          rest⟩ := by
  induction turns with
  | zero =>
    intro checked w rest ok count reached
    have unlocks : setting.soup.acts w (.dispatch (.popping checked)) { w with locked := false }
        {.dispatch .idle} := .dispatch (.unlock checked count.ge)
    exact reached.next (.act unlocks)
  | succ turns ih =>
    intro checked w rest ok count reached
    have takes : setting.soup.acts w (.dispatch (.popping checked)) _ _ :=
      .dispatch (.turn checked (by omega))
    have step := reached.next (.act takes)
    have visit := ok.visit (List.ne_nil_of_length_pos (by omega)) w.clock w.manager
    unfold MemoryQueue.popLoop
    rw [if_pos (by omega)]
    generalize w.queue.popTurn w.clock w.manager = outcome at step visit ⊢
    obtain ⟨result, queue, manager⟩ := outcome
    have ring := ok.of_visit visit
    cases visit with
    | refused first error passed kept cursor =>
      have length := due_length w.queue
      have length' := due_length queue
      rw [passed, List.length_append, List.length_singleton] at length'
      rw [first, List.length_cons] at length
      exact ih (checked + 1) { w with queue := queue, manager := manager } rest ring
        (by dsimp only; omega) step
    | popped first found left cursor => exact step

end Search

section Refinement

variable {F : Type} [Float64 F] {setting : Setting F} {s : QueueState F}
  {history : List (QueueState F × Soup.Event (QueueThread F))}

/-- **Dispatch is one queue per tenant.** With one ingress loop at a time: the ring is the
tenants with something pending, each once, and the cursor is in it; what was dispatched for a
tenant, what is pending for it and what has not been drained from the channel are, in this
order, what was sent for it; and `popEligibleLocked` finds nothing just if the manager refuses
every tenant that has something pending. -/
theorem dispatch_refines_tenant_queues (path : setting.soup.system.Path history s)
    (one : System.Within OneIngress history) :
    (s.world.queue.tenantOrder.Nodup ∧
      (∀ tenantID, tenantID ∈ s.world.queue.tenantOrder ↔ HasPending tenantID s.world.queue) ∧
      (s.world.queue.nextTenant = 0 ∨
        s.world.queue.nextTenant < s.world.queue.tenantOrder.length)) ∧
    (∃ hand, (∀ msg, msg ∈ hand ↔ QueueThread.ingress (.received msg) ∈ s.threads) ∧
      hand.length ≤ 1 ∧ ∀ tenantID, s.world.dispatchedFor tenantID ++
        s.world.queue.pendingFor tenantID ++ ofTenant tenantID (hand ++ s.world.queue.ch) =
          s.world.sentFor tenantID) ∧
    ∀ clock m, (MemoryQueue.popEligible clock s.world.queue m).1 = none ↔
      ∀ tenantID, HasPending tenantID s.world.queue → ∃ violation,
        (m.tryStartRun (clock (s.world.queue.turnOf tenantID)) tenantID).1 = .error violation := by
  have ring := ringOk_of_reachable ⟨history, path⟩
  have perm := RoundRobin.turns_perm s.world.queue.tenantOrder s.world.queue.nextTenant
  have received : ∀ msg, QueueThread.ingress (.received msg) ∈ s.threads ↔
      QueueThread.ingress (.received msg) ∈ ingressLoops s.threads := by
    intro msg
    rw [ingressLoops, Multiset.mem_filter]
    exact ⟨fun there => ⟨there, rfl⟩, fun there => there.1⟩
  refine ⟨⟨perm.nodup_iff.mp ring.distinct, fun tenantID => ?_, ring.cursor⟩, ?_,
    fun clock m => popEligible_none_iff ring clock m⟩
  · rw [← perm.mem_iff]
    exact ring.waiting tenantID
  · rcases attended_of_path path one with ⟨none, lined⟩ | ⟨pc, only, lined⟩
    · refine ⟨[], fun msg => ?_, Nat.zero_le 1, fun tenantID => ?_⟩
      · rw [received, none]
        simp
      · rw [List.append_assoc]
        exact lined.balance tenantID
    · refine ⟨(QueueThread.ingress pc).inHand, fun msg => ?_, ?_, fun tenantID => ?_⟩
      · rw [received, only, Multiset.mem_singleton]
        cases pc <;> simp [QueueThread.inHand]
      · cases pc with
        | received msg => exact Nat.le_refl 1
        | waiting | draining => exact Nat.zero_le 1
      · rw [List.append_assoc]
        exact lined.balance tenantID

end Refinement

/-- A message has been sent and is in the hands of the ingress loop: it is what was sent for
its tenant, and nothing is pending. -/
theorem dispatch_refines_tenant_queues_received :
    ∃ history s, steadySetting.soup.system.Path history s ∧
      QueueThread.ingress (.received firstMessage) ∈ s.threads ∧
      s.world.sentFor "a" = [firstMessage] ∧ s.world.queue.pendingFor "a" = [] ∧
      ∃ hand, s.world.dispatchedFor "a" ++ s.world.queue.pendingFor "a" ++
        ofTenant "a" (hand ++ s.world.queue.ch) = [firstMessage] := by
  have sent : steadySetting.soup.ReachedWithin OneIngress _ :=
    sent_reached steadySetting rfl fun s e _ other => by
      unfold OneIngress
      split
      · exact absurd rfl (other _)
      · trivial
  have begun := sent.spawn .ingress rfl
  have received : steadySetting.soup.ReachedWithin OneIngress
      ⟨{ sentWorld with queue := { inQueue := {"a#t#r"} } },
        .ingress (.received firstMessage) ::ₘ .returned (.ok ()) ::ₘ 0⟩ :=
    begun.turns (.ingress (.received firstMessage)) (.ingress (.receive rfl)) trivial
  obtain ⟨history, path, one⟩ := received
  obtain ⟨-, ⟨hand, -, -, lines⟩, -⟩ := dispatch_refines_tenant_queues path one
  exact ⟨history, _, path, by simp, rfl, rfl, hand, lines "a"⟩

end AgentForge
