import AgentForge.Delivery

/-! `RedriveDeadLetters`, followed through one call. It takes a batch out of the dead letters
and gives it to `Enqueue` message by message. The first failure puts that message back and
returns, and the rest of the batch is in no list any more. A message that `Enqueue` takes for a
duplicate counts as redriven, although nothing is sent; right after its final failure every
dead letter is one. -/
namespace AgentForge

open Transition

section Events

variable {F : Type}

/-- What is seen of a call: `Enqueue` looks for the key of a message, sends the message, or
returns. -/
inductive RedriveEvent (F : Type) where
  | looked (msg : SQSMessage F) (now : Time) (found : Bool)
  | sent (msg : SQSMessage F)
  | returned (result : Except EnqueueError Unit)

/-- What is seen of one step of the call. -/
def redriveEvents : QueueThread F → QueueThread F → List (RedriveEvent F)
  | .enqueue (.redrive ..) (.mark msg now), .enqueue .. => [.looked msg now false]
  | .enqueue (.redrive ..) (.mark msg now), .redriving .. =>
    [.looked msg now true, .returned (.ok ())]
  | .enqueue (.redrive ..) (.send msg), .redriving .. => [.sent msg, .returned (.ok ())]
  | .enqueue (.redrive ..) _, .putBack _ _ error => [.returned (.error error)]
  | _, _ => []

/-- The messages `Enqueue` has looked at, when, and whether it found their keys. -/
def looks (seen : List (RedriveEvent F)) : List (SQSMessage F × Time × Bool) :=
  seen.filterMap fun
    | .looked msg now found => some (msg, now, found)
    | _ => none

/-- The messages put on the channel. -/
def sends (seen : List (RedriveEvent F)) : List (SQSMessage F) :=
  seen.filterMap fun
    | .sent msg => some msg
    | _ => none

/-- What the calls of `Enqueue` returned. -/
def enqueueResults (seen : List (RedriveEvent F)) : List (Except EnqueueError Unit) :=
  seen.filterMap fun
    | .returned result => some result
    | _ => none

section Append

variable (seen later : List (RedriveEvent F))

@[simp] theorem looks_append : looks (seen ++ later) = looks seen ++ looks later :=
  List.filterMap_append

@[simp] theorem sends_append : sends (seen ++ later) = sends seen ++ sends later :=
  List.filterMap_append

@[simp] theorem enqueueResults_append :
    enqueueResults (seen ++ later) = enqueueResults seen ++ enqueueResults later :=
  List.filterMap_append

end Append

/-- The message that is sent for a dead letter. -/
def redriven (msg : SQSMessage F) : SQSMessage F := prepareMessage (redriveMessage msg)

theorem messageKey_redriven (msg : SQSMessage F) : messageKey (redriven msg) = messageKey msg :=
  messageKey_prepareMessage _

/-! ## The course of a call -/

/-- `Enqueue` has come to an end for these messages without failing: each was looked at, and
sent unless its key was found. -/
structure Progress (done : List (SQSMessage F)) (seen : List (RedriveEvent F)) : Prop where
  looked : (looks seen).map (·.1) = done.map redriven
  sent : sends seen = ((looks seen).filter fun look => !look.2.2).map (·.1)
  results : enqueueResults seen = List.replicate done.length (.ok ())

theorem Progress.start : Progress ([] : List (SQSMessage F)) [] := ⟨rfl, rfl, rfl⟩

variable {done rest batch tail : List (SQSMessage F)} {seen : List (RedriveEvent F)}
  {msg : SQSMessage F} {now : Time}

private theorem Progress.further (progress : Progress done seen) (next : Progress [msg] later) :
    Progress (done ++ [msg]) (seen ++ later) where
  looked := by
    rw [looks_append, List.map_append, progress.looked, next.looked, List.map_append]
  sent := by
    rw [sends_append, looks_append, List.filter_append, List.map_append, progress.sent, next.sent]
  results := by
    rw [enqueueResults_append, progress.results, next.results, List.length_append,
      List.replicate_add]

/-- The key of this message has been marked. -/
def EnqueuePC.Marked (msg : SQSMessage F) : EnqueuePC F → Prop
  | .admission m | .unmark m _ | .send m | .cancelUnmark m | .cancelManager m => m = msg
  | .start _ | .mark .. => False

/-- Where a call stands that has taken this batch and left these dead letters. -/
inductive Redriving (batch tail : List (SQSMessage F)) :
    List (RedriveEvent F) → QueueWorld F → QueueThread F → Prop where
  | next {done rest : List (SQSMessage F)} {seen : List (RedriveEvent F)} {w : QueueWorld F}
      (split : batch = done ++ rest) (progress : Progress done seen)
      (dlq : w.queue.dlq = tail) :
      Redriving batch tail seen w (.redriving rest done.length)
  | called {done rest : List (SQSMessage F)} {msg : SQSMessage F} {seen : List (RedriveEvent F)}
      {w : QueueWorld F} (split : batch = done ++ msg :: rest) (progress : Progress done seen)
      (dlq : w.queue.dlq = tail) :
      Redriving batch tail seen w (.enqueue (.redrive (redriveMessage msg) rest done.length)
        (.start (redriveMessage msg)))
  | looking {done rest : List (SQSMessage F)} {msg : SQSMessage F} {seen : List (RedriveEvent F)}
      {w : QueueWorld F} {now : Time} (split : batch = done ++ msg :: rest)
      (progress : Progress done seen) (dlq : w.queue.dlq = tail) :
      Redriving batch tail seen w (.enqueue (.redrive (redriveMessage msg) rest done.length)
        (.mark (redriven msg) now))
  | marked {done rest : List (SQSMessage F)} {msg : SQSMessage F} {seen : List (RedriveEvent F)}
      {w : QueueWorld F} {now : Time} {pc : EnqueuePC F} (split : batch = done ++ msg :: rest)
      (progress : Progress done seen) (marked : pc.Marked (redriven msg))
      (dlq : w.queue.dlq = tail) :
      Redriving batch tail (seen ++ [.looked (redriven msg) now false]) w
        (.enqueue (.redrive (redriveMessage msg) rest done.length) pc)
  | failed {done rest : List (SQSMessage F)} {msg : SQSMessage F} {seen : List (RedriveEvent F)}
      {w : QueueWorld F} {now : Time} {error : EnqueueError}
      (split : batch = done ++ msg :: rest) (progress : Progress done seen)
      (dlq : w.queue.dlq = tail) :
      Redriving batch tail
        (seen ++ [.looked (redriven msg) now false] ++ [.returned (.error error)]) w
        (.putBack (redriveMessage msg) done.length error)
  | stopped {done rest : List (SQSMessage F)} {msg : SQSMessage F} {seen : List (RedriveEvent F)}
      {w : QueueWorld F} {now : Time} {error : EnqueueError}
      (split : batch = done ++ msg :: rest) (progress : Progress done seen)
      (dlq : w.queue.dlq = tail ++ [redriveMessage msg]) :
      Redriving batch tail
        (seen ++ [.looked (redriven msg) now false] ++ [.returned (.error error)]) w
        (.redriven done.length (some error))
  | halted {seen : List (RedriveEvent F)} {w : QueueWorld F} (progress : Progress batch seen)
      (dlq : w.queue.dlq = tail) : Redriving batch tail seen w (.redriven batch.length none)

theorem Redriving.other (redriving : Redriving batch tail seen w thread)
    (kept : w'.queue.dlq = w.queue.dlq) :
    Redriving batch tail seen w' thread := by
  cases redriving with
  | next split progress dlq => exact .next split progress (kept.trans dlq)
  | called split progress dlq => exact .called split progress (kept.trans dlq)
  | looking split progress dlq => exact .looking split progress (kept.trans dlq)
  | marked split progress marked dlq => exact .marked split progress marked (kept.trans dlq)
  | failed split progress dlq => exact .failed split progress (kept.trans dlq)
  | stopped split progress dlq => exact .stopped split progress (kept.trans dlq)
  | halted progress dlq => exact .halted progress (kept.trans dlq)

variable [Float64 F] {cfg : MemoryQueueConfig} {consumerCancels : Prop} {w w' : QueueWorld F}
  {thread next : QueueThread F}

omit [Float64 F] in
/-- A step of which nothing is seen. -/
theorem Redriving.silent (redriving : Redriving batch tail seen w' next)
    (nothing : redriveEvents thread next = []) :
    Redriving batch tail (seen ++ redriveEvents thread next) w' next := by
  rw [nothing, List.append_nil]
  exact redriving

/-- One step of the call. -/
theorem Redriving.act (redriving : Redriving batch tail seen w thread)
    (acts : thread.Acts cfg consumerCancels w w' {next}) :
    Redriving batch tail (seen ++ redriveEvents thread next) w' next := by
  generalize left : ({next} : Multiset (QueueThread F)) = threads at acts
  cases redriving with
  | @next done rest seen w split progress dlq =>
    cases acts with
    | redriveNext msg rest ok =>
      obtain rfl := Multiset.singleton_inj.mp left
      exact (Redriving.called split progress dlq).silent rfl
    | redriven ok =>
      obtain rfl := Multiset.singleton_inj.mp left
      rw [List.append_nil] at split
      subst split
      exact (Redriving.halted progress dlq).silent rfl
  | @called done rest msg seen w split progress dlq =>
    cases acts with
    | enqueue acts =>
      cases acts with
      | start =>
        obtain rfl := Multiset.singleton_inj.mp left
        exact (Redriving.looking split progress dlq).silent rfl
  | @looking done rest msg seen w now batched progress dlq =>
    cases acts with
    | enqueue acts =>
      cases acts with
      | mark msg' now' unlocked =>
        have dlq' := (w.queue.mark_dlq cfg now (messageKey (redriven msg))).trans dlq
        split at left
        · obtain rfl := Multiset.singleton_inj.mp left
          exact .marked batched progress rfl dlq'
        · obtain rfl := Multiset.singleton_inj.mp left
          have counted : done.length + 1 = (done ++ [msg]).length := by simp
          rw [counted]
          exact .next (by rw [batched, List.append_assoc]; rfl) (progress.further ⟨rfl, rfl, rfl⟩) dlq'
  | @marked done rest msg seen w now pc batched progress marked dlq =>
    cases acts with
    | enqueue acts =>
      cases acts with
      | start | mark => cases marked
      | admission m opened later =>
        obtain rfl : m = redriven msg := marked
        split at left
        all_goals
          obtain rfl := Multiset.singleton_inj.mp left
          refine .silent ?_ rfl
          exact .marked batched progress rfl dlq
      | unmark m violation unlocked | cancelManager m =>
        obtain rfl := Multiset.singleton_inj.mp left
        exact .failed batched progress dlq
      | send m room =>
        obtain rfl : m = redriven msg := marked
        obtain rfl := Multiset.singleton_inj.mp left
        have counted : done.length + 1 = (done ++ [msg]).length := by simp
        rw [List.append_assoc, counted]
        exact .next (by rw [batched, List.append_assoc]; rfl) (progress.further ⟨rfl, rfl, rfl⟩) dlq
      | cancel m cancelled | cancelUnmark m unlocked =>
        obtain rfl := Multiset.singleton_inj.mp left
        refine .silent ?_ rfl
        exact .marked batched progress marked dlq
  | @failed done rest msg seen w now error split progress dlq =>
    cases acts with
    | putBack msg' ok error unlocked =>
      obtain rfl := Multiset.singleton_inj.mp left
      refine (Redriving.stopped split progress ?_).silent rfl
      rw [← dlq]
  | stopped => cases acts
  | halted => cases acts

/-! ## Whole calls -/

variable {setting : Setting F} {others : QueueWorld F → QueueWorld F → Prop} {limit : Int}
  {ok : Nat} {error : Option EnqueueError}

omit [Float64 F] in
private theorem takeDeadLetters_congr {q q' : MemoryQueue F} (same : q'.dlq = q.dlq) (limit : Int) :
    (q'.takeDeadLetters limit).1 = (q.takeDeadLetters limit).1 ∧
      (q'.takeDeadLetters limit).2.dlq = (q.takeDeadLetters limit).2.dlq := by
  unfold MemoryQueue.takeDeadLetters
  rw [same]
  exact ⟨rfl, rfl⟩

section Redriven

variable
  (run : Soup.Tracked setting.soup others redriveEvents w (.redrive limit) seen w' (.redriven ok error))

include run

/-- A call that has returned took its batch first, when the others had done something or
nothing. -/
theorem redrive_taken :
    ∃ w₁, Relation.ReflTransGen others w w₁ ∧
      Soup.Tracked setting.soup others redriveEvents
        { w₁ with queue := (w₁.queue.takeDeadLetters limit).2 }
        (.redriving (w₁.queue.takeDeadLetters limit).1 0) seen w' (.redriven ok error) := by
  generalize asked : QueueThread.redrive limit = thread at run
  generalize halted : QueueThread.redriven ok error = last at run
  induction run with
  | here =>
    rw [← asked] at halted
    cases halted
  | act acts rest =>
    subst asked halted
    generalize left : ({_} : Multiset (QueueThread F)) = threads at acts
    cases acts with
    | redrive limit unlocked =>
      obtain rfl := Multiset.singleton_inj.mp left
      exact ⟨_, .refl, rest⟩
  | other changed rest ih =>
    obtain ⟨w₁, passed, further⟩ := ih asked halted
    exact ⟨w₁, .head changed passed, further⟩

/-- Where a call ends that was made with these dead letters, if nobody else touches them. -/
theorem redriving_of_tracked (alone : ∀ w w', others w w' → w'.queue.dlq = w.queue.dlq) :
    Redriving (w.queue.takeDeadLetters limit).1 (w.queue.takeDeadLetters limit).2.dlq seen w'
      (.redriven ok error) := by
  obtain ⟨w₁, passed, further⟩ := redrive_taken run
  have same : w₁.queue.dlq = w.queue.dlq := by
    clear further
    induction passed with
    | refl => rfl
    | tail _ changed ih => exact (alone _ _ changed).trans ih
  obtain ⟨batch, tail⟩ := takeDeadLetters_congr same limit
  rw [batch] at further
  refine further.invariant (.next (List.nil_append _).symm .start tail) ?_ ?_
  · intro seen w thread w' next redriving acts
    exact redriving.act acts
  · intro seen w w' thread redriving changed
    exact redriving.other (alone _ _ changed)

end Redriven

omit [Float64 F] in
/-- Where nothing is found, every message is sent. -/
theorem Progress.sends_eq (progress : Progress done seen)
    (fresh : ∀ look ∈ looks seen, look.2.2 = false) :
    AgentForge.sends seen = done.map redriven := by
  rw [progress.sent, ← progress.looked, List.filter_eq_self.mpr]
  intro look member
  rw [fresh look member]
  rfl

/-! ## A call that fails -/

/-- Each message that was dead-lettered has been sent or is dead-lettered still, and those
that were sent are counted. -/
structure RedriveKeeps (before after : QueueWorld F) (sent : List (SQSMessage F)) (ok : Nat) :
    Prop where
  kept : (before.queue.dlq : Multiset (SQSMessage F)).map redriven =
    ↑sent + (after.queue.dlq : Multiset (SQSMessage F)).map redriven
  counted : ok = sent.length

omit [Float64 F] in
/-- The messages before the one that failed are sent and that one is put back, so what counts is
whether any came after it. -/
theorem kept_iff (done rest tail : List (SQSMessage F)) (msg : SQSMessage F) :
    (Multiset.ofList (done ++ msg :: rest ++ tail)).map redriven =
        Multiset.ofList (done.map redriven) +
          (Multiset.ofList (tail ++ [redriveMessage msg])).map redriven ↔
      rest = [] := by
  constructor
  · intro kept
    simpa using congrArg Multiset.card kept
  · rintro rfl
    rw [Multiset.map_coe, Multiset.map_coe, Multiset.coe_add, Multiset.coe_eq_coe,
      List.append_assoc, List.map_append, List.perm_append_left_iff, List.map_append,
      List.map_append]
    exact List.perm_append_comm

/-- The only failure is the one after these successes. -/
theorem failed_index_iff (n : Nat) (failure : EnqueueError) (P : Nat → Prop) :
    (∀ i e, (List.replicate n (.ok ()) ++ [.error failure])[i]? = some (Except.error e) → P i) ↔
      P n := by
  have last : ∀ i e, (List.replicate n (.ok ()) ++ [.error failure])[i]? =
      some (Except.error e) ↔ i = n ∧ e = failure := by
    grind
  simp [last]

/-- **What a failed redrive loses.** Nobody else dead-letters anything while it runs, and no key
of the batch is found. A call that returns an error has lost no message if and only if the
message that failed was the last of its batch: those behind it were taken out of the dead letters
at the start and are not put back. -/
theorem redrive_keeps_iff {failure : EnqueueError}
    (run : Soup.Tracked setting.soup others redriveEvents w (.redrive limit) seen w'
      (.redriven ok (some failure))) (alone : ∀ w w', others w w' → w'.queue.dlq = w.queue.dlq)
    (fresh : ∀ look ∈ looks seen, look.2.2 = false) :
    RedriveKeeps w w' (sends seen) ok ↔
      ∀ i e, (enqueueResults seen)[i]? = some (.error e) →
        i + 1 = (w.queue.takeDeadLetters limit).1.length := by
  have redriving := redriving_of_tracked run alone
  cases redriving with
  | @stopped done rest msg seen _ now _ batched progress dlq =>
    have sent : sends (seen ++ [.looked (redriven msg) now false] ++
        [.returned (.error failure)]) = done.map redriven := by
      rw [List.append_assoc, sends_append, progress.sends_eq fun look member => fresh look ?_]
      · exact List.append_nil _
      · simp [member]
    have results : enqueueResults (seen ++ [.looked (redriven msg) now false] ++
        [.returned (.error failure)]) =
          List.replicate done.length (.ok ()) ++ [.error failure] := by
      rw [List.append_assoc, enqueueResults_append, progress.results]
      rfl
    have whole : w.queue.dlq = done ++ msg :: rest ++ (w.queue.takeDeadLetters limit).2.dlq := by
      rw [← batched]
      exact w.queue.takeDeadLetters_append limit
    have keeps : RedriveKeeps w w' (done.map redriven) done.length ↔ rest = [] := by
      rw [← kept_iff done rest (w.queue.takeDeadLetters limit).2.dlq msg, ← whole, ← dlq]
      exact ⟨RedriveKeeps.kept, fun kept => ⟨kept, List.length_map _ |>.symm⟩⟩
    rw [sent, results, keeps, failed_index_iff, batched]
    simp

end Events

section Stranded

/-- A queue whose tenants have the default limits and whose dead letters may be redriven. -/
def redriveSetting : Setting Rat :=
  ⟨smallQueue, (· = .newManager ⟨0, 0, 0, 0, 0, 0, 0⟩), False, True, fun _ _ => False⟩

/-- A message of another task. -/
def otherMessage : SQSMessage Rat := { firstMessage with taskID := "u" }

/-- Dead letters, long after they failed. -/
def deadWorld (dlq : List (SQSMessage Rat)) : QueueWorld Rat where
  queue := { dlq := dlq }
  manager := .newManager ⟨0, 0, 0, 0, 0, 0, 0⟩
  clock := 1

/-- Without a limit the call takes all of them. -/
theorem redrive_takes_all (others : QueueWorld Rat → QueueWorld Rat → Prop)
    (dlq : List (SQSMessage Rat)) :
    Soup.Tracked redriveSetting.soup others redriveEvents (deadWorld dlq) (.redrive 0) []
      (deadWorld []) (.redriving dlq 0) := by
  have taken : (deadWorld dlq).queue.takeDeadLetters 0 = (dlq, (deadWorld []).queue) := by
    simp [MemoryQueue.takeDeadLetters, deadWorld]
  have acts : redriveSetting.soup.acts (deadWorld dlq) (.redrive 0) _ _ := .redrive 0 rfl
  rw [taken] at acts
  exact .act acts (.here ..)

/-- The first message of the batch is admitted, but there is no time left to send it. -/
def givenUpWorld : QueueWorld Rat :=
  { deadWorld [firstMessage] with
    manager := (((deadWorld []).manager.tryEnqueue 1 1 "a" ⟨"a#t#r", 0, 0⟩).2).cancelEnqueue "a"
      "a#t#r" }

private theorem redrive_given_up (others : QueueWorld Rat → QueueWorld Rat → Prop)
    (rest : List (SQSMessage Rat)) :
    Soup.Tracked redriveSetting.soup others redriveEvents (deadWorld [])
      (.redriving (firstMessage :: rest) 0)
      [.looked firstMessage 1 false, .returned (.error .cancelled)] givenUpWorld
      (.redriven 0 (some .cancelled)) := by
  have start : Soup.Tracked redriveSetting.soup others redriveEvents (deadWorld [])
      (.redriving (firstMessage :: rest) 0) [] _ _ := .here ..
  have called := start.turns (.enqueue (.redrive firstMessage rest 0) (.start firstMessage))
    (.redriveNext ..)
  have prepared := called.turns (.enqueue (.redrive firstMessage rest 0) (.mark firstMessage 1))
    (.enqueue (.start _))
  have marked := prepared.turns (.enqueue (.redrive firstMessage rest 0) (.admission firstMessage))
    (.enqueue (.mark _ _ rfl))
  have admitted := marked.turns (.enqueue (.redrive firstMessage rest 0) (.send firstMessage))
    (.enqueue (.admission _ 1 (le_refl _)))
  have cancelled := admitted.turns
    (.enqueue (.redrive firstMessage rest 0) (.cancelUnmark firstMessage))
    (.enqueue (.cancel _ trivial))
  have unmarked := cancelled.turns
    (.enqueue (.redrive firstMessage rest 0) (.cancelManager firstMessage))
    (.enqueue (.cancelUnmark _ rfl))
  have returned := unmarked.turns (.putBack firstMessage 0 .cancelled) (.enqueue (.cancelManager _))
  exact returned.turns (.redriven 0 (some .cancelled)) (.putBack _ _ _ rfl)

/-- The only message of the batch fails, and is dead-lettered again. -/
theorem redrive_keeps_only_message : ∃ seen w',
    Soup.Tracked redriveSetting.soup (fun _ _ => False) redriveEvents (deadWorld [firstMessage])
        (.redrive 0) seen w' (.redriven 0 (some .cancelled)) ∧
      RedriveKeeps (deadWorld [firstMessage]) w' (sends seen) 0 := by
  have run := (redrive_takes_all (fun _ _ => False) [firstMessage]).trans
    (redrive_given_up (fun _ _ => False) [])
  have last := (failed_index_iff 0 .cancelled (· + 1 = 1)).mpr rfl
  exact ⟨_, _, run, (redrive_keeps_iff run nofun (by decide)).mpr last⟩

/-- The first message of two fails. It is dead-lettered again, and the second is neither on the
channel nor dead-lettered any more. -/
theorem redrive_loses_rest : ∃ seen w',
    Soup.Tracked redriveSetting.soup (fun _ _ => False) redriveEvents
        (deadWorld [firstMessage, otherMessage]) (.redrive 0) seen w'
        (.redriven 0 (some .cancelled)) ∧
      (∀ look ∈ looks seen, look.2.2 = false) ∧ w'.queue.ch = [] ∧ w'.queue.pending = ∅ ∧
      w'.queue.dlq = [firstMessage] ∧
      ¬ RedriveKeeps (deadWorld [firstMessage, otherMessage]) w' (sends seen) 0 := by
  have run := (redrive_takes_all (fun _ _ => False) [firstMessage, otherMessage]).trans
    (redrive_given_up (fun _ _ => False) [otherMessage])
  refine ⟨_, _, run, by decide, rfl, rfl, rfl, ?_⟩
  rintro ⟨kept, -⟩
  exact absurd (congrArg Multiset.card kept) (by decide)

end Stranded

end AgentForge
