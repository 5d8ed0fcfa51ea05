import AgentForge.Redrive

/-! A call of `RedriveDeadLetters` that reports no failure. A message that `Enqueue` takes for a
duplicate counts as redriven, although nothing is sent. Since the final failure of a message marks
its key as recently completed, every dead letter is one for as long as the window lasts. -/
namespace AgentForge

open Transition

section Requeue

variable {F : Type} {batch : List (SQSMessage F)} {seen : List (RedriveEvent F)}
  {msg : SQSMessage F} {now : Time}

private theorem Progress.sends_eq_iff (progress : Progress done seen) :
    AgentForge.sends seen = done.map redriven ↔ ∀ look ∈ looks seen, look.2.2 = false := by
  refine ⟨fun sent => ?_, progress.sends_eq⟩
  rw [progress.sent, ← progress.looked] at sent
  have count := congrArg List.length sent
  rw [List.length_map, List.length_map, List.length_filter_eq_length_iff] at count
  intro look member
  simpa using count look member

/-! ## What is found -/

/-- What `Enqueue` finds, message by message: a key that was a duplicate from the start, or that
of an earlier message which it took. -/
inductive Judged (duplicate : Time → String → Prop) : List (SQSMessage F × Time × Bool) → Prop where
  | nil : Judged duplicate []
  | look {earlier : List (SQSMessage F × Time × Bool)} (judged : Judged duplicate earlier)
      (msg : SQSMessage F) (now : Time) (found : Bool)
      (verdict : found = true ↔ duplicate now (messageKey msg) ∨
        ∃ look ∈ earlier, look.2.2 = false ∧ messageKey look.1 = messageKey msg) :
      Judged duplicate (earlier ++ [(msg, now, found)])

private theorem Judged.none_found_iff {all : List (SQSMessage F × Time × Bool)}
    (judged : Judged duplicate all) :
    (∀ look ∈ all, look.2.2 = false) ↔
      (∀ look ∈ all, ¬ duplicate look.2.1 (messageKey look.1)) ∧
        (all.map fun look => messageKey look.1).Nodup := by
  induction judged with
  | nil => simp
  | @look earlier judged msg now found verdict ih =>
    have split : (∀ look ∈ earlier ++ [(msg, now, found)], look.2.2 = false) ↔
        (∀ look ∈ earlier, look.2.2 = false) ∧ ¬ duplicate now (messageKey msg) ∧
          messageKey msg ∉ earlier.map fun look => messageKey look.1 := by
      rw [List.forall_mem_append, List.forall_mem_singleton]
      refine and_congr_right fun fresh => ?_
      rw [← Bool.not_eq_true, verdict, not_or, List.mem_map]
      refine and_congr_right fun _ => not_congr ⟨?_, ?_⟩
      · rintro ⟨look, member, -, same⟩
        exact ⟨look, member, same⟩
      · rintro ⟨look, member, same⟩
        exact ⟨look, member, fresh look member, same⟩
    rw [split, ih, List.forall_mem_append, List.forall_mem_singleton, List.map_append,
      List.map_singleton, List.nodup_append_comm, List.singleton_append, List.nodup_cons]
    tauto

/-- What the call has done to a queue that nobody else touches: the channel holds what it sent,
the keys it took are queued, and what has been forgotten since then would not count any more. -/
structure Requeued (cfg : MemoryQueueConfig) (q₀ q : MemoryQueue F) (since : Time)
    (looked : List (SQSMessage F × Time × Bool)) (sent : List (SQSMessage F)) : Prop where
  channel : q.ch = q₀.ch ++ sent
  pending : q.pending = q₀.pending
  inFlight : q.inFlight = q₀.inFlight
  inQueue : ∀ key, key ∈ q.inQueue ↔
    key ∈ q₀.inQueue ∨ ∃ look ∈ looked, look.2.2 = false ∧ messageKey look.1 = key
  recent : ∀ t key ts, since ≤ t → t - ts ≤ cfg.dedupeWindow →
    (q.recent.lookup key = some ts ↔ q₀.recent.lookup key = some ts)
  judged : Judged (fun now key => q₀.duplicate cfg now key = true) looked

variable {cfg : MemoryQueueConfig} {q₀ q : MemoryQueue F} {since : Time}
  {looked : List (SQSMessage F × Time × Bool)} {sent : List (SQSMessage F)}

private theorem duplicate_iff (key : String) :
    q.duplicate cfg now key = true ↔ key ∈ q.inQueue ∨ key ∈ q.inFlight ∨
      ∃ ts, q.recent.lookup key = some ts ∧ now - ts ≤ cfg.dedupeWindow := by
  unfold MemoryQueue.duplicate
  rw [Bool.or_eq_true, Bool.or_eq_true, decide_eq_true_eq, decide_eq_true_eq, or_assoc]
  cases q.recent.lookup key <;> simp

private theorem lookup_pruneRecent_iff :
    (q.pruneRecent cfg now).recent.lookup key = some ts ↔
      q.recent.lookup key = some ts ∧ now - ts ≤ cfg.dedupeWindow := by
  refine ⟨MemoryQueue.lookup_pruneRecent, ?_⟩
  rintro ⟨found, within⟩
  refine AList.mem_lookup_iff.mpr (List.mem_filter.mpr ⟨AList.mem_lookup_iff.mp found, ?_⟩)
  exact decide_eq_true within

private theorem Requeued.start (cfg : MemoryQueueConfig) (q : MemoryQueue F) (limit : Int)
    (since : Time) :
    Requeued cfg q (q.takeDeadLetters limit).2 since [] [] where
  channel := (List.append_nil _).symm
  pending := rfl
  inFlight := rfl
  inQueue := by simp [MemoryQueue.takeDeadLetters]
  recent _ _ _ _ _ := Iff.rfl
  judged := .nil

section Held

variable (held : Requeued cfg q₀ q since looked sent)

include held

/-- What is a duplicate now: what was one from the start, or has been taken since. -/
theorem Requeued.duplicate_iff (later : since ≤ now) (key : String) :
    (q.pruneRecent cfg now).duplicate cfg now key = true ↔
      q₀.duplicate cfg now key = true ∨
        ∃ look ∈ looked, look.2.2 = false ∧ messageKey look.1 = key := by
  have remembered : (∃ ts, (q.pruneRecent cfg now).recent.lookup key = some ts ∧
      now - ts ≤ cfg.dedupeWindow) ↔
        ∃ ts, q₀.recent.lookup key = some ts ∧ now - ts ≤ cfg.dedupeWindow := by
    refine exists_congr fun ts => and_congr_left fun within => ?_
    rw [lookup_pruneRecent_iff, held.recent now key ts later within]
    exact and_iff_left within
  have queued : key ∈ (q.pruneRecent cfg now).inQueue ↔
      key ∈ q₀.inQueue ∨ ∃ look ∈ looked, look.2.2 = false ∧ messageKey look.1 = key :=
    held.inQueue key
  have flying : key ∈ (q.pruneRecent cfg now).inFlight ↔ key ∈ q₀.inFlight := by
    rw [← held.inFlight]
    rfl
  rw [AgentForge.duplicate_iff, AgentForge.duplicate_iff, remembered, queued, flying]
  exact or_right_comm

/-- What is forgotten at a time does not count later either. -/
theorem Requeued.prune (later : since ≤ now) :
    Requeued cfg q₀ (q.pruneRecent cfg now) now looked sent :=
  { held with
    recent := by
      intro t key ts passed within
      rw [lookup_pruneRecent_iff, held.recent t key ts (later.trans passed) within]
      exact and_iff_left (le_trans (Int.sub_le_sub_right passed ts) within) }

/-- `Enqueue` looks for a key. -/
theorem Requeued.look (later : since ≤ now) (msg : SQSMessage F) :
    Requeued cfg q₀ (q.mark cfg now (messageKey msg)).2 now
      (looked ++ [(msg, now, !(q.mark cfg now (messageKey msg)).1)]) sent := by
  have verdict := held.duplicate_iff later (messageKey msg)
  have pruned := held.prune later
  by_cases found : (q.pruneRecent cfg now).duplicate cfg now (messageKey msg) = true
  · have same : q.mark cfg now (messageKey msg) = (false, q.pruneRecent cfg now) := if_pos found
    rw [same]
    refine { pruned with inQueue := fun key => ?_, judged := ?_ }
    · rw [pruned.inQueue key]
      simp
    · exact .look pruned.judged msg now true (by rw [← verdict, found])
  · have same : q.mark cfg now (messageKey msg) = (true,
        { q.pruneRecent cfg now with inQueue := insert (messageKey msg) q.inQueue }) :=
      if_neg found
    rw [same]
    refine { pruned with inQueue := fun key => ?_, judged := ?_ }
    · have taken : (∃ look ∈ looked ++ [(msg, now, !true)],
          look.2.2 = false ∧ messageKey look.1 = key) ↔
            (∃ look ∈ looked, look.2.2 = false ∧ messageKey look.1 = key) ∨
              messageKey msg = key := by
        simp [or_and_right, exists_or]
      rw [taken, Finset.mem_insert, held.inQueue key, or_comm, or_assoc, eq_comm]
    · refine .look pruned.judged msg now false ?_
      rw [← verdict]
      exact ⟨nofun, fun there => absurd there found⟩

/-- `Enqueue` sends a message. -/
theorem Requeued.send (msg : SQSMessage F) :
    Requeued cfg q₀ { q with ch := q.ch ++ [msg] } since looked (sent ++ [msg]) :=
  { held with channel := by rw [held.channel, List.append_assoc] }

end Held

/-! ## A call on its own -/

variable [Float64 F] {setting : Setting F} {limit : Int} {w w' : QueueWorld F}
  {thread : QueueThread F}

/-- The call is going to return an error. -/
def QueueThread.GivesUp : QueueThread F → Prop
  | .enqueue _ (.unmark ..) | .enqueue _ (.cancelUnmark _) | .enqueue _ (.cancelManager _) => True
  | .putBack .. | .redriven _ (some _) => True
  | _ => False

/-- No key has been looked for after this time. -/
def QueueThread.Since (since : Time) (w : QueueWorld F) : QueueThread F → Prop
  | .enqueue _ (.mark _ now) => since ≤ now ∧ now ≤ w.clock
  | _ => since ≤ w.clock

/-- A call on its own: it gives up, or the queue is as it has made it. -/
def Requeuing (cfg : MemoryQueueConfig) (q₀ : MemoryQueue F) (seen : List (RedriveEvent F))
    (w : QueueWorld F) (thread : QueueThread F) : Prop :=
  thread.GivesUp ∨
    ∃ since, thread.Since since w ∧ Requeued cfg q₀ w.queue since (looks seen) (sends seen)

omit [Float64 F] in
private theorem Requeuing.silent (requeuing : Requeuing cfg q₀ seen w' next)
    (nothing : redriveEvents thread next = []) :
    Requeuing cfg q₀ (seen ++ redriveEvents thread next) w' next := by
  rw [nothing, List.append_nil]
  exact requeuing

/-- One step of its `Enqueue`. -/
theorem Requeuing.enqueue (requeuing : Requeuing cfg q₀ seen w (.enqueue (.redrive msg rest ok) pc))
    (acts : pc.Acts cfg consumerCancels (.redrive msg rest ok) w w' {next}) :
    Requeuing cfg q₀ (seen ++ redriveEvents (.enqueue (.redrive msg rest ok) pc) next) w'
      next := by
  generalize left : ({next} : Multiset (QueueThread F)) = threads at acts
  cases acts with
  | start m =>
    obtain rfl := Multiset.singleton_inj.mp left
    obtain ⟨⟨⟩⟩ | ⟨since, before, held⟩ := requeuing
    exact .silent (.inr ⟨since, ⟨before, le_refl _⟩, held⟩) rfl
  | mark m now unlocked =>
    obtain ⟨⟨⟩⟩ | ⟨since, ⟨before, passed⟩, held⟩ := requeuing
    have looked := held.look before m
    rw [← List.append_nil (sends seen)] at looked
    split at left
    · rename_i marked
      obtain rfl := Multiset.singleton_inj.mp left
      rw [marked] at looked
      refine .inr ⟨now, passed, ?_⟩
      rw [looks_append, sends_append]
      exact looked
    · rename_i found
      obtain rfl := Multiset.singleton_inj.mp left
      rw [Bool.eq_false_of_not_eq_true found] at looked
      refine .inr ⟨now, passed, ?_⟩
      rw [looks_append, sends_append]
      exact looked
  | admission m opened later =>
    obtain ⟨⟨⟩⟩ | ⟨since, before, held⟩ := requeuing
    split at left
    · obtain rfl := Multiset.singleton_inj.mp left
      exact .silent (.inr ⟨since, le_trans before later, held⟩) rfl
    · obtain rfl := Multiset.singleton_inj.mp left
      exact .inl trivial
  | send m room =>
    obtain rfl := Multiset.singleton_inj.mp left
    obtain ⟨⟨⟩⟩ | ⟨since, before, held⟩ := requeuing
    have sent := held.send m
    rw [← List.append_nil (looks seen)] at sent
    refine .inr ⟨since, before, ?_⟩
    rw [looks_append, sends_append]
    exact sent
  | unmark m violation unlocked | cancel m cancelled | cancelUnmark m unlocked | cancelManager m =>
    obtain rfl := Multiset.singleton_inj.mp left
    exact .inl trivial

omit [Float64 F] in
private theorem Redriving.of_redrive
    (redriving : Redriving batch tail seen w (.enqueue origin pc)) :
    ∃ msg rest ok, origin = .redrive msg rest ok := by
  cases redriving
  all_goals exact ⟨_, _, _, rfl⟩

/-- One step of the call. -/
theorem Requeuing.act (course : Redriving batch tail seen w thread)
    (requeuing : Requeuing cfg q₀ seen w thread)
    (acts : thread.Acts cfg consumerCancels w w' {next}) :
    Requeuing cfg q₀ (seen ++ redriveEvents thread next) w' next := by
  generalize left : ({next} : Multiset (QueueThread F)) = threads at acts
  cases acts with
  | enqueue acts =>
    obtain ⟨msg, rest, ok, rfl⟩ := course.of_redrive
    subst left
    exact requeuing.enqueue acts
  | redriveNext msg rest ok | redriven ok =>
    obtain rfl := Multiset.singleton_inj.mp left
    obtain ⟨⟨⟩⟩ | ⟨since, before, held⟩ := requeuing
    exact .silent (.inr ⟨since, before, held⟩) rfl
  | putBack msg ok error unlocked =>
    obtain rfl := Multiset.singleton_inj.mp left
    exact .inl trivial
  | ingress | dispatch | fire | giveUp | redrive => cases course

omit [Float64 F] in
private theorem QueueThread.Since.later (before : thread.Since since w)
    (passed : w.clock ≤ w'.clock) : thread.Since since w' := by
  cases thread with
  | enqueue origin pc =>
    cases pc with
    | mark msg now => exact ⟨before.1, le_trans before.2 passed⟩
    | _ => exact le_trans before passed
  | _ => exact le_trans before passed

omit [Float64 F] in
/-- Time passes. -/
theorem Requeuing.passes (requeuing : Requeuing cfg q₀ seen w thread)
    (passes : w.Passes shared w') :
    Requeuing cfg q₀ seen w' thread := by
  rcases requeuing with givesUp | ⟨since, before, held⟩
  · exact .inl givesUp
  · have queue : w'.queue = w.queue := by rw [passes.same]
    refine .inr ⟨since, before.later passes.clock, ?_⟩
    rw [queue]
    exact held

/-- Where a call ends that was alone and did not fail. -/
theorem requeued_of_tracked
    (run : Soup.Tracked setting.soup setting.soup.env redriveEvents w (.redrive limit) seen w'
      (.redriven n none)) :
    Progress (w.queue.takeDeadLetters limit).1 seen ∧
      w'.queue.dlq = (w.queue.takeDeadLetters limit).2.dlq ∧
      n = (w.queue.takeDeadLetters limit).1.length ∧
      ∃ since, Requeued setting.cfg.normalize w.queue w'.queue since (looks seen) (sends seen) := by
  have unchanged : ∀ w w', setting.soup.env w w' → w'.queue = w.queue := by
    intro w w' passes
    rw [passes.same]
  obtain ⟨w₁, passed, further⟩ := redrive_taken run
  have same : w₁.queue = w.queue := by
    clear further
    induction passed with
    | refl => rfl
    | tail _ changed ih => exact (unchanged _ _ changed).trans ih
  rw [same] at further
  have ended := further.invariant
    (I := fun seen now thread =>
      Redriving (w.queue.takeDeadLetters limit).1 (w.queue.takeDeadLetters limit).2.dlq seen now
          thread ∧
        Requeuing setting.cfg.normalize w.queue seen now thread)
    ⟨.next (List.nil_append _).symm .start rfl, .inr ⟨w₁.clock, le_refl _, .start ..⟩⟩ ?_ ?_
  · obtain ⟨course, requeuing⟩ := ended
    cases course with
    | halted progress dlq =>
      obtain ⟨⟨⟩⟩ | ⟨since, -, held⟩ := requeuing
      exact ⟨progress, dlq, rfl, since, held⟩
  · rintro seen w thread w' next ⟨course, requeuing⟩ acts
    exact ⟨course.act acts, requeuing.act course acts⟩
  · rintro seen w w' thread ⟨course, requeuing⟩ changed
    exact ⟨course.other (congrArg _ (unchanged _ _ changed)), requeuing.passes changed⟩

/-- All that was taken from the dead letters has been put on the channel as first attempts, it is
counted, and it is nowhere else. -/
structure Reenqueued (before after : MemoryQueue F) (batch : List (SQSMessage F)) (n : Nat) :
    Prop where
  taken : before.dlq = batch ++ after.dlq
  channel : after.ch = before.ch ++ batch.map redriven
  counted : n = batch.length
  pending : after.pending = before.pending
  inFlight : after.inFlight = before.inFlight

/-- **What a redrive re-enqueues.** Nobody else uses the queue while it runs, but time may pass.
A call that returns without an error has put all of its batch on the channel if and only if no
message of it was a duplicate when `Enqueue` looked for its key, judged by the queue as the call
found it, and no two of them have the same key. -/
theorem redrive_reenqueues_iff {n : Nat}
    (run : Soup.Tracked setting.soup setting.soup.env redriveEvents w (.redrive limit) seen w'
      (.redriven n none)) :
    Reenqueued w.queue w'.queue (w.queue.takeDeadLetters limit).1 n ↔
      (∀ look ∈ looks seen,
        w.queue.duplicate setting.cfg.normalize look.2.1 (messageKey look.1) = false) ∧
      ((w.queue.takeDeadLetters limit).1.map messageKey).Nodup := by
  obtain ⟨progress, dlq, counted, since, held⟩ := requeued_of_tracked run
  have sentAll : w'.queue.ch = w.queue.ch ++ (w.queue.takeDeadLetters limit).1.map redriven ↔
      ∀ look ∈ looks seen, look.2.2 = false := by
    rw [held.channel, List.append_cancel_left_eq]
    exact progress.sends_eq_iff
  have keys : (looks seen).map (fun look => messageKey look.1) =
      (w.queue.takeDeadLetters limit).1.map messageKey := by
    have all := congrArg (List.map messageKey) progress.looked
    rw [List.map_map, List.map_map] at all
    exact all.trans (List.map_congr_left fun msg _ => messageKey_redriven msg)
  have judged := held.judged.none_found_iff
  simp only [Bool.not_eq_true, keys] at judged
  rw [← judged, ← sentAll]
  refine ⟨Reenqueued.channel, fun channel => ?_⟩
  exact ⟨dlq ▸ w.queue.takeDeadLetters_append limit, channel, counted, held.pending, held.inFlight⟩

end Requeue

section FinalFailure

/-- The last of three attempts. -/
def lastMessage : SQSMessage Rat := { firstMessage with attempt := 3 }

/-- The manager after an attempt has failed for good. -/
def exhaustedManager : Manager Rat :=
  let fresh : Manager Rat := .newManager ⟨0, 0, 0, 0, 0, 0, 0⟩
  let admitted := (fresh.tryEnqueue 1 1 "a" ⟨"a#t#r", 0, 0⟩).2
  let started := (admitted.tryStartRun 1 "a").2
  let completed := started.completeRun 1 "a" (completionInfo smallQueue.normalize lastMessage true)
  completed.markDeadLetter "a" "a#t#r"

/-- The last attempt has failed: the message is dead-lettered, and its key is remembered. -/
def exhaustedWorld : QueueWorld Rat where
  queue := { recent := AList.insert "a#t#r" 1 ∅, dlq := [lastMessage] }
  manager := exhaustedManager
  clock := 1
  log := [.finished lastMessage true, .dispatched lastMessage, .sent .caller lastMessage]

/-- The message is enqueued and given to a worker, and its attempt fails. -/
def exhaustedEvents : List (Soup.Event (QueueThread Rat)) :=
  [.act (.dispatch (.releasing lastMessage true)), .act (.dispatch (.deadLettering lastMessage)),
    .act (.dispatch (.handling lastMessage)), .act (.dispatch (.popping 0)), .act (.dispatch .idle),
    .spawn (.dispatch .idle), .act (.ingress .draining), .act (.ingress (.received lastMessage)),
    .act (.ingress .waiting), .spawn (.ingress .waiting),
    .act (.enqueue .caller (.send lastMessage)), .act (.enqueue .caller (.admission lastMessage)),
    .act (.enqueue .caller (.mark lastMessage 1)), .act (.enqueue .caller (.start lastMessage)),
    .spawn (.enqueue .caller (.start lastMessage))]

theorem exhausted_path : ∃ history threads,
    redriveSetting.soup.system.Path history ⟨exhaustedWorld, threads⟩ ∧
      history.map Prod.snd = exhaustedEvents := by
  have start : redriveSetting.soup.system.Path []
      ⟨{ manager := .newManager ⟨0, 0, 0, 0, 0, 0, 0⟩, clock := 1 }, 0⟩ := .start ⟨⟨rfl, rfl⟩, rfl⟩
  have called := start.next (.spawn (.enqueue lastMessage))
  have prepared := called.turns (.enqueue .caller (.mark lastMessage 1)) (.enqueue (.start _))
  have marked := prepared.turns (.enqueue .caller (.admission lastMessage))
    (.enqueue (.mark _ _ rfl))
  have admitted := marked.turns (.enqueue .caller (.send lastMessage))
    (.enqueue (.admission _ 1 (le_refl _)))
  have sent := admitted.turns (.returned (.ok ())) (.enqueue (.send _ Int.zero_lt_one))
  have listening := sent.next (.spawn .ingress)
  have received := listening.turns (.ingress (.received lastMessage)) (.ingress (.receive rfl))
  have added := received.turns (.ingress .draining) (.ingress (.lock _ rfl))
  have pending := added.turns (.ingress .waiting) (.ingress (.drained rfl))
  have idle := pending.next (.spawn .dispatch)
  have locked := idle.turns (.dispatch (.popping 0)) (.dispatch (.lock rfl))
  have handling := locked.turns (.dispatch (.handling lastMessage))
    (.dispatch (.turn _ Nat.zero_lt_one))
  have failed := handling.turns (.dispatch (.deadLettering lastMessage))
    (.dispatch (.complete _ true))
  have noted := failed.turns (.dispatch (.releasing lastMessage true)) (.dispatch (.deadLetter _))
  exact ⟨_, _, noted.next (.act (.dispatch (.release _ _ rfl))), rfl⟩

private theorem exhausted_reached : ∃ threads,
    redriveSetting.soup.ReachedWithin (fun _ _ => True) ⟨exhaustedWorld, threads⟩ := by
  obtain ⟨history, threads, path, -⟩ := exhausted_path
  exact ⟨threads, history, path, fun _ _ => trivial⟩

/-- The call up to where `Enqueue` looks for the key of the only dead letter. -/
theorem redrive_exhausted (now : Time) :
    Soup.Tracked redriveSetting.soup redriveSetting.soup.env redriveEvents
      { exhaustedWorld with clock := now } (.redrive 0) []
      { exhaustedWorld with queue := { exhaustedWorld.queue with dlq := [] }, clock := now }
      (.enqueue (.redrive firstMessage [] 0) (.mark firstMessage now)) := by
  have start : Soup.Tracked redriveSetting.soup redriveSetting.soup.env redriveEvents
      { exhaustedWorld with clock := now } (.redrive 0) [] _ _ := .here ..
  have taken := start.turns (.redriving [lastMessage] 0) (.redrive 0 rfl)
  have called := taken.turns (.enqueue (.redrive firstMessage [] 0) (.start firstMessage))
    (.redriveNext ..)
  exact called.turns (.enqueue (.redrive firstMessage [] 0) (.mark firstMessage now))
    (.enqueue (.start _))

/-- More than two minutes after its final failure the message is put on the channel. -/
theorem redrive_reenqueues_late : ∃ w threads seen w',
    redriveSetting.soup.system.Reachable ⟨w, .redrive 0 ::ₘ threads⟩ ∧
      Soup.Tracked redriveSetting.soup redriveSetting.soup.env redriveEvents w (.redrive 0) seen w'
        (.redriven 1 none) ∧
      Reenqueued w.queue w'.queue [lastMessage] 1 := by
  obtain ⟨threads, reached⟩ := exhausted_reached
  have waited : redriveSetting.soup.ReachedWithin (fun _ _ => True)
      ⟨{ exhaustedWorld with clock := 120000000002 }, threads⟩ :=
    reached.env ⟨.inl rfl, by decide, rfl⟩ trivial
  have looked := redrive_exhausted 120000000002
  have marked := looked.turns (.enqueue (.redrive firstMessage [] 0) (.admission firstMessage))
    (.enqueue (.mark _ _ rfl))
  have admitted := marked.turns (.enqueue (.redrive firstMessage [] 0) (.send firstMessage))
    (.enqueue (.admission _ 120000000002 (le_refl _)))
  have sent := admitted.turns (.redriving [] 1) (.enqueue (.send _ Int.zero_lt_one))
  have run := sent.turns (.redriven 1 none) (.redriven _)
  exact ⟨_, threads, _, _, (waited.spawn (.redrive 0 trivial) trivial).reachable, run,
    (redrive_reenqueues_iff run).mpr (by decide)⟩

/-- Right after its final failure the message is taken out of the dead letters, `Enqueue` takes it
for a duplicate, and the call reports it as redriven; it is in no list any more. -/
theorem redrive_drops_recent : ∃ w threads seen w',
    redriveSetting.soup.system.Reachable ⟨w, .redrive 0 ::ₘ threads⟩ ∧
      Soup.Tracked redriveSetting.soup redriveSetting.soup.env redriveEvents w (.redrive 0) seen w'
        (.redriven 1 none) ∧
      w.queue.dlq = [lastMessage] ∧ w'.queue.dlq = [] ∧ w'.queue.ch = [] ∧
      w'.queue.pending = ∅ ∧ ¬ Reenqueued w.queue w'.queue [lastMessage] 1 := by
  obtain ⟨threads, reached⟩ := exhausted_reached
  have found := (redrive_exhausted 1).turns (.redriving [] 1) (.enqueue (.mark _ _ rfl))
  have run := found.turns (.redriven 1 none) (.redriven _)
  refine ⟨_, threads, _, _, (reached.spawn (.redrive 0 trivial) trivial).reachable, run, rfl, rfl,
    rfl, rfl, ?_⟩
  intro reenqueued
  exact absurd (congrArg List.length reenqueued.channel) (by decide)

end FinalFailure

end AgentForge
