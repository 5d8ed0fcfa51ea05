import AgentForge.Lifecycle

/-! Every move of the lifecycle protocol keeps its invariant. A party that does
not move keeps what it relies on, because a run is only ever changed by the one
party that holds or owes it, and a task only by one whose run is active. -/
namespace AgentForge.Lifecycle

variable {T K : Type} {l : Ledger T K} {s : State T K}
  {p : Phase T K} {i j : Nat} {t t' : T} {k k' : K} {status : TaskStatus} {run : RunStatus}

/-! ## What a change of the ledger leaves alone -/

section Tasks

variable [DecidableEq T]

@[simp] theorem setTask_run : (l.setTask t k status).run = l.run := rfl

@[simp] theorem setTask_task :
    (l.setTask t k status).task t' = if t' = t then some (k, status) else l.task t' := by
  simp [Ledger.setTask, Function.update_apply]

end Tasks

section Runs

variable [DecidableEq K]

@[simp] theorem setRun_task : (l.setRun t k run).task = l.task := rfl

@[simp] theorem setRun_run :
    (l.setRun t k run).run k' = if k' = k then some (t, run) else l.run k' := by
  simp [Ledger.setRun, Function.update_apply]

/-- Nobody else owns the run: it is new, or already this task's. -/
def Ledger.Free (l : Ledger T K) (t : T) (k : K) : Prop := ∀ t' run, l.run k = some (t', run) → t' = t

private theorem owns_setRun (free : l.Free t k) (owns : l.Owns t' k') :
    (l.setRun t k run).Owns t' k' := by
  obtain ⟨old, found⟩ := owns
  by_cases same : k' = k
  · subst same
    obtain rfl := free t' old found
    exact ⟨run, by simp⟩
  · exact ⟨old, by simpa [same] using found⟩

end Runs

private theorem free_of_run (found : l.run k = some (t, run)) : l.Free t k := by
  intro t' run' found'
  rw [found] at found'
  cases found'
  rfl

private theorem free_of_new (new : l.run k = none) : l.Free t k := by
  intro t' run' found
  rw [new] at found
  cases found

/-- A run held by a worker is running or has just been completed. -/
theorem run_of_held (ok : p.Ok l) (held : p.held = some k) :
    ∃ t run, l.run k = some (t, run) ∧ (run = .running ∨ run.terminal = true) := by
  cases p <;> simp only [Phase.held, Option.some.injEq, reduceCtorEq] at held <;> subst held
  case claimed t k => exact ⟨t, .running, ok.1, .inl rfl⟩
  case stale t k => exact ⟨t, .running, ok.1, .inl rfl⟩
  case running t k => exact ⟨t, .running, ok.1, .inl rfl⟩
  case closing t k run => exact ⟨t, run, ok.1, .inr ok.2.1⟩

/-- A run owed by a resuming request exists. -/
theorem run_of_owed (ok : p.Ok l) (owed : p.owed = some k) : ∃ t run, l.run k = some (t, run) := by
  cases p <;> simp only [Phase.owed, Option.some.injEq, reduceCtorEq] at owed <;> subst owed
  case resumed t k =>
    rcases ok with queued | ⟨owns, -⟩
    · exact ⟨t, .queued, queued⟩
    · exact ⟨t, owns⟩
  case failing t k => exact ⟨t, .queued, ok.1⟩
  case failed t k => exact ⟨t, .failed, ok.1⟩

/-! ## Parties that do not move -/

/-- Queueing or refusing a run takes nothing from anybody. -/
theorem ok_grow (ok : p.Ok l) (task : l'.task = l.task) (runs : l'.run = l.run)
    (sent : ∀ t k, l.sent t k → l'.sent t k) (refused : ∀ t k, l.refused t k → l'.refused t k) :
    p.Ok l' := by
  cases p <;> simp only [Phase.Ok, Ledger.Owns, task, runs] at ok ⊢
  case knows => exact ok
  case resumed => exact ok.imp_right fun taken => ⟨taken.1, sent _ _ taken.2⟩
  case delivered => exact sent _ _ ok
  case claimed => exact ⟨ok.1, sent _ _ ok.2⟩
  case stale | running => exact ⟨ok.1, sent _ _ ok.2.1, ok.2.2⟩
  case closing => exact ⟨ok.1, ok.2.1, sent _ _ ok.2.2.1, ok.2.2.2⟩
  case failing | failed => exact ⟨ok.1, refused _ _ ok.2⟩

/-! ## One move -/

/-- A run that at most one party has is still had by at most one after a party
moves, if what it has now it had before or nobody had. -/
theorem one_update {f : Phase T K → Option K}
    (one : ∀ i j k, f (phase i) = some k → f (phase j) = some k → i = j)
    (mine : ∀ k, f p = some k → f (phase i) = some k ∨ ∀ j, f (phase j) ≠ some k) :
    ∀ a b k, f (Function.update phase i p a) = some k → f (Function.update phase i p b) = some k →
      a = b := by
  intro a b k first second
  by_cases ha : a = i <;> by_cases hb : b = i
  · rw [ha, hb]
  · subst ha
    simp only [Function.update_self, Function.update_of_ne hb] at first second
    rcases mine k first with old | none
    · exact one _ _ k old second
    · exact absurd second (none b)
  · subst hb
    simp only [Function.update_self, Function.update_of_ne ha] at first second
    rcases mine k second with old | none
    · exact one _ _ k first old
    · exact absurd first (none a)
  · simp only [Function.update_of_ne ha, Function.update_of_ne hb] at first second
    exact one _ _ k first second

/-- The task and run a party is about to bring into agreement. -/
def Phase.settles : Phase T K → Option (T × K)
  | .claimed t k | .closing t k _ | .failed t k => some (t, k)
  | _ => none

/-- A party that was not about to settle this task can move without the task and
its run falling out of agreement. -/
theorem agrees_update (agrees : Agrees phase t k status run)
    (elsewhere : (phase i).settles ≠ some (t, k)) :
    Agrees (Function.update phase i p) t k status run := by
  have moved : ∀ {j q}, phase j = q → q.settles = some (t, k) →
      Function.update phase i p j = q := by
    intro j q there settles
    have other : j ≠ i := fun same => elsewhere (by rw [← same, there, settles])
    rw [Function.update_of_ne other, there]
  rcases agrees with same | ⟨r, q, j, there⟩ | ⟨r, j, there⟩ | ⟨r, q, j, there⟩
  · exact .inl same
  · exact .inr (.inl ⟨r, q, j, moved there rfl⟩)
  · exact .inr (.inr (.inl ⟨r, j, moved there rfl⟩))
  · exact .inr (.inr (.inr ⟨r, q, j, moved there rfl⟩))

section Kept

variable (inv : Inv s)

include inv

/-- What has to be shown of one move. -/
theorem Inv.move (mine : p.Ok l') (others : ∀ j, j ≠ i → (s.phase j).Ok l')
    (sentOwned : ∀ t k, l'.sent t k → l'.Owns t k)
    (holder : ∀ k, p.held = some k → (s.phase i).held = some k ∨ ∀ j, (s.phase j).held ≠ some k)
    (debtor : ∀ k, p.owed = some k → (s.phase i).owed = some k ∨ ∀ j, (s.phase j).owed ≠ some k)
    (agrees : ∀ t k status, l'.task t = some (k, status) →
      ∃ run, l'.run k = some (t, run) ∧ Agrees (Function.update s.phase i p) t k status run) :
    Inv ⟨l', Function.update s.phase i p⟩ where
  ok j := by
    by_cases same : j = i
    · subst same
      simpa using mine
    · simpa [same] using others j same
  sentOwned := sentOwned
  oneHolder := one_update inv.oneHolder holder
  oneDebtor := one_update inv.oneDebtor debtor
  agrees := agrees

/-- Moves that leave every task and run as it is. -/
theorem Inv.record (task : l'.task = s.ledger.task) (runs : l'.run = s.ledger.run)
    (sent : ∀ t k, s.ledger.sent t k → l'.sent t k)
    (refused : ∀ t k, s.ledger.refused t k → l'.refused t k) (mine : p.Ok l')
    (sentOwned : ∀ t k, l'.sent t k → l'.Owns t k)
    (holder : ∀ k, p.held = some k → (s.phase i).held = some k)
    (debtor : ∀ k, p.owed = some k → (s.phase i).owed = some k)
    (unsettled : ∀ t k status, s.ledger.task t = some (k, status) →
      (s.phase i).settles ≠ some (t, k) ∨
        ∀ run, s.ledger.run k = some (t, run) → status = mapRunToTaskStatus run) :
    Inv ⟨l', Function.update s.phase i p⟩ := by
  refine inv.move mine (fun j _ => ok_grow (inv.ok j) task runs sent refused) sentOwned
    (fun k held => .inl (holder k held)) (fun k owed => .inl (debtor k owed)) ?_
  intro t k status active
  rw [task] at active
  obtain ⟨run, found, agrees⟩ := inv.agrees t k status active
  refine ⟨run, by rw [runs, found], ?_⟩
  rcases unsettled t k status active with elsewhere | same
  · exact agrees_update agrees elsewhere
  · exact .inl (same run found)

/-- Whoever else holds the run would be the same party. -/
theorem Inv.unheld (held : (s.phase i).held = some k) (other : j ≠ i) :
    (s.phase j).held ≠ some k := fun held' => other (inv.oneHolder j i k held' held)

/-- A queued run is held by nobody. -/
theorem Inv.unheld_of_queued (queued : s.ledger.run k = some (t, .queued)) (j : Nat) :
    (s.phase j).held ≠ some k := by
  intro held
  obtain ⟨t', run', found, busy⟩ := run_of_held (inv.ok j) held
  obtain ⟨-, rfl⟩ : t = t' ∧ .queued = run' := by simpa [queued] using found
  rcases busy with no | no <;> cases no

/-- A run refused by the queue is held by no worker: holding one takes a message. -/
theorem Inv.unheld_of_failed (exclusive : s.ledger.Exclusive)
    (there : s.phase i = .failed t k) (j : Nat) : (s.phase j).held ≠ some k := by
  intro held
  obtain ⟨found, refused⟩ : s.ledger.run k = some (t, .failed) ∧ s.ledger.refused t k := by
    simpa [there, Phase.Ok] using inv.ok i
  have ok := inv.ok j
  cases at_ : s.phase j with
  | closing t' k' run' =>
    rw [at_] at held ok
    obtain rfl : k' = k := by simpa [Phase.held] using held
    obtain ⟨rfl, -⟩ : t = t' ∧ .failed = run' := by simpa [found] using ok.1
    exact exclusive t k' refused ok.2.2.1
  | _ => simp_all [Phase.held, Phase.Ok]

/-- A request that still owes a run which was queued has not been refused it. -/
theorem Inv.unrefused (exclusive : s.ledger.Exclusive)
    (found : s.ledger.run k = some (t, run)) (sent : s.ledger.sent t k) (j : Nat)
    (owed : (s.phase j).owed = some k) : s.phase j = .resumed t k ∧ s.ledger.sent t k := by
  refine ⟨?_, sent⟩
  have ok := inv.ok j
  have free := free_of_run found
  cases at_ : s.phase j <;> rw [at_] at owed ok <;>
    simp only [Phase.owed, Option.some.injEq, reduceCtorEq] at owed <;> subst owed
  case resumed t' k =>
    obtain ⟨run', found'⟩ : s.ledger.Owns t' k := ok.elim (fun queued => ⟨_, queued⟩) (·.1)
    rw [free t' run' found']
  case failing t' k =>
    obtain rfl := free t' _ ok.1
    exact absurd sent (exclusive t' k ok.2)
  case failed t' k =>
    obtain rfl := free t' _ ok.1
    exact absurd sent (exclusive t' k ok.2)

/-- Nobody else executes the task whose active run this party has to itself. -/
theorem Inv.alone (active : s.ledger.task t = some (k, status))
    (unheld : ∀ j, j ≠ i → (s.phase j).held ≠ some k) : ∀ j, j ≠ i → s.phase j ≠ .stale t k ∧
      (∀ k', s.phase j ≠ .running t k') ∧ ∀ k' run', s.phase j ≠ .closing t k' run' := by
  intro j other
  have ok := inv.ok j
  refine ⟨?_, ?_, ?_⟩
  · intro at_
    exact unheld j other (by rw [at_]; rfl)
  · intro k' at_
    rw [at_] at ok
    obtain ⟨rfl, -⟩ : k = k' ∧ status = .running := by simpa [active] using ok.2.2
    exact unheld j other (by rw [at_]; rfl)
  · intro k' run' at_
    rw [at_] at ok
    obtain ⟨rfl, -⟩ : k = k' ∧ status = .running := by simpa [active] using ok.2.2.2
    exact unheld j other (by rw [at_]; rfl)

/-- While the active run is queued its task is too. -/
theorem Inv.queued (found : s.ledger.run k = some (t, .queued))
    (active : s.ledger.task t = some (k, status)) : status = .queued := by
  obtain ⟨run, found', agrees⟩ := inv.agrees t k status active
  obtain rfl : run = .queued := by simpa [found] using found'.symm
  rcases agrees with same | ⟨no, -⟩ | ⟨-, j, at_⟩ | ⟨no, -⟩
  · exact same
  · cases no
  · have ok := inv.ok j
    rw [at_] at ok
    cases ok.2.1
  · cases no

/-! ## Moves that change no task and no run -/

/-- A party with nothing to settle stops, or starts with nothing held and nothing owed. -/
theorem Inv.rest (unsettled : (s.phase i).settles = none) (mine : p.Ok s.ledger)
    (unheld : p.held = none) (unowed : p.owed = none) :
    Inv ⟨s.ledger, Function.update s.phase i p⟩ :=
  inv.record rfl rfl (fun _ _ h => h) (fun _ _ h => h) mine inv.sentOwned (by simp [unheld])
    (by simp [unowed]) fun _ _ _ _ => .inl (by simp [unsettled])

/-- A party with nothing to settle queues a run for its owner. -/
theorem Inv.send (unsettled : (s.phase i).settles = none)
    (owns : s.ledger.Owns t k) : Inv ⟨s.ledger.send t k, Function.update s.phase i .idle⟩ := by
  refine inv.record rfl rfl (fun _ _ h => .inr h) (fun _ _ h => h) trivial ?_ (by simp [Phase.held])
    (by simp [Phase.owed]) fun _ _ _ _ => .inl (by simp [unsettled])
  rintro t' k' (⟨rfl, rfl⟩ | sent)
  · exact owns
  · exact inv.sentOwned t' k' sent

/-- A worker that cannot set its task running has lost the task to another run. -/
theorem Inv.lose (there : s.phase i = .claimed t k)
    (lost : ∀ status, s.ledger.task t = some (k, status) →
      status ≠ .queued ∧ status ≠ .running) :
    Inv ⟨s.ledger, Function.update s.phase i (.stale t k)⟩ := by
  obtain ⟨found, sent⟩ : s.ledger.run k = some (t, .running) ∧ s.ledger.sent t k := by
    simpa [there, Phase.Ok] using inv.ok i
  have inactive : ∀ status, s.ledger.task t ≠ some (k, status) := by
    intro status active
    obtain ⟨run, found', agrees⟩ := inv.agrees t k status active
    obtain rfl : run = .running := by simpa [found] using found'.symm
    rcases agrees with same | ⟨-, same, -⟩ | ⟨same, -⟩ | ⟨no, -⟩
    · exact (lost status active).2 same
    · exact (lost status active).1 same
    · exact (lost status active).2 same
    · cases no
  refine inv.record rfl rfl (fun _ _ h => h) (fun _ _ h => h) ⟨found, sent, inactive⟩
    inv.sentOwned (by simp [there, Phase.held]) (by simp [Phase.owed]) ?_
  intro t' k' status active
  refine .inl fun settles => ?_
  obtain ⟨rfl, rfl⟩ : t = t' ∧ k = k' := by simpa [there, Phase.settles] using settles
  exact inactive status active

/-- A request that finds its task moved on, or already failed, has nothing left to
settle. -/
theorem Inv.yield (there : s.phase i = .failed t k)
    (lost : ∀ status, s.ledger.task t = some (k, status) →
      status ≠ .queued ∧ status ≠ .running) :
    Inv ⟨s.ledger, Function.update s.phase i .idle⟩ := by
  refine inv.record rfl rfl (fun _ _ h => h) (fun _ _ h => h) trivial inv.sentOwned
    (by simp [Phase.held]) (by simp [Phase.owed]) ?_
  intro t' k' status active
  by_cases same : (s.phase i).settles = some (t', k')
  · obtain ⟨rfl, rfl⟩ : t = t' ∧ k = k' := by simpa [there, Phase.settles] using same
    refine .inr fun run found => ?_
    obtain ⟨run', found', agrees⟩ := inv.agrees t k status active
    obtain rfl : run = run' := by simpa [found] using found'
    rcases agrees with same | ⟨-, no, -⟩ | ⟨no, -⟩ | ⟨-, no, -⟩
    · exact same
    · exact absurd no (lost status active).1
    · exact absurd no (lost status active).2
    · exact absurd no (lost status active).1
  · exact .inl same

end Kept

/-! ## Moves that change a task -/

section Tasks

variable [DecidableEq T]

/-- Changing a task is felt only by a party executing it, or one that lost this
very run. -/
theorem ok_setTask (ok : p.Ok l) (unlost : p ≠ .stale t k) (idle : ∀ k', p ≠ .running t k')
    (settled : ∀ k' run, p ≠ .closing t k' run) : p.Ok (l.setTask t k status) := by
  cases p with
  | stale t' k' =>
    refine ⟨ok.1, ok.2.1, fun status' => ?_⟩
    by_cases same : t' = t
    · subst same
      have other : k ≠ k' := fun same => unlost (by rw [same])
      simp [other]
    · simpa [same] using ok.2.2 status'
  | running t' k' =>
    have other : t' ≠ t := fun same => idle k' (by rw [same])
    exact ⟨ok.1, ok.2.1, by simpa [other] using ok.2.2⟩
  | closing t' k' run' =>
    have other : t' ≠ t := fun same => settled k' run' (by rw [same])
    exact ⟨ok.1, ok.2.1, ok.2.2.1, by simpa [other] using ok.2.2.2⟩
  | _ => exact ok

/-- Moves that change one task whose active run the party has, and settle it. -/
theorem Inv.settleTask (inv : Inv s) (found : s.ledger.run k = some (t, run))
    (mine : p.Ok (s.ledger.setTask t k (mapRunToTaskStatus run)))
    (others : ∀ j, j ≠ i → s.phase j ≠ .stale t k ∧ (∀ k', s.phase j ≠ .running t k') ∧
      ∀ k' run', s.phase j ≠ .closing t k' run')
    (holder : ∀ k, p.held = some k → (s.phase i).held = some k)
    (debtor : ∀ k, p.owed = some k → (s.phase i).owed = some k)
    (about : ∀ t' k', (s.phase i).settles = some (t', k') → t' = t) :
    Inv ⟨s.ledger.setTask t k (mapRunToTaskStatus run), Function.update s.phase i p⟩ := by
  refine inv.move mine ?_ inv.sentOwned (fun k held => .inl (holder k held))
    (fun k owed => .inl (debtor k owed)) ?_
  · intro j other
    obtain ⟨unlost, idle, settled⟩ := others j other
    exact ok_setTask (inv.ok j) unlost idle settled
  · intro t' k' status active
    by_cases same : t' = t
    · subst same
      simp only [setTask_task, if_true, Option.some.injEq, Prod.mk.injEq] at active
      obtain ⟨rfl, rfl⟩ := active
      exact ⟨run, found, .inl rfl⟩
    · simp only [setTask_task, if_neg same] at active
      obtain ⟨run₀, found₀, agrees₀⟩ := inv.agrees t' k' status active
      exact ⟨run₀, found₀, agrees_update agrees₀ fun settles => same (about t' k' settles)⟩

private theorem Inv.begin (inv : Inv s) (there : s.phase i = .claimed t k)
    (active : s.ledger.task t = some (k, status)) :
    Inv ⟨s.ledger.setTask t k .running, Function.update s.phase i (.running t k)⟩ := by
  obtain ⟨found, sent⟩ : s.ledger.run k = some (t, .running) ∧ s.ledger.sent t k := by
    simpa [there, Phase.Ok] using inv.ok i
  have held : (s.phase i).held = some k := by simp [there, Phase.held]
  exact inv.settleTask found ⟨found, sent, by simp [mapRunToTaskStatus]⟩
    (inv.alone active fun j other => inv.unheld held other) (by simp [there, Phase.held])
    (by simp [Phase.owed]) (by simp +contextual [there, Phase.settles])

private theorem Inv.close (inv : Inv s) (there : s.phase i = .closing t k run) :
    Inv ⟨s.ledger.setTask t k (mapRunToTaskStatus run), Function.update s.phase i .idle⟩ := by
  obtain ⟨found, -, -, active⟩ : s.ledger.run k = some (t, run) ∧ run.terminal = true ∧
      s.ledger.sent t k ∧ s.ledger.task t = some (k, .running) := by
    simpa [there, Phase.Ok] using inv.ok i
  have held : (s.phase i).held = some k := by simp [there, Phase.held]
  exact inv.settleTask found trivial (inv.alone active fun j other => inv.unheld held other)
    (by simp [Phase.held]) (by simp [Phase.owed]) (by simp +contextual [there, Phase.settles])

private theorem Inv.failTask (inv : Inv s) (exclusive : s.ledger.Exclusive)
    (there : s.phase i = .failed t k) (active : s.ledger.task t = some (k, status)) :
    Inv ⟨s.ledger.setTask t k .failed, Function.update s.phase i .idle⟩ := by
  obtain ⟨found, -⟩ : s.ledger.run k = some (t, .failed) ∧ s.ledger.refused t k := by
    simpa [there, Phase.Ok] using inv.ok i
  exact inv.settleTask found trivial
    (inv.alone active fun j _ => inv.unheld_of_failed exclusive there j)
    (by simp [Phase.held]) (by simp [Phase.owed]) (by simp +contextual [there, Phase.settles])

end Tasks

/-! ## Moves that change a run -/

variable [DecidableEq K]

/-- Changing a run is felt only by the party that holds it or has to fail it. -/
theorem ok_setRun (ok : p.Ok l) (free : l.Free t k) (unheld : p.held ≠ some k)
    (unowed : p.owed = some k → p = .resumed t k ∧ l.sent t k) : p.Ok (l.setRun t k run) := by
  cases p with
  | idle => trivial
  | knows t' k' => exact owns_setRun free ok
  | resumed t' k' =>
    by_cases same : k' = k
    · subst same
      obtain ⟨same, sent⟩ := unowed rfl
      cases same
      exact .inr ⟨⟨run, by simp⟩, sent⟩
    · exact ok.imp (fun queued => by simpa [same] using queued)
        fun taken => ⟨owns_setRun free taken.1, taken.2⟩
  | delivered t' k' => exact ok
  | claimed t' k' | stale t' k' | running t' k' | closing t' k' run' =>
    have other : k' ≠ k := fun same => unheld (by simp [Phase.held, same])
    exact ⟨by simpa [other] using ok.1, ok.2⟩
  | failing t' k' | failed t' k' =>
    have other : k' ≠ k := by
      rintro rfl
      cases (unowed rfl).1
    exact ⟨by simpa [other] using ok.1, ok.2⟩

/-- Moves that change one run, by the party that has it. -/
theorem Inv.changeRun (inv : Inv s) (found : s.ledger.run k = some (t, run))
    (mine : p.Ok (s.ledger.setRun t k run')) (alone : ∀ j, j ≠ i → (s.phase j).held ≠ some k ∧
      ((s.phase j).owed = some k → s.phase j = .resumed t k ∧ s.ledger.sent t k))
    (holder : ∀ k', p.held = some k' → k' = k)
    (debtor : ∀ k, p.owed = some k → (s.phase i).owed = some k)
    (about : ∀ t' k', (s.phase i).settles = some (t', k') → k' = k)
    (unheld : (s.phase i).held = some k ∨ (s.phase i).held = none)
    (agrees : ∀ status, s.ledger.task t = some (k, status) →
      Agrees (Function.update s.phase i p) t k status run') :
    Inv ⟨s.ledger.setRun t k run', Function.update s.phase i p⟩ := by
  have free : s.ledger.Free t k := free_of_run found
  refine inv.move mine ?_ ?_ ?_ (fun k owed => .inl (debtor k owed)) ?_
  · intro j other
    exact ok_setRun (inv.ok j) free (alone j other).1 (alone j other).2
  · intro t' k' sent
    exact owns_setRun free (inv.sentOwned t' k' sent)
  · intro k' held
    obtain rfl := holder k' held
    rcases unheld with mine | none
    · exact .inl mine
    · refine .inr fun j => ?_
      by_cases same : j = i
      · subst same
        simp [none]
      · exact (alone j same).1
  · intro t' k' status active
    obtain ⟨run₀, found₀, agrees₀⟩ := inv.agrees t' k' status active
    by_cases same : k' = k
    · subst same
      obtain rfl := free t' run₀ found₀
      exact ⟨run', by simp, agrees status active⟩
    · exact ⟨run₀, by simpa [same] using found₀,
        agrees_update agrees₀ fun settles => same (about t' k' settles)⟩

/-- A claim takes a queued run nobody holds. That no request is about to fail it
is where a refused run must not be queued again. -/
theorem Inv.claim (inv : Inv s) (exclusive : s.ledger.Exclusive)
    (there : s.phase i = .delivered t k) (queued : s.ledger.run k = some (t, .queued)) :
    Inv ⟨s.ledger.setRun t k .running, Function.update s.phase i (.claimed t k)⟩ := by
  have sent : s.ledger.sent t k := by simpa [there, Phase.Ok] using inv.ok i
  refine inv.changeRun queued ⟨by simp, sent⟩ ?_ (by simp [Phase.held]) (by simp [Phase.owed])
    (by simp [there, Phase.settles]) (.inr (by simp [there, Phase.held])) ?_
  · intro j _
    exact ⟨inv.unheld_of_queued queued j, inv.unrefused exclusive queued sent j⟩
  · intro status active
    exact .inr (.inl ⟨rfl, inv.queued queued active, i, by simp⟩)

private theorem Inv.abortStale (inv : Inv s) (exclusive : s.ledger.Exclusive)
    (there : s.phase i = .stale t k) :
    Inv ⟨s.ledger.setRun t k .aborted, Function.update s.phase i .idle⟩ := by
  obtain ⟨found, sent, inactive⟩ : s.ledger.run k = some (t, .running) ∧ s.ledger.sent t k ∧
      ∀ status, s.ledger.task t ≠ some (k, status) := by
    simpa [there, Phase.Ok] using inv.ok i
  have held : (s.phase i).held = some k := by simp [there, Phase.held]
  exact inv.changeRun found trivial
    (fun j other => ⟨inv.unheld held other, inv.unrefused exclusive found sent j⟩) (by simp [Phase.held])
    (by simp [Phase.owed]) (by simp [there, Phase.settles]) (.inl held)
    (fun status active => absurd active (inactive status))

private theorem Inv.complete (inv : Inv s) (exclusive : s.ledger.Exclusive)
    (there : s.phase i = .running t k) (terminal : run.terminal = true) :
    Inv ⟨s.ledger.setRun t k run, Function.update s.phase i (.closing t k run)⟩ := by
  obtain ⟨found, sent, active⟩ : s.ledger.run k = some (t, .running) ∧ s.ledger.sent t k ∧
      s.ledger.task t = some (k, .running) := by
    simpa [there, Phase.Ok] using inv.ok i
  have held : (s.phase i).held = some k := by simp [there, Phase.held]
  refine inv.changeRun found ⟨by simp, terminal, sent, active⟩
    (fun j other => ⟨inv.unheld held other, inv.unrefused exclusive found sent j⟩) (by simp [Phase.held])
    (by simp [Phase.owed]) (by simp [there, Phase.settles]) (.inl held) ?_
  intro status active'
  obtain rfl : status = .running := by simpa [active] using active'.symm
  exact .inr (.inr (.inl ⟨rfl, i, by simp⟩))

private theorem Inv.failRun (inv : Inv s) (there : s.phase i = .failing t k) :
    Inv ⟨s.ledger.setRun t k .failed, Function.update s.phase i (.failed t k)⟩ := by
  obtain ⟨found, refused⟩ : s.ledger.run k = some (t, .queued) ∧ s.ledger.refused t k := by
    simpa [there, Phase.Ok] using inv.ok i
  have owed : (s.phase i).owed = some k := by simp [there, Phase.owed]
  have debtor : ∀ j, (s.phase j).owed = some k → j = i := fun j owed' =>
    inv.oneDebtor j i k owed' owed
  refine inv.changeRun found ⟨by simp, refused⟩ ?_ (by simp [Phase.held])
    (by simp [there, Phase.owed]) (by simp [there, Phase.settles])
    (.inr (by simp [there, Phase.held])) ?_
  · intro j other
    exact ⟨inv.unheld_of_queued found j, fun owed' => absurd (debtor j owed') other⟩
  · intro status active
    exact .inr (.inr (.inr ⟨rfl, inv.queued found active, i, by simp⟩))

variable [DecidableEq T]

/-- Moves that open a new run and make it the task's active one. -/
theorem Inv.openRun (inv : Inv s) (there : s.phase i = .idle) (newRun : s.ledger.run k = none)
    (unheld : p.held = none) (mine : p.Ok ((s.ledger.setTask t k .queued).setRun t k .queued))
    (debtor : ∀ k', p.owed = some k' → k' = k)
    (stopped : ∀ k', s.ledger.task t ≠ some (k', .running)) :
    Inv ⟨(s.ledger.setTask t k .queued).setRun t k .queued, Function.update s.phase i p⟩ := by
  have free : (s.ledger.setTask t k .queued).Free t k := free_of_new newRun
  have fresh : ∀ {t' run}, s.ledger.run k ≠ some (t', run) := by simp [newRun]
  refine inv.move mine ?_ ?_ (by simp [unheld]) ?_ ?_
  · intro j _
    have ok := inv.ok j
    refine ok_setRun (ok_setTask ok ?_ ?_ ?_) free ?_ ?_
    · intro at_; rw [at_] at ok; exact fresh ok.1
    · intro k' at_; rw [at_] at ok; exact stopped k' ok.2.2
    · intro k' run' at_; rw [at_] at ok; exact stopped k' ok.2.2.2
    · intro held
      obtain ⟨t', run', found, -⟩ := run_of_held ok held
      exact fresh found
    · intro owed
      obtain ⟨t', run', found⟩ := run_of_owed ok owed
      exact absurd found fresh
  · intro t' k' sent
    exact owns_setRun free (inv.sentOwned t' k' sent)
  · intro k' owed
    obtain rfl := debtor k' owed
    refine .inr fun j owed' => ?_
    obtain ⟨t', run', found⟩ := run_of_owed (inv.ok j) owed'
    exact fresh found
  · intro t' k' status active
    by_cases same : t' = t
    · subst same
      simp only [setRun_task, setTask_task, if_true, Option.some.injEq, Prod.mk.injEq] at active
      obtain ⟨rfl, rfl⟩ := active
      exact ⟨.queued, by simp, .inl rfl⟩
    · simp only [setRun_task, setTask_task, if_neg same] at active
      obtain ⟨run₀, found₀, agrees₀⟩ := inv.agrees t' k' status active
      have other : k' ≠ k := by
        rintro rfl
        exact fresh found₀
      exact ⟨run₀, by simpa [other] using found₀,
        agrees_update agrees₀ (by simp [there, Phase.settles])⟩

/-! ## Every run of the protocol -/

/-- What was queued or refused stays so, hence no earlier state mixed the two up. -/
theorem Step.exclusive (step : Step s s') (exclusive : s'.ledger.Exclusive) :
    s.ledger.Exclusive := by
  cases step with
  | @move i l p moved =>
    intro t k refused sent
    generalize s.phase i = q at moved
    cases moved with
    | send | sendResumed => exact exclusive t k refused (.inr sent)
    | refuse => exact exclusive t k (.inr refused) sent
    | _ => exact exclusive t k refused sent

/-- **The invariant is kept.** A step of any party keeps it, as long as no run has
been both queued and refused. -/
theorem Step.inv (step : Step s s') (inv : Inv s) (exclusive' : s'.ledger.Exclusive) : Inv s' := by
  have exclusive := step.exclusive exclusive'
  cases step with
  | @move i l p moved =>
    generalize there : s.phase i = q at moved
    cases moved with
    | quiet => simpa [← there] using inv
    | leave free settled =>
      refine inv.rest ?_ trivial rfl rfl
      rw [there]
      cases q <;> simp_all [Phase.held, Phase.owed, Phase.settles]
    | learn owns => exact inv.rest (by rw [there]; rfl) owns rfl rfl
    | create newTask newRun =>
      exact inv.openRun there newRun rfl ⟨.queued, by simp⟩ (by simp [Phase.owed])
        (by simp [newTask])
    | @send t k =>
      have owns : s.ledger.Owns t k := by simpa [there, Phase.Ok] using inv.ok i
      exact inv.send (by rw [there]; rfl) owns
    | deliver sent => exact inv.rest (by rw [there]; rfl) sent rfl rfl
    | claim queued => exact inv.claim exclusive there queued
    | begin active => exact inv.begin there active
    | lose lost => exact inv.lose there lost
    | abortStale => exact inv.abortStale exclusive there
    | abandon => exact inv.rest (by rw [there]; rfl) trivial rfl rfl
    | complete terminal => exact inv.complete exclusive there terminal
    | close active => exact inv.close there
    | resume active stopped newRun =>
      exact inv.openRun there newRun rfl (.inl (by simp)) (by simp [Phase.owed])
        (by simp [active, stopped])
    | @sendResumed t k =>
      have ok : s.ledger.run k = some (t, .queued) ∨ (s.ledger.Owns t k ∧ s.ledger.sent t k) := by
        simpa [there, Phase.Ok] using inv.ok i
      have owns : s.ledger.Owns t k := ok.elim (fun queued => ⟨_, queued⟩) (·.1)
      exact inv.send (by rw [there]; rfl) owns
    | @refuse t k =>
      have ok : s.ledger.run k = some (t, .queued) ∨ (s.ledger.Owns t k ∧ s.ledger.sent t k) := by
        simpa [there, Phase.Ok] using inv.ok i
      have refused : (s.ledger.refuse t k).refused t k := .inl ⟨rfl, rfl⟩
      have queued := ok.resolve_right fun taken => exclusive' t k refused taken.2
      exact inv.record rfl rfl (fun _ _ h => h) (fun _ _ h => .inr h) ⟨queued, refused⟩ inv.sentOwned
        (by simp [Phase.held]) (by simp [there, Phase.owed])
        fun _ _ _ _ => .inl (by simp [there, Phase.settles])
    | failRun => exact inv.failRun there
    | failTask active => exact inv.failTask exclusive there active
    | yield lost => exact inv.yield there lost

end AgentForge.Lifecycle
