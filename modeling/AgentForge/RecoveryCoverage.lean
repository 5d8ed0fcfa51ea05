import AgentForge.FalseAlarms
import AgentForge.Recovery
import AgentForge.System

/-! Which stale runs a recovery pass gets to see. It lists as many queued and running runs
as its limit allows, in the order of their start, and only then leaves out those that are
not active or not stale. A pass with nothing to report has found nothing among the runs it
listed; a stale run that is not listed is not found by any pass like it. -/
namespace AgentForge

open Transition (View Solo)

section RecoveryCoverage

variable {F : Type} [Float64 F] {env : ServiceEnv} {sha256 : Bytes → String} {s : MemoryStore F}
  {tenantID : String} {staleFor limit : Int} {now : Time} {run : Run F} {task : Task F}

/-- The bound on staleness and the limit of a pass, with their defaults. -/
def passStaleFor (staleFor : Int) : Int := if staleFor ≤ 0 then 10 * 60 * 1000000000 else staleFor

def passLimit (limit : Int) : Int := if limit ≤ 0 then 200 else limit

/-- The run is the active one of its task, one of the tenant asked for, and stale. -/
def StaleActive (s : MemoryStore F) (tenantID : String) (now : Time) (staleFor : Int)
    (run : Run F) : Prop :=
  s.runs.lookup (runKey run.taskID run.runID) = some run ∧
    (tenantID = "" ∨ run.tenantID = tenantID) ∧
    ∃ task, s.tasks.lookup run.taskID = some task ∧ task.activeRunID = run.runID ∧
      isRunStale run task now staleFor = true

/-! ## A pass on its own -/

/-- Every call is carried out: the context is not cancelled, the queue takes the message. -/
def Call.Succeeds : (call : Call F) → call.Ans → Prop
  | .enqueue _, answer => answer = .ok ()
  | .engine .contextDone, answer => answer = (false : Bool)
  | _, _ => True

/-- A call of a pass with no other writer about; time passes after it. -/
def PassAlone (sha256 : Bytes → String) (_ : RecoveryPC F) (w : World F) (call : Call F)
    (answer : call.Ans) (w' : World F) : Prop :=
  call.Succeeds answer ∧ ∃ w₁ clock, w.Runs sha256 call answer w₁ ∧ w' = { w₁ with clock := clock }

/-- The pass would do nothing about the run: it is not the active one of its task, or not
stale. -/
def Quiet (s : MemoryStore F) (now : Time) (staleFor : Int) (run : Run F) : Prop :=
  ∃ task, s.tasks.lookup run.taskID = some task ∧
    (task.activeRunID ≠ run.runID ∨ isRunStale run task now staleFor = false)

/-- The report of a pass that had nothing to do and nothing to complain of. -/
def RecoveryReport.Clean (report : RecoveryReport) : Prop :=
  report.recovered = 0 ∧ report.errors = []

omit [Float64 F] in
private theorem RecoveryReport.not_clean_fail {report : RecoveryReport} :
    ¬ (report.fail what run message).Clean := by
  simp [Clean, fail]

private theorem RecoveryReport.not_clean_recover {report : RecoveryReport}
    (counted : 0 ≤ report.recovered) :
    ¬ report.recover.Clean := by
  rintro ⟨none, -⟩
  simp only [recover] at none
  omega

/-- The report at the end of a pass is clean exactly if it was so far and the pass would do
nothing about any of the runs to come; then the store is as it was. -/
def PassEnds (s : MemoryStore F) (pass : RecoveryPass) (rest : List (Run F)) (w' : World F)
    (pc : RecoveryPC F) : Prop :=
  ∃ report, pc = .returned (.done report) ∧
    (report.Clean ↔ pass.report.Clean ∧ ∀ run ∈ rest, Quiet s pass.now pass.staleFor run) ∧
    (report.Clean → w'.store = s)

/-- Every run of a pass on from here ends so. -/
abbrev PassRuns (env : ServiceEnv) (sha256 : Bytes → String)
    (Q : World F → RecoveryPC F → Prop) (w : World F) (pc : RecoveryPC F) : Prop :=
  Transition.Ends (RecoveryPC.view env) (PassAlone sha256) Q w pc

/-- Past a run that was recovered, or that could not be, no report is clean. -/
theorem passEnds_dirty {w w₁ : World F} {pass : RecoveryPass} {report₁ : RecoveryReport}
    (unquiet : ¬ Quiet w.store pass.now pass.staleFor run) (dirty : ¬ report₁.Clean)
    (ends : PassRuns env sha256
      (PassEnds w₁.store { pass with report := report₁ } rest) w₁
      (RecoveryPC.loop { pass with report := report₁ } rest)) :
    PassRuns env sha256 (PassEnds w.store pass (run :: rest)) w₁
      (RecoveryPC.loop { pass with report := report₁ } rest) := by
  refine ends.imp fun w' pc halted => ?_
  obtain ⟨report, returned, clean, -⟩ := halted
  have unclean : ¬ report.Clean := fun holds => dirty (clean.mp holds).1
  refine ⟨report, returned, iff_of_false unclean fun quiet => ?_, fun holds => absurd holds unclean⟩
  exact unquiet (quiet.2 run List.mem_cons_self)

/-- A run that nothing is done about is passed over. -/
theorem passEnds_quiet {w w₁ : World F} {pass : RecoveryPass} (same : w₁.store = w.store)
    (quiet : Quiet w.store pass.now pass.staleFor run) (ends : PassRuns env sha256
      (PassEnds w₁.store { pass with report := pass.report.scan.skip } rest) w₁
      (RecoveryPC.loop { pass with report := pass.report.scan.skip } rest)) :
    PassRuns env sha256 (PassEnds w.store pass (run :: rest)) w₁
      (RecoveryPC.loop { pass with report := pass.report.scan.skip } rest) := by
  refine ends.imp fun w' pc halted => ?_
  obtain ⟨report, returned, clean, kept⟩ := halted
  rw [same] at clean kept
  refine ⟨report, returned, clean.trans ?_, kept⟩
  rw [List.forall_mem_cons, and_iff_right quiet]
  rfl

/-- A stale run is recovered, or an error is reported. -/
theorem reset_ends {pass : RecoveryPass} (counted : 0 ≤ pass.report.recovered)
    (goesOn : ∀ w' report, ¬ report.Clean → 0 ≤ report.recovered →
      PassRuns env sha256 Q w'
        (RecoveryPC.loop { pass with report := report } rest)) :
    PassRuns env sha256 Q w (.reset pass run task rest) := by
  refine .call rfl ⟨_, _, trivial, _, w.clock, ⟨rfl, rfl⟩, rfl⟩ ?_
  rintro answer w₁ -
  cases answer with
  | error e => exact goesOn w₁ _ RecoveryReport.not_clean_fail counted
  | ok done =>
    refine .call rfl ⟨_, _, trivial, _, w₁.clock, ⟨rfl, rfl⟩, rfl⟩ ?_
    rintro answer w₂ -
    refine .call rfl ⟨.ok (), _, rfl, _, w₂.clock, rfl, rfl⟩ ?_
    rintro answer w₃ ⟨accepted, -⟩
    obtain rfl : answer = .ok () := accepted
    refine goesOn w₃ _ (RecoveryReport.not_clean_recover counted) ?_
    simp only [RecoveryReport.recover]
    omega

private theorem pass_ends {pass : RecoveryPass} (rest : List (Run F))
    (counted : 0 ≤ pass.report.recovered) :
    PassRuns env sha256 (PassEnds w.store pass rest) w
      (RecoveryPC.loop pass rest) := by
  induction rest generalizing w pass with
  | nil => exact .done rfl ⟨pass.report, rfl, by simp, fun _ => rfl⟩
  | cons run rest ih =>
    refine .call rfl ⟨false, w, rfl, w, w.clock, rfl, rfl⟩ ?_
    rintro answer w₁ ⟨uncancelled, w₀, clock, (left : w₀ = w), rfl⟩
    subst w₀
    obtain rfl : answer = (false : Bool) := uncancelled
    refine .call rfl ⟨_, _, trivial, _, clock, ⟨rfl, rfl⟩, rfl⟩ ?_
    rintro answer w₁ ⟨-, w₀, clock, ⟨rfl, rfl⟩, rfl⟩
    cases found : w.store.tasks.lookup run.taskID with
    | none =>
      have unquiet : ¬ Quiet w.store pass.now pass.staleFor run := by
        rintro ⟨task, there, -⟩
        rw [found] at there
        cases there
      simp only [MemoryStore.getTask, found]
      exact passEnds_dirty unquiet RecoveryReport.not_clean_fail (ih counted)
    | some task =>
      simp only [MemoryStore.getTask, found]
      split_ifs with other fresh
      · exact passEnds_quiet rfl ⟨task, found, .inl other⟩ (ih counted)
      · exact passEnds_quiet rfl ⟨task, found, .inr (by simpa using fresh)⟩ (ih counted)
      · have unquiet : ¬ Quiet w.store pass.now pass.staleFor run := by
          rintro ⟨task', there, calm⟩
          obtain rfl := Option.some.inj (found.symm.trans there)
          rcases calm with differs | calm
          · exact other differs
          · simp [calm] at fresh
        exact reset_ends counted fun w' report dirty more =>
          passEnds_dirty unquiet dirty (ih more)

/-! ## What a clean pass means -/

private theorem start_ends (w : World F) (tenantID : String) (staleFor limit : Int) :
    PassRuns env sha256
      (PassEnds w.store { now := w.clock, staleFor := passStaleFor staleFor }
        (w.store.listRuns tenantID recoverableStatuses (passLimit limit)))
      w (.start tenantID staleFor limit) := by
  refine .call rfl ⟨_, _, trivial, _, w.clock, ⟨rfl, rfl⟩, rfl⟩ ?_
  rintro answer w₁ ⟨-, w₀, clock, ⟨(read : answer = w.clock), (left : w₀ = w)⟩, rfl⟩
  subst answer w₀
  refine .call rfl ⟨_, _, trivial, _, clock, ⟨rfl, rfl⟩, rfl⟩ ?_
  rintro answer w₁ ⟨-, w₀, clock, ⟨rfl, rfl⟩, rfl⟩
  refine pass_ends (w := { w with clock := clock })
    (w.store.listRuns tenantID recoverableStatuses (passLimit limit)) ?_
  exact Int.le_refl 0

omit [Float64 F] in
/-- A listed run is quiet unless it is stale and active or has lost its task. -/
theorem quiet_iff (keyed : s.Keyed) (listed : run ∈ s.listRuns tenantID recoverableStatuses limit) :
    Quiet s now staleFor run ↔
      ¬ (StaleActive s tenantID now staleFor run ∨ s.tasks.lookup run.taskID = none) := by
  obtain ⟨⟨k, found⟩, kept⟩ := mem_matchingRuns.mp ((mem_listRuns_iff keyed).mp listed).1
  have stored : s.runs.lookup (runKey run.taskID run.runID) = some run := by
    rw [keyed.run k run found]
    exact found
  have tenant : tenantID = "" ∨ run.tenantID = tenantID := by
    simp only [MemoryStore.runMatches, Bool.and_eq_true, Bool.or_eq_true, decide_eq_true_eq] at kept
    exact kept.1
  unfold Quiet StaleActive
  cases there : s.tasks.lookup run.taskID with
  | none => simp
  | some task =>
    by_cases active : task.activeRunID = run.runID
    · simp [stored, tenant, active]
    · simp [active]

/-- **What a clean pass means.** A pass that recovers nothing and has no errors leaves no
stale active run behind exactly if, should there be one, a run that the pass lists is stale
and active, or has lost its task. -/
theorem clean_pass_leaves_none_stale_iff {w : World F} (reached : w.store.Reached)
    (tenantID : String) (staleFor limit : Int) :
    (∀ w' report, Solo (RecoveryPC.view env) (PassAlone sha256) w
        (.start tenantID staleFor limit) w' (.returned (.done report)) →
      report.recovered = 0 → report.errors = [] →
      ∀ run, ¬ StaleActive w'.store tenantID w.clock (passStaleFor staleFor) run) ↔
    ((∃ run, StaleActive w.store tenantID w.clock (passStaleFor staleFor) run) →
      ∃ run ∈ w.store.listRuns tenantID recoverableStatuses (passLimit limit),
        StaleActive w.store tenantID w.clock (passStaleFor staleFor) run ∨
          w.store.tasks.lookup run.taskID = none) := by
  have keyed := reached.keyed
  have ends : PassRuns env sha256 _ w (.start tenantID staleFor limit) :=
    start_ends w tenantID staleFor limit
  constructor
  · rintro none ⟨run, stale⟩
    by_contra unseen
    obtain ⟨w', pc, solo, -, report, rfl, clean, same⟩ := ends.exists_run
    have holds : report.Clean := clean.mpr ⟨⟨rfl, rfl⟩, fun run listed =>
      (quiet_iff keyed listed).mpr fun seen => unseen ⟨run, listed, seen⟩⟩
    refine none w' report solo holds.1 holds.2 run ?_
    rw [same holds]
    exact stale
  · intro seen w' report solo recovered errors run stale
    obtain ⟨report', same, clean, kept⟩ := ends.run solo rfl
    cases same
    have holds : report.Clean := ⟨recovered, errors⟩
    rw [kept holds] at stale
    obtain ⟨run', listed, seen⟩ := seen ⟨run, stale⟩
    exact (quiet_iff keyed listed).mp ((clean.mp holds).2 run' listed) seen

end RecoveryCoverage

/-! ## A run that is never listed -/

/-- The task is running its fifth run, and an earlier one is still queued. -/
def leftQueued : MemoryStore Rat :=
  storeOfRuns [{ startedRun "run_1" .queued 1 with startedAt := none },
    startedRun "run_5" .running 5]

/-- Ten minutes after the fifth run was started. -/
def tenMinutesLater : World Rat := { store := leftQueued, clock := 5 + 10 * 60 * 1000000000 }

/-- Where both runs are listed, a clean pass would mean that none is stale. -/
theorem clean_pass_leaves_none_stale_of_two :
    startedRun "run_5" .running 5 ∈ leftQueued.listRuns "acme" recoverableStatuses 2 ∧
    ∀ w' report, Solo (RecoveryPC.view plainService) (PassAlone fun _ => "") tenMinutesLater
        (.start "acme" 0 2) w' (.returned (.done report)) →
      report.recovered = 0 → report.errors = [] →
      ∀ run, ¬ StaleActive w'.store "acme" tenMinutesLater.clock (passStaleFor 0) run := by
  have listed : startedRun "run_5" .running 5 ∈
      leftQueued.listRuns "acme" recoverableStatuses (passLimit 2) := by decide
  have stale : StaleActive leftQueued "acme" tenMinutesLater.clock (passStaleFor 0)
      (startedRun "run_5" .running 5) := ⟨rfl, .inr rfl, resumedTask, rfl, rfl, by decide⟩
  exact ⟨listed, (clean_pass_leaves_none_stale_iff (w := tenMinutesLater)
    (storeOfRuns_reached _) "acme" 0 2).mpr fun _ => ⟨_, listed, .inl stale⟩⟩

/-- With a limit of one the pass sees the queued run, which has no start time, and is clean;
the stale run is not listed, and will not be as long as the other is there. -/
theorem stale_run_not_listed :
    leftQueued.Reached ∧
    StaleActive leftQueued "acme" tenMinutesLater.clock (passStaleFor 0)
      (startedRun "run_5" .running 5) ∧
    ∃ report, Solo (RecoveryPC.view plainService) (PassAlone fun _ => "") tenMinutesLater
        (.start "acme" 0 1) tenMinutesLater (.returned (.done report)) ∧
      report.recovered = 0 ∧ report.errors = [] := by
  refine ⟨storeOfRuns_reached _, ⟨rfl, .inr rfl, resumedTask, rfl, rfl, by decide⟩,
    { scanned := 1, skipped := 1 }, ?_, rfl, rfl⟩
  have alone : ∀ (pc : RecoveryPC Rat) (call : Call Rat) (answer : call.Ans),
      call.Succeeds answer → tenMinutesLater.Runs (fun _ => "") call answer tenMinutesLater →
      PassAlone (fun _ => "") pc tenMinutesLater call answer tenMinutesLater :=
    fun pc call answer succeeds ran => ⟨succeeds, tenMinutesLater, tenMinutesLater.clock, ran, rfl⟩
  have first : [{ startedRun "run_1" .queued 1 with startedAt := none }] =
      leftQueued.listRuns "acme" recoverableStatuses 1 := by decide
  have listing : tenMinutesLater.Runs (fun _ => "") (.listRuns "acme" recoverableStatuses 1)
      (.ok [{ startedRun "run_1" .queued 1 with startedAt := none }]) tenMinutesLater :=
    ⟨congrArg Except.ok first, rfl⟩
  refine .call rfl (alone _ .now _ trivial ⟨rfl, rfl⟩) ?_
  refine .call rfl (alone _ _ _ trivial listing) ?_
  refine .call rfl (alone _ (.engine .contextDone) false rfl rfl) ?_
  exact .call rfl (alone _ (.getTask "task_1") _ trivial ⟨rfl, rfl⟩) .here

end AgentForge
