import AgentForge.Consistency
import AgentForge.MapListings
import AgentForge.StoreRecords

/-! What the listings of the store list. A listing without a limit has every record that
matches; one that is cut off has those with fewer matching records before them than the
limit allows. -/
namespace AgentForge

open MapListings (mem_listing nodup_names)

variable {F : Type} {s : MemoryStore F} {run : Run F}

theorem mem_of_mem_capped (listed : a ∈ MemoryStore.capped limit out) : a ∈ out := by
  unfold MemoryStore.capped at listed
  split at listed
  · exact List.mem_of_mem_take listed
  · exact listed

/-- A listing with no limit has every record of the tenant, and the empty tenant
stands for all of them. -/
theorem mem_listTasks (listed : task ∈ s.listTasks tenantID [] limit) :
    (∃ t, s.tasks.lookup t = some task) ∧ (tenantID = "" ∨ task.tenantID = tenantID) := by
  obtain ⟨found, kept⟩ := mem_listing.mp ((List.mem_insertionSort _).mp (mem_of_mem_capped listed))
  exact ⟨found, by simpa [MemoryStore.taskMatches] using kept⟩

/-- A listed run is in the store, with one of the statuses asked for. -/
theorem of_mem_listRuns (listed : run ∈ s.listRuns tenantID statuses limit) :
    (∃ k, s.runs.lookup k = some run) ∧ (statuses = [] ∨ run.status ∈ statuses) := by
  obtain ⟨found, kept⟩ := mem_listing.mp ((List.mem_insertionSort _).mp (mem_of_mem_capped listed))
  simp only [MemoryStore.runMatches, Bool.and_eq_true, Bool.or_eq_true, List.isEmpty_iff,
    List.contains_iff_mem] at kept
  exact ⟨found, kept.2⟩

theorem mem_listRuns :
    run ∈ s.listRuns tenantID [] 0 ↔
      (∃ k, s.runs.lookup k = some run) ∧ (tenantID = "" ∨ run.tenantID = tenantID) := by
  unfold MemoryStore.listRuns MemoryStore.capped
  rw [if_neg (by omega), List.mem_insertionSort]
  refine mem_listing.trans (and_congr_right fun _ => ?_)
  simp [MemoryStore.runMatches]

/-! ## Listings that are cut off -/

/-- The runs a listing chooses from. -/
def MemoryStore.matchingRuns (s : MemoryStore F) (tenantID : String) (statuses : List RunStatus) :
    List (Run F) :=
  (s.runs.entries.map Sigma.snd).filter (MemoryStore.runMatches tenantID statuses)

theorem mem_matchingRuns :
    run ∈ s.matchingRuns tenantID statuses ↔
      (∃ k, s.runs.lookup k = some run) ∧ MemoryStore.runMatches tenantID statuses run :=
  mem_listing

theorem runBefore_total : Std.Total (MemoryStore.runBefore (F := F)) := Ranking.byKeys_total _ _

theorem runBefore_trans : IsTrans (Run F) MemoryStore.runBefore := Ranking.byKeys_trans _ _

/-- Runs of one key are one run. -/
theorem MemoryStore.Keyed.run_unique (keyed : s.Keyed) (found : s.runs.lookup k = some run)
    (found' : s.runs.lookup k' = some run')
    (same : runKey run.taskID run.runID = runKey run'.taskID run'.runID) : run = run' := by
  rw [keyed.run k run found, keyed.run k' run' found'] at same
  subst same
  exact Option.some.inj (found.symm.trans found')

theorem runBefore_separates (keyed : s.Keyed) :
    Ranking.Separates MemoryStore.runBefore (s.matchingRuns tenantID statuses) := by
  intro a inside b inside' first second
  obtain ⟨⟨k, found⟩, -⟩ := mem_matchingRuns.mp inside
  obtain ⟨⟨k', found'⟩, -⟩ := mem_matchingRuns.mp inside'
  exact keyed.run_unique found found' (Ranking.byKeys_minor (fun r : Run F => r.startedAt.getD 0)
    (fun r => runKey r.taskID r.runID) first second)

private theorem matchingRuns_nodup (keyed : s.Keyed) : (s.matchingRuns tenantID statuses).Nodup :=
  ((nodup_names keyed.run).of_map _).filter _

private theorem capped_eq_take {limit : Int} (limited : 0 < limit) (out : List α) :
    MemoryStore.capped limit out = out.take limit.toNat := by
  unfold MemoryStore.capped
  split
  · rfl
  · rw [List.take_of_length_le (by omega)]

/-- A run is listed exactly if it matches and fewer matching runs than the limit come
before it. -/
theorem mem_listRuns_iff (keyed : s.Keyed) :
    run ∈ s.listRuns tenantID statuses limit ↔
      run ∈ s.matchingRuns tenantID statuses ∧
        (limit ≤ 0 ∨ (Ranking.rank MemoryStore.runBefore (s.matchingRuns tenantID statuses) run : Int)
          < limit) := by
  have sorted : s.listRuns tenantID statuses limit = MemoryStore.capped limit
    ((s.matchingRuns tenantID statuses).insertionSort MemoryStore.runBefore) := rfl
  rw [sorted]
  by_cases limited : 0 < limit
  · rw [capped_eq_take limited, Ranking.mem_take_insertionSort runBefore_total runBefore_trans
      (runBefore_separates keyed) (matchingRuns_nodup keyed)]
    refine and_congr_right fun _ => ?_
    omega
  · rw [MemoryStore.capped, if_neg (fun both => limited both.1), List.mem_insertionSort]
    exact (and_iff_left (.inl (not_lt.mp limited))).symm

/-! ## The order of the tasks -/

theorem taskBefore_total : Std.Total (MemoryStore.taskBefore (F := F)) := Ranking.byKeys_total _ _

theorem taskBefore_trans : IsTrans (Task F) MemoryStore.taskBefore := Ranking.byKeys_trans _ _

theorem taskBefore_separates (keyed : s.Keyed) (keep : Task F → Bool) :
    Ranking.Separates MemoryStore.taskBefore ((s.tasks.entries.map Sigma.snd).filter keep) := by
  intro a inside b inside' first second
  obtain ⟨⟨t, found⟩, -⟩ := mem_listing.mp inside
  obtain ⟨⟨t', found'⟩, -⟩ := mem_listing.mp inside'
  have ids : t = t' := by
    rw [← keyed.task t a found, ← keyed.task t' b found']
    exact Ranking.byKeys_minor Task.createdAt Task.taskID first second
  subst ids
  exact Option.some.inj (found.symm.trans found')

/-- A cut goes by the number of the records only. -/
theorem capped_map (limit : Int) (change : α → β) (out : List α) :
    MemoryStore.capped limit (out.map change) = (MemoryStore.capped limit out).map change := by
  unfold MemoryStore.capped
  rw [List.length_map]
  split
  · rw [List.map_take]
  · rfl

/-- A listing of every run finds each run under its key. -/
theorem runByTaskRun_eq (keyed : s.Keyed) (listed : ∀ run ∈ runs, ∃ k, s.runs.lookup k = some run)
    (member : run ∈ runs) (found : s.runs.lookup k = some run) :
    runByTaskRun runs k = some run := by
  unfold runByTaskRun
  cases first : runs.reverse.find? fun run => run.taskID ++ "#" ++ run.runID = k with
  | none =>
    have unmatched := List.find?_eq_none.mp first run (List.mem_reverse.mpr member)
    exact absurd (by simpa [runKey] using keyed.run k run found) unmatched
  | some other =>
    have matched : other.taskID ++ "#" ++ other.runID = k := by
      simpa using List.find?_some first
    obtain ⟨k', found'⟩ := listed other (List.mem_reverse.mp (List.mem_of_find?_eq_some first))
    have same : k = k' := matched.symm.trans (keyed.run k' other found')
    rw [← same, found] at found'
    exact found'.symm

/-- The running maximum is above everything, and is one of the indices or where it began. -/
theorem foldl_max_spec (steps : List Step) (low : Int) :
    let top := steps.foldl (fun m step => max m step.stepIndex) low
    low ≤ top ∧ (∀ step ∈ steps, step.stepIndex ≤ top) ∧
      (top = low ∨ ∃ step ∈ steps, step.stepIndex = top) := by
  induction steps generalizing low with
  | nil => exact ⟨Int.le_refl low, by simp, .inl rfl⟩
  | cons step rest ih =>
    obtain ⟨above, bounds, there⟩ := ih (max low step.stepIndex)
    refine ⟨(le_max_left ..).trans above,
      List.forall_mem_cons.mpr ⟨(le_max_right ..).trans above, bounds⟩, ?_⟩
    rcases there with same | ⟨step', member, same⟩
    · rw [List.foldl_cons, same]
      rcases le_total step.stepIndex low with first | second
      · exact .inl (max_eq_left first)
      · exact .inr ⟨step, List.mem_cons_self, (max_eq_right second).symm⟩
    · exact .inr ⟨step', List.mem_cons_of_mem _ member, same⟩

end AgentForge
