import AgentForge.Engine

/-! The keys under which an execution stores what it keeps of its steps. A tenant may have any
name, so a key is read from its end: behind the last slash stands the file, which names the step
and what is stored of it, and before that the run and the task. -/
namespace AgentForge

/-- What is stored of a step. -/
inductive StepArtifact where
  | memory | workspace | input | output
  deriving DecidableEq

namespace StepArtifact

/-- The key, made by `memory.S3Key`, `WorkspaceS3Key` or `StepFieldS3Key`. -/
def s3Key (kind : StepArtifact) (tenantID taskID runID : String) (stepIndex : Int) : String :=
  match kind with
  | .memory => memoryS3Key tenantID taskID runID stepIndex
  | .workspace => workspaceS3Key tenantID taskID runID stepIndex
  | .input => stepFieldS3Key tenantID taskID runID stepIndex "input"
  | .output => stepFieldS3Key tenantID taskID runID stepIndex "output"

def area : StepArtifact → String
  | .memory => "memory/"
  | .workspace => "workspaces/"
  | .input | .output => "steps/"

/-- How the name of the file ends, behind the number of the step. -/
def ending : StepArtifact → String
  | .memory => ".json.gz"
  | .workspace => ".tar.gz"
  | .input => "_" ++ "input" ++ ".txt"
  | .output => "_" ++ "output" ++ ".txt"

def file (kind : StepArtifact) (stepIndex : Int) : String :=
  "step_" ++ (GoText.padded 8 stepIndex ++ kind.ending)

private theorem s3Key_eq (kind : StepArtifact) :
    kind.s3Key tenantID taskID runID i =
      kind.area ++ tenantID ++ "/" ++ taskID ++ "/" ++ runID ++ "/" ++ kind.file i := by
  have step : "/step_" = "/" ++ "step_" := rfl
  cases kind <;> unfold s3Key area file ending
  · unfold memoryS3Key
    rw [step]
    simp only [String.append_assoc]
  · unfold workspaceS3Key
    rw [step]
    simp only [String.append_assoc]
  all_goals
    unfold stepFieldS3Key
    rw [step]
    simp only [String.append_assoc]

/-- The letters of a step's number are none of those an ending begins with. -/
theorem padded_letter (member : c ∈ (GoText.padded 8 i).toList) : c ≠ '/' ∧ c ≠ '.' ∧ c ≠ '_' := by
  rcases GoText.mem_padded member with rfl | digit
  · decide
  · refine ⟨?_, ?_, ?_⟩ <;> rintro rfl <;> exact absurd digit (by decide)

private theorem slash_not_mem_file (kind : StepArtifact) (i : Int) :
    '/' ∉ (kind.file i).toList := by
  have ends : '/' ∉ kind.ending.toList := by cases kind <;> decide
  rw [file, String.toList_append, String.toList_append, List.mem_append, List.mem_append]
  rintro (start | number | halted)
  · exact absurd start (by decide)
  · exact (padded_letter number).1 rfl
  · exact ends halted

/-- A file is the file of one step and one kind. -/
theorem file_unique (same : file kind i = file kind' i') : kind = kind' ∧ i = i' := by
  have same := congrArg String.toList same
  simp only [file, String.toList_append] at same
  have same := List.append_cancel_left same
  let inNumber : Char → Bool := fun c => c ≠ '.' && c ≠ '_'
  have number : ∀ (kind : StepArtifact) (i : Int),
      ((GoText.padded 8 i).toList ++ kind.ending.toList).takeWhile inNumber =
        (GoText.padded 8 i).toList := by
    intro kind i
    have letters : ∀ c ∈ (GoText.padded 8 i).toList, inNumber c := by
      intro c member
      simpa [inNumber] using (padded_letter member).2
    have halted : kind.ending.toList.takeWhile inNumber = [] := by
      cases kind <;> decide
    rw [List.takeWhile_append_of_pos letters, halted, List.append_nil]
  have digits := (number kind i).symm.trans ((congrArg _ same).trans (number kind' i'))
  rw [digits] at same
  have ends := List.append_cancel_left same
  refine ⟨?_, GoText.padded_injective 8 (String.toList_inj.mp digits)⟩
  cases kind <;> cases kind' <;> first | rfl | exact absurd ends (by decide)

/-- Text is cut in one way only at its last slash. -/
theorem last_slash_unique {front last front' last' : String}
    (same : front ++ "/" ++ last = front' ++ "/" ++ last')
    (clear : '/' ∉ last.toList) (clear' : '/' ∉ last'.toList) : front = front' ∧ last = last' := by
  have slash : "/".toList = ['/'] := rfl
  have letters := congrArg String.toList same
  simp only [String.toList_append, slash, List.append_assoc, List.singleton_append] at letters
  simp only [← String.toList_inj]
  rcases List.append_eq_append_iff.mp letters with ⟨middle, whole, rest⟩ | ⟨middle, whole, rest⟩
  · cases middle with
    | nil => exact ⟨(whole.trans (List.append_nil _)).symm, (List.cons.inj rest).2⟩
    | cons c middle =>
      rw [(List.cons.inj rest).2] at clear
      simp at clear
  · cases middle with
    | nil => exact ⟨whole.trans (List.append_nil _), (List.cons.inj rest).2.symm⟩
    | cons c middle =>
      rw [(List.cons.inj rest).2] at clear'
      simp at clear'

end StepArtifact

/-- **Artifact keys never collide.** Two keys that `memory.S3Key`, `WorkspaceS3Key` and
`StepFieldS3Key` make for tasks and runs without a slash in their ids are the same only if they
were made by the same function for the same tenant, task, run, step and field. -/
theorem artifact_key_unique (kind kind' : StepArtifact)
    (tenantID taskID runID tenantID' taskID' runID' : String) (i i' : Int)
    (plainTask : '/' ∉ taskID.toList) (plainRun : '/' ∉ runID.toList)
    (plainTask' : '/' ∉ taskID'.toList) (plainRun' : '/' ∉ runID'.toList)
    (same : kind.s3Key tenantID taskID runID i = kind'.s3Key tenantID' taskID' runID' i') :
    kind = kind' ∧ tenantID = tenantID' ∧ taskID = taskID' ∧ runID = runID' ∧ i = i' := by
  rw [StepArtifact.s3Key_eq, StepArtifact.s3Key_eq] at same
  obtain ⟨upToRun, file⟩ := StepArtifact.last_slash_unique same
    (StepArtifact.slash_not_mem_file _ _) (StepArtifact.slash_not_mem_file _ _)
  obtain ⟨upToTask, run⟩ := StepArtifact.last_slash_unique upToRun plainRun plainRun'
  obtain ⟨tenant, task⟩ := StepArtifact.last_slash_unique upToTask plainTask plainTask'
  obtain ⟨rfl, rfl⟩ := StepArtifact.file_unique file
  exact ⟨rfl, String.append_right_inj _ |>.mp tenant, task, run, rfl⟩

/-- Two tenants with slashes in their names. -/
theorem artifact_key_unique_nested_tenants :
    StepArtifact.s3Key .memory "a/b" "t" "r" 0 ≠ StepArtifact.s3Key .memory "a" "t" "r" 0 := by
  intro same
  have unique := artifact_key_unique .memory .memory "a/b" "t" "r" "a" "t" "r" 0 0
    (by decide) (by decide) (by decide) (by decide) same
  exact absurd unique.2.1 (by decide)

end AgentForge
