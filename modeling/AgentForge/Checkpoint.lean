import AgentForge.EngineRules
import AgentForge.StoreRecords
import AgentForge.System

/-! Checkpoints over any sequence of executions. A step is recorded with references to
the artifacts it was saved as, under keys made from the run and the step's number. The
store keeps the first record of a step, and the artifact store the last blob under a
key; so a run that is executed again may leave a record whose artifacts are no longer
those it names. -/
namespace AgentForge

open Transition.System (Within Throughout)

section Checkpoint

variable {F : Type}

/-! ## Restorable steps -/

/-- The artifact a reference names is there, with the recorded digest and size. -/
def ArtifactRef.Stored (sha256 : Bytes → String) (blobs : GoMap Bytes) (ref : ArtifactRef) : Prop :=
  ∃ raw, blobs.lookup ref.s3Key = some raw ∧ sha256 raw = ref.sha256 ∧ (raw.length : Int) = ref.size

/-- Both artifacts of the checkpoint are there. -/
def CheckpointRef.Restorable (sha256 : Bytes → String) (blobs : GoMap Bytes)
    (checkpoint : CheckpointRef) : Prop :=
  ∃ memory workspace, checkpoint = ⟨some memory, some workspace⟩ ∧
    memory.Stored sha256 blobs ∧ workspace.Stored sha256 blobs

/-- Every step that was recorded with a checkpoint can be restored. -/
def World.Restorable (sha256 : Bytes → String) (w : World F) : Prop :=
  ∀ k step checkpoint, w.store.steps.lookup k = some step →
    step.checkpointRef = some checkpoint → checkpoint.Restorable sha256 w.blobs

/-- The artifacts a step names. -/
def Step.artifacts (step : Step) : List ArtifactRef :=
  match step.checkpointRef with
  | some ⟨memory, workspace⟩ => memory.toList ++ workspace.toList
  | none => []

/-- The artifacts of every recorded step pass the check that `Snapshotter.Load` and
`RestoreWorkspace` make. -/
def World.PassesChecks (sha256 : Bytes → String) (w : World F) : Prop :=
  ∀ k step, w.store.steps.lookup k = some step → ∀ ref ∈ step.artifacts,
    ∃ raw, w.blobs.lookup ref.s3Key = some raw ∧ checkIntegrity sha256 ref raw = .ok ()

private theorem World.Restorable.stored {w : World F} {step : Step}
    (restorable : w.Restorable sha256)
    (found : w.store.steps.lookup k = some step) (member : ref ∈ step.artifacts) :
    ref.Stored sha256 w.blobs := by
  cases made : step.checkpointRef with
  | none => simp [Step.artifacts, made] at member
  | some checkpoint =>
    obtain ⟨memory, workspace, rfl, one, two⟩ := restorable k step checkpoint found made
    simp only [Step.artifacts, made, Option.toList_some, List.singleton_append, List.mem_cons,
      List.not_mem_nil, or_false] at member
    rcases member with rfl | rfl
    · exact one
    · exact two

private theorem World.Restorable.passesChecks {w : World F} (restorable : w.Restorable sha256) :
    w.PassesChecks sha256 := by
  intro k step found ref member
  obtain ⟨raw, there, digest, size⟩ := restorable.stored found member
  exact ⟨raw, there, by simp [checkIntegrity, digest, size]⟩

/-! ## Sessions of the engine -/

/-- What is left of an execution. -/
abbrev Execution (F : Type) := EngineProg F (Except EngineError (RunResult F))

abbrev ExecutionState (F : Type) :=
  Session.State (World F) (EngineCall F) EngineCall.Ans (Except EngineError (RunResult F))

/-- Executions of any tasks and runs, one after another, each dropped at any point or
not. They begin with no step recorded. Whatever else happens to the store in between,
such as a run being reset to be executed again, leaves steps and artifacts alone. -/
def executions [Float64 F] (env : EngineEnv F) :
    Session (World F) (EngineCall F) EngineCall.Ans (Except EngineError (RunResult F)) where
  initial w := w.store.steps = ∅
  begins program := ∃ task run, program = execute env task run
  carries w call answer w' := w.EngineRuns env.sha256 call answer w'
  fails call answer := call.Fault answer
  env w w' := w'.store.steps = w.store.steps ∧ w'.blobs = w.blobs

/-- An artifact that is put under a key some recorded step names is the one stored
there already. -/
def PutsSame (s : ExecutionState F) : Session.Event → Prop
  | .carried =>
    match s.current with
    | some (.call (.artifactPut key data) _) =>
      ∀ k step, s.world.store.steps.lookup k = some step →
        ∀ ref ∈ step.artifacts, ref.s3Key = key → s.world.blobs.lookup key = some data
    | _ => True
  | _ => True

/-- The blobs stored at any time in the course of a run. -/
def blobsInvolved (history : List (ExecutionState F × Session.Event)) (s : ExecutionState F) :
    Set Bytes :=
  {data | ∃ state, (state = s ∨ ∃ past ∈ history, past.1 = state) ∧
    ∃ key, state.world.blobs.lookup key = some data}

/-! ## The discipline of an execution -/

/-- Where the tools of an agent export to. -/
def Exported (key : String) : Prop := "exports/".toList <+: key.toList

/-- What an execution has put and not overwritten is its ghost state. It records a step
only with a checkpoint made of such artifacts, and never puts where tools export. -/
def checkpointing : Discipline (EngineCall F) EngineCall.Ans (List ArtifactRef) where
  moves refs
    | .artifactPut key _, .ok (sha, size) => ⟨key, sha, size⟩ :: refs.filter (·.s3Key ≠ key)
    | _, _ => refs
  allows refs
    | .putStep step => ∀ checkpoint, step.checkpointRef = some checkpoint →
        ∃ memory workspace, checkpoint = ⟨some memory, some workspace⟩ ∧ memory ∈ refs ∧
          workspace ∈ refs
    | .artifactPut key _ => ¬ Exported key
    | _ => True

/-- The execution has both artifacts of a checkpoint. -/
def HasCheckpoint (refs : List ArtifactRef) (checkpoint : CheckpointRef) : Prop :=
  ∃ memory workspace, checkpoint = ⟨some memory, some workspace⟩ ∧ memory ∈ refs ∧
    workspace ∈ refs ∧ keyArea memory.s3Key = some 'm' ∧ keyArea workspace.s3Key = some 'w'

end Checkpoint

/-! ## The engine follows it -/

section Engine

variable {F : Type} (env : EngineEnv F) (task : Task F) (run : Run F)

/-- A step without a checkpoint names no artifact. -/
theorem ignores_minor (call : EngineCall F) (minor : call.Minor task run) :
    checkpointing.Ignores call := by
  cases call with
  | putStep step =>
    refine ⟨fun _ checkpoint made => ?_, fun _ _ => rfl⟩
    cases (show step.checkpointRef = none from minor).symm.trans made
  | artifactPut _ _ => exact minor.elim
  | _ => exact ⟨fun _ => trivial, fun _ _ => rfl⟩

private theorem lasts (P : List ArtifactRef → Prop) : Lasts env task run checkpointing fun _ => P :=
  .of_minor (ignores_minor task run) P

private theorem Exported.area (exported : Exported key) : keyArea key = some 'e' := by
  obtain ⟨rest, same⟩ := exported
  rw [keyArea, ← same]
  rfl

/-- What is put in one area leaves references to others alone. -/
theorem mem_moves (answer : Except String (String × Int)) (held : ref ∈ refs)
    (other : keyArea ref.s3Key ≠ keyArea key) :
    ref ∈ checkpointing.moves refs (.artifactPut (F := F) key data) answer := by
  cases answer with
  | error message => exact held
  | ok stored =>
    have different : ref.s3Key ≠ key := fun same => other (congrArg keyArea same)
    exact List.mem_cons_of_mem _ (List.mem_filter.mpr ⟨held, by simpa using different⟩)

private theorem HasCheckpoint.put (data : Bytes) (answer : Except String (String × Int))
    (held : HasCheckpoint refs checkpoint) (area : keyArea key = some 's') :
    HasCheckpoint (checkpointing.moves refs (.artifactPut (F := F) key data) answer) checkpoint := by
  obtain ⟨memory, workspace, made, inMemory, inWorkspace, m, w⟩ := held
  exact ⟨memory, workspace, made, mem_moves answer inMemory (by simp [m, area]),
    mem_moves answer inWorkspace (by simp [w, area]), m, w⟩

private theorem ensures_saveMemory (mem : MemorySnapshot) (refs : List ArtifactRef) :
    checkpointing.Ensures (fun refs' result => ∀ ref, result = .ok ref →
      ref ∈ refs' ∧ keyArea ref.s3Key = some 'm') (saveMemory env task mem) refs := by
  refine ⟨fun exported => ?_, fun answer => ?_⟩
  · have area := exported.area
    rw [memoryS3Key_area] at area
    cases area
  · cases answer with
    | error message => rintro ref ⟨⟩
    | ok stored =>
      rintro ref ⟨⟩
      exact ⟨List.mem_cons_self .., memoryS3Key_area ..⟩

/-- Saving the workspace completes a checkpoint. -/
theorem ensures_snapshotWorkspace (stepIdx : Int) (held : memory ∈ refs)
    (area : keyArea memory.s3Key = some 'm') :
    checkpointing.Ensures (fun refs' result => ∀ ref, result = .ok ref →
      HasCheckpoint refs' ⟨some memory, some ref⟩) (snapshotWorkspace task run stepIdx) refs := by
  refine Discipline.Quiet.then (.call (fun _ => trivial) fun _ _ => rfl) fun data => ?_
  cases data with
  | error message => rintro ref ⟨⟩
  | ok data =>
    refine ⟨fun exported => ?_, fun answer => ?_⟩
    · have area := exported.area
      rw [workspaceS3Key_area] at area
      cases area
    · cases answer with
      | error message => rintro ref ⟨⟩
      | ok stored =>
        rintro ref ⟨⟩
        refine ⟨memory, _, rfl, mem_moves (.ok stored) held ?_, List.mem_cons_self .., area,
          workspaceS3Key_area ..⟩
        rw [area, workspaceS3Key_area]
        simp

private theorem ensures_externalizeStepField (stepIdx : Int) (field value : String)
    (held : HasCheckpoint refs checkpoint) :
    checkpointing.Ensures (fun refs' _ => HasCheckpoint refs' checkpoint)
      (externalizeStepField env task run stepIdx field value) refs := by
  unfold externalizeStepField
  split
  · exact held
  · refine ⟨fun exported => ?_, fun answer => ?_⟩
    · have area := exported.area
      rw [stepFieldS3Key_area] at area
      cases area
    · have kept := held.put (F := F) value.toUTF8.toList answer
        (stepFieldS3Key_area task.tenantID task.taskID run.runID stepIdx field)
      cases answer <;> exact kept

/-- Long fields are put elsewhere; a checkpoint stays until the step is recorded with it. -/
theorem records : Records env task run checkpointing fun checkpoint _ refs =>
    HasCheckpoint refs checkpoint := by
  refine ⟨fun _ => lasts env task run _, fun checkpoint seq step refs held => ?_,
    fun checkpoint seq step refs held made => ⟨fun checkpoint' same => ?_, fun _ => rfl⟩⟩
  · refine (ensures_externalizeStepField env task run _ _ _ held).bind fun refs input held => ?_
    cases input with
    | error message => exact held
    | ok input =>
      refine (ensures_externalizeStepField env task run _ _ _ held).bind fun refs output held => ?_
      cases output <;> exact held
  · obtain rfl := Option.some.inj (made.symm.trans same)
    obtain ⟨memory, workspace, rfl, inMemory, inWorkspace, -⟩ := held
    exact ⟨memory, workspace, rfl, inMemory, inWorkspace⟩

private theorem follows_execute [Float64 F] :
    checkpointing.Ensures (fun _ _ => True) (execute env task run) [] := by
  have overlooks := Overlooks.of_minor (ignores_minor task run)
  have lasts := lasts env task run fun _ => True
  refine overlooks.execution (fun _ _ _ => True) lasts (fun _ _ _ => id) ?_ fun _ _ _ _ => trivial
  intro stepIdx st refs _
  refine overlooks.turn (fun _ _ _ => True) (fun _ => lasts)
    (fun _ _ _ => ⟨trivial, fun _ _ => trivial⟩) (fun _ _ _ _ _ => ⟨trivial, fun _ => trivial⟩)
    (fun response stepStart seq refs _ _ => ?_) trivial
  refine (overlooks.tools (fun _ _ _ _ => True) (fun _ _ => lasts) lasts
    (fun _ _ _ _ _ _ => ⟨trivial, fun _ => ⟨trivial, fun _ _ => trivial⟩⟩) _ _ _ trivial).mono
    fun refs _ _ tools _ => ?_
  refine overlooks.finish (records env task run) _ _ _ _ _ _ ?_ fun _ _ _ _ _ _ => trivial
  refine (ensures_saveMemory env task _ refs).mono fun refs result saved memory ended => ?_
  obtain ⟨held, area⟩ := saved memory ended
  exact ensures_snapshotWorkspace task run stepIdx held area

end Engine

/-! ## The invariant of a session -/

section Invariant

variable {F : Type} {sha256 : Bytes → String} {w w' : World F}

/-- The artifact is there, where no tool exports to. -/
def ArtifactRef.Kept (sha256 : Bytes → String) (blobs : GoMap Bytes) (ref : ArtifactRef) : Prop :=
  ref.Stored sha256 blobs ∧ ¬ Exported ref.s3Key

/-- Every recorded checkpoint is kept. -/
def World.CheckpointsKept (sha256 : Bytes → String) (w : World F) : Prop :=
  ∀ k step checkpoint, w.store.steps.lookup k = some step → step.checkpointRef = some checkpoint →
    ∃ memory workspace, checkpoint = ⟨some memory, some workspace⟩ ∧
      memory.Kept sha256 w.blobs ∧ workspace.Kept sha256 w.blobs

private theorem World.CheckpointsKept.restorable (kept : w.CheckpointsKept sha256) :
    w.Restorable sha256 := by
  intro k step checkpoint found made
  obtain ⟨memory, workspace, same, one, two⟩ := kept k step checkpoint found made
  exact ⟨memory, workspace, same, one.1, two.1⟩

private theorem ArtifactRef.Kept.congr {ref : ArtifactRef} (kept : ref.Kept sha256 blobs)
    (same : blobs'.lookup ref.s3Key = blobs.lookup ref.s3Key) :
    ref.Kept sha256 blobs' := by
  obtain ⟨⟨raw, found, matching⟩, inside⟩ := kept
  exact ⟨⟨raw, same.trans found, matching⟩, inside⟩

/-- What a change of blobs means for the recorded checkpoints: those whose artifacts it
leaves alone stay. -/
theorem World.CheckpointsKept.congr (kept : w.CheckpointsKept sha256)
    (steps : w'.store.steps = w.store.steps)
    (same : ∀ k step, w.store.steps.lookup k = some step → ∀ ref ∈ step.artifacts,
      ¬ Exported ref.s3Key → w'.blobs.lookup ref.s3Key = w.blobs.lookup ref.s3Key) :
    w'.CheckpointsKept sha256 := by
  intro k step checkpoint found made
  rw [steps] at found
  obtain ⟨memory, workspace, rfl, one, two⟩ := kept k step checkpoint found made
  have named : step.artifacts = [memory, workspace] := by simp [Step.artifacts, made]
  exact ⟨memory, workspace, rfl, one.congr (same k step found memory (by simp [named]) one.2),
    two.congr (same k step found workspace (by simp [named]) two.2)⟩

variable [Float64 F]

/-- Apart from putting artifacts and recording steps, the engine changes exports only. -/
theorem engineRuns_artifacts (ran : w.EngineRuns sha256 call answer w') :
    (w'.store.steps = w.store.steps ∧
      ∀ key, ¬ Exported key → w'.blobs.lookup key = w.blobs.lookup key) ∨
    (∃ step, call = .putStep step ∧ w'.blobs = w.blobs ∧
      w'.store.steps = w.store.steps.insert (stepKey step.runID step.stepIndex) step) ∨
    ∃ key data, call = .artifactPut key data := by
  cases engineRuns_effect ran with
  | step => exact .inr (.inl ⟨_, rfl, rfl, rfl⟩)
  | artifact key data => exact .inr (.inr ⟨key, data, rfl⟩)
  | tool keeps => exact .inl ⟨rfl, keeps⟩
  | _ => exact .inl ⟨rfl, fun _ _ => rfl⟩

/-- The artifacts an execution has put are kept. -/
def ArtifactsKept (sha256 : Bytes → String) (refs : List ArtifactRef) (w : World F) : Prop :=
  ∀ ref ∈ refs, ref.Kept sha256 w.blobs

omit [Float64 F] in
/-- Nothing but a put that succeeds moves the ghost state. -/
theorem moves_other {call : EngineCall F} (answer : call.Ans)
    (other : ∀ key data, call ≠ .artifactPut key data) :
    checkpointing.moves refs call answer = refs := by
  cases call with
  | artifactPut key data => exact absurd rfl (other key data)
  | _ => rfl

private theorem carried_put {key : String} {answer : Except String (String × Int)}
    (kept : w.CheckpointsKept sha256) (mine : ArtifactsKept sha256 refs w) (inside : ¬ Exported key)
    (same : ∀ k step, w.store.steps.lookup k = some step →
      ∀ ref ∈ step.artifacts, ref.s3Key = key → w.blobs.lookup key = some data)
    (ran : w.EngineRuns sha256 (.artifactPut key data) answer w') :
    w'.CheckpointsKept sha256 ∧
      ArtifactsKept sha256 (checkpointing.moves refs (.artifactPut (F := F) key data) answer)
        w' := by
  obtain ⟨rfl, rfl⟩ := ran
  constructor
  · refine kept.congr rfl fun k step found ref member _ => ?_
    by_cases here : ref.s3Key = key
    · dsimp only
      rw [here, AList.lookup_insert, same k step found ref member here]
    · exact AList.lookup_insert_ne here
  · intro ref member
    rcases List.mem_cons.mp member with rfl | old
    · exact ⟨⟨data, AList.lookup_insert _, rfl, rfl⟩, inside⟩
    · obtain ⟨member, other⟩ := List.mem_filter.mp old
      exact (mine ref member).congr (AList.lookup_insert_ne (by simpa using other))

omit [Float64 F] in
private theorem carried_putStep (kept : w.CheckpointsKept sha256)
    (mine : ArtifactsKept sha256 refs w)
    (allowed : checkpointing.allows refs (.putStep (F := F) step)) (blobs : w'.blobs = w.blobs)
    (steps : w'.store.steps = w.store.steps.insert (stepKey step.runID step.stepIndex) step) :
    w'.CheckpointsKept sha256 := by
  intro k step' checkpoint found made
  rw [steps] at found
  rw [blobs]
  by_cases new : k = stepKey step.runID step.stepIndex
  · subst new
    rw [AList.lookup_insert] at found
    cases found
    obtain ⟨memory, workspace, same, inMemory, inWorkspace⟩ := allowed checkpoint made
    exact ⟨memory, workspace, same, mine memory inMemory, mine workspace inWorkspace⟩
  · rw [AList.lookup_insert_ne new] at found
    exact kept k step' checkpoint found made

variable {env : EngineEnv F} {history : List (ExecutionState F × Session.Event)}
  {s : ExecutionState F}

private theorem path_checkpointsKept (path : (executions env).system.Path history s)
    (same : Within PutsSame history) :
    Throughout (fun s => s.world.CheckpointsKept env.sha256) history s := by
  have both := Session.invariant (J := fun w => w.CheckpointsKept env.sha256)
    (R := fun refs w => ArtifactsKept env.sha256 refs w) (d := checkpointing) ?_ ?_ ?_ ?_ ?_ path same
  · exact ⟨both.1.1, fun past member => (both.2 past member).1⟩
  · intro w empty k step checkpoint found
    rw [empty] at found
    cases found
  · rintro s program ⟨task, run, rfl⟩ - -
    exact ⟨[], by simp [ArtifactsKept], follows_execute env task run⟩
  · intro s request resume answer w refs there same kept mine allowed ran
    by_cases put : ∃ key data, request = .artifactPut key data
    · obtain ⟨key, data, rfl⟩ := put
      simp only [PutsSame, there] at same
      exact carried_put kept mine allowed same ran
    rw [moves_other answer fun key data is => put ⟨key, data, is⟩]
    rcases engineRuns_artifacts ran with ⟨steps, blobs⟩ | ⟨step, rfl, blobs, steps⟩ | is
    · exact ⟨kept.congr steps fun _ _ _ ref _ inside => blobs ref.s3Key inside,
        fun ref member => (mine ref member).congr (blobs ref.s3Key (mine ref member).2)⟩
    · refine ⟨carried_putStep kept mine allowed blobs steps, ?_⟩
      intro ref member
      rw [blobs]
      exact mine ref member
    · exact absurd is put
  · intro w request answer refs mine allowed failure
    cases request with
    | artifactPut key data =>
      obtain ⟨message, rfl⟩ := failure
      exact mine
    | _ => exact mine
  · rintro w w' ⟨steps, blobs⟩ kept
    refine ⟨kept.congr steps fun _ _ _ _ _ _ => by rw [blobs], fun refs mine ref member => ?_⟩
    rw [blobs]
    exact mine ref member

/-- **A recorded checkpoint stays restorable exactly as long as nothing else is put in
its place.** In a run of executions, each complete or dropped at any point, every
recorded checkpoint can be restored in every state if and only if every artifact put
under a key that a recorded step names is the one stored there already; and then the
checks made when it is loaded pass. -/
theorem checkpoints_restorable_iff (path : (executions env).system.Path history s)
    (collisionFree : Set.InjOn env.sha256 (blobsInvolved history s)) :
    (Throughout (fun s => s.world.Restorable env.sha256) history s ↔ Within PutsSame history) ∧
    (Within PutsSame history →
      Throughout (fun s => s.world.PassesChecks env.sha256) history s) := by
  have restorable : Within PutsSame history →
      Throughout (fun s => s.world.Restorable env.sha256) history s := by
    intro same
    have kept := path_checkpointsKept path same
    exact ⟨kept.1.restorable, fun past member => (kept.2 past member).restorable⟩
  refine ⟨⟨fun restored => ?_, restorable⟩, fun same => ?_⟩
  · rintro ⟨before, e⟩ member
    obtain ⟨after, step, there⟩ := path.step_of_mem _ member
    have restoredAfter : after.world.Restorable env.sha256 := by
      rcases there with rfl | ⟨later, member', rfl⟩
      · exact restored.1
      · exact restored.2 later member'
    cases step with
    | @carried request resume answer w there' ran =>
      dsimp only at there'
      simp only [PutsSame, there']
      split
      · rename_i key data resume' same
        cases same
        obtain ⟨-, rfl⟩ := ran
        intro k step found ref named here
        obtain ⟨raw, stored, digest, -⟩ := (restored.2 _ member).stored found named
        obtain ⟨raw', stored', digest', -⟩ := restoredAfter.stored found named
        rw [here] at stored stored'
        rw [AList.lookup_insert, Option.some.injEq] at stored'
        subst stored'
        have involved : raw ∈ blobsInvolved history s := ⟨before, .inr ⟨_, member, rfl⟩, key, stored⟩
        have involved' : data ∈ blobsInvolved history s :=
          ⟨_, there, key, AList.lookup_insert _⟩
        rw [stored, collisionFree involved involved' (digest.trans digest'.symm)]
      · trivial
    | _ => trivial
  · exact ⟨(restorable same).1.passesChecks, fun past member =>
      ((restorable same).2 past member).passesChecks⟩

/-- Resetting a run is among what may happen between executions. -/
theorem reset_between (w : World F) (now : Time) (taskID runID : String) :
    (executions env).env w (w.after (w.store.resetRunToQueued now taskID runID)) :=
  ⟨((StoreWrite.resetRunToQueued taskID runID).leaves w.store now).streams rfl |>.steps, rfl⟩

end Invariant

/-! An engine whose memories are the texts of their messages, with every byte a letter
of the digest, and a task it is given to execute. -/

def savingEngine : EngineEnv Rat :=
  { plainEngine with
    encodeMemory mem := mem.messages.flatMap fun message =>
      message.content.toList.map fun c => UInt8.ofNat c.toNat
    sha256 bytes := String.ofList (bytes.map Char.ofUInt8) }

def reply (content : String) : LLMResponse := ⟨content, [], none, "", "gpt-4o-mini", "mock"⟩

private theorem savingEngine_collisionFree : Function.Injective savingEngine.sha256 := by
  intro a b same
  refine List.map_injective_iff.mpr (fun x y same => ?_) (String.ofList_injective same)
  exact UInt8.toUInt32_inj.mp (congrArg Char.val same)

/-- The same run is executed, reset and executed again with the same replies: the
artifacts of the first execution are put once more. -/
theorem checkpoints_restorable_same_reply :
    ∃ history s, (executions savingEngine).system.Path history s ∧
      (∃ k step, s.world.store.steps.lookup k = some step ∧ step.artifacts.length = 2) ∧
      Throughout (fun s => s.world.Restorable savingEngine.sha256) history s := by
  have c0 : (executions savingEngine).system.Path [] ⟨freshWorld, none⟩ := .start ⟨rfl, rfl⟩
  have c1 := c0.next (.begin ⟨freshTask, freshRun, rfl⟩)
  have c2 := Session.path_advance (engineRuns_serve _ (atOnce false (.ok (reply "first")))) c1 10 rfl
  have c3 := c2.next (.env (reset_between _ 0 "task_1" "run_1"))
  have c4 := c3.next (.begin ⟨freshTask, freshRun, rfl⟩)
  have c5 := Session.path_advance (engineRuns_serve _ (atOnce false (.ok (reply "first")))) c4 7 rfl
  refine ⟨_, _, c5, ⟨stepKey "run_1" 0, _, rfl, rfl⟩,
    (checkpoints_restorable_iff c5 savingEngine_collisionFree.injOn).1.mpr ?_⟩
  simp only [Within, List.forall_mem_cons]
  refine ⟨fun _ _ _ _ _ _ => rfl, trivial, trivial, trivial, trivial, trivial, trivial, trivial,
    trivial, trivial, fun _ _ found => ?_, trivial, fun _ _ found => ?_, trivial, trivial, trivial,
    trivial, trivial, trivial, trivial, by simp⟩
  · cases found
  · cases found

/-- The same run is executed, reset and executed again with another reply: the memory of
the second execution takes the place of the one the recorded step names. -/
theorem checkpoint_lost_other_reply :
    ∃ history s, (executions savingEngine).system.Path history s ∧
      ¬ s.world.Restorable savingEngine.sha256 := by
  have c0 : (executions savingEngine).system.Path [] ⟨freshWorld, none⟩ := .start ⟨rfl, rfl⟩
  have c1 := c0.next (.begin ⟨freshTask, freshRun, rfl⟩)
  have c2 := Session.path_advance (engineRuns_serve _ (atOnce false (.ok (reply "first")))) c1 10 rfl
  have c3 := c2.next (.env (reset_between _ 0 "task_1" "run_1"))
  have c4 := c3.next (.begin ⟨freshTask, freshRun, rfl⟩)
  have c5 := Session.path_advance (engineRuns_serve _ (atOnce false (.ok (reply "second")))) c4 7 rfl
  refine ⟨_, _, c5, fun restorable => ?_⟩
  obtain ⟨memory, workspace, made, ⟨raw, found, digest, -⟩, -⟩ :=
    restorable (stepKey "run_1" 0) _ _ rfl rfl
  cases made
  cases found
  revert digest
  decide

end AgentForge
