import AgentForge.Engine
import AgentForge.Session

/-! Which calls the parts of `Execute` make. Publishing an event, restoring a checkpoint
and saving a workspace or a long field each keep to calls of their own, so that a
discipline that takes no notice of those calls need not look inside. -/
namespace AgentForge

/-! ## Keys -/

/-- The first letter of a key, which tells the keys of memories, of workspaces, of step
fields and of exports apart. -/
def keyArea (key : String) : Option Char := key.toList.head?

@[simp] theorem memoryS3Key_area (tenantID taskID runID : String) (i : Int) :
    keyArea (memoryS3Key tenantID taskID runID i) = some 'm' := by
  unfold keyArea memoryS3Key
  simp only [String.toList_append, List.append_assoc]
  simp

@[simp] theorem workspaceS3Key_area (tenantID taskID runID : String) (i : Int) :
    keyArea (workspaceS3Key tenantID taskID runID i) = some 'w' := by
  unfold keyArea workspaceS3Key
  simp only [String.toList_append, List.append_assoc]
  simp

@[simp] theorem stepFieldS3Key_area (tenantID taskID runID : String) (i : Int) (field : String) :
    keyArea (stepFieldS3Key tenantID taskID runID i field) = some 's' := by
  unfold keyArea stepFieldS3Key
  simp only [String.toList_append, List.append_assoc]
  simp

section Calls

variable {F : Type} (env : EngineEnv F) (task : Task F) (run : Run F)

/-! ## Events -/

/-- The calls that tell the connections of an event. -/
def EngineCall.Notifies : EngineCall F → Prop
  | .getConnectionsByTask _ | .push .. | .deleteConnection _ => True
  | _ => False

/-- The calls that publish an event. -/
def EngineCall.Publishes (call : EngineCall F) : Prop :=
  call = .now ∨ (∃ event, call = .putEvent event) ∨ call.Notifies

theorem uses_pushTargets (event : StreamEvent F) (conns : List Connection) (stale : List String) :
    (pushTargets event conns stale).Uses EngineCall.Notifies := by
  induction conns generalizing stale with
  | nil => exact .ret _
  | cons conn rest ih =>
    refine .bind (.call trivial) fun outcome => ?_
    match outcome with
    | .cancelled => exact .ret _
    | .pushed true => exact ih stale
    | .pushed false => exact ih _

theorem uses_deleteConnections (ids : List String) :
    (deleteConnections ids).Uses (EngineCall.Notifies (F := F)) := by
  induction ids with
  | nil => exact .ret _
  | cons id rest ih => exact .bind (.call trivial) fun _ => ih

theorem uses_pushEvent (eventSeq : Int) (type : StreamEventType) (data : EventData F) :
    (pushEvent env task run eventSeq type data).Uses EngineCall.Publishes := by
  have notifies : ∀ call : EngineCall F, call.Notifies → call.Publishes := fun _ => .inr ∘ .inr
  unfold pushEvent
  split
  · exact .ret _
  refine .bind (.call (.inl rfl)) fun now => ?_
  refine .bind (.call (.inr (.inl ⟨_, rfl⟩))) fun _ => ?_
  refine .bind (.call (notifies _ trivial)) fun conns => ?_
  cases conns with
  | error e => exact .ret _
  | ok conns =>
    exact .bind ((uses_pushTargets ..).mono notifies) fun stale =>
      .bind ((uses_deleteConnections _).mono notifies) fun _ => .ret _

/-! ## Checkpoints -/

/-- The calls that restore a checkpoint. -/
def EngineCall.Restores : EngineCall F → Prop
  | .artifactGet _ | .workspaceRestore _ => True
  | _ => False

private theorem uses_loadSnapshot (ref : ArtifactRef) :
    (loadSnapshot env ref).Uses EngineCall.Restores := by
  refine .bind (.call trivial) fun raw => ?_
  cases raw with
  | error message => exact .ret _
  | ok raw =>
    dsimp only
    split <;> exact .ret _

private theorem uses_restoreMemory (ref : Option ArtifactRef) :
    (restoreMemory env ref).Uses EngineCall.Restores := by
  unfold restoreMemory loadMemory
  split
  · exact .ret _
  · refine .bind (.bind (uses_loadSnapshot ..) fun raw => ?_) fun restored => ?_
    · cases raw with
      | error e => exact .ret _
      | ok raw =>
        dsimp only
        split <;> exact .ret _
    · cases restored <;> exact .ret _

theorem uses_restoreCheckpoint (ref : CheckpointRef) :
    (restoreCheckpoint env ref).Uses EngineCall.Restores := by
  refine .bind (uses_restoreMemory ..) fun messages => ?_
  cases messages with
  | error e => exact .ret _
  | ok messages =>
    dsimp only
    split
    · exact .ret _
    · refine .bind (.bind (uses_loadSnapshot ..) fun raw => ?_) fun restored => ?_
      · cases raw with
        | error e => exact .ret _
        | ok raw =>
          refine .bind (.call trivial) fun done => ?_
          cases done <;> exact .ret _
      · cases restored <;> exact .ret _

theorem uses_saveMemory (mem : MemorySnapshot) :
    (saveMemory env task mem).Uses fun call => ∃ key data, call = .artifactPut key data := by
  refine .bind (.call ⟨_, _, rfl⟩) fun stored => ?_
  cases stored <;> exact .ret _

/-- The calls that save a workspace or a long field. -/
def EngineCall.SavesAside : EngineCall F → Prop
  | .artifactPut key _ => keyArea key ≠ some 'm'
  | .workspaceSnapshot => True
  | _ => False

theorem uses_snapshotWorkspace (stepIdx : Int) :
    (snapshotWorkspace task run stepIdx).Uses EngineCall.SavesAside := by
  refine .bind (.call trivial) fun data => ?_
  cases data with
  | error message => exact .ret _
  | ok data =>
    refine .bind (.call (by simp [EngineCall.SavesAside])) fun stored => ?_
    cases stored <;> exact .ret _

private theorem uses_externalizeStepField (stepIdx : Int) (field value : String) :
    (externalizeStepField env task run stepIdx field value).Uses EngineCall.SavesAside := by
  unfold externalizeStepField
  split
  · exact .ret _
  · refine .bind (.call (by simp [EngineCall.SavesAside])) fun stored => ?_
    cases stored <;> exact .ret _

theorem uses_externalizeLargeStepFields (step : Step) :
    (externalizeLargeStepFields env task run step).Uses EngineCall.SavesAside := by
  refine .bind (uses_externalizeStepField ..) fun input => ?_
  cases input with
  | error message => exact .ret _
  | ok input =>
    refine .bind (uses_externalizeStepField ..) fun output => ?_
    cases output <;> exact .ret _

/-- A step keeps its checkpoint when its long fields are put elsewhere. -/
theorem externalizeLargeStepFields_checkpoint (step : Step) :
    (externalizeLargeStepFields env task run step).Returns fun result =>
      ∀ step', result = .ok step' → step'.checkpointRef = step.checkpointRef := by
  refine (Prog.Returns.trivial _).bind fun input _ => ?_
  cases input with
  | error message => exact fun _ failed => by cases failed
  | ok input =>
    refine (Prog.Returns.trivial _).bind fun output _ => ?_
    cases output with
    | error message => exact fun _ failed => by cases failed
    | ok output =>
      rintro step' ⟨⟩
      rfl

/-! ## Whose records the calls are about -/

/-- The call is about the task and the run that are executed, if it is about the abort flag,
the last step or the usage. -/
def EngineCall.Own : EngineCall F → Prop
  | .isAbortRequested taskID => taskID = task.taskID
  | .updateLastStepIndex taskID runID _ => taskID = task.taskID ∧ runID = run.runID
  | .addRunUsage taskID runID _ _ => taskID = task.taskID ∧ runID = run.runID
  | _ => True

end Calls

end AgentForge
