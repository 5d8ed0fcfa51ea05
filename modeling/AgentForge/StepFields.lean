import AgentForge.Session
import AgentForge.System

/-! A step field too long for its record is put aside as an artifact, and a tagged reference to
it is stored in its place. The writer chooses between the two forms by the length of the value,
the reader by the tag, and nothing keeps a short value from carrying the tag itself. -/
namespace AgentForge

/-- What stands behind the tag of a stored field; nothing if the field is stored as it is. -/
def reference (stored : String) : Option String :=
  if externalizedStepFieldTag.toList <+: stored.toList then
    some (String.ofList (stored.toList.drop externalizedStepFieldTag.toList.length))
  else none

/-- A stored field read as the tests read it: behind the tag is the JSON of a reference, whose
artifact holds the content; any other value is the content. `artifactKey` is the key that
`json.Unmarshal` finds in the reference. -/
def readStepField (artifactKey : String → Option String) (blobs : GoMap Bytes)
    (stored : String) : Option Bytes :=
  match reference stored with
  | some payload => artifactKey payload >>= fun key => blobs.lookup key
  | none => some stored.toUTF8.toList

private theorem reference_tagged (payload : String) :
    reference (externalizedStepFieldTag ++ payload) = some payload := by
  simp [reference]

/-- A value that fits its record is stored as it is, without a call. -/
theorem plays_inline [Float64 F] (short : value.utf8ByteSize ≤ maxInlineStepFieldBytes)
    (w : World F) (stepIndex : Int) (field : String) :
    Plays (World.EngineRuns env.sha256) (fun _ _ => False) w
      (externalizeStepField env task run stepIndex field value) [] w (.ret (.ok value)) := by
  unfold externalizeStepField
  rw [if_pos short]
  exact .here _ _

/-- A longer one is put aside, and its record refers to the artifact. -/
theorem plays_aside [Float64 F] (env : EngineEnv F) (task : Task F) (run : Run F) (w : World F)
    (stepIndex : Int) (field : String) (long : maxInlineStepFieldBytes < value.utf8ByteSize) :
    let key := stepFieldS3Key task.tenantID task.taskID run.runID stepIndex field
    let bytes := value.toUTF8.toList
    Plays (World.EngineRuns env.sha256) (fun _ _ => False) w
      (externalizeStepField env task run stepIndex field value)
      [⟨.artifactPut key bytes, .ok (env.sha256 bytes, bytes.length)⟩]
      { w with blobs := w.blobs.insert key bytes }
      (.ret (.ok (externalizedStepFieldTag ++ env.encodeExternalized field
        ⟨key, env.sha256 bytes, bytes.length⟩ value.utf8ByteSize))) := by
  unfold externalizeStepField
  rw [if_neg (Nat.not_le.mpr long)]
  exact .call ⟨rfl, rfl⟩ (.here _ _)

/-- **When an externalised field is read back as it was written.** The reader gives the value
back if it was long enough to be put aside or carries no tag. A short value with the tag is
stored as it is and taken for a reference, so it comes back only if the artifact it names
happens to hold the value itself. -/
theorem step_field_reads_back_iff {F : Type} [Float64 F] {env : EngineEnv F} {task : Task F}
    {run : Run F} {stepIndex : Int} {field value stored : String} {w w' : World F}
    {artifactKey : String → Option String}
    {exchanges : List (Prog.Exchange (EngineCall F) EngineCall.Ans)}
    (decodes : ∀ field ref originalBytes,
      artifactKey (env.encodeExternalized field ref originalBytes) = some ref.s3Key)
    (wrote : Plays (World.EngineRuns env.sha256) (fun _ _ => False) w
      (externalizeStepField env task run stepIndex field value) exchanges w' (.ret (.ok stored))) :
    readStepField artifactKey w'.blobs stored = some value.toUTF8.toList ↔
      ∀ payload, reference value = some payload →
        maxInlineStepFieldBytes < value.utf8ByteSize ∨
        ∃ key, artifactKey payload = some key ∧ w.blobs.lookup key = some value.toUTF8.toList := by
  unfold externalizeStepField at wrote
  by_cases short : value.utf8ByteSize ≤ maxInlineStepFieldBytes
  · rw [if_pos short] at wrote
    cases wrote with
    | here =>
      cases tagged : reference value with
      | none => simp [readStepField, tagged]
      | some payload => simp [readStepField, tagged, Nat.not_lt.mpr short, Option.bind_eq_some_iff]
    | other changed => exact changed.elim
  · rw [if_neg short] at wrote
    cases wrote with
    | call ran rest =>
      obtain ⟨rfl, rfl⟩ := ran
      cases rest with
      | here => simp [readStepField, reference_tagged, decodes, Nat.not_le.mp short]
      | other changed => exact changed.elim
    | other changed => exact changed.elim

/-- An engine whose references are their artifacts' keys. -/
def keyedEngine : EngineEnv Rat :=
  { plainEngine with encodeExternalized := fun _ ref _ => ref.s3Key }

/-- An answer one byte too long for its record. -/
def oversizedAnswer : String := String.ofList (List.replicate (maxInlineStepFieldBytes + 1) 'a')

private theorem utf8ByteSize_replicate (n : Nat) :
    (String.ofList (List.replicate n 'a')).utf8ByteSize = n := by
  induction n with
  | zero => rfl
  | succ n ih =>
    have one : (String.ofList ['a']).utf8ByteSize = 1 := by decide
    rw [List.replicate_succ, ← List.singleton_append, String.ofList_append,
      String.utf8ByteSize_append, ih, one, Nat.add_comm]

/-- A short answer is read back from its record, a long one from the artifact put aside. -/
theorem step_field_reads_back_answers :
    readStepField some (∅ : GoMap Bytes) "done" = some "done".toUTF8.toList ∧
    ∃ exchanges w' stored, Plays (World.EngineRuns keyedEngine.sha256) (fun _ _ => False) {}
        (externalizeStepField keyedEngine freshTask freshRun 0 "output" oversizedAnswer)
        exchanges w' (.ret (.ok stored)) ∧
      stored ≠ oversizedAnswer ∧ readStepField some w'.blobs stored = some oversizedAnswer.toUTF8.toList := by
  have size : oversizedAnswer.utf8ByteSize = maxInlineStepFieldBytes + 1 := utf8ByteSize_replicate _
  have inline : Plays (World.EngineRuns keyedEngine.sha256) (fun _ _ => False) {}
      (externalizeStepField keyedEngine freshTask freshRun 0 "output" "done") [] {}
      (.ret (.ok "done")) := plays_inline (by decide) {} 0 "output"
  have long : maxInlineStepFieldBytes < oversizedAnswer.utf8ByteSize := Nat.lt_of_succ_le size.ge
  have aside := plays_aside keyedEngine freshTask freshRun {} 0 "output" long
  refine ⟨(step_field_reads_back_iff (fun _ _ _ => rfl) inline).mpr nofun, _, _, _, aside, ?_, ?_⟩
  · intro same
    have tagged := congrArg (fun text : String => text.toList.head?) same
    simp [oversizedAnswer, externalizedStepFieldTag, List.replicate_succ] at tagged
  · exact (step_field_reads_back_iff (fun _ _ _ => rfl) aside).mpr fun _ _ => .inl long

/-- An answer that is the tag alone is stored as it is, and no reader finds it again: the
reference it is taken for leads to no artifact. -/
theorem tagged_answer_lost :
    Plays (World.EngineRuns keyedEngine.sha256) (fun _ _ => False) {}
      (externalizeStepField keyedEngine freshTask freshRun 0 "output" externalizedStepFieldTag) []
      {} (.ret (.ok externalizedStepFieldTag)) ∧
    ∀ artifactKey : String → Option String,
      readStepField artifactKey ∅ externalizedStepFieldTag = none := by
  refine ⟨plays_inline (by decide) {} 0 "output", fun artifactKey => ?_⟩
  simp [readStepField, reference]

end AgentForge
