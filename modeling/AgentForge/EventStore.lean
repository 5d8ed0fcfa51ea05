import AgentForge.StoreRecords

/-! The events the store keeps of a run: at most one for each number, in the order of
their numbers. `PutEvent` drops an event whose number is taken and says that all is
well; `ReplayEvents` gives back what is kept. What is said of `PutEvent` here is said for
as long as no event of the run is past the retention. -/
namespace AgentForge

variable {F : Type} {s : MemoryStore F} {now : Time} {event ev : StreamEvent F}

/-- The events kept of a run. -/
def MemoryStore.storedEvents (s : MemoryStore F) (taskID runID : String) : List (StreamEvent F) :=
  (s.events.lookup (eventKey taskID runID)).getD []

theorem storedEvents_of_events {s' : MemoryStore F} (same : s'.events = s.events)
    (taskID runID : String) : s'.storedEvents taskID runID = s.storedEvents taskID runID := by
  rw [MemoryStore.storedEvents, same]
  rfl

/-- An event with the time it is stored with. -/
def StreamEvent.stamped (event : StreamEvent F) (now : Time) : StreamEvent F :=
  if event.ts = 0 then { event with ts := unix now } else event

/-- Two events of one run with one number, type and data. -/
structure StreamEvent.Same (a b : StreamEvent F) : Prop where
  taskID : a.taskID = b.taskID
  runID : a.runID = b.runID
  seq : a.seq = b.seq
  type : a.type = b.type
  data : a.data = b.data

theorem StreamEvent.same_stamped (event : StreamEvent F) (now : Time) :
    (event.stamped now).Same event := by
  unfold StreamEvent.stamped
  split <;> exact ⟨rfl, rfl, rfl, rfl, rfl⟩

/-- The store with one more event. -/
def MemoryStore.addEvent (s : MemoryStore F) (event : StreamEvent F) : MemoryStore F :=
  let kept := s.storedEvents event.taskID event.runID ++ [event]
  { s with
    events := s.events.insert (eventKey event.taskID event.runID)
      (kept.insertionSort MemoryStore.eventBefore) }

/-- Neither the event nor anything kept of its run is past the retention. -/
def MemoryStore.NoneExpired (s : MemoryStore F) (now : Time) (event : StreamEvent F) : Prop :=
  0 < s.eventRetention → ∀ ev ∈ s.storedEvents event.taskID event.runID ++ [event.stamped now],
    unix (now - s.eventRetention) ≤ ev.ts

instance : Decidable (s.NoneExpired now event) :=
  inferInstanceAs (Decidable (0 < s.eventRetention → ∀ ev ∈ _, _ ≤ _))

/-- `PutEvent` refuses an event without ids, drops one whose number is taken, or adds it. -/
theorem putEvent_cases (s : MemoryStore F) (now : Time) (event : StreamEvent F)
    (lasting : s.NoneExpired now event) :
    (s.putEvent now event = (.error .conflict, s) ∧ (event.taskID = "" ∨ event.runID = "")) ∨
    event.taskID ≠ "" ∧ event.runID ≠ "" ∧
      ((s.putEvent now event = (.ok (), s) ∧
        ∃ ev ∈ s.storedEvents event.taskID event.runID, ev.seq = event.seq) ∨
      (s.putEvent now event = (.ok (), s.addEvent (event.stamped now)) ∧
        ∀ ev ∈ s.storedEvents event.taskID event.runID, ev.seq ≠ event.seq)) := by
  unfold MemoryStore.putEvent
  split
  · rename_i missing
    exact .inl ⟨rfl, missing⟩
  rename_i named
  refine .inr ⟨fun missing => named (.inl missing), fun missing => named (.inr missing), ?_⟩
  have same := event.same_stamped now
  extract_lets stamped key runEvents
  change stamped.Same event at same
  have kept : runEvents = s.storedEvents event.taskID event.runID := by
    rw [MemoryStore.storedEvents, ← same.taskID, ← same.runID]
  split
  · rename_i taken
    simp only [List.any_eq_true, decide_eq_true_eq, kept, same.seq] at taken
    exact .inl ⟨rfl, taken⟩
  · rename_i sorted filtered free
    simp only [Bool.not_eq_true, List.any_eq_false, decide_eq_true_eq, kept, same.seq] at free
    have unfiltered : filtered = sorted := by
      refine ite_eq_right_iff.mpr fun limited => List.filter_eq_self.mpr fun ev there => ?_
      rw [List.mem_insertionSort, kept] at there
      exact decide_eq_true (lasting limited ev there)
    refine .inr ⟨?_, free⟩
    rw [unfiltered]
    rfl

/-- What is kept of a run once an event was added. -/
theorem mem_storedEvents_addEvent (taskID runID : String) :
    ev ∈ (s.addEvent event).storedEvents taskID runID ↔
      ev ∈ s.storedEvents taskID runID ∨
        ev = event ∧ eventKey taskID runID = eventKey event.taskID event.runID := by
  by_cases here : eventKey taskID runID = eventKey event.taskID event.runID
  · have same : s.storedEvents taskID runID = s.storedEvents event.taskID event.runID := by
      rw [MemoryStore.storedEvents, here]
      rfl
    have now : (s.addEvent event).storedEvents taskID runID =
        (s.storedEvents event.taskID event.runID ++ [event]).insertionSort
          MemoryStore.eventBefore := by
      rw [MemoryStore.storedEvents, MemoryStore.addEvent, here, AList.lookup_insert]
      rfl
    rw [now, List.mem_insertionSort, List.mem_append, List.mem_singleton, same]
    simp [here]
  · have same : (s.addEvent event).storedEvents taskID runID = s.storedEvents taskID runID := by
      rw [MemoryStore.storedEvents, MemoryStore.addEvent, AList.lookup_insert_ne here]
      rfl
    rw [same]
    simp [here]

/-- The events a replay is about. -/
def MemoryStore.missedEvents (s : MemoryStore F) (taskID runID : String) (fromSeq fromTS : Int) :
    List (StreamEvent F) :=
  (s.storedEvents taskID runID).filter fun ev =>
    decide (ev.taskID = taskID) && !(0 < fromSeq && ev.seq ≤ fromSeq) && !(0 < fromTS && ev.ts < fromTS)

/-- `ReplayEvents` gives back the first of them. -/
theorem replayEvents_eq (named : taskID ≠ "") (runID : String) (fromSeq fromTS : Int)
    (positive : 0 < limit) :
    s.replayEvents taskID runID fromSeq fromTS limit =
      (s.missedEvents taskID runID fromSeq fromTS).take limit.toNat := by
  unfold MemoryStore.replayEvents MemoryStore.missedEvents
  simp only [named, and_false, if_false, decide_false, Bool.false_or, not_le.mpr positive]
  rfl

end AgentForge
