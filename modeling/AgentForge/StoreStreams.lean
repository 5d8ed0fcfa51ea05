import AgentForge.EventStore
import AgentForge.MapListings

/-! Where the store keeps steps, connections and events: a step and a connection under a
key made of its own ids, the events of a run in the order of their numbers. -/
namespace AgentForge

open MapListings (mem_listing nodup_names)

variable {F : Type} {s : MemoryStore F}

/-- Events in the order of their numbers, each number once. -/
def Increasing (events : List (StreamEvent F)) : Prop := events.Pairwise fun a b => a.seq < b.seq

private theorem eventBefore_total : Std.Total (MemoryStore.eventBefore (F := F)) := ⟨fun a b => by
  unfold MemoryStore.eventBefore
  omega⟩

private theorem eventBefore_trans :
    IsTrans (StreamEvent F) MemoryStore.eventBefore := ⟨fun a b c => by
  unfold MemoryStore.eventBefore
  omega⟩

/-- An event whose number is free takes its place among the others. -/
theorem Increasing.insert {events : List (StreamEvent F)} (increasing : Increasing events)
    (free : ∀ ev ∈ events, ev.seq ≠ event.seq) :
    Increasing ((events ++ [event]).insertionSort MemoryStore.eventBefore) := by
  have total := eventBefore_total (F := F)
  have trans := eventBefore_trans (F := F)
  have apart : (events ++ [event]).Pairwise fun a b => a.seq ≠ b.seq := by
    refine List.pairwise_append.mpr ⟨increasing.imp fun below => below.ne, by simp, ?_⟩
    intro ev member other last
    rw [List.mem_singleton.mp last]
    exact free ev member
  have sorted := List.pairwise_insertionSort MemoryStore.eventBefore (events ++ [event])
  have distinct := (List.perm_insertionSort MemoryStore.eventBefore (events ++ [event])).symm.pairwise
    apart Ne.symm
  refine (sorted.and distinct).imp fun {a b} both => ?_
  obtain ⟨below | ⟨same, -⟩, differ⟩ := both
  · exact below
  · exact absurd same differ

/-- Everything is kept where it belongs. -/
structure MemoryStore.Filed (s : MemoryStore F) : Prop where
  step : ∀ k step, s.steps.lookup k = some step → stepKey step.runID step.stepIndex = k
  connection : ∀ k conn, s.connections.lookup k = some conn → conn.connectionID = k
  events : ∀ k events, s.events.lookup k = some events → Increasing events

namespace MemoryStore.Filed

private theorem sameStreams (filed : s.Filed) (same : s.SameStreams s') : s'.Filed where
  step := same.steps ▸ filed.step
  connection := same.connections ▸ filed.connection
  events := same.events ▸ filed.events

private theorem insertEvents (filed : s.Filed) (k : String) {events : List (StreamEvent F)}
    (increasing : Increasing events) :
    MemoryStore.Filed { s with events := s.events.insert k events } where
  step := filed.step
  connection := filed.connection
  events k' events' found := by
    by_cases same : k' = k
    · subst same
      rw [AList.lookup_insert, Option.some.injEq] at found
      exact found ▸ increasing
    · exact filed.events k' events' (by rwa [AList.lookup_insert_ne same] at found)

theorem increasing_getD (filed : s.Filed) (k : String) : Increasing ((s.events.lookup k).getD []) := by
  cases found : s.events.lookup k with
  | none => exact List.Pairwise.nil
  | some events => exact filed.events k events found

private theorem putEvent (filed : s.Filed) (event : StreamEvent F) :
    (s.putEvent now event).2.Filed := by
  unfold MemoryStore.putEvent
  split
  · exact filed
  extract_lets stamped key runEvents
  split
  · exact filed
  rename_i sorted kept free
  have apart : ∀ ev ∈ runEvents, ev.seq ≠ stamped.seq := by simpa using free
  have increasing : Increasing sorted := (filed.increasing_getD key).insert apart
  refine filed.insertEvents key ?_
  by_cases limited : 0 < s.eventRetention
  · rw [show kept = _ from if_pos limited]
    exact increasing.filter _
  · rw [show kept = sorted from if_neg limited]
    exact increasing

/-- Every write leaves everything where it belongs. -/
theorem write [Float64 F] (filed : s.Filed) (write : StoreWrite F) : (write.apply s now).Filed := by
  by_cases about : write.onRecords = true
  · exact filed.sameStreams ((write.leaves s now).streams about)
  cases write with
  | putStep step =>
    dsimp only [StoreWrite.apply, MemoryStore.putStep]
    split
    · exact filed
    refine ⟨fun k step' found => ?_, filed.connection, filed.events⟩
    by_cases same : k = stepKey step.runID step.stepIndex
    · subst same
      rw [AList.lookup_insert, Option.some.injEq] at found
      rw [found]
    · exact filed.step k step' (by rwa [AList.lookup_insert_ne same] at found)
  | putConnection conn =>
    refine ⟨filed.step, fun k conn' found => ?_, filed.events⟩
    dsimp only [StoreWrite.apply, MemoryStore.putConnection] at found
    by_cases same : k = conn.connectionID
    · subst same
      rw [AList.lookup_insert, Option.some.injEq] at found
      rw [found]
    · exact filed.connection k conn' (by rwa [AList.lookup_insert_ne same] at found)
  | deleteConnection connectionID =>
    refine ⟨filed.step, fun k conn' found => ?_, filed.events⟩
    dsimp only [StoreWrite.apply, MemoryStore.deleteConnection] at found
    by_cases same : k = connectionID
    · rw [same, AList.lookup_erase] at found
      cases found
    · exact filed.connection k conn' (by rwa [AList.lookup_erase_ne same] at found)
  | putEvent event => exact filed.putEvent event
  | compactEvents taskID runID beforeTS =>
    dsimp only [StoreWrite.apply, MemoryStore.compactEvents]
    split_ifs
    · exact filed
    · exact filed
    · exact filed.insertEvents _ ((filed.increasing_getD _).filter _)
  | _ => exact absurd rfl about

end MemoryStore.Filed

theorem MemoryStore.Reached.filed [Float64 F] (reached : s.Reached) : s.Filed := by
  induction reached with
  | new eventRetention => exact ⟨by simp, by simp, by simp⟩
  | write before now write ih => exact ih.write write

/-! ## What a write leaves alone -/

private theorem StoreWrite.events_eq [Float64 F] (write : StoreWrite F) (s : MemoryStore F)
    (now : Time) (put : ∀ event, write ≠ .putEvent event)
    (compact : ∀ taskID runID beforeTS, write ≠ .compactEvents taskID runID beforeTS) :
    (write.apply s now).events = s.events := by
  by_cases about : write.onRecords = true
  · exact ((write.leaves s now).streams about).events
  cases write with
  | putEvent event => exact absurd rfl (put event)
  | compactEvents taskID runID beforeTS => exact absurd rfl (compact taskID runID beforeTS)
  | putStep step =>
    obtain ⟨steps, left⟩ := putStep_frame s step
    rw [apply, left]
  | putConnection conn | deleteConnection id => rfl
  | _ => exact absurd rfl about

theorem storedEvents_insert (s : MemoryStore F) (k : String) (events : List (StreamEvent F))
    (taskID runID : String) :
    MemoryStore.storedEvents { s with events := s.events.insert k events } taskID runID =
      if eventKey taskID runID = k then events else s.storedEvents taskID runID := by
  unfold MemoryStore.storedEvents
  split
  · rename_i here
    rw [here, AList.lookup_insert]
    rfl
  · rename_i other
    rw [AList.lookup_insert_ne other]

/-- `PutEvent` adds no other event than the one it is given. -/
theorem of_mem_storedEvents_putEvent
    (stored : ev ∈ (s.putEvent now event).2.storedEvents taskID runID) :
    ev ∈ s.storedEvents taskID runID ∨
      ev = event.stamped now ∧ eventKey taskID runID = eventKey event.taskID event.runID := by
  unfold MemoryStore.putEvent at stored
  split at stored
  · exact .inl stored
  extract_lets stamped key runEvents at stored
  have same : stamped.Same event := event.same_stamped now
  split at stored
  · exact .inl stored
  rename_i sorted kept free
  dsimp only at stored
  rw [storedEvents_insert] at stored
  split at stored
  · rename_i here
    have inside : ev ∈ sorted := by
      by_cases limited : 0 < s.eventRetention
      · rw [show kept = _ from if_pos limited] at stored
        exact (List.mem_filter.mp stored).1
      · rwa [show kept = sorted from if_neg limited] at stored
    rcases List.mem_append.mp ((List.mem_insertionSort _).mp inside) with before | last
    · left
      rw [MemoryStore.storedEvents, here]
      exact before
    · exact .inr ⟨List.mem_singleton.mp last, by rw [here, ← same.taskID, ← same.runID]⟩
  · exact .inl stored

/-- A write that stores no event of a run adds none to it. -/
theorem StoreWrite.storedEvents_subset [Float64 F] (write : StoreWrite F)
    (none : ∀ event, write = .putEvent event →
      eventKey event.taskID event.runID ≠ eventKey taskID runID)
    (stored : ev ∈ (write.apply s now).storedEvents taskID runID) :
    ev ∈ s.storedEvents taskID runID := by
  by_cases puts : ∃ event, write = .putEvent event
  · obtain ⟨event, rfl⟩ := puts
    rcases of_mem_storedEvents_putEvent stored with before | ⟨-, key⟩
    · exact before
    · exact absurd key.symm (none event rfl)
  by_cases compacts : ∃ taskID runID beforeTS, write = .compactEvents taskID runID beforeTS
  · obtain ⟨taskID', runID', beforeTS, rfl⟩ := compacts
    dsimp only [apply, MemoryStore.compactEvents] at stored
    split_ifs at stored
    · exact stored
    · exact stored
    · dsimp only at stored
      rw [storedEvents_insert] at stored
      split at stored
      · rename_i here
        rw [MemoryStore.storedEvents, here]
        exact (List.mem_filter.mp stored).1
      · exact stored
  · rw [storedEvents_of_events (write.events_eq s now (fun event same => puts ⟨event, same⟩)
      fun t r b same => compacts ⟨t, r, b, same⟩)] at stored
    exact stored

/-! ## Connections of a task -/

theorem mem_getConnectionsByTask :
    conn ∈ s.getConnectionsByTask taskID ↔
      (∃ id, s.connections.lookup id = some conn) ∧ conn.taskID = taskID := by
  refine mem_listing.trans (and_congr_right fun _ => ?_)
  rw [decide_eq_true_eq]

/-- The connections found for a task have different ids. -/
theorem getConnectionsByTask_nodup (filed : s.Filed) (taskID : String) :
    ((s.getConnectionsByTask taskID).map Connection.connectionID).Nodup :=
  (nodup_names filed.connection).sublist (List.filter_sublist.map _)

end AgentForge
