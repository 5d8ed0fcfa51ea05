import AgentForge.CursorPages
import AgentForge.StoreStreams

/-! The events of one run as a log that is read page by page. `PutEvent` keeps the first
event of every number, in the order of the numbers; a reader who asks `ReplayEvents` for
what comes after the last number they got reads all of it, once and in order, while more
is put; and `CompactEvents` takes away what is older than its bound. -/
namespace AgentForge

open CursorPages

variable {F : Type} {s s₀ : MemoryStore F} {now : Time} {taskID runID : String} {limit : Int}

/-- The first event put under a number, as it is stored. -/
def firstPut (puts : List (StreamEvent F × Time)) (seq : Int) : Option (StreamEvent F) :=
  (puts.find? fun put => put.1.seq = seq).map fun put => put.1.stamped put.2

variable (taskID runID limit) in
/-- Events are put to a run and a reader asks for pages, in any order: the store, the
events put so far with what the clock read, the last number the reader got and all they
have read. An event is put with a number past that one, and while everything put so far is
inside the retention. -/
inductive Paged (s₀ : MemoryStore F) :
    MemoryStore F → List (StreamEvent F × Time) → Int → List (StreamEvent F) → Prop where
  | start : Paged s₀ s₀ [] 0 []
  | put {s puts cursor out} (before : Paged s₀ s puts cursor out) (event : StreamEvent F)
      (now : Time) (own : event.taskID = taskID ∧ event.runID = runID) (onward : cursor < event.seq)
      (inside : 0 < s.eventRetention → ∀ put ∈ puts ++ [(event, now)],
        unix (now - s.eventRetention) ≤ (put.1.stamped put.2).ts) :
      Paged s₀ (s.putEvent now event).2 (puts ++ [(event, now)]) cursor out
  | page {s puts cursor out} (before : Paged s₀ s puts cursor out) (last : StreamEvent F)
      (some : (s.replayEvents taskID runID cursor 0 limit).getLast? = some last) :
      Paged s₀ s puts last.seq (out ++ s.replayEvents taskID runID cursor 0 limit)

/-- What holds of the log and its reader. -/
structure Log (taskID runID : String) (s : MemoryStore F) (puts : List (StreamEvent F × Time))
    (cursor : Int) (out : List (StreamEvent F)) : Prop where
  own : ∀ put ∈ puts, put.1.taskID = taskID ∧ put.1.runID = runID ∧ 0 < put.1.seq
  started : 0 ≤ cursor
  increasing : Ascending StreamEvent.seq (s.storedEvents taskID runID)
  first : ∀ ev, ev ∈ s.storedEvents taskID runID ↔ firstPut puts ev.seq = some ev
  read : out = upTo StreamEvent.seq cursor (s.storedEvents taskID runID)

namespace Log

/-- What is stored was put. -/
theorem of_mem (log : Log taskID runID s puts cursor out)
    (stored : ev ∈ s.storedEvents taskID runID) :
    ∃ put ∈ puts, put.1.stamped put.2 = ev ∧ put.1.seq = ev.seq := by
  obtain ⟨put, found, stamped⟩ := Option.map_eq_some_iff.mp ((log.first ev).mp stored)
  refine ⟨put, List.mem_of_find?_eq_some found, stamped, ?_⟩
  simpa using List.find?_some found

private theorem stored_own (log : Log taskID runID s puts cursor out)
    (stored : ev ∈ s.storedEvents taskID runID) : ev.taskID = taskID ∧ 0 < ev.seq := by
  obtain ⟨put, member, rfl, same⟩ := log.of_mem stored
  obtain ⟨task, -, positive⟩ := log.own put member
  exact ⟨(put.1.same_stamped put.2).taskID.trans task, same ▸ positive⟩

/-- A page is made of the first events past the cursor. -/
theorem replayEvents_eq_take (log : Log taskID runID s puts cursor out) (named : taskID ≠ "")
    (positive : 0 < limit) (onward : 0 ≤ fromSeq) :
    s.replayEvents taskID runID fromSeq 0 limit =
      (past StreamEvent.seq fromSeq (s.storedEvents taskID runID)).take limit.toNat := by
  rw [replayEvents_eq named runID fromSeq 0 positive]
  congr 1
  refine List.filter_congr fun ev stored => ?_
  obtain ⟨task, number⟩ := log.stored_own stored
  rw [Bool.eq_iff_iff]
  simp [task]
  omega

private theorem firstPut_append (puts : List (StreamEvent F × Time)) (event : StreamEvent F)
    (now : Time) (seq : Int) : firstPut (puts ++ [(event, now)]) seq =
      (firstPut puts seq).or (if event.seq = seq then some (event.stamped now) else none) := by
  unfold firstPut
  rw [List.find?_append, Option.map_or]
  congr 1
  by_cases same : event.seq = seq <;> simp [same]

/-- The number of the event under a number. -/
theorem seq_of_firstPut (stored : firstPut puts seq = some ev) : ev.seq = seq := by
  obtain ⟨first, found, rfl⟩ := Option.map_eq_some_iff.mp stored
  rw [(first.1.same_stamped first.2).seq]
  simpa using List.find?_some found

private theorem noneExpired (log : Log taskID runID s puts cursor out)
    (own : event.taskID = taskID ∧ event.runID = runID)
    (inside : 0 < s.eventRetention → ∀ put ∈ puts ++ [(event, now)],
      unix (now - s.eventRetention) ≤ (put.1.stamped put.2).ts) : s.NoneExpired now event := by
  intro limited ev member
  rw [own.1, own.2] at member
  rcases List.mem_append.mp member with stored | last
  · obtain ⟨put, there, rfl, -⟩ := log.of_mem stored
    exact inside limited put (List.mem_append_left _ there)
  · rw [List.mem_singleton.mp last]
    exact inside limited (event, now) (List.mem_append_right _ (List.mem_singleton_self _))

private theorem put (log : Log taskID runID s puts cursor out) (named : taskID ≠ "" ∧ runID ≠ "")
    (own : event.taskID = taskID ∧ event.runID = runID) (onward : cursor < event.seq)
    (inside : 0 < s.eventRetention → ∀ put ∈ puts ++ [(event, now)],
      unix (now - s.eventRetention) ≤ (put.1.stamped put.2).ts) :
    Log taskID runID (s.putEvent now event).2 (puts ++ [(event, now)]) cursor out := by
  have owned : ∀ put ∈ puts ++ [(event, now)],
      put.1.taskID = taskID ∧ put.1.runID = runID ∧ 0 < put.1.seq := by
    intro put member
    rcases List.mem_append.mp member with before | last
    · exact log.own put before
    · rw [List.mem_singleton.mp last]
      exact ⟨own.1, own.2, log.started.trans_lt onward⟩
  have cases := putEvent_cases s now event (log.noneExpired own inside)
  rw [own.1, own.2] at cases
  rcases cases with ⟨-, missing⟩ | ⟨-, -, ⟨dropped, ev, stored, same⟩ | ⟨added, free⟩⟩
  · exact absurd missing (not_or.mpr named)
  · -- The number is taken, by the event that was put first.
    have taken : firstPut puts event.seq = some ev := same ▸ (log.first ev).mp stored
    rw [dropped]
    refine ⟨owned, log.started, log.increasing, fun other => ?_, log.read⟩
    rw [log.first, firstPut_append]
    by_cases number : event.seq = other.seq
    · rw [← number, taken, Option.some_or]
    · rw [if_neg number, Option.or_none]
  · have unused : firstPut puts event.seq = none := by
      refine Option.eq_none_iff_forall_ne_some.mpr fun ev put => ?_
      have number := seq_of_firstPut put
      exact free ev ((log.first ev).mpr (number ▸ put)) number
    have stamped := event.same_stamped now
    have members : ∀ other, other ∈ (s.addEvent (event.stamped now)).storedEvents taskID runID ↔
        other ∈ s.storedEvents taskID runID ∨ other = event.stamped now := by
      intro other
      rw [mem_storedEvents_addEvent, stamped.taskID, stamped.runID, own.1, own.2]
      simp
    have increasing : Ascending StreamEvent.seq
        ((s.addEvent (event.stamped now)).storedEvents taskID runID) := by
      rw [MemoryStore.addEvent, storedEvents_insert, stamped.taskID, stamped.runID, own.1, own.2,
        if_pos rfl]
      exact Increasing.insert log.increasing fun ev stored => stamped.seq ▸ free ev stored
    rw [added]
    refine ⟨owned, log.started, increasing, fun other => ?_, ?_⟩
    · rw [members, log.first, firstPut_append]
      by_cases number : event.seq = other.seq
      · rw [← number, unused, if_pos rfl]
        simp [eq_comm]
      · have apart : other ≠ event.stamped now := by
          rintro rfl
          exact number stamped.seq.symm
        rw [if_neg number, Option.or_none, or_iff_left apart]
    · rw [log.read]
      refine (log.increasing.upTo_eq increasing fun other notAfter => ?_).symm
      rw [members]
      refine or_iff_left ?_
      rintro rfl
      rw [stamped.seq] at notAfter
      exact absurd onward notAfter.not_gt

private theorem page (log : Log taskID runID s puts cursor out) (named : taskID ≠ "")
    (positive : 0 < limit)
    (some : (s.replayEvents taskID runID cursor 0 limit).getLast? = some last) :
    Log taskID runID s puts last.seq (out ++ s.replayEvents taskID runID cursor 0 limit) := by
  have first := log.replayEvents_eq_take named positive log.started
  have split : past StreamEvent.seq cursor (s.storedEvents taskID runID) =
      s.replayEvents taskID runID cursor 0 limit ++
        (past StreamEvent.seq cursor (s.storedEvents taskID runID)).drop limit.toNat := by
    rw [first, List.take_append_drop]
  have turned := (log.increasing.turn split some).1
  have later : 0 < last.seq := by
    have member := List.mem_of_getLast? some
    rw [first] at member
    exact (log.stored_own (mem_past.mp (List.mem_of_mem_take member)).1).2
  exact ⟨log.own, later.le, log.increasing, log.first, by rw [turned, log.read]⟩

end Log

variable {puts : List (StreamEvent F × Time)} {cursor : Int} {out : List (StreamEvent F)}

private theorem Paged.log (named : taskID ≠ "" ∧ runID ≠ "")
    (empty : s₀.storedEvents taskID runID = [])
    (positive : 0 < limit) (paged : Paged taskID runID limit s₀ s puts cursor out) :
    Log taskID runID s puts cursor out := by
  induction paged with
  | start =>
    refine ⟨nofun, Int.le_refl 0, ?_, ?_, ?_⟩
    · rw [empty]
      exact .nil
    · simp [empty, firstPut]
    · rw [empty]
      rfl
  | put _ _ _ own onward inside log => exact log.put named own onward inside
  | page _ _ some log => exact log.page named.1 positive some

/-- `CompactEvents` on a log. -/
theorem Log.compactEvents (log : Log taskID runID s puts cursor out)
    (dated : 0 < beforeTS ∨ ∀ put ∈ puts, 0 ≤ (put.1.stamped put.2).ts) :
    (s.compactEvents taskID runID beforeTS).1 =
        (s.storedEvents taskID runID).countP (fun ev => ev.ts < beforeTS) ∧
      (s.compactEvents taskID runID beforeTS).2.storedEvents taskID runID =
        (s.storedEvents taskID runID).filter (fun ev => !decide (ev.ts < beforeTS)) := by
  have own : ∀ ev ∈ s.storedEvents taskID runID,
      ((taskID = "" || ev.taskID = taskID) && ev.ts < beforeTS) = decide (ev.ts < beforeTS) := by
    intro ev stored
    simp [(log.stored_own stored).1]
  unfold MemoryStore.compactEvents
  rw [← MemoryStore.storedEvents]
  dsimp only
  split_ifs with unbounded none
  · have young : ∀ ev ∈ s.storedEvents taskID runID, ¬ ev.ts < beforeTS := by
      intro ev stored
      obtain ⟨put, member, rfl, -⟩ := log.of_mem stored
      have stamp := dated.resolve_left unbounded.not_gt put member
      exact (unbounded.trans stamp).not_gt
    have count : (s.storedEvents taskID runID).countP (fun ev => ev.ts < beforeTS) = 0 :=
      List.countP_eq_zero.mpr fun ev stored => by simpa using young ev stored
    have kept : (s.storedEvents taskID runID).filter (fun ev => !decide (ev.ts < beforeTS)) =
        s.storedEvents taskID runID :=
      List.filter_eq_self.mpr fun ev stored => by simpa using young ev stored
    rw [count, kept]
    exact ⟨rfl, rfl⟩
  · rw [List.isEmpty_iff.mp none]
    exact ⟨rfl, rfl⟩
  · rw [storedEvents_insert, if_pos rfl]
    constructor
    · rw [List.countP_congr fun ev stored => by rw [own ev stored]]
    · exact List.filter_congr fun ev stored => by rw [own ev stored]

/-- Only the events of the run change. -/
theorem compactEvents_frame (s : MemoryStore F) (taskID runID : String) (beforeTS : Int) :
    ∃ events, (s.compactEvents taskID runID beforeTS).2 = { s with events := events } ∧
      ∀ k, k ≠ eventKey taskID runID → events.lookup k = s.events.lookup k := by
  unfold MemoryStore.compactEvents
  dsimp only
  split_ifs
  · exact ⟨s.events, rfl, fun _ _ => rfl⟩
  · exact ⟨s.events, rfl, fun _ _ => rfl⟩
  · exact ⟨_, rfl, fun k other => AList.lookup_insert_ne other⟩

/-- **The log of a run.** Whatever events were put, in any order and with any repetitions,
the store keeps the first of every number, in the order of the numbers. Whatever was read
and put so far, reading on until a page is empty ends, and all that was read is what is
stored, each event once and in order. `CompactEvents` takes away exactly the events older
than its bound and says how many there were. -/
theorem event_log (named : taskID ≠ "" ∧ runID ≠ "") (empty : s₀.storedEvents taskID runID = [])
    (positive : 1 ≤ limit) (paged : Paged taskID runID limit s₀ s puts cursor out) :
    ((s.storedEvents taskID runID).Pairwise (fun a b => a.seq < b.seq) ∧
      ∀ ev, ev ∈ s.storedEvents taskID runID ↔ firstPut puts ev.seq = some ev) ∧
    (∀ fuel, (s.storedEvents taskID runID).length < fuel →
      ∃ rest, readOn StreamEvent.seq
          (fun fromSeq => s.replayEvents taskID runID fromSeq 0 limit) fuel cursor = some rest ∧
        out ++ rest = s.storedEvents taskID runID) ∧
    ∀ beforeTS : Int, (0 < beforeTS ∨ ∀ put ∈ puts, 0 ≤ (put.1.stamped put.2).ts) →
      (s.compactEvents taskID runID beforeTS).1 =
          (s.storedEvents taskID runID).countP (fun ev => ev.ts < beforeTS) ∧
        (s.compactEvents taskID runID beforeTS).2.storedEvents taskID runID =
          (s.storedEvents taskID runID).filter (fun ev => !decide (ev.ts < beforeTS)) ∧
        ∃ events, (s.compactEvents taskID runID beforeTS).2 = { s with events := events } ∧
          ∀ k, k ≠ eventKey taskID runID → events.lookup k = s.events.lookup k := by
  have log := paged.log named empty positive
  refine ⟨⟨log.increasing, log.first⟩, fun fuel enough => ?_, fun beforeTS dated => ?_⟩
  · have shorter : (past StreamEvent.seq cursor (s.storedEvents taskID runID)).length < fuel :=
      (List.length_filter_le _ _).trans_lt enough
    refine ⟨_, log.increasing.readOn_eq (Int.pos_iff_toNat_pos.mp positive)
      (fun fromSeq => log.replayEvents_eq_take named.1 positive) log.started shorter, ?_⟩
    rw [log.read, log.increasing.upTo_append_past]
  · obtain ⟨count, kept⟩ := log.compactEvents dated
    exact ⟨count, kept, compactEvents_frame s taskID runID beforeTS⟩

/-! Two events are put in the wrong order, the first of them a second time; a page of two is
read, and then a third event is put. -/

def logEvent (seq ts : Int) : StreamEvent Rat := ⟨"t", "r", seq, ts, .tokenChunk, []⟩

def twoEvents : MemoryStore Rat :=
  let s := (MemoryStore.putEvent {} 0 (logEvent 2 10)).2
  let s := (s.putEvent 0 (logEvent 1 20)).2
  (s.putEvent 0 (logEvent 2 30)).2

theorem event_log_grown :
    (∃ rest, readOn StreamEvent.seq (fun fromSeq =>
        (twoEvents.putEvent 0 (logEvent 3 40)).2.replayEvents "t" "r" fromSeq 0 2) 4 2 = some rest ∧
      [logEvent 1 20, logEvent 2 10] ++ rest = [logEvent 1 20, logEvent 2 10, logEvent 3 40]) ∧
    ((twoEvents.putEvent 0 (logEvent 3 40)).2.compactEvents "t" "r" 15).1 = 1 := by
  have paged : Paged "t" "r" 2 ({} : MemoryStore Rat) {} [] 0 [] := .start
  have paged := paged.put (logEvent 2 10) 0 ⟨rfl, rfl⟩ (by decide) (by decide)
  have paged := paged.put (logEvent 1 20) 0 ⟨rfl, rfl⟩ (by decide) (by decide)
  have paged := paged.put (logEvent 2 30) 0 ⟨rfl, rfl⟩ (by decide) (by decide)
  have paged := paged.page (logEvent 2 10) (by decide)
  have paged := paged.put (logEvent 3 40) 0 ⟨rfl, rfl⟩ (by decide) (by decide)
  obtain ⟨-, reads, compacts⟩ := event_log ⟨by decide, by decide⟩ rfl (by decide) paged
  obtain ⟨rest, ends, all⟩ := reads 4 (by decide)
  exact ⟨⟨rest, ends, all⟩, (compacts 15 (.inl (by decide))).1⟩

end AgentForge
