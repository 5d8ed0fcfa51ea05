import Mathlib.Logic.Function.Basic

/-! Labelled transition systems, and pools of threads that call into a shared
world one atomic step at a time. Nothing here is about a particular program: a
thread is any value with a `View`, and a world is anything its calls act on.

`Path` keeps every state a run went through together with the event taken
there, so that a statement about every run can mention both the states it
visits and the steps it takes. -/
namespace Transition

/-- The states a system may begin in, and what one event may do. -/
structure System (State Event : Type) where
  Initial : State → Prop
  Step : State → Event → State → Prop

namespace System

/-- A finite run: the states left behind with the event taken in each, latest
first, and the state reached. -/
inductive Path {State Event : Type} (S : System State Event) :
    List (State × Event) → State → Prop where
  | start {s : State} (initial : S.Initial s) : Path S [] s
  | next {history : List (State × Event)} {s t : State} {e : Event} (before : Path S history s)
      (step : S.Step s e t) : Path S ((s, e) :: history) t

variable {State Event : Type} {S : System State Event} {P : State → Prop}
  {ok : State → Event → Prop} {history : List (State × Event)} {s t : State} {e : Event}

/-- Some run ends here. -/
def Reachable (S : System State Event) (s : State) : Prop := ∃ history, S.Path history s

/-- Every step of the run met the condition in the state it was taken from. -/
def Within (ok : State → Event → Prop) (history : List (State × Event)) : Prop :=
  ∀ past ∈ history, ok past.1 past.2

/-- The property held in every state of the run, the last one included. -/
def Throughout (P : State → Prop) (history : List (State × Event)) (s : State) : Prop :=
  P s ∧ ∀ past ∈ history, P past.1

theorem within_cons : Within ok ((s, e) :: history) ↔ ok s e ∧ Within ok history := by
  simp [Within]

theorem throughout_cons : Throughout P ((s, e) :: history) t ↔ P t ∧ Throughout P history s := by
  simp [Throughout]

theorem Reachable.initial (initial : S.Initial s) : S.Reachable s := ⟨[], .start initial⟩

theorem Reachable.next (before : S.Reachable s) (step : S.Step s e t) : S.Reachable t := by
  obtain ⟨history, path⟩ := before
  exact ⟨_, path.next step⟩

/-- What every initial state has, and every step meeting the condition keeps,
holds throughout every run whose steps meet it. -/
theorem Path.invariant (initial : ∀ s, S.Initial s → P s)
    (keeps : ∀ s e t, P s → ok s e → S.Step s e t → P t)
    (path : S.Path history s) (within : Within ok history) : Throughout P history s := by
  induction path with
  | start begun => exact ⟨initial _ begun, by simp⟩
  | next before step ih =>
    obtain ⟨met, earlier⟩ := within_cons.mp within
    have held := ih earlier
    exact throughout_cons.mpr ⟨keeps _ _ _ held.1 met step, held⟩

/-- What no step meeting the condition undoes, where the invariant holds, still
stands at the end of a run if it stood anywhere in it. -/
theorem Path.persists {Q : State → Prop} (keeps : ∀ s e t, P s → ok s e → S.Step s e t → Q s → Q t)
    (path : S.Path history s) (within : Within ok history) (held : Throughout P history s) :
    ∀ past ∈ history, Q past.1 → Q s := by
  induction path with
  | start => simp
  | @next history s t e before step ih =>
    obtain ⟨met, earlier⟩ := within_cons.mp within
    obtain ⟨-, heldBefore⟩ := throughout_cons.mp held
    rintro past member stood
    rcases List.mem_cons.mp member with rfl | member
    · exact keeps _ _ _ heldBefore.1 met step stood
    · exact keeps _ _ _ heldBefore.1 met step (ih earlier heldBefore past member stood)

/-- Every step of the run met the condition, which may speak of the state it led to. -/
def Along (ok : State → Event → State → Prop) : List (State × Event) → State → Prop
  | [], _ => True
  | (s, e) :: earlier, t => ok s e t ∧ Along ok earlier s

/-- Where what a step did can be told from where it was taken, the two conditions are
one. -/
theorem Path.along_iff_within (exact : ∀ s e t, S.Step s e t → (did s e t ↔ ok s e))
    (path : S.Path history s) :
    Along did history s ↔ Within ok history := by
  induction path with
  | start begun => simp [Along, Within]
  | next before step ih => rw [Along, within_cons, exact _ _ _ step, ih]

/-- The invariant rule for such conditions, from reachable states. -/
theorem Path.invariant_along {ok : State → Event → State → Prop} (initial : ∀ s, S.Initial s → P s)
    (keeps : ∀ s e t, S.Reachable s → P s → ok s e t → S.Step s e t → P t)
    (path : S.Path history s) (along : Along ok history s) : Throughout P history s := by
  induction path with
  | start begun => exact ⟨initial _ begun, by simp⟩
  | next before step ih =>
    have held := ih along.2
    exact throughout_cons.mpr ⟨keeps _ _ _ ⟨_, before⟩ held.1 along.1 step, held⟩

/-- Where a step keeps a property exactly if it meets a condition, the property holds
throughout a run exactly if all its steps meet the condition. -/
theorem Path.throughout_iff_along {ok : State → Event → State → Prop}
    (initial : ∀ s, S.Initial s → P s)
    (exact : ∀ s e t, S.Reachable s → P s → S.Step s e t → (P t ↔ ok s e t))
    (path : S.Path history s) : Throughout P history s ↔ Along ok history s := by
  induction path with
  | start begun => simp [Throughout, Along, initial _ begun]
  | next before step ih =>
    rw [throughout_cons, Along, ih]
    constructor
    · rintro ⟨held, along⟩
      exact ⟨(exact _ _ _ ⟨_, before⟩ (ih.mpr along).1 step).mp held, along⟩
    · rintro ⟨met, along⟩
      exact ⟨(exact _ _ _ ⟨_, before⟩ (ih.mpr along).1 step).mpr met, along⟩

/-- The same where the condition is about a step and the state it is taken in. -/
theorem Path.throughout_iff_within (initial : ∀ s, S.Initial s → P s)
    (exact : ∀ s e t, S.Reachable s → P s → S.Step s e t → (P t ↔ ok s e))
    (path : S.Path history s) : Throughout P history s ↔ Within ok history :=
  (path.throughout_iff_along initial exact).trans (path.along_iff_within fun _ _ _ _ => .rfl)

theorem Path.throughout_reachable (path : S.Path history s) : Throughout S.Reachable history s := by
  induction path with
  | start begun => exact ⟨.initial begun, by simp⟩
  | next before step ih => exact throughout_cons.mpr ⟨⟨_, before.next step⟩, ih⟩

/-- Every step of a run leads to a state of it. -/
theorem Path.step_of_mem (path : S.Path history s) :
    ∀ past ∈ history, ∃ t, S.Step past.1 past.2 t ∧ (t = s ∨ ∃ later ∈ history, later.1 = t) := by
  induction path with
  | start => simp
  | @next history s t e before step ih =>
    rintro past member
    rcases List.mem_cons.mp member with rfl | member
    · exact ⟨t, step, .inl rfl⟩
    · obtain ⟨u, step', rfl | ⟨later, member', same⟩⟩ := ih past member
      · exact ⟨u, step', .inr ⟨_, List.mem_cons_self .., rfl⟩⟩
      · exact ⟨u, step', .inr ⟨later, List.mem_cons_of_mem _ member', same⟩⟩

/-- An invariant that every step keeps from a reachable state. -/
theorem Reachable.invariant (initial : ∀ s, S.Initial s → P s)
    (keeps : ∀ s e t, S.Reachable s → P s → S.Step s e t → P t) (reached : S.Reachable s) : P s := by
  obtain ⟨history, path⟩ := reached
  induction path with
  | start begun => exact initial _ begun
  | next before step ih => exact keeps _ _ _ ⟨_, before⟩ ih step

/-- A run computed choice by choice: `take` has the event of each and the state after it. -/
def follow {Choice : Type} (take : State → Choice → Option (Event × State)) :
    List Choice → List (State × Event) → State → Option (List (State × Event) × State)
  | [], history, s => some (history, s)
  | choice :: rest, history, s =>
    match take s choice with
    | none => none
    | some (e, t) => follow take rest ((s, e) :: history) t

/-- What every computed step keeps, a computed run keeps. -/
theorem follow_keeps {Choice : Type} {choices : List Choice} {take : State → Choice → Option (Event × State)}
    {Q : List (State × Event) → State → Prop}
    (keeps : ∀ history s choice e t, Q history s → take s choice = some (e, t) →
      Q ((s, e) :: history) t) (start : Q history s)
    (took : follow take choices history s = some (history', s')) : Q history' s' := by
  induction choices generalizing history s with
  | nil =>
    cases took
    exact start
  | cons choice rest ih =>
    rw [follow] at took
    split at took
    · cases took
    · rename_i e t taken
      exact ih (keeps _ _ _ _ _ start taken) took

end System

/-! ## Threads over a shared world -/

/-- What a thread does next: it has returned, it moves on by itself, or it is
about to make a call and knows how it continues for each answer. -/
inductive View (Call : Type) (Ans : Call → Type) (Thread : Type) where
  | done
  | tau (next : Thread)
  | call (call : Call) (resume : Ans call → Thread)

/-- The same behaviour of a thread that is one kind among several. -/
def View.map {Call Thread Thread' : Type} {Ans : Call → Type} (f : Thread → Thread') :
    View Call Ans Thread → View Call Ans Thread'
  | .done => .done
  | .tau next => .tau (f next)
  | .call request resume => .call request fun answer => f (resume answer)

section Map

variable {Call Thread Thread' : Type} {Ans : Call → Type} {f : Thread → Thread'}
  {v : View Call Ans Thread}

theorem View.map_eq_call :
    v.map f = .call request resume ↔
      ∃ resume', v = .call request resume' ∧ resume = fun answer => f (resume' answer) := by
  constructor
  · intro same
    cases v <;> cases same
    exact ⟨_, rfl, rfl⟩
  · rintro ⟨resume', rfl, rfl⟩
    rfl

theorem View.map_eq_tau : v.map f = .tau next ↔ ∃ n, v = .tau n ∧ next = f n := by
  constructor
  · intro same
    cases v <;> cases same
    exact ⟨_, rfl, rfl⟩
  · rintro ⟨n, rfl, rfl⟩
    rfl

end Map

/-- A shared world and the threads running over it, each at its own place. -/
structure Config (World Thread : Type) where
  world : World
  threads : Nat → Option Thread

/-- What the moved thread and every other one have, all threads have. -/
theorem forall_update_of_ne {threads : Nat → Option Thread} {Q : Nat → Thread → Prop}
    {next : Thread} (mine : Q i next)
    (rest : ∀ j thread, j ≠ i → threads j = some thread → Q j thread) :
    ∀ j thread, Function.update threads i (some next) j = some thread → Q j thread := by
  intro j thread there
  by_cases same : j = i
  · subst same
    rw [Function.update_self, Option.some.injEq] at there
    exact there ▸ mine
  · exact rest j thread same (by rwa [Function.update_of_ne same] at there)

theorem forall_update {threads : Nat → Option Thread} {Q : Nat → Thread → Prop} {next : Thread}
    (mine : Q i next) (rest : ∀ j thread, threads j = some thread → Q j thread) :
    ∀ j thread, Function.update threads i (some next) j = some thread → Q j thread :=
  forall_update_of_ne mine fun j thread _ => rest j thread

/-- What happens to a pool: a thread begins, one takes its next step, the
surroundings change, or a thread dies where it stands. -/
inductive Event (Thread : Type) where
  | start (i : Nat) (thread : Thread)
  | step (i : Nat)
  | env
  | stop (i : Nat)

/-- The rules of a pool. `permits` leaves out answers a run is assumed never to
give, such as failures of a call. -/
structure Pool (World Call : Type) (Ans : Call → Type) (Thread : Type) where
  initial : World → Prop
  starts : World → Thread → Prop
  view : Thread → View Call Ans Thread
  exec : World → (call : Call) → Ans call → World → Prop
  permits : Thread → (call : Call) → Ans call → Prop
  env : World → World → Prop
  stops : Thread → Prop

namespace Pool

variable {World Call Thread : Type} {Ans : Call → Type}

/-- One event of a pool. A call acts on the world and answers its thread in the
same step, so calls of different threads never overlap. -/
inductive Step (P : Pool World Call Ans Thread) :
    Config World Thread → Event Thread → Config World Thread → Prop where
  | start {c : Config World Thread} {i : Nat} {thread : Thread} (free : c.threads i = none)
      (begins : P.starts c.world thread) :
      Step P c (.start i thread) ⟨c.world, Function.update c.threads i (some thread)⟩
  | tau {c : Config World Thread} {i : Nat} {thread next : Thread}
      (there : c.threads i = some thread) (moves : P.view thread = .tau next) :
      Step P c (.step i) ⟨c.world, Function.update c.threads i (some next)⟩
  | call {c : Config World Thread} {i : Nat} {thread : Thread} {w : World} {call : Call}
      {resume : Ans call → Thread} {answer : Ans call}
      (there : c.threads i = some thread) (calls : P.view thread = .call call resume)
      (permitted : P.permits thread call answer) (ran : P.exec c.world call answer w) :
      Step P c (.step i) ⟨w, Function.update c.threads i (some (resume answer))⟩
  | env {c : Config World Thread} {w : World} (changed : P.env c.world w) :
      Step P c .env ⟨w, c.threads⟩
  | stop {c : Config World Thread} {i : Nat} {thread : Thread}
      (there : c.threads i = some thread) (dies : P.stops thread) :
      Step P c (.stop i) ⟨c.world, Function.update c.threads i none⟩

/-- The runs of a pool start with no thread at all. -/
def system (P : Pool World Call Ans Thread) : System (Config World Thread) (Event Thread) where
  Initial c := P.initial c.world ∧ c.threads = fun _ => none
  Step := P.Step

/-- Thread `i` takes its next step, and its call is answered and carried out by `serve`. -/
def turn (P : Pool World Call Ans Thread) (serve : World → (call : Call) → Ans call × World)
    (c : Config World Thread) (i : Nat) : Option (Event Thread × Config World Thread) :=
  match c.threads i with
  | none => none
  | some thread =>
    match P.view thread with
    | .done => none
    | .tau next => some (.step i, ⟨c.world, Function.update c.threads i (some next)⟩)
    | .call call resume =>
      some (.step i, ⟨(serve c.world call).2,
        Function.update c.threads i (some (resume (serve c.world call).1))⟩)

theorem turn_threads {P : Pool World Call Ans Thread}
    {serve : World → (call : Call) → Ans call × World} (took : P.turn serve c i = some (e, c')) :
    ∃ next, c'.threads = Function.update c.threads i (some next) := by
  unfold turn at took
  split at took
  · cases took
  · split at took <;> cases took <;> exact ⟨_, rfl⟩

/-- The answers and what is carried out are the pool's. -/
def Serves (P : Pool World Call Ans Thread) (serve : World → (call : Call) → Ans call × World) :
    Prop :=
  ∀ thread w call, P.permits thread call (serve w call).1 ∧
    P.exec w call (serve w call).1 (serve w call).2

variable {P : Pool World Call Ans Thread} {serve : World → (call : Call) → Ans call × World}

theorem Serves.step (serves : P.Serves serve) (took : P.turn serve c i = some (e, c')) :
    P.Step c e c' := by
  unfold turn at took
  split at took
  · cases took
  · rename_i thread there
    split at took <;> cases took
    · rename_i moves
      exact .tau there moves
    · rename_i call resume calls
      obtain ⟨permitted, ran⟩ := serves thread c.world call
      exact .call there calls permitted ran

/-- The threads of the list take a step each, one after another. -/
theorem Serves.path (serves : P.Serves serve) (before : P.system.Path history c)
    (threads : List Nat)
    (took : System.follow (P.turn serve) threads history c = some (history', c')) :
    P.system.Path history' c' :=
  System.follow_keeps (Q := P.system.Path)
    (fun _ _ _ _ _ path taken => path.next (serves.step taken)) before took

/-- The thread was begun under this number in the run. -/
def Started (history : List (Config World Thread × Event Thread)) (i : Nat) (thread : Thread) :
    Prop :=
  ∃ before, (before, Event.start i thread) ∈ history

theorem started_cons :
    Started ((c, e) :: history) i thread ↔ e = .start i thread ∨ Started history i thread := by
  simp only [Started, List.mem_cons, Prod.mk.injEq, exists_or]
  constructor
  · rintro (⟨before, -, same⟩ | earlier)
    · exact .inl same.symm
    · exact .inr earlier
  · rintro (rfl | earlier)
    · exact .inl ⟨c, rfl, rfl⟩
    · exact .inr earlier

end Pool

end Transition
