import Mathlib.Data.Multiset.Bind
import AgentForge.Transition

/-! Threads without names over a shared world. A step takes one thread out of the soup,
lets it act, and puts back whatever it leaves: itself further on, nothing if it has
returned, or more threads if it started some. What the threads of a state hold
together is then a sum over the soup, and a step changes one term of it. -/
namespace Transition

/-- The rules of a soup: the threads that may come from outside, what one thread may do
in one atomic step, and what else may happen to the world. -/
structure Soup (World Thread : Type) where
  initial : World → Prop
  spawns : Thread → Prop
  acts : World → Thread → World → Multiset Thread → Prop
  env : World → World → Prop

namespace Soup

variable {World Thread : Type}

structure State (World Thread : Type) where
  world : World
  threads : Multiset Thread

inductive Event (Thread : Type) where
  | spawn (thread : Thread)
  | act (thread : Thread)
  | env

inductive Step (S : Soup World Thread) :
    State World Thread → Event Thread → State World Thread → Prop where
  | spawn {s : State World Thread} {thread : Thread} (allowed : S.spawns thread) :
      Step S s (.spawn thread) ⟨s.world, thread ::ₘ s.threads⟩
  | act {w w' : World} {thread : Thread} {left rest : Multiset Thread}
      (acts : S.acts w thread w' left) :
      Step S ⟨w, thread ::ₘ rest⟩ (.act thread) ⟨w', left + rest⟩
  | env {s : State World Thread} {w : World} (changed : S.env s.world w) :
      Step S s .env ⟨w, s.threads⟩

/-- A step is the same beside further threads. -/
theorem Step.frame {S : Soup World Thread} {s t : State World Thread} (step : S.Step s e t)
    (more : Multiset Thread) :
    S.Step ⟨s.world, more + s.threads⟩ e ⟨t.world, more + t.threads⟩ := by
  cases step with
  | spawn allowed =>
    rw [Multiset.add_cons]
    exact .spawn allowed
  | act acts =>
    rw [Multiset.add_cons, add_left_comm]
    exact .act acts
  | env changed => exact .env changed

/-- The runs of a soup start with no thread at all. -/
def system (S : Soup World Thread) : System (State World Thread) (Event Thread) where
  Initial s := S.initial s.world ∧ s.threads = 0
  Step := S.Step

variable {S : Soup World Thread} {J : World → Multiset Thread → Prop} {s : State World Thread}

/-- The invariant rule of a soup. -/
theorem invariant (initial : ∀ w, S.initial w → J w 0)
    (spawn : ∀ w threads thread, J w threads → S.spawns thread → J w (thread ::ₘ threads))
    (act : ∀ w w' thread left rest, J w (thread ::ₘ rest) → S.acts w thread w' left →
      J w' (left + rest)) (env : ∀ w w' threads, J w threads → S.env w w' → J w' threads)
    (reached : S.system.Reachable s) : J s.world s.threads := by
  refine reached.invariant (P := fun s => J s.world s.threads) ?_ ?_
  · rintro s ⟨begun, none⟩
    rw [none]
    exact initial _ begun
  · rintro s e t - held step
    cases step with
    | spawn allowed => exact spawn _ _ _ held allowed
    | act acts => exact act _ _ _ _ _ held acts
    | env changed => exact env _ _ _ held changed

/-! ## Runs within a condition -/

variable {ok : State World Thread → Event Thread → Prop} {w w' : World} {rest : Multiset Thread}
  {thread : Thread}

/-- Some run ends here in which every step met the condition. -/
def ReachedWithin (S : Soup World Thread) (ok : State World Thread → Event Thread → Prop)
    (s : State World Thread) : Prop :=
  ∃ history, S.system.Path history s ∧ System.Within ok history

theorem ReachedWithin.start (begun : S.initial w) : S.ReachedWithin ok ⟨w, 0⟩ :=
  ⟨[], .start ⟨begun, rfl⟩, by simp [System.Within]⟩

theorem ReachedWithin.spawn (before : S.ReachedWithin ok ⟨w, threads⟩) (allowed : S.spawns thread)
    (met : ok ⟨w, threads⟩ (.spawn thread)) : S.ReachedWithin ok ⟨w, thread ::ₘ threads⟩ := by
  obtain ⟨history, path, within⟩ := before
  exact ⟨_, path.next (.spawn allowed), System.within_cons.mpr ⟨met, within⟩⟩

theorem ReachedWithin.act (before : S.ReachedWithin ok ⟨w, thread ::ₘ rest⟩)
    (acts : S.acts w thread w' left) (met : ok ⟨w, thread ::ₘ rest⟩ (.act thread)) :
    S.ReachedWithin ok ⟨w', left + rest⟩ := by
  obtain ⟨history, path, within⟩ := before
  exact ⟨_, path.next (.act acts), System.within_cons.mpr ⟨met, within⟩⟩

/-- A step after which the thread goes on as another. -/
theorem ReachedWithin.turns (before : S.ReachedWithin ok ⟨w, thread ::ₘ rest⟩) (next : Thread)
    (acts : S.acts w thread w' {next}) (met : ok ⟨w, thread ::ₘ rest⟩ (.act thread)) :
    S.ReachedWithin ok ⟨w', next ::ₘ rest⟩ :=
  before.act acts met

theorem ReachedWithin.swap (before : S.ReachedWithin ok ⟨w, first ::ₘ second ::ₘ rest⟩) :
    S.ReachedWithin ok ⟨w, second ::ₘ first ::ₘ rest⟩ :=
  Multiset.cons_swap second first rest ▸ before

theorem ReachedWithin.env (before : S.ReachedWithin ok ⟨w, threads⟩) (changed : S.env w w')
    (met : ok ⟨w, threads⟩ .env) : S.ReachedWithin ok ⟨w', threads⟩ := by
  obtain ⟨history, path, within⟩ := before
  exact ⟨_, path.next (.env changed), System.within_cons.mpr ⟨met, within⟩⟩

theorem ReachedWithin.reachable (before : S.ReachedWithin ok s) : S.system.Reachable s := by
  obtain ⟨history, path, -⟩ := before
  exact ⟨history, path⟩

/-! ## One thread among others -/

section Tracked

variable {E : Type} {others : World → World → Prop} {see : Thread → Thread → List E}
  {thread' : Thread} {seen : List E}

/-- A run followed along one thread, which goes on as one thread: what is seen of its own
steps, with whatever the others do to the world in between. -/
inductive Tracked (S : Soup World Thread) (others : World → World → Prop)
    (see : Thread → Thread → List E) : World → Thread → List E → World → Thread → Prop where
  | here (w : World) (thread : Thread) : Tracked S others see w thread [] w thread
  | act {w w' w'' : World} {thread next thread' : Thread} {seen : List E}
      (acts : S.acts w thread w' {next})
      (rest : Tracked S others see w' next seen w'' thread') :
      Tracked S others see w thread (see thread next ++ seen) w'' thread'
  | other {w w' w'' : World} {thread thread' : Thread} {seen : List E} (changed : others w w')
      (rest : Tracked S others see w' thread seen w'' thread') :
      Tracked S others see w thread seen w'' thread'

section Tracking

variable (tracked : Tracked S others see w thread seen w' thread')

include tracked

/-- The invariant rule for one thread, which may speak of what was seen so far. -/
theorem Tracked.invariant {I : List E → World → Thread → Prop} (start : I [] w thread)
    (act : ∀ seen w thread w' next, I seen w thread → S.acts w thread w' {next} →
      I (seen ++ see thread next) w' next)
    (other : ∀ seen w w' thread, I seen w thread → others w w' → I seen w' thread) :
    I seen w' thread' := by
  have later : ∀ before, I before w thread → I (before ++ seen) w' thread' := by
    clear start
    induction tracked with
    | here => exact fun before start => by rwa [List.append_nil]
    | act acts _ ih =>
      intro before start
      rw [← List.append_assoc]
      exact ih _ (act _ _ _ _ _ start acts)
    | other changed _ ih => exact fun before start => ih before (other _ _ _ _ start changed)
  exact later [] start

theorem Tracked.trans (further : Tracked S others see w' thread' later w₁ thread₁) :
    Tracked S others see w thread (seen ++ later) w₁ thread₁ := by
  induction tracked with
  | here => exact further
  | act acts _ ih =>
    rw [List.append_assoc]
    exact .act acts (ih further)
  | other changed _ ih => exact .other changed (ih further)

/-- A step of the thread after what was seen. -/
theorem Tracked.turns (next : Thread) (acts : S.acts w' thread' w₁ {next}) :
    Tracked S others see w thread (seen ++ see thread' next) w₁ next := by
  have further := tracked.trans (.act acts (.here ..))
  rwa [List.append_nil] at further

end Tracking

end Tracked

end Soup

/-- A step of a run after which the thread goes on as another. -/
theorem System.Path.turns {S : Soup World Thread} {w w' : World} {thread : Thread}
    {rest : Multiset Thread} {history : List (Soup.State World Thread × Soup.Event Thread)}
    (path : S.system.Path history ⟨w, thread ::ₘ rest⟩) (next : Thread)
    (acts : S.acts w thread w' {next}) :
    S.system.Path ((⟨w, thread ::ₘ rest⟩, .act thread) :: history) ⟨w', next ::ₘ rest⟩ :=
  path.next (.act acts)

end Transition
