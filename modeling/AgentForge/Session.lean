import AgentForge.Program
import AgentForge.Transition

/-! A logic for programs that make calls, and sessions in which such programs run one
after another over a world.

A `Discipline` keeps a ghost state along the calls of a program and says which call
is allowed in which ghost state. That a program follows it is a property of the
program alone, for every answer it may be given. In a session a program may be
dropped at any point for another one, and the rule `Session.invariant` turns the
discipline of the programs into an invariant of the world. -/

/-- How a ghost state follows the calls and their answers, and which calls it allows. -/
structure Discipline (Call : Type) (Ans : Call → Type) (G : Type) where
  moves : G → (request : Call) → Ans request → G
  allows : G → Call → Prop

namespace Discipline

variable {Call : Type} {Ans : Call → Type} {G α β : Type} (d : Discipline Call Ans G)

/-- Whatever it is answered, the program makes allowed calls only, and what it returns
meets the postcondition. -/
def Ensures (post : G → α → Prop) : Prog Call Ans α → G → Prop
  | .ret value, g => post g value
  | .call request resume, g =>
    d.allows g request ∧ ∀ answer, Ensures post (resume answer) (d.moves g request answer)

/-- The program leaves the ghost state as it was. -/
structure Quiet (p : Prog Call Ans α) : Prop where
  keeps : ∀ g, d.Ensures (fun g' _ => g' = g) p g

variable {d} {g : G}

theorem Ensures.bind (first : d.Ensures mid p g)
    (rest : ∀ g a, mid g a → d.Ensures post (next a) g) : d.Ensures post (p >>= next) g := by
  induction p generalizing g with
  | ret value => exact rest g value first
  | call request resume ih => exact ⟨first.1, fun answer => ih answer (first.2 answer)⟩

theorem Ensures.mono (ensures : d.Ensures mid p g) (weaker : ∀ g a, mid g a → post g a) :
    d.Ensures post p g := by
  induction p generalizing g with
  | ret value => exact weaker g value ensures
  | call request resume ih => exact ⟨ensures.1, fun answer => ih answer (ensures.2 answer)⟩

theorem Ensures.and_returns (ensures : d.Ensures mid p g) (returns : p.Returns returned) :
    d.Ensures (fun g a => mid g a ∧ returned a) p g := by
  induction p generalizing g with
  | ret value => exact ⟨ensures, returns⟩
  | call request resume ih =>
    exact ⟨ensures.1, fun answer => ih answer (ensures.2 answer) (returns answer)⟩

/-- A quiet program first changes nothing for the rest. -/
theorem Quiet.then (quiet : d.Quiet p) (rest : ∀ a, d.Ensures post (next a) g) :
    d.Ensures post (p >>= next) g :=
  (quiet.keeps g).bind fun _ a same => same ▸ rest a

theorem Quiet.ret (value : α) : d.Quiet (pure value) := ⟨fun _ => rfl⟩

/-- A single call that the ghost state takes no notice of. -/
theorem Quiet.call (allowed : ∀ g, d.allows g request)
    (still : ∀ g answer, d.moves g request answer = g) : d.Quiet (.call request .ret) :=
  ⟨fun g => ⟨allowed g, fun answer => still g answer⟩⟩

theorem Quiet.bind (first : d.Quiet p) (rest : ∀ a, d.Quiet (next a)) : d.Quiet (p >>= next) :=
  ⟨fun g => first.then fun a => (rest a).keeps g⟩

/-- The discipline takes no notice of a call. -/
structure Ignores (d : Discipline Call Ans G) (request : Call) : Prop where
  allowed : ∀ g, d.allows g request
  still : ∀ g answer, d.moves g request answer = g

theorem Ignores.quiet (ignored : d.Ignores request) : d.Quiet (.call request .ret) :=
  .call ignored.allowed ignored.still

/-- A program is quiet that makes ignored calls only. -/
theorem quiet_of_uses (uses : p.Uses allowed)
    (ignored : ∀ request, allowed request → d.Ignores request) : d.Quiet p := by
  induction p with
  | ret value => exact .ret value
  | call request resume ih =>
    exact .bind (ignored request uses.1).quiet fun answer => ih answer (uses.2 answer)

/-- The discipline that allows some calls and remembers nothing. -/
def only (allowed : Call → Prop) : Discipline Call Ans Unit where
  moves _ _ _ := ()
  allows _ := allowed

theorem only_ignores (permitted : allowed request) :
    (only allowed : Discipline Call Ans Unit).Ignores request :=
  ⟨fun _ => permitted, fun _ _ => rfl⟩

theorem Ensures.uses (ensures : (only allowed).Ensures post p ()) : p.Uses allowed := by
  induction p with
  | ret value => trivial
  | call request resume ih => exact ⟨ensures.1, fun answer => ih answer (ensures.2 answer)⟩

/-- The ghost state after these calls and answers. -/
def after (d : Discipline Call Ans G) (g : G) (exchanges : List (Prog.Exchange Call Ans)) : G :=
  exchanges.foldl (fun g exchange => d.moves g exchange.1 exchange.2) g

/-- What is left of a program that follows the discipline follows it. -/
theorem Ensures.trace (ensures : d.Ensures mid p g) (trace : p.Trace exchanges q) :
    d.Ensures mid q (d.after g exchanges) := by
  induction trace generalizing g with
  | here p => exact ensures
  | step answer _ ih => exact ih (ensures.2 answer)

/-- A call a program made was allowed where it was made. -/
theorem Ensures.allows (ensures : d.Ensures mid p g)
    (trace : p.Trace (before ++ ⟨request, answer⟩ :: rest) q) :
    d.allows (d.after g before) request := by
  obtain ⟨r, first, second⟩ := trace.split
  cases second with
  | step _ _ => exact (ensures.trace first).1

/-- What every allowed call keeps, as far as it meets a condition, holds along the way. -/
theorem Ensures.invariant {J : G → Prop} {Q : G → Call → Prop} (ensures : d.Ensures mid p g)
    (trace : p.Trace exchanges q) (start : J g)
    (keeps : ∀ g request answer, J g → d.allows g request → Q g request →
      J (d.moves g request answer))
    (met : ∀ before request answer rest, exchanges = before ++ ⟨request, answer⟩ :: rest →
      Q (d.after g before) request) : J (d.after g exchanges) := by
  induction trace generalizing g with
  | here p => exact start
  | @step request resume answer exchanges _ _ ih =>
    refine ih (ensures.2 answer) (keeps g request answer start ensures.1 (met [] _ _ _ rfl)) ?_
    rintro before request' answer' rest rfl
    exact met (⟨request, answer⟩ :: before) request' answer' rest rfl

end Discipline

/-! ## A program in a world that others change too -/

section Plays

variable {World Call α G : Type} {Ans : Call → Type}

/-- From the first world and program to the second, with these calls: each is carried out in
the world there is, and between them others change it. -/
inductive Plays (carries : World → (request : Call) → Ans request → World → Prop)
    (others : World → World → Prop) : World → Prog Call Ans α →
      List (Prog.Exchange Call Ans) → World → Prog Call Ans α → Prop where
  | here (w : World) (p : Prog Call Ans α) : Plays carries others w p [] w p
  | call {w w' w'' : World} {request : Call} {resume : Ans request → Prog Call Ans α}
      {answer : Ans request} {exchanges : List (Prog.Exchange Call Ans)} {q : Prog Call Ans α}
      (ran : carries w request answer w')
      (rest : Plays carries others w' (resume answer) exchanges w'' q) :
      Plays carries others w (.call request resume) (⟨request, answer⟩ :: exchanges) w'' q
  | other {w w' w'' : World} {p : Prog Call Ans α} {exchanges : List (Prog.Exchange Call Ans)}
      {q : Prog Call Ans α} (changed : others w w') (rest : Plays carries others w' p exchanges w'' q) :
      Plays carries others w p exchanges w'' q

variable {w : World}

theorem Plays.trace (plays : Plays carries others w p exchanges w' q) : p.Trace exchanges q := by
  induction plays with
  | here w p => exact .here p
  | call ran _ ih => exact .step _ ih
  | other _ _ ih => exact ih

/-- A note kept along the calls that is tied to the world stays tied to it. -/
theorem Plays.noted {R : G → World → Prop} {P : Prog.Exchange Call Ans → Prop}
    (plays : Plays carries others w p exchanges w' q) (start : R g w)
    (kept : ∀ exchange ∈ exchanges, P exchange)
    (called : ∀ g w request answer w', R g w → P ⟨request, answer⟩ →
      carries w request answer w' → R (m g ⟨request, answer⟩) w')
    (other : ∀ g w w', R g w → others w w' → R g w') : R (exchanges.foldl m g) w' := by
  induction plays generalizing g with
  | here w p => exact start
  | call ran _ ih =>
    obtain ⟨first, rest⟩ := List.forall_mem_cons.mp kept
    exact ih (called _ _ _ _ _ start first ran) rest
  | other changed _ ih => exact ih (other _ _ _ start changed) kept

/-- What is true of every call and answer may be asked of them as they are carried out. -/
theorem Plays.restrict {P : (request : Call) → Ans request → Prop}
    (plays : Plays carries others w p exchanges w' q) (all : ∀ x ∈ exchanges, P x.1 x.2) :
    Plays (fun w request answer w' => carries w request answer w' ∧ P request answer) others
      w p exchanges w' q := by
  induction plays with
  | here w p => exact .here w p
  | call ran _ ih =>
    obtain ⟨first, rest⟩ := List.forall_mem_cons.mp all
    exact .call ⟨ran, first⟩ (ih rest)
  | other changed _ ih => exact .other changed (ih all)

/-- The calls of a program answered by a world that always has an answer. -/
def Prog.serve (answer : World → (request : Call) → Ans request × World) :
    World → Prog Call Ans α → List (Prog.Exchange Call Ans) × World × α
  | w, .ret value => ([], w, value)
  | w, .call request resume =>
    let first := answer w request
    let rest := Prog.serve answer first.2 (resume first.1)
    (⟨request, first.1⟩ :: rest.1, rest.2)

theorem plays_serve
    (carried : ∀ w request, carries w request (answer w request).1 (answer w request).2) (w : World)
    (p : Prog Call Ans α) :
    Plays carries others w p (p.serve answer w).1 (p.serve answer w).2.1
      (.ret (p.serve answer w).2.2) := by
  induction p generalizing w with
  | ret value => exact .here _ _
  | call request resume ih => exact .call (carried w request) (ih _ _)

end Plays

open Transition

/-- The rules of a session: which programs may begin, what a call does when it is
carried out, which answers say that it was not, and what else may happen to the
world. -/
structure Session (World Call : Type) (Ans : Call → Type) (α : Type) where
  initial : World → Prop
  begins : Prog Call Ans α → Prop
  carries : World → (request : Call) → Ans request → World → Prop
  fails : (request : Call) → Ans request → Prop
  env : World → World → Prop

namespace Session

variable {World Call α G : Type} {Ans : Call → Type}

/-- The world and what is left of the program that is running. -/
structure State (World Call : Type) (Ans : Call → Type) (α : Type) where
  world : World
  current : Option (Prog Call Ans α)

/-- A program begins, dropping the one before it; a call of the running program is
carried out or fails; something else happens. -/
inductive Event where
  | begin | carried | failed | env

inductive Step (S : Session World Call Ans α) :
    State World Call Ans α → Event → State World Call Ans α → Prop where
  | begin {s : State World Call Ans α} {p : Prog Call Ans α} (allowed : S.begins p) :
      Step S s .begin ⟨s.world, some p⟩
  | carried {s : State World Call Ans α} {request : Call} {resume : Ans request → Prog Call Ans α}
      {answer : Ans request} {w : World} (there : s.current = some (.call request resume))
      (ran : S.carries s.world request answer w) : Step S s .carried ⟨w, some (resume answer)⟩
  | failed {s : State World Call Ans α} {request : Call} {resume : Ans request → Prog Call Ans α}
      {answer : Ans request} (there : s.current = some (.call request resume))
      (failed : S.fails request answer) : Step S s .failed ⟨s.world, some (resume answer)⟩
  | env {s : State World Call Ans α} {w : World} (changed : S.env s.world w) :
      Step S s .env ⟨w, s.current⟩

def system (S : Session World Call Ans α) : System (State World Call Ans α) Event where
  Initial s := S.initial s.world ∧ s.current = none
  Step := S.Step

variable {S : Session World Call Ans α} {d : Discipline Call Ans G} {J : World → Prop}
  {R : G → World → Prop} {ok : State World Call Ans α → Event → Prop}
  {history : List (State World Call Ans α × Event)} {s : State World Call Ans α}

/-- The invariant rule. `J` is kept by the calls the discipline allows, `R` ties
the ghost state to the world, and every program that may begin follows the discipline from a
ghost state tied to the world it begins in. What is left of the running program then follows
it from a ghost state tied to the world there is. -/
theorem invariant (initial : ∀ w, S.initial w → J w)
    (begins : ∀ s p, S.begins p → ok s .begin → J s.world →
      ∃ g, R g s.world ∧ d.Ensures (fun _ _ => True) p g)
    (carried : ∀ s request resume answer w g, s.current = some (.call request resume) →
      ok s .carried → J s.world → R g s.world → d.allows g request →
      S.carries s.world request answer w → J w ∧ R (d.moves g request answer) w)
    (failed : ∀ w request answer g, R g w → d.allows g request → S.fails request answer →
      R (d.moves g request answer) w) (env : ∀ w w', S.env w w' → J w → J w' ∧ ∀ g, R g w → R g w')
    (path : S.system.Path history s) (within : System.Within ok history) :
    System.Throughout (fun s => J s.world ∧ ∀ p, s.current = some p →
      ∃ g, R g s.world ∧ d.Ensures (fun _ _ => True) p g) history s := by
  refine path.invariant ?_ ?_ within
  · rintro s ⟨start, idle⟩
    exact ⟨initial _ start, fun p running => by rw [idle] at running; cases running⟩
  · rintro s e t ⟨held, tied⟩ met step
    cases step with
    | @begin p allowed =>
      refine ⟨held, fun p' running => ?_⟩
      obtain rfl := Option.some.inj running
      exact begins s _ allowed met held
    | @carried request resume answer w there ran =>
      obtain ⟨g, related, allowed, follows⟩ := tied _ there
      obtain ⟨held', related'⟩ := carried s _ _ _ _ g there met held related allowed ran
      refine ⟨held', fun p' running => ?_⟩
      obtain rfl := Option.some.inj running
      exact ⟨_, related', follows answer⟩
    | @failed request resume answer there failure =>
      obtain ⟨g, related, allowed, follows⟩ := tied _ there
      refine ⟨held, fun p' running => ?_⟩
      obtain rfl := Option.some.inj running
      exact ⟨_, failed _ _ _ g related allowed failure, follows answer⟩
    | env changed =>
      obtain ⟨held', keeps⟩ := env _ _ changed held
      refine ⟨held', fun p running => ?_⟩
      obtain ⟨g, related, follows⟩ := tied p running
      exact ⟨g, keeps g related, follows⟩

/-- The running program makes its next call, answered and carried out by `serve`. -/
def advance (serve : World → (call : Call) → Ans call × World) (s : State World Call Ans α) (_ : Unit) :
    Option (Event × State World Call Ans α) :=
  match s.current with
  | some (.call request resume) =>
    some (.carried, ⟨(serve s.world request).2, some (resume (serve s.world request).1)⟩)
  | _ => none

theorem path_advance {serve : World → (call : Call) → Ans call × World}
    (serves : ∀ w call, S.carries w call (serve w call).1 (serve w call).2)
    (before : S.system.Path history s) (calls : Nat)
    (took : System.follow (advance serve) (List.replicate calls ()) history s =
      some (history', s')) : S.system.Path history' s' := by
  refine System.follow_keeps (Q := S.system.Path) ?_ before took
  intro history s _ e t path taken
  unfold advance at taken
  split at taken <;> cases taken
  rename_i there
  exact path.next (.carried there (serves _ _))

/-- A program of a session may play on. -/
theorem path_of_plays (path : S.system.Path history ⟨w, some p⟩)
    (plays : Plays S.carries S.env w p exchanges w' q) :
    ∃ later, S.system.Path (later ++ history) ⟨w', some q⟩ ∧
      ∀ past ∈ later, past.2 ≠ .begin := by
  induction plays generalizing history with
  | here w p => exact ⟨[], path, by simp⟩
  | @call w _ _ request resume answer _ _ ran _ ih =>
    obtain ⟨later, reached, quiet⟩ := ih (path.next (.carried rfl ran))
    exact ⟨later ++ [(⟨w, some (.call request resume)⟩, .carried)], by simpa using reached,
      List.forall_mem_append.mpr ⟨quiet, by simp⟩⟩
  | @other w _ _ p _ _ changed _ ih =>
    obtain ⟨later, reached, quiet⟩ := ih (path.next (.env changed))
    exact ⟨later ++ [(⟨w, some p⟩, .env)], by simpa using reached,
      List.forall_mem_append.mpr ⟨quiet, by simp⟩⟩

end Session
