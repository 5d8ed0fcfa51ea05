import Mathlib.Logic.Basic

/-! Programs that make calls and are told their answers. A program is the tree
of everything it may do: what it returns, or the call it makes with the rest of
the program for each answer. Sequential code in `do` notation builds such
trees; running one against a world, stopping it half way, or letting other
programs run in between are then all statements about the same value.

`Uses` bounds the calls a program can make whatever it is told; a `Trace` is one way it
went, with the answers it was given. -/

/-- A program over calls `Call`, answered in `Ans`, returning an `α`. -/
inductive Prog (Call : Type) (Ans : Call → Type) (α : Type) where
  | ret (value : α)
  | call (request : Call) (resume : Ans request → Prog Call Ans α)

namespace Prog

variable {Call : Type} {Ans : Call → Type} {α β : Type}

def bind (p : Prog Call Ans α) (next : α → Prog Call Ans β) : Prog Call Ans β :=
  match p with
  | .ret value => next value
  | .call request resume => .call request fun answer => (resume answer).bind next

instance : Monad (Prog Call Ans) where
  pure := .ret
  bind := bind

variable {p q : Prog Call Ans α} {next : α → Prog Call Ans β}

/-! ## The calls a program can make -/

/-- Every call the program makes, whatever it is answered, is among those allowed. -/
def Uses (allowed : Call → Prop) : Prog Call Ans α → Prop
  | .ret _ => True
  | .call request resume => allowed request ∧ ∀ answer, (resume answer).Uses allowed

variable {allowed : Call → Prop}

theorem Uses.ret (value : α) : (pure value : Prog Call Ans α).Uses allowed := trivial

theorem Uses.call (permitted : allowed request) :
    (Prog.call request .ret : Prog Call Ans (Ans request)).Uses allowed :=
  ⟨permitted, fun _ => trivial⟩

theorem Uses.bind (first : p.Uses allowed) (rest : ∀ value, (next value).Uses allowed) :
    (p >>= next).Uses allowed := by
  induction p with
  | ret value => exact rest value
  | call request resume ih => exact ⟨first.1, fun answer => ih answer (first.2 answer)⟩

theorem Uses.mono (uses : p.Uses allowed) (weaker : ∀ request, allowed request → allowed' request) :
    p.Uses allowed' := by
  induction p with
  | ret value => trivial
  | call request resume ih => exact ⟨weaker _ uses.1, fun answer => ih answer (uses.2 answer)⟩

/-- Whatever it is answered, what the program returns meets the postcondition. -/
def Returns (post : α → Prop) : Prog Call Ans α → Prop
  | .ret value => post value
  | .call _ resume => ∀ answer, (resume answer).Returns post

theorem Returns.trivial (p : Prog Call Ans α) : p.Returns fun _ => True := by
  induction p with
  | ret value => exact True.intro
  | call request resume ih => exact ih

theorem Returns.bind (first : p.Returns mid)
    (rest : ∀ value, mid value → (next value).Returns post) : (p >>= next).Returns post := by
  induction p with
  | ret value => exact rest value first
  | call request resume ih => exact fun answer => ih answer (first answer)

/-! ## The way a program went -/

/-- A call with the answer it was given. -/
abbrev Exchange (Call : Type) (Ans : Call → Type) := (request : Call) × Ans request

/-- Given these answers the program made these calls, and the second one is left of it. -/
inductive Trace : Prog Call Ans α → List (Exchange Call Ans) → Prog Call Ans α → Prop where
  | here (p : Prog Call Ans α) : Trace p [] p
  | step {request : Call} {resume : Ans request → Prog Call Ans α} (answer : Ans request)
      {exchanges : List (Exchange Call Ans)} {q : Prog Call Ans α}
      (rest : Trace (resume answer) exchanges q) :
      Trace (.call request resume) (⟨request, answer⟩ :: exchanges) q

variable {before after exchanges : List (Exchange Call Ans)}

theorem Trace.append (first : p.Trace before q) (rest : q.Trace after r) :
    p.Trace (before ++ after) r := by
  induction first with
  | here p => exact rest
  | step answer _ ih => exact .step answer (ih rest)

theorem Trace.single (request : Call) (resume : Ans request → Prog Call Ans α)
    (answer : Ans request) : (Prog.call request resume).Trace [⟨request, answer⟩] (resume answer) :=
  .step answer (.here _)

/-- The calls and answers so far determine what is left. -/
theorem Trace.rest (whole : p.Trace (before ++ after) r) (first : p.Trace before q) :
    q.Trace after r := by
  induction first with
  | here p => exact whole
  | step answer _ ih =>
    cases whole with
    | step _ rest => exact ih rest

theorem Trace.split (whole : p.Trace (before ++ after) r) :
    ∃ q, p.Trace before q ∧ q.Trace after r := by
  induction before generalizing p with
  | nil => exact ⟨p, .here p, whole⟩
  | cons first before ih =>
    cases whole with
    | step answer rest =>
      obtain ⟨q, left, right⟩ := ih rest
      exact ⟨q, .step answer left, right⟩

theorem Trace.bind {rest : Prog Call Ans β} (first : p.Trace before (.ret value))
    (second : (next value).Trace after rest) : (p >>= next).Trace (before ++ after) rest := by
  generalize same : (.ret value : Prog Call Ans α) = q at first
  induction first with
  | here p =>
    subst same
    exact second
  | step answer _ ih => exact .step answer (ih same)

/-- A sequence is still in its first part, or has come to its second. -/
theorem Trace.of_bind {rest : Prog Call Ans β} (whole : (p >>= next).Trace exchanges rest) :
    (∃ q, p.Trace exchanges q) ∨ ∃ before value after, exchanges = before ++ after ∧
      p.Trace before (.ret value) ∧ (next value).Trace after rest := by
  induction p generalizing exchanges with
  | ret value => exact .inr ⟨[], value, exchanges, rfl, .here _, whole⟩
  | call request resume ih =>
    generalize same : (Prog.call request resume >>= next) = whole' at whole
    cases whole with
    | here _ => exact .inl ⟨_, .here _⟩
    | @step request' resume' answer exchanges' _ tail =>
      cases same
      rcases ih answer tail with ⟨q, first⟩ | ⟨before, value, after, rfl, first, second⟩
      · exact .inl ⟨q, .step answer first⟩
      · exact .inr ⟨_ :: before, value, after, rfl, .step answer first, second⟩

/-- A sequence that returned was done with its first part. -/
theorem Trace.of_bind_ret (whole : (p >>= next).Trace exchanges (.ret result)) :
    ∃ before value after, exchanges = before ++ after ∧ p.Trace before (.ret value) ∧
      (next value).Trace after (.ret result) := by
  induction p generalizing exchanges with
  | ret value => exact ⟨[], value, exchanges, rfl, .here _, whole⟩
  | call request resume ih =>
    generalize same : (Prog.call request resume >>= next) = whole' at whole
    cases whole with
    | here _ => cases same
    | @step request' resume' answer exchanges' _ tail =>
      cases same
      obtain ⟨before, value, after, rfl, first, second⟩ := ih answer tail
      exact ⟨_ :: before, value, after, rfl, .step answer first, second⟩

theorem Trace.bind_left (first : p.Trace exchanges q) :
    (p >>= next).Trace exchanges (q >>= next) := by
  induction first with
  | here p => exact .here _
  | step answer _ ih => exact .step answer ih

/-- A trace cut off behind one of its calls. -/
theorem Trace.upto (trace : p.Trace exchanges q) (found : exchanges[i]? = some exchange) :
    ∃ before r, before.length = i ∧ p.Trace (before ++ [exchange]) r := by
  obtain ⟨inside, rfl⟩ := List.getElem?_eq_some_iff.mp found
  have cut : exchanges = exchanges.take i ++ [exchanges[i]] ++ exchanges.drop (i + 1) := by
    rw [List.take_append_getElem, List.take_append_drop]
  rw [cut] at trace
  obtain ⟨r, first, -⟩ := trace.split
  exact ⟨_, r, List.length_take_of_le (Nat.le_of_lt inside), first⟩

/-- The run of a program whose calls are answered as chosen: every program returns. -/
def run (choose : (request : Call) → Ans request) : Prog Call Ans α → List (Exchange Call Ans) × α
  | .ret value => ([], value)
  | .call request resume =>
    let rest := (resume (choose request)).run choose
    (⟨request, choose request⟩ :: rest.1, rest.2)

theorem run_trace (choose : (request : Call) → Ans request) (p : Prog Call Ans α) :
    p.Trace (p.run choose).1 (.ret (p.run choose).2) := by
  induction p with
  | ret value => exact .here _
  | call request resume ih => exact .step (choose request) (ih (choose request))

theorem run_chosen (choose : (request : Call) → Ans request) (p : Prog Call Ans α) :
    ∀ exchange ∈ (p.run choose).1, exchange.2 = choose exchange.1 := by
  induction p with
  | ret value => simp [run]
  | call request resume ih => exact List.forall_mem_cons.mpr ⟨rfl, ih (choose request)⟩

theorem Uses.trace (uses : p.Uses allowed) (trace : p.Trace exchanges q) :
    ∀ exchange ∈ exchanges, allowed exchange.1 := by
  induction trace with
  | here p => simp
  | step answer _ ih => exact List.forall_mem_cons.mpr ⟨uses.1, ih (uses.2 answer)⟩

theorem Uses.rest (uses : p.Uses allowed) (trace : p.Trace exchanges q) : q.Uses allowed := by
  induction trace with
  | here p => exact uses
  | step answer _ ih => exact ih (uses.2 answer)

theorem Returns.trace (returns : p.Returns post) (trace : p.Trace exchanges (.ret value)) :
    post value := by
  generalize same : (.ret value : Prog Call Ans α) = q at trace
  induction trace with
  | here p =>
    subst same
    exact returns
  | step answer _ ih => exact ih (returns answer) same

/-! ## What a run that returned shows

Of each call with its answer something is seen, or nothing. `Shows` says what is seen of a
run of the program from beginning to end, together with what it returned. -/

section Shows

variable {E : Type} {see : Exchange Call Ans → List E} {mid spec : List E → α → Prop}
  {post : List E → β → Prop}

def Shows (see : Exchange Call Ans → List E) (spec : List E → α → Prop)
    (p : Prog Call Ans α) : Prop :=
  ∀ exchanges value, p.Trace exchanges (.ret value) → spec (exchanges.flatMap see) value

theorem Shows.ret (holds : spec [] value) : (pure value : Prog Call Ans α).Shows see spec := by
  intro exchanges value' trace
  cases trace
  exact holds

theorem Shows.bind (first : p.Shows see mid) (rest : ∀ seen value, mid seen value →
      (next value).Shows see fun later result => post (seen ++ later) result) :
    (p >>= next).Shows see post := by
  intro exchanges result trace
  obtain ⟨before, value, after, rfl, one, two⟩ := trace.of_bind_ret
  rw [List.flatMap_append]
  exact rest _ value (first before value one) after result two

/-- A call first. -/
theorem Shows.call_then {next : Ans request → Prog Call Ans β}
    (rest : ∀ answer, (next answer).Shows see fun later result =>
      post (see ⟨request, answer⟩ ++ later) result) :
    (Prog.call request .ret >>= next).Shows see post := by
  intro exchanges result trace
  cases trace with
  | step answer tail => exact rest answer _ result tail

/-- A part first of which always the same is seen. -/
theorem Shows.then (first : p.Shows see fun seen' _ => seen' = seen)
    (rest : ∀ value, (next value).Shows see fun later result => post (seen ++ later) result) :
    (p >>= next).Shows see post :=
  first.bind fun _ value same => same ▸ rest value

theorem Shows.mono (shows : p.Shows see spec)
    (weaker : ∀ seen value, spec seen value → spec' seen value) : p.Shows see spec' :=
  fun exchanges value trace => weaker _ value (shows exchanges value trace)

/-- A program of calls of which nothing is seen. -/
theorem Shows.nothing (uses : p.Uses allowed)
    (unseen : ∀ request answer, allowed request → see ⟨request, answer⟩ = []) :
    p.Shows see fun seen _ => seen = [] := by
  intro exchanges value trace
  refine List.flatMap_eq_nil_iff.mpr fun exchange member => ?_
  exact unseen _ _ (uses.trace trace exchange member)

end Shows

end Prog
