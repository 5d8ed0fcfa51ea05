import AgentForge.TenantCalls

/-! The circuit breaker of a tenant. It opens at a threshold of failures or over a budget,
stays open for the cooldown whatever is called, and is then half open: the next call that
looks at it finds it so, and one run is let through as a probe. A completion closes or
opens a half-open breaker, whichever run it is of. -/
namespace AgentForge

open Transition
open Transition.System (Throughout Within Along)

section Breaker

variable {F : Type}

/-- The state a call acts on: those that look at the breaker let it recover first. -/
def TenantState.found (pol : Policy F) (st : TenantState F) : TenantCall F → TenantState F
  | .tryEnqueue now _ _ | .tryStartRun now => st.maybeRecoverBreaker pol now
  | .completeRun _ _ | .cancelEnqueue _ | .markDeadLetter _ => st

variable [Float64 F]

/-- Every reading of the clock is at or after the last one. -/
def clocked : Watch F (TenantCall F) Time where
  call := id
  begins _ := True
  permits _ clock
    | .tryEnqueue now opened _ => clock ≤ now ∧ now ≤ opened
    | .tryStartRun now => clock ≤ now
    | .completeRun opened _ => clock ≤ opened
    | .cancelEnqueue _ | .markDeadLetter _ => True
  notes _ _ clock
    | .tryEnqueue _ opened _ => opened
    | .tryStartRun now => now
    | .completeRun opened _ => opened
    | .cancelEnqueue _ | .markDeadLetter _ => clock

/-- The call opens the breaker, and stamps it with the time. -/
def Opens (pol : Policy F) (st : TenantState F) (call : TenantCall F) (time : Time) : Prop :=
  (st.found pol call).breakerState ≠ .opened ∧ (st.after pol call).breakerState = .opened ∧
    (st.after pol call).breakerOpenedAt = time

/-- The call lets a message or a run through at the time. -/
def LetsThrough (pol : Policy F) (st : TenantState F) (now : Time) : TenantCall F → Prop
  | .tryEnqueue now' opened info => now' = now ∧ (st.tryEnqueue pol now' opened info).1 = .ok ()
  | .tryStartRun now' => now' = now ∧ (st.tryStartRun pol now').1 = .ok ()
  | .completeRun _ _ | .cancelEnqueue _ | .markDeadLetter _ => False

/-- A run is let through. -/
def startsRun (pol : Policy F) (st : TenantState F) : TenantCall F → Bool
  | .tryStartRun now => (st.tryStartRun pol now).1.isOk
  | _ => false

omit [Float64 F] in
private theorem startsRun_iff :
    startsRun pol st (.tryStartRun now) = true ↔ (st.tryStartRun pol now).1 = .ok () := by
  have reads : startsRun pol st (.tryStartRun now) = (st.tryStartRun pol now).1.isOk := rfl
  rw [reads]
  cases (st.tryStartRun pol now).1 <;> simp [Except.isOk, Except.toBool]

def TenantCall.completes : TenantCall F → Bool
  | .completeRun _ _ => true
  | _ => false

/-! ## What a call does to it -/

/-- What the clock reads when a call looks at the breaker. -/
def TenantCall.looks : TenantCall F → Option Time
  | .tryEnqueue now _ _ | .tryStartRun now => some now
  | .completeRun _ _ | .cancelEnqueue _ | .markDeadLetter _ => none

private theorem LetsThrough.looks {pol : Policy F} (through : LetsThrough pol st now call) :
    now ∈ call.looks := by
  cases call with
  | tryEnqueue | tryStartRun => exact congrArg some through.1
  | _ => exact through.elim

omit [Float64 F] in
/-- The breaker is found as it was, or it has just recovered. -/
theorem found_breaker (pol : Policy F) (st : TenantState F) (call : TenantCall F) :
    (st.found pol call).breaker = st.breaker ∨ st.breakerState = .opened ∧
      ∃ now ∈ call.looks, st.breakerOpenedAt + pol.breakerCooldown ≤ now ∧
        (st.found pol call).breaker = ⟨.halfOpen, st.breakerOpenedAt, false⟩ := by
  cases call with
  | tryEnqueue now | tryStartRun now =>
    exact (st.maybeRecoverBreaker_breaker pol now).imp_right fun ⟨isOpen, cooled, half⟩ =>
      ⟨isOpen, now, rfl, cooled, half⟩
  | _ => exact .inl rfl

/-- Most calls leave the breaker as they find it; those let nothing through an open one, and a
run only through a closed one. `TryEnqueue` opens it over a budget, `TryStartRun` lets a probe
through, and `CompleteRun` settles it. -/
inductive MovesBreaker (pol : Policy F) (st : TenantState F) : TenantCall F → Prop
  | keeps {call : TenantCall F} (undecided : call.completes = false)
      (through : ∀ now, LetsThrough pol st now call → (st.found pol call).breakerState ≠ .opened)
      (closed : startsRun pol st call = true → (st.found pol call).breakerState = .closed)
      (left : (st.after pol call).breaker = (st.found pol call).breaker) : MovesBreaker pol st call
  | opens {now opened : Time} {info : AdmissionInfo F}
      (shut : (st.maybeRecoverBreaker pol now).breakerState ≠ .opened)
      (above : st.OverBudget pol info)
      (left : (st.tryEnqueue pol now opened info).2.breaker = ⟨.opened, opened, false⟩) :
      MovesBreaker pol st (.tryEnqueue now opened info)
  | probe {now : Time} (starts : startsRun pol st (.tryStartRun now) = true)
      (half : (st.maybeRecoverBreaker pol now).breakerState = .halfOpen)
      (idle : (st.maybeRecoverBreaker pol now).halfOpenInFlight = false)
      (left : (st.tryStartRun pol now).2.breaker =
        ⟨.halfOpen, (st.maybeRecoverBreaker pol now).breakerOpenedAt, true⟩) :
      MovesBreaker pol st (.tryStartRun now)
  | settles {opened : Time} {info : CompletionInfo F} {b : Breaker}
      (settled : TenantState.Settled st.breaker opened info.failed b)
      (left : (st.completeRun pol opened info).breaker = { b with inFlight := false }) :
      MovesBreaker pol st (.completeRun opened info)

private theorem movesBreaker (pol : Policy F) (st : TenantState F) (call : TenantCall F) :
    MovesBreaker pol st call := by
  cases call with
  | tryEnqueue now opened info =>
    cases st.tryEnqueue_effect pol now opened info with
    | refused answer _ left | limited answer _ left =>
      exact .keeps rfl (fun _ through => by cases answer.symm.trans through.2) nofun
        (congrArg TenantView.breaker left)
    | overBudget _ _ shut above left => exact .opens shut above (congrArg TenantView.breaker left)
    | admitted _ shut _ _ _ left =>
      exact .keeps rfl (fun _ _ => shut) nofun (congrArg TenantView.breaker left)
  | tryStartRun now =>
    cases st.tryStartRun_effect pol now with
    | refused answer left =>
      exact .keeps rfl (fun _ through => by cases answer.symm.trans through.2)
        (fun starts => by cases answer.symm.trans (startsRun_iff.mp starts))
        (congrArg TenantView.breaker left)
    | started _ _ closed left =>
      refine .keeps rfl (fun _ _ isOpen => ?_) (fun _ => closed) (congrArg TenantView.breaker left)
      cases closed.symm.trans isOpen
    | probe answer _ half idle left =>
      exact .probe (startsRun_iff.mpr answer) half idle (congrArg TenantView.breaker left)
  | completeRun opened info =>
    obtain ⟨b, settled, left⟩ := st.completeRun_effect pol opened info
    exact .settles settled (congrArg TenantView.breaker left)
  | cancelEnqueue key =>
    exact .keeps rfl nofun nofun (congrArg TenantView.breaker (st.cancelEnqueue_view key))
  | markDeadLetter key =>
    exact .keeps rfl nofun nofun (congrArg TenantView.breaker (st.markDeadLetter_view key))

/-! ## While it is open -/

/-- Open since the time, or cooled down by the clock. -/
def OpenSince (pol : Policy F) (since : Time) (s : TenantState F × Time) : Prop :=
  (s.1.breakerState = .opened ∧ s.1.breakerOpenedAt = since) ∨ since + pol.breakerCooldown ≤ s.2

omit [Float64 F] in
private theorem clocked_reads (pol : Policy F) (permitted : clocked.permits st clock call) :
    clock ≤ clocked.notes pol st clock call ∧
      ∀ now ∈ call.looks, clock ≤ now ∧ now ≤ clocked.notes pol st clock call := by
  cases call with
  | tryEnqueue now opened info =>
    refine ⟨permitted.1.trans permitted.2, ?_⟩
    rintro _ ⟨⟩
    exact permitted
  | tryStartRun now =>
    refine ⟨permitted, ?_⟩
    rintro _ ⟨⟩
    exact ⟨permitted, le_rfl⟩
  | completeRun opened info => exact ⟨permitted, nofun⟩
  | cancelEnqueue key | markDeadLetter key => exact ⟨le_rfl, nofun⟩

/-- A breaker found open before the cooldown is over lets nothing through and stays as it
is; what follows a recovery comes after it by the clock. -/
theorem openSince_after {pol : Policy F} {s : TenantState F × Time} (held : OpenSince pol since s)
    (permitted : clocked.permits s.1 s.2 call) :
    OpenSince pol since (s.1.after pol call, clocked.notes pol s.1 s.2 call) ∧
      ∀ now, LetsThrough pol s.1 now call → since + pol.breakerCooldown ≤ now := by
  obtain ⟨st, clock⟩ := s
  obtain ⟨onward, reads⟩ := clocked_reads pol permitted
  rcases held with ⟨isOpen, stamp⟩ | cooled
  · rcases found_breaker pol st call with same | ⟨-, now, looks, cooled, -⟩
    · have found : (st.found pol call).breakerState = .opened :=
        (congrArg Breaker.state same).trans isOpen
      cases movesBreaker pol st call with
      | keeps _ through _ left =>
        have left := left.trans same
        exact ⟨.inl ⟨(congrArg Breaker.state left).trans isOpen,
          (congrArg Breaker.openedAt left).trans stamp⟩,
          fun now lets => absurd found (through now lets)⟩
      | opens shut => exact absurd found shut
      | probe _ half => cases found.symm.trans half
      | settles settled left =>
        refine ⟨.inl ?_, fun _ none => none.elim⟩
        cases settled with
        | opens shut => exact absurd isOpen shut
        | closes half => cases isOpen.symm.trans half
        | stays => exact ⟨(congrArg Breaker.state left).trans isOpen,
            (congrArg Breaker.openedAt left).trans stamp⟩
    · rw [stamp] at cooled
      refine ⟨.inr (cooled.trans (reads now looks).2), fun now' through => ?_⟩
      obtain rfl := Option.some.inj (looks.symm.trans through.looks)
      exact cooled
  · exact ⟨.inr (cooled.trans onward), fun now through =>
      cooled.trans (reads now through.looks).1⟩

/-- The stamp of a breaker that opens is the clock's last reading. -/
theorem Opens.time_eq {pol : Policy F} {call : TenantCall F} (opens : Opens pol st call time) :
    time = clocked.notes pol st clock call := by
  obtain ⟨shut, isOpen, rfl⟩ := opens
  cases movesBreaker pol st call with
  | keeps _ _ _ left => exact absurd ((congrArg Breaker.state left).symm.trans isOpen) shut
  | opens _ _ left => exact congrArg Breaker.openedAt left
  | probe _ _ _ left => cases (congrArg Breaker.state left).symm.trans isOpen
  | settles settled left =>
    cases settled with
    | opens => exact congrArg Breaker.openedAt left
    | closes => cases (congrArg Breaker.state left).symm.trans isOpen
    | stays => exact absurd ((congrArg Breaker.state left).symm.trans isOpen) shut

/-- No run was let through since the breaker opened, or one was and it is under way. -/
def AwaitsProbe (starts : Nat) (b : Breaker) : Prop :=
  (b.state = .opened ∧ starts = 0) ∨ (b.state = .halfOpen ∧ starts = if b.inFlight then 1 else 0)

/-- Without a completion and without opening again, a second run is not let through. -/
theorem awaitsProbe_after {pol : Policy F} {st : TenantState F}
    (held : AwaitsProbe starts st.breaker) (undecided : call.completes = false)
    (shut : ∀ time, ¬ Opens pol st call time) :
    AwaitsProbe (starts + if startsRun pol st call then 1 else 0) (st.after pol call).breaker := by
  have found : AwaitsProbe starts (st.found pol call).breaker := by
    rcases found_breaker pol st call with same | ⟨isOpen, -, -, -, half⟩
    · rwa [same]
    · rcases held with ⟨-, none⟩ | ⟨other, -⟩
      · rw [half]
        exact .inr ⟨rfl, none⟩
      · cases isOpen.symm.trans other
  cases movesBreaker pol st call with
  | keeps _ _ closed left =>
    have waits : startsRun pol st call ≠ true := by
      intro starting
      rcases found with ⟨other, -⟩ | ⟨other, -⟩
      · cases (closed starting).symm.trans other
      · cases (closed starting).symm.trans other
    rw [if_neg waits]
    exact (congrArg (AwaitsProbe starts) left).mpr found
  | opens found' _ left => exact absurd ⟨found', congrArg Breaker.state left, rfl⟩ (shut _)
  | probe starting half idle left =>
    rcases found with ⟨other, -⟩ | ⟨-, none⟩
    · cases half.symm.trans other
    · rw [TenantState.found, TenantState.breaker, idle] at none
      rw [if_pos starting, none]
      exact (congrArg (AwaitsProbe _) left).mpr (.inr ⟨rfl, rfl⟩)
  | settles => cases undecided

section Since

variable {pol : Policy F} {later earlier : List ((TenantState F × Time) × TenantCall F)}
  {s₀ s : TenantState F × Time} {call : TenantCall F} {time : Time}

/-- The induction is over the calls made since the breaker opened. -/
theorem openSince_of_path (path : (watched pol clocked).Path (later ++ (s₀, call) :: earlier) s)
    (opens : Opens pol s₀.1 call time) : OpenSince pol time s ∧
      ∀ past ∈ later, ∀ now, LetsThrough pol past.1.1 now past.2 →
        time + pol.breakerCooldown ≤ now := by
  induction later generalizing s with
  | nil =>
    cases path with
    | next _ step =>
      obtain ⟨-, rfl⟩ := step
      exact ⟨.inl opens.2, by simp⟩
  | cons past rest ih =>
    cases path with
    | next before step =>
      obtain ⟨permitted, rfl⟩ := step
      obtain ⟨held, blocked⟩ := ih before
      obtain ⟨still, here⟩ := openSince_after held permitted
      exact ⟨still, List.forall_mem_cons.mpr ⟨here, blocked⟩⟩

private theorem awaitsProbe_of_path
    (path : (watched pol clocked).Path (later ++ (s₀, call) :: earlier) s)
    (opens : Opens pol s₀.1 call time)
    (undecided : ∀ past ∈ later, past.2.completes = false ∧ ∀ t, ¬ Opens pol past.1.1 past.2 t) :
    AwaitsProbe (later.countP fun past => startsRun pol past.1.1 past.2) s.1.breaker := by
  induction later generalizing s with
  | nil =>
    cases path with
    | next _ step =>
      obtain ⟨-, rfl⟩ := step
      exact .inl ⟨opens.2.1, rfl⟩
  | cons past rest ih =>
    cases path with
    | next before step =>
      obtain ⟨-, rfl⟩ := step
      obtain ⟨⟨noneDone, shut⟩, undecided⟩ := List.forall_mem_cons.mp undecided
      rw [List.countP_cons]
      exact awaitsProbe_after (ih before undecided) noneDone shut

/-- **An open breaker blocks.** In every run with a clock that does not go back, from the
time a breaker opens nothing is let through before the cooldown is over, and until the
next completion or the next opening at most one run is let through. -/
theorem open_breaker_blocks (path : (watched pol clocked).Path (later ++ (s₀, call) :: earlier) s)
    (opens : Opens pol s₀.1 call time) :
    time = clocked.notes pol s₀.1 s₀.2 call ∧
      (∀ past ∈ later, ∀ now, LetsThrough pol past.1.1 now past.2 →
        time + pol.breakerCooldown ≤ now) ∧
      ((∀ past ∈ later, past.2.completes = false ∧ ∀ t, ¬ Opens pol past.1.1 past.2 t) →
        (later.countP fun past => startsRun pol past.1.1 past.2) ≤ 1) := by
  refine ⟨opens.time_eq, (openSince_of_path path opens).2, fun undecided => ?_⟩
  rcases awaitsProbe_of_path path opens undecided with ⟨-, none⟩ | ⟨-, probe⟩
  · omega
  · rw [probe]
    split_ifs <;> omega

end Since

/-! A breaker that opens at the first failure and cools down in ten. -/

def firstFailure : Policy Rat := normalizePolicy
  { maxRunning := 0, maxQueued := 0, rateLimitPerMinute := 0, maxConsecutiveErrors := 1
    breakerCooldown := 10, tokenBudget := 0, costBudget := 0 }

def completion (failed : Bool) : CompletionInfo Rat := ⟨"run", 0, 0, failed, true⟩

/-- A run fails at five; the next one is refused at seven and let through at fifteen. -/
theorem open_breaker_blocks_first_failure : ∃ later earlier s₀ call s,
    (watched firstFailure clocked).Path (later ++ (s₀, call) :: earlier) s ∧
      Opens firstFailure s₀.1 call 5 ∧
      (later.countP fun past => startsRun firstFailure past.1.1 past.2) = 1 ∧
      ∀ past ∈ later, ∀ now, LetsThrough firstFailure past.1.1 now past.2 →
        5 + firstFailure.breakerCooldown ≤ now := by
  have path : (watched firstFailure clocked).Path [] (TenantState.fresh, 0) := .start ⟨rfl, trivial⟩
  have path := Watch.makes path (.tryStartRun 1) (show (0 : Int) ≤ 1 by decide)
  have path := Watch.makes path (.completeRun 5 (completion true)) (show (1 : Int) ≤ 5 by decide)
  have path := Watch.makes path (.tryStartRun 7) (show (5 : Int) ≤ 7 by decide)
  have path := Watch.makes path (.tryStartRun 15) (show (7 : Int) ≤ 15 by decide)
  have opens : Opens firstFailure (TenantState.fresh.after firstFailure (.tryStartRun 1))
      (.completeRun 5 (completion true)) 5 := ⟨by decide, by decide, by decide⟩
  exact ⟨[_, _], _, _, _, _, path, opens, by decide,
    (@open_breaker_blocks _ _ _ [_, _] _ _ _ _ _ path opens).2.1⟩

/-! ## While it is half open -/

def TenantCall.fails : TenantCall F → Bool
  | .completeRun _ info => info.failed
  | _ => false

/-- A call, and the number of the run that it completes if it is a completion. -/
structure NumberedCall (F : Type) where
  call : TenantCall F
  run : Nat := 0

/-- How often the breaker was half open, how many runs were let through, and those not yet
completed, each with the half-open period in which it was let through as a probe. -/
structure RunLog where
  periods : Nat := 0
  started : Nat := 0
  unfinished : List (Nat × Option Nat) := []

/-- Each completion is of a run that was let through and not yet completed. -/
def matched : Watch F (NumberedCall F) RunLog where
  call e := e.call
  begins log := log = {}
  permits _ log e := e.call.completes = true → ∃ probe, (e.run, probe) ∈ log.unfinished
  notes pol st log e :=
    let found := (st.found pol e.call).breakerState
    let periods := if found = st.breakerState then log.periods else log.periods + 1
    if startsRun pol st e.call then
      let probe := if found = .halfOpen then some periods else none
      ⟨periods, log.started + 1, (log.started, probe) :: log.unfinished⟩
    else if e.call.completes then
      ⟨periods, log.started, log.unfinished.filter (·.1 ≠ e.run)⟩
    else ⟨periods, log.started, log.unfinished⟩

/-- A half-open breaker is closed, or opened by a failed run, only by the completion of the
run let through in this period. -/
def ProbeDecides (s : TenantState F × RunLog) (e : NumberedCall F) (t : TenantState F × RunLog) :
    Prop :=
  s.1.breakerState = .halfOpen →
    (t.1.breakerState = .closed ∨ t.1.breakerState = .opened ∧ e.call.fails = true) →
      e.call.completes = true ∧ (e.run, some s.2.periods) ∈ s.2.unfinished

/-- At most one unfinished run was let through as a probe. -/
def OneProbe (s : TenantState F × RunLog) : Prop :=
  (s.2.unfinished.countP fun run => run.2.isSome) ≤ 1

/-- A run that completes while the breaker is half open was let through in this period. -/
def CompletesProbe (s : TenantState F × RunLog) (e : NumberedCall F) : Prop :=
  s.1.breakerState = .halfOpen → e.call.completes = true →
    (e.run, some s.2.periods) ∈ s.2.unfinished

/-- While a probe is under way, a message over a budget does not open the breaker again. -/
def KeepsProbe (pol : Policy F) (s : TenantState F × RunLog) (e : NumberedCall F) : Prop :=
  match e.call with
  | .tryEnqueue now opened info =>
    s.1.breakerState = .halfOpen → s.1.halfOpenInFlight = true → s.1.OverBudget pol info →
      (s.1.tryEnqueue pol now opened info).2.breakerState ≠ .opened
  | _ => True

/-- Only a completion closes a half-open breaker. -/
theorem completes_of_closes {st : TenantState F} (half : st.breakerState = .halfOpen)
    (closes : (st.after pol call).breakerState = .closed) :
    call.completes = true := by
  cases movesBreaker pol st call with
  | keeps _ _ _ left =>
    rcases found_breaker pol st call with same | ⟨isOpen, -⟩
    · cases (half.symm.trans (congrArg Breaker.state (left.trans same)).symm).trans closes
    · cases half.symm.trans isOpen
  | opens _ _ left | probe _ _ _ left => cases (congrArg Breaker.state left).symm.trans closes
  | settles => rfl

/-- A completion while the breaker is half open decides it, whichever run it is of. -/
theorem probeDecides_iff {s t : TenantState F × RunLog} (step : (watched pol matched).Step s e t) :
    ProbeDecides s e t ↔ CompletesProbe s e := by
  obtain ⟨-, rfl⟩ := step
  obtain ⟨call, run⟩ := e
  constructor
  · intro decides half completes
    cases call with
    | completeRun opened info =>
      refine (decides half ?_).2
      obtain ⟨b, settled, left⟩ := s.1.completeRun_effect pol opened info
      cases settled with
      | opens _ failed => exact .inr ⟨congrArg (·.breaker.state) left, failed⟩
      | closes _ _ => exact .inl (congrArg (·.breaker.state) left)
      | stays other => exact absurd half other
    | _ => cases completes
  · intro completed half leaves
    have completes : call.completes = true := by
      rcases leaves with closes | ⟨-, fails⟩
      · exact completes_of_closes half closes
      · cases call with
        | completeRun opened info => rfl
        | _ => cases fails
    exact ⟨completes, completed half completes⟩

/-- The probes that the flag of a breaker stands for. -/
def Breaker.underWay (b : Breaker) : Nat := if b.state = .halfOpen ∧ b.inFlight = true then 1 else 0

/-- The unfinished probes are those the flag stands for. -/
def Flagged (s : TenantState F × RunLog) : Prop :=
  (s.2.unfinished.countP fun run => run.2.isSome) = s.1.breaker.underWay

omit [Float64 F] in
private theorem underWay_found (pol : Policy F) (st : TenantState F) (call : TenantCall F) :
    (st.found pol call).breaker.underWay = st.breaker.underWay := by
  rcases found_breaker pol st call with same | ⟨isOpen, -, -, -, half⟩
  · rw [same]
  · have none : st.breaker.underWay = 0 := if_neg fun both => by cases isOpen.symm.trans both.1
    rw [half, none]
    rfl

/-- The run that completes was the only probe, so none is left. -/
theorem countP_filter_eq_zero {runs : List (Nat × Option Nat)}
    (one : (runs.countP fun run => run.2.isSome) ≤ 1) (member : (n, some period) ∈ runs) :
    ((runs.filter (·.1 ≠ n)).countP fun run => run.2.isSome) = 0 := by
  have split := List.countP_eq_countP_filter_add runs (fun run => run.2.isSome) (·.1 ≠ n)
  have own : 0 < (runs.filter fun run => !decide (run.1 ≠ n)).countP fun run => run.2.isSome :=
    List.countP_pos_iff.mpr ⟨_, List.mem_filter.mpr ⟨member, by simp⟩, rfl⟩
  omega

/-- The flag is set by the probe and cleared by its completion; only over a budget could the
breaker open, and recover, in between. -/
theorem flagged_step {s t : TenantState F × RunLog} (flagged : Flagged s)
    (completed : CompletesProbe s e) (kept : KeepsProbe pol s e)
    (step : (watched pol matched).Step s e t) : Flagged t := by
  obtain ⟨-, rfl⟩ := step
  obtain ⟨st, log⟩ := s
  obtain ⟨call, run⟩ := e
  unfold Flagged at flagged ⊢
  have found := flagged.trans (underWay_found pol st call).symm
  cases movesBreaker pol st call with
  | keeps undecided _ closed left =>
    refine Eq.trans ?_ (congrArg Breaker.underWay left).symm
    by_cases starting : startsRun pol st call = true
    · simp only [matched, starting, closed starting]
      exact found
    · simp only [matched, starting, undecided]
      exact found
  | opens _ above left =>
    refine Eq.trans flagged (Eq.trans (if_neg fun both => ?_) (congrArg Breaker.underWay left).symm)
    exact kept both.1 both.2 above (congrArg Breaker.state left)
  | @probe now starting half idle left =>
    have none : (st.maybeRecoverBreaker pol now).breaker.underWay = 0 :=
      if_neg fun both => by cases idle.symm.trans both.2
    simp only [matched, starting, TenantState.found, half, if_true, List.countP_cons,
      Option.isSome_some]
    rw [found, TenantState.found, none]
    exact (congrArg Breaker.underWay left).symm
  | settles _ left =>
    have cleared := (congrArg Breaker.underWay left).trans (if_neg fun both => by cases both.2)
    refine Eq.trans ?_ cleared.symm
    by_cases half : st.breakerState = .halfOpen
    · refine countP_filter_eq_zero ?_ (completed half rfl)
      rw [flagged, Breaker.underWay]
      split_ifs <;> omega
    · have none : st.breaker.underWay = 0 := if_neg fun both => half both.1
      exact Nat.le_zero.mp ((List.filter_sublist.countP_le).trans (flagged.trans none).le)

/-- **Only the probe decides.** In every run in which each completion is of a run that was
let through, a half-open breaker is decided only by the run let through in that period if
and only if each run that completes while the breaker is half open was let through in that
period. If besides no message over a budget opens the breaker while a probe is under way,
no two probes are unfinished at a time. -/
theorem only_probe_decides {pol : Policy F}
    {history : List ((TenantState F × RunLog) × NumberedCall F)} {s : TenantState F × RunLog}
    (path : (watched pol matched).Path history s) :
    (Along ProbeDecides history s ↔ Within CompletesProbe history) ∧
      (Within CompletesProbe history → Within (KeepsProbe pol) history →
        Throughout OneProbe history s) := by
  refine ⟨path.along_iff_within fun s e t => probeDecides_iff, fun completes keeps => ?_⟩
  have both : Within (fun s e => CompletesProbe s e ∧ KeepsProbe pol s e) history :=
    fun past member => ⟨completes past member, keeps past member⟩
  have flagged : Throughout Flagged history s := by
    refine path.invariant ?_ (fun s e t held met => flagged_step held met.1 met.2) both
    rintro ⟨st, log⟩ ⟨rfl, rfl⟩
    rfl
  have one : ∀ s : TenantState F × RunLog, Flagged s → OneProbe s := by
    intro s held
    rw [OneProbe, held, Breaker.underWay]
    split_ifs <;> omega
  exact ⟨one _ flagged.1, fun past member => one _ (flagged.2 past member)⟩

end Breaker

/-- The run that fails is the only one, and the probe after it closes the breaker; a message
is let in meanwhile. -/
theorem only_probe_decides_alone : ∃ history s,
    (watched firstFailure matched).Path history s ∧ s.1.breakerState = .closed ∧
      s.2.periods = 1 ∧ Along ProbeDecides history s ∧ Throughout OneProbe history s := by
  have path : (watched firstFailure matched).Path [] (TenantState.fresh, {}) := .start ⟨rfl, rfl⟩
  have path := Watch.makes path ⟨.tryStartRun 1, 0⟩ fun done => by cases done
  have path := Watch.makes path ⟨.completeRun 5 (completion true), 0⟩ fun _ => ⟨none, by decide⟩
  have path := Watch.makes path ⟨.tryStartRun 15, 0⟩ fun done => by cases done
  have path := Watch.makes path ⟨.tryEnqueue 15 15 ⟨"next", 0, 0⟩, 0⟩ fun done => by cases done
  have path := Watch.makes path ⟨.completeRun 16 (completion false), 1⟩ fun _ => ⟨some 1, by decide⟩
  obtain ⟨decides, one⟩ := only_probe_decides path
  have along := decides.mpr (by
    simp only [Within, List.forall_mem_cons, CompletesProbe]
    exact ⟨by decide, by decide, by decide, by decide, by decide, by simp⟩)
  refine ⟨_, _, path, by decide, by decide, along, one (decides.mp along) ?_⟩
  simp only [Within, List.forall_mem_cons]
  refine ⟨trivial, fun _ _ above => ?_, trivial, trivial, trivial, by simp⟩
  exact absurd above (by unfold TenantState.OverBudget; decide)

/-- Two runs are under way when the first fails; the second succeeds after the cooldown and
closes the breaker before any probe. -/
theorem late_completion_decides : ∃ history s,
    (watched firstFailure matched).Path history s ∧ s.1.breakerState = .closed ∧
      ¬ Along ProbeDecides history s := by
  have path : (watched firstFailure matched).Path [] (TenantState.fresh, {}) := .start ⟨rfl, rfl⟩
  have path := Watch.makes path ⟨.tryStartRun 1, 0⟩ fun done => by cases done
  have path := Watch.makes path ⟨.tryStartRun 2, 0⟩ fun done => by cases done
  have path := Watch.makes path ⟨.completeRun 5 (completion true), 0⟩ fun _ => ⟨none, by decide⟩
  have path := Watch.makes path ⟨.tryEnqueue 15 15 ⟨"next", 0, 0⟩, 0⟩ fun done => by cases done
  have path := Watch.makes path ⟨.completeRun 16 (completion false), 1⟩ fun _ => ⟨none, by decide⟩
  refine ⟨_, _, path, by decide, fun along => ?_⟩
  exact absurd (along.1 (by decide) (.inl (by decide))).2 (by decide)

end AgentForge
