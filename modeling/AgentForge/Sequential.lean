import AgentForge.Transition

/-! One thread on its own, over a world whose calls may answer in more than one
way. `Solo` is a run of it, and `Ends` the judgement that every run comes to an
end and ends well. `Ends` is total: a call that nothing can answer, or a run that
goes on for ever, falsifies it. -/
namespace Transition

section Sequential

variable {World Call Thread : Type} {Ans : Call → Type}
  (view : Thread → View Call Ans Thread)
  (exec : Thread → World → (call : Call) → Ans call → World → Prop)

/-- A run of the thread from one place to another. -/
inductive Solo : World → Thread → World → Thread → Prop where
  | here {w : World} {t : Thread} : Solo w t w t
  | tau {w w' : World} {t next t' : Thread} (moves : view t = .tau next)
      (rest : Solo w next w' t') : Solo w t w' t'
  | call {w w₁ w' : World} {t t' : Thread} {call : Call} {resume : Ans call → Thread}
      {answer : Ans call} (calls : view t = .call call resume) (ran : exec t w call answer w₁)
      (rest : Solo w₁ (resume answer) w' t') : Solo w t w' t'

/-- Every run from here comes to an end, and the property holds there. -/
inductive Ends (Q : World → Thread → Prop) : World → Thread → Prop where
  | done {w : World} {t : Thread} (returned : view t = .done) (holds : Q w t) : Ends Q w t
  | tau {w : World} {t next : Thread} (moves : view t = .tau next) (rest : Ends Q w next) :
      Ends Q w t
  | call {w : World} {t : Thread} {call : Call} {resume : Ans call → Thread}
      (calls : view t = .call call resume) (answered : ∃ answer w', exec t w call answer w')
      (rest : ∀ answer w', exec t w call answer w' → Ends Q w' (resume answer)) : Ends Q w t

variable {view exec} {Q : World → Thread → Prop} {w w' : World} {t t' : Thread}

/-- What every step of the thread keeps holds where a run of it ends. -/
theorem Solo.invariant (tau : ∀ w t next, Q w t → view t = .tau next → Q w next)
    (call : ∀ w t call resume answer w', Q w t → view t = .call call resume →
      exec t w call answer w' → Q w' (resume answer))
    (solo : Solo view exec w t w' t') (start : Q w t) : Q w' t' := by
  induction solo with
  | here => exact start
  | tau moves _ ih => exact ih (tau _ _ _ start moves)
  | call calls ran _ ih => exact ih (call _ _ _ _ _ _ start calls ran)

theorem Ends.run (ends : Ends view exec Q w t) (solo : Solo view exec w t w' t')
    (returned : view t' = .done) : Q w' t' := by
  induction solo with
  | here =>
    cases ends with
    | done _ holds => exact holds
    | tau moves _ => cases moves.symm.trans returned
    | call calls _ _ => cases calls.symm.trans returned
  | tau moves _ ih =>
    cases ends with
    | done returned' _ => cases moves.symm.trans returned'
    | tau moves' rest =>
      cases moves.symm.trans moves'
      exact ih rest returned
    | call calls _ _ => cases moves.symm.trans calls
  | call calls ran _ ih =>
    cases ends with
    | done returned' _ => cases calls.symm.trans returned'
    | tau moves _ => cases calls.symm.trans moves
    | call calls' _ rest =>
      cases calls.symm.trans calls'
      exact ih (rest _ _ ran) returned

theorem Ends.imp (ends : Ends view exec Q w t) (weaker : ∀ w t, Q w t → Q' w t) :
    Ends view exec Q' w t := by
  induction ends with
  | done returned holds => exact .done returned (weaker _ _ holds)
  | tau moves _ ih => exact .tau moves ih
  | call calls answered _ ih => exact .call calls answered ih

theorem Ends.exists_run (ends : Ends view exec Q w t) :
    ∃ w' t', Solo view exec w t w' t' ∧ view t' = .done ∧ Q w' t' := by
  induction ends with
  | done returned holds => exact ⟨_, _, .here, returned, holds⟩
  | tau moves _ ih =>
    obtain ⟨w', t', solo, returned, holds⟩ := ih
    exact ⟨w', t', .tau moves solo, returned, holds⟩
  | call calls answered _ ih =>
    obtain ⟨answer, w₁, ran⟩ := answered
    obtain ⟨w', t', solo, returned, holds⟩ := ih answer w₁ ran
    exact ⟨w', t', .call calls ran solo, returned, holds⟩

end Sequential

end Transition
