import AgentForge.TenantEffects
import AgentForge.Transition

/-! A tenant's life under the manager: its calls, one after another. A policy is fixed, so
a tenant's state is what its own calls make of a fresh one; the calls of other tenants do
not matter. What a statement needs to remember about the past, such as the last reading
of the clock, is noted beside the state. -/
namespace AgentForge

open Transition

section TenantCalls

variable {F : Type} [Float64 F]

/-- A call of the manager for one tenant, with its readings of the clock. -/
inductive TenantCall (F : Type) where
  | tryEnqueue (now opened : Time) (info : AdmissionInfo F)
  | tryStartRun (now : Time)
  | completeRun (opened : Time) (info : CompletionInfo F)
  | cancelEnqueue (messageKey : String)
  | markDeadLetter (messageKey : String)

/-- The state a call leaves. -/
def TenantState.after (pol : Policy F) (st : TenantState F) : TenantCall F → TenantState F
  | .tryEnqueue now opened info => (st.tryEnqueue pol now opened info).2
  | .tryStartRun now => (st.tryStartRun pol now).2
  | .completeRun opened info => st.completeRun pol opened info
  | .cancelEnqueue messageKey => st.cancelEnqueue messageKey
  | .markDeadLetter messageKey => st.markDeadLetter messageKey

/-! ## On the manager -/

namespace Manager

variable (m : Manager F) (tenantID : String)

/-- The same call on the manager. -/
def after : TenantCall F → Manager F
  | .tryEnqueue now opened info => (m.tryEnqueue now opened tenantID info).2
  | .tryStartRun now => (m.tryStartRun now tenantID).2
  | .completeRun opened info => m.completeRun opened tenantID info
  | .cancelEnqueue messageKey => m.cancelEnqueue tenantID messageKey
  | .markDeadLetter messageKey => m.markDeadLetter tenantID messageKey

theorem after_eq (call : TenantCall F) :
    m.after tenantID call =
      m.setState tenantID ((m.state tenantID).after (m.policy tenantID) call) := by
  cases call <;> rfl

/-- Calls of any tenants. -/
def run (calls : List (String × TenantCall F)) : Manager F :=
  calls.foldl (fun m call => m.after call.1 call.2) m

/-- A tenant's state is what its own calls made of it. -/
theorem state_run (calls : List (String × TenantCall F)) :
    (m.run calls).state tenantID = ((calls.filter (·.1 = tenantID)).map Prod.snd).foldl
      (TenantState.after (m.policy tenantID)) (m.state tenantID) := by
  induction calls generalizing m with
  | nil => rfl
  | cons call rest ih =>
    obtain ⟨caller, call⟩ := call
    have goesOn : (m.run ((caller, call) :: rest)).state tenantID =
        ((m.after caller call).run rest).state tenantID := rfl
    have policy : (m.after caller call).policy tenantID = m.policy tenantID := by
      rw [after_eq]
      rfl
    rw [goesOn, ih, policy]
    by_cases own : caller = tenantID
    · subst own
      rw [after_eq, state_setState, List.filter_cons_of_pos (by simp)]
      rfl
    · rw [after_eq, state_setState_of_ne (Ne.symm own), List.filter_cons_of_neg (by simp [own])]

end Manager

/-! ## One tenant, watched -/

/-- What is noted about the calls of a tenant, and which calls are made. An event is a
call, perhaps with more about it. -/
structure Watch (F E G : Type) where
  call : E → TenantCall F
  begins : G → Prop
  permits : TenantState F → G → E → Prop
  notes : Policy F → TenantState F → G → E → G

/-- The runs of a tenant not seen before. -/
def watched {E G : Type} (pol : Policy F) (W : Watch F E G) : System (TenantState F × G) E where
  Initial s := s.1 = .fresh ∧ W.begins s.2
  Step s e t := W.permits s.1 s.2 e ∧ t = (s.1.after pol (W.call e), W.notes pol s.1 s.2 e)

/-- A permitted call is made. -/
theorem Watch.makes {E G : Type} {W : Watch F E G} {history : List ((TenantState F × G) × E)}
    {s : TenantState F × G} (path : (watched pol W).Path history s) (e : E)
    (permitted : W.permits s.1 s.2 e) :
    (watched pol W).Path ((s, e) :: history)
      (s.1.after pol (W.call e), W.notes pol s.1 s.2 e) :=
  path.next ⟨permitted, rfl⟩

/-- On a manager, whatever other tenants do, the tenant comes to the same state. -/
theorem watched_on_manager {W : Watch F E G} {m : Manager F}
    {history : List ((TenantState F × G) × E)} {s : TenantState F × G}
    (path : (watched (m.policy tenantID) W).Path history s) (unseen : m.state tenantID = .fresh)
    (calls : List (String × TenantCall F)) (own : (calls.filter (·.1 = tenantID)).map Prod.snd =
      (history.map fun past => W.call past.2).reverse) :
    (m.run calls).state tenantID = s.1 := by
  rw [Manager.state_run, own, unseen]
  clear own
  induction path with
  | start begun => exact begun.1.symm
  | next before step ih =>
    obtain ⟨-, rfl⟩ := step
    rw [List.map_cons, List.reverse_cons, List.foldl_append, ih]
    rfl

end TenantCalls

/-- Another tenant's run starts first, and the tenant's own is counted. -/
example : ∃ m : Manager Rat,
    (m.run [("b", .tryStartRun 0), ("a", .tryStartRun 0)]).state "a" =
        TenantState.fresh.after (m.policy "a") (.tryStartRun 0) ∧
      (TenantState.fresh.after (m.policy "a") (.tryStartRun 0)).running = 1 :=
  ⟨.newManager ⟨1, 1, 1, 1, 1, 1, 1⟩, watched_on_manager
    (Watch.makes (W := ⟨id, fun _ : Unit => True, fun _ _ _ => True, fun _ _ _ _ => ()⟩)
      (.start (s := (.fresh, ())) ⟨rfl, trivial⟩) (.tryStartRun 0) trivial) rfl _ rfl, rfl⟩

end AgentForge
