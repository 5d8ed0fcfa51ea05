import AgentForge.EngineRules

/-! Disciplines that are about events alone. `Execute` publishes its events one after
another, all through `pushEvent`, with a counter that goes from one part of it to the next.
So a discipline that takes no notice of the other calls is followed by `Execute` as soon as
it is followed by `pushEvent`. -/
namespace AgentForge

variable {F G : Type}

/-- The calls that have nothing to do with events. -/
def EngineCall.Aside : EngineCall F → Prop
  | .putEvent _ | .getConnectionsByTask _ | .push .. | .deleteConnection _ => False
  | _ => True

/-- The discipline looks at events alone, and an event published in a state at rest leaves
it at rest, with the counter as `pushEvent` leaves it. -/
structure Publishes (env : EngineEnv F) (task : Task F) (run : Run F)
    (d : Discipline (EngineCall F) EngineCall.Ans G) (atRest : Int → G → Prop) : Prop where
  ignores : ∀ call : EngineCall F, call.Aside → d.Ignores call
  pushEvent : ∀ eventSeq type data g, atRest eventSeq g →
    d.Ensures (fun g' seq => atRest seq g') (pushEvent env task run eventSeq type data) g

namespace Publishes

variable {env : EngineEnv F} {task : Task F} {run : Run F}
  {d : Discipline (EngineCall F) EngineCall.Ans G} {atRest : Int → G → Prop} {g : G}

section Rules

variable (publishes : Publishes env task run d atRest)

include publishes

private theorem overlooks : Overlooks task run d :=
  ⟨fun call incidental => publishes.ignores call (by cases call <;> trivial)⟩

private theorem lasts : Lasts env task run d atRest :=
  ⟨publishes.pushEvent⟩

/-- **An execution keeps to a discipline on events.** It begins with the counter at zero. -/
theorem execute [Float64 F] (rest : atRest 0 g) :
    d.Ensures (fun _ _ => True) (execute env task run) g := by
  have aside (call : EngineCall F) (aside : call.Aside) (seq : Int) (g : G) (rest : atRest seq g) :
      d.allows g call ∧ ∀ answer, atRest seq (d.moves g call answer) := by
    have ignored := publishes.ignores call aside
    exact ⟨ignored.allowed g, fun answer => (ignored.still g answer).symm ▸ rest⟩
  refine publishes.overlooks.execution (fun _ st g => atRest st.eventSeq g) publishes.lasts
    (fun _ _ _ => id) ?_ fun _ st _ zero => zero ▸ rest
  intro stepIdx st g rest
  refine publishes.overlooks.turn (fun _ => atRest) (fun _ => publishes.lasts)
    (fun seq g rest => ?_) (fun _ _ => aside _ trivial) (fun response stepStart seq g rest _ => ?_) rest
  · obtain ⟨allowed, rests⟩ := aside (.chat (st.request env task run)) trivial seq g rest
    exact ⟨allowed, fun tokens answer => rests (tokens, answer)⟩
  · refine (publishes.overlooks.settles publishes.lasts (fun call settles =>
      publishes.ignores call ?_) _ _ response _ rest).mono ?_
    · cases call <;> trivial
    · exact fun _ _ ran tools ended => (ran tools ended).mono fun _ _ ends st' same =>
        (ends st' same).1

end Rules

end Publishes

end AgentForge
