import Chronicle.Proofs.Tick

/-!
# What effects do to a scene

The value and the scene that each of the basic effects leaves, and the state
after a tick: its effects are performed one after the other, each on the state
that the one before has left.
-/

namespace Chronicle

namespace Effect

section Scenes

variable {σ α β : Type} (scene : Scene σ)

theorem perform_eq (effect : Effect σ Unit) (state : σ) :
    effect.perform state = effect ⟨state, []⟩ := rfl

@[simp] theorem bind_apply (effect : Effect σ α) (next : α → Effect σ β) :
    (effect >>= next) scene =
      match effect scene with
      | (.ok value, scene) => next value scene
      | (.error error, scene) => (.error error, scene) := by
  have unfolded : (effect >>= next) scene =
      ExceptT.bindCont next (effect scene).1 (effect scene).2 := rfl
  rw [unfolded]
  rcases effect scene with ⟨_ | _, _⟩ <;> rfl

@[simp] theorem liftM_apply (result : Except LandError α) :
    (liftM result : Effect σ α) scene = (result, scene) := rfl

@[simp] theorem pure_apply (value : α) :
    (pure value : Effect σ α) scene = (.ok value, scene) := rfl

@[simp] theorem throw_apply (error : LandError) :
    (throw error : Effect σ α) scene = (.error error, scene) := rfl

@[simp] theorem reject_apply (reason : String) :
    (reject reason : Effect σ α) scene = (.error (.handler reason), scene) := rfl

@[simp] theorem state_apply : state scene = (.ok scene.state, scene) := rfl

@[simp] theorem setState_apply (after : σ) :
    setState after scene = (.ok (), { scene with state := after }) := rfl

@[simp] theorem modifyState_apply (change : σ → σ) :
    modifyState change scene = (.ok (), { scene with state := change scene.state }) := rfl

/-- An emission leaves the state alone. -/
@[simp] theorem emit_state [Writable α] (value : α) (target : Target) :
    (emit value target scene).2.state = scene.state := by
  unfold emit
  cases Writable.encode value <;> rfl

/-- A value with a JSON form is emitted in that form. -/
theorem emit_of_encode
    [Writable α]
    {value : α}
    {payload : Json}
    (encoded : Writable.encode value = .ok payload)
    (target : Target) :
    emit value target scene =
      (.ok (), { scene with emitted := scene.emitted ++ [⟨Typed.name α, payload, target⟩] }) := by
  unfold emit
  rw [encoded]
  rfl

end Scenes

/-- The state that effects leave that are performed one after the other. -/
def stateAfter {σ : Type} (effects : List (Effect σ Unit)) (state : σ) : σ :=
  effects.foldl (fun state effect => (effect.perform state).2.state) state

end Effect

namespace TickRun

variable {σ : Type} {tick : Tick}

/-- Publications leave the state alone. -/
theorem publish_state (run : TickRun σ) (events : List Event) :
    (publish tick run events).2.state = run.state :=
  publish_preserves (motive := fun later => later.state = run.state)
    (fun _ _ _ _ _ same => same) events rfl

/-- A tick that comes to its end has performed its effects one after the other. -/
theorem state_of_performAll
    {effects : List (Effect σ Unit)}
    {run final : TickRun σ}
    (done : performAll tick run effects = (.ok (), final)) :
    final.state = Effect.stateAfter effects run.state := by
  induction effects generalizing run with
  | nil =>
      obtain ⟨-, rfl⟩ := Prod.mk.inj done
      rfl
  | cons effect rest inductionHypothesis =>
      rw [performAll] at done
      split at done
      · rename_i next performed
        have changed : next.state = (effect.perform run.state).2.state := by
          have same := congrArg (fun result => result.2.state) performed
          rw [← same, perform]
          exact publish_state _ _
        rw [inductionHypothesis done, changed]
        rfl
      · cases (Prod.mk.inj done).1

end TickRun
end Chronicle
