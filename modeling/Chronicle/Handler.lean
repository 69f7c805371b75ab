import Chronicle.Item

/-!
# Handlers

A handler is given what it may know of its item, and changes a scene: the
state of the land and the events emitted so far.  What it has done to the
scene stays done when it fails.
-/

namespace Chronicle

/-- Values of a type are dispatched, captured and emitted under one name. -/
class Typed (α : Type) where
  name : String

/-- A named type whose values are read from JSON. -/
class Readable (α : Type) extends Typed α where
  decoder : Json.Decoder α

/-- A named type whose values are written as JSON.  A value without a JSON form
has a reason for that instead. -/
class Writable (α : Type) extends Typed α where
  encode : α → Except String Json

/-- A server event emitted during a tick. -/
structure Event where
  type : String
  payload : Json
  target : Target
  deriving DecidableEq, Inhabited

/-- What a handler may know of the item it executes. -/
structure Context where
  tick : Tick
  actor : Actor
  outputs : ResolverOutputs
  deriving DecidableEq, Inhabited

/-- What a handler changes: the state, and the events emitted so far. -/
structure Scene (σ : Type) where
  state : σ
  emitted : List Event := []

/-- A change of a scene that may fail half way. -/
abbrev Effect (σ : Type) := ExceptT LandError (StateM (Scene σ))

/-- A handler of values of one type. -/
abbrev Handler (σ α : Type) := Context → α → Effect σ Unit

/-- Decodes a value that was stored under the name of its type. -/
def readAs (α : Type) [Readable α] (value : Json) : Except LandError α :=
  match Readable.decoder.ofValue? value with
  | some decoded => .ok decoded
  | none => .error (.decode (Typed.name α))

namespace ResolverOutput

/-- Decodes a captured output; one that was captured under the name of another
type is refused. -/
def read (α : Type) [Readable α] (name : String) (output : ResolverOutput) : Except LandError α :=
  if output.type = Typed.name α then readAs α output.value
  else .error (.typeMismatch name (Typed.name α) output.type)

end ResolverOutput

namespace Context

/-- The context in which the update at the end of a tick runs. -/
def ofTick (tick : Tick) : Context := ⟨tick, .nobody, ∅⟩

/-- The context in which an item is executed. -/
def ofItem (tick : Tick) (item : Item) : Context := ⟨tick, item.actor, item.outputs⟩

/-- The acting player. -/
def player (context : Context) : Except LandError String :=
  match context.actor.player with
  | some player => .ok player
  | none => .error (.handler "item has no player identity")

/-- The captured output of a resolver. -/
def resolved (α : Type) [Readable α] (context : Context) (name : String) : Except LandError α :=
  match context.outputs.get? name with
  | some output => output.read α name
  | none => .error (.missingOutput name)

end Context

namespace Effect

/-- The state of the scene. -/
def state : Effect σ σ := fun scene => (.ok scene.state, scene)

/-- Puts a state in place of the one of the scene. -/
def setState (state : σ) : Effect σ Unit := fun scene => (.ok (), { scene with state := state })

/-- Applies a function to the state of the scene. -/
def modifyState (change : σ → σ) : Effect σ Unit := fun scene =>
  (.ok (), { scene with state := change scene.state })

/-- Emits an event. -/
def emitEvent (event : Event) : Effect σ Unit := fun scene =>
  (.ok (), { scene with emitted := scene.emitted ++ [event] })

/-- Emits a value to a target; it fails when the value has no JSON form. -/
def emit [Writable α] (value : α) (target : Target) : Effect σ Unit :=
  match Writable.encode value with
  | .ok payload => emitEvent ⟨Typed.name α, payload, target⟩
  | .error _ => throw (.decode (Typed.name α))

/-- Fails as an item that its handler rejects. -/
def reject (reason : String) : Effect σ α := throw (.handler reason)

/-- Runs an effect on a state, with no event emitted before. -/
def perform (effect : Effect σ Unit) (state : σ) : Except LandError Unit × Scene σ :=
  effect.run.run ⟨state, []⟩

end Effect
end Chronicle
