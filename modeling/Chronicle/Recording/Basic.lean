import Chronicle.Target
import Chronicle.Timestamp
import Chronicle.Json.Printer

/-!
# Recordings

A recording is a metadata record followed by one frame for each executed tick.
A frame holds the actions, client events and lifecycle events that were
executed during its tick, the server events that were emitted, and the hash of
the state after the tick.
-/

namespace Chronicle

/-- The number of a tick. -/
abbrev Tick := UInt64

/-- A number of the one sequence that numbers items and server events. -/
abbrev Sequence := UInt64

/-- The captured output of a resolver with the name of its type. -/
structure ResolverOutput where
  type : String
  value : Json
  deriving DecidableEq, Inhabited

/-- Captured outputs under the names of their resolvers. -/
abbrev ResolverOutputs := Dict String ResolverOutput

/-- What a stored action, client event or server event says of its kind. -/
inductive RecordKind where
  | action
  | clientEvent
  | serverEvent
  deriving Repr, DecidableEq, Inhabited

/-- Whether a lifecycle event is a join or a leave. -/
inductive LifecycleKind where
  | join
  | leave
  deriving Repr, DecidableEq, Inhabited

namespace RecordKind

/-- The name under which a kind is stored. -/
def name : RecordKind → String
  | .action => "action"
  | .clientEvent => "clientEvent"
  | .serverEvent => "serverEvent"

/-- The kind stored under a name. -/
def ofName? (name : String) : Option RecordKind :=
  [action, clientEvent, serverEvent].find? fun k => k.name == name

end RecordKind

namespace LifecycleKind

/-- The name of a lifecycle kind. -/
def name : LifecycleKind → String
  | .join => "join"
  | .leave => "leave"

/-- The lifecycle kind of a name. -/
def ofName? (name : String) : Option LifecycleKind :=
  [join, leave].find? fun k => k.name == name

end LifecycleKind

namespace Recording

/-- An executed action or client event. -/
structure Input where
  kind : RecordKind
  sequence : Sequence
  type : String
  payload : Json
  actor : Actor
  outputs : ResolverOutputs
  resolvedAt : Tick
  deriving DecidableEq, Inhabited

/-- An executed join or leave. -/
structure Lifecycle where
  kind : LifecycleKind
  sequence : Sequence
  tick : Tick
  actor : Actor
  device : Option String
  guest : Option Bool
  metadata : Dict String String
  outputs : ResolverOutputs
  resolvedAt : Tick
  deriving DecidableEq, Inhabited

/-- An emitted server event. -/
structure ServerEvent where
  kind : RecordKind
  sequence : Sequence
  tick : Tick
  type : String
  payload : Json
  target : TargetRecord
  deriving DecidableEq, Inhabited

/-- Everything that happened during one tick. -/
structure Frame where
  tick : Tick
  actions : List Input := []
  clientEvents : List Input := []
  serverEvents : List ServerEvent := []
  lifecycleEvents : List Lifecycle := []
  stateHash : Option String := none
  deriving DecidableEq, Inhabited

namespace Frame

/-- The number of items executed during the tick. -/
def itemCount (frame : Frame) : Nat :=
  frame.actions.length + frame.clientEvents.length + frame.lifecycleEvents.length

end Frame

/-- What a recording says of its land, written before any frame. -/
structure Metadata where
  landId : String
  landType : String
  createdAt : Timestamp
  metadata : Dict String String := ∅
  definitionId : Option String := none
  initialHash : Option String := none
  landConfig : Option Json := none
  version : Option String := none
  extensions : Dict String Json := ∅
  deriving DecidableEq, Inhabited

/-- The version of the format that new recordings carry. -/
def formatVersion : String := "1"

end Recording

/-- A metadata record and the frames after it. -/
structure Recording where
  metadata : Recording.Metadata
  frames : List Recording.Frame := []
  deriving DecidableEq, Inhabited

namespace Recording

/-- The tick of the last frame. -/
def maxTick? (recording : Recording) : Option Tick :=
  recording.frames.getLast?.map (·.tick)

end Recording
end Chronicle
