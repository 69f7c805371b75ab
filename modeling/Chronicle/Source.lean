import Chronicle.Item

/-!
# Sources

A source is a recording that has been checked, and gives back the items of
each tick in the order in which they were executed.
-/

namespace Chronicle

/-- A recording that has been checked, by ticks. -/
structure Source where
  metadata : Recording.Metadata
  frames : Dict Tick Recording.Frame
  deriving Inhabited

namespace Source

/-- The source of a recording, which has to be valid. -/
def ofRecording (recording : Recording) : Except LandError Source :=
  match recording.validate with
  | .ok _ =>
      .ok ⟨recording.metadata, .ofList (recording.frames.map fun frame => (frame.tick, frame))⟩
  | .error reason => .error (.replayParse reason.message)

/-- The source of the text of a recording. -/
def ofText (text : String) : Except LandError Source :=
  match Recording.parse text with
  | .ok recording => ofRecording recording
  | .error reason => .error (.replayParse reason.message)

/-- The source of a file, of which the text or the reason why it cannot be
read is given. -/
def ofFile (path : String) : Except String String → Except LandError Source
  | .ok text => ofText text
  | .error reason => .error (.replayParse s!"{path}: {reason}")

/-- The frame of a tick. -/
def frame? (source : Source) (tick : Tick) : Option Recording.Frame := source.frames.get? tick

/-- The items of a frame, in the order of its lists. -/
def frameItems (frame : Recording.Frame) : List Item :=
  (frame.actions ++ frame.clientEvents).map Item.ofInput ++
    frame.lifecycleEvents.map Item.ofLifecycle

/-- Items in the order of execution; of two with one place the first comes
first. -/
def inOrder (items : List Item) : List Item :=
  items.mergeSort fun a b => (compare a.orderKey b.orderKey).isLE

/-- The items of a tick in the order in which they were executed. -/
def items (source : Source) (tick : Tick) : List Item :=
  match source.frame? tick with
  | some frame => inOrder (frameItems frame)
  | none => []

/-- The server events recorded in a tick. -/
def serverEvents (source : Source) (tick : Tick) : List Recording.ServerEvent :=
  ((source.frame? tick).map (·.serverEvents)).getD []

/-- The joins and leaves recorded in a tick. -/
def lifecycleEvents (source : Source) (tick : Tick) : List Recording.Lifecycle :=
  ((source.frame? tick).map (·.lifecycleEvents)).getD []

/-- The hash recorded for a tick. -/
def recordedHash? (source : Source) (tick : Tick) : Option String :=
  (source.frame? tick).bind (·.stateHash)

/-- The first recorded tick. -/
def firstTick? (source : Source) : Option Tick := source.frames.keys.head?

/-- The last recorded tick. -/
def lastTick? (source : Source) : Option Tick := source.frames.keys.getLast?

/-- The number of recorded ticks. -/
def frameCount (source : Source) : Nat := source.frames.size

end Source
end Chronicle
