import Chronicle.Error

/-!
# Storage

A storage takes the metadata record and then batches of frames.  A call that
fails has stored nothing of what it was given.
-/

namespace Chronicle

/-- Where a recording is stored, by effects of one kind. -/
structure Storage (m : Type → Type) where
  writeMetadata : Recording.Metadata → m (Except StorageError Unit)
  appendFrames : List Recording.Frame → m (Except StorageError Unit)

namespace Recording

/-- The first of some frames that has a tick. -/
def frameOf? (tick : Tick) (frames : List Frame) : Option Frame :=
  frames.find? fun frame => frame.tick = tick

end Recording
end Chronicle
