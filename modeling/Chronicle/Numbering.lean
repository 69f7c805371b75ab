import Chronicle.Error

/-!
# Sequence numbers

One counter numbers the actions, client events, lifecycle events and server
events of a land.  The greatest number of 64 bits is never issued: the counter
stops at it.
-/

namespace Chronicle

/-- The counter of a land's sequence numbers. -/
structure Numbering where
  next : Sequence := 0
  deriving Repr, DecidableEq, Inhabited

namespace Numbering

/-- The greatest number of 64 bits. -/
def limit : Sequence := 0xffffffffffffffff

/-- Issues a number, or fails for good once the counter has reached the limit. -/
def issue (numbering : Numbering) : Except LandError (Sequence × Numbering) :=
  if numbering.next = limit then .error .sequenceOverflow
  else .ok (numbering.next, ⟨numbering.next + 1⟩)

end Numbering
end Chronicle
