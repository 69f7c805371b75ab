import Chronicle.Item

/-!
# The queue

Items that are ready wait here for their tick, in the order in which they will
be executed.  An index of sequence numbers keeps a number from being queued
twice.
-/

namespace Chronicle

/-- The items that wait for their tick. -/
structure Queue where
  items : Dict OrderKey Item := ∅
  sequences : Dict Sequence Unit := ∅
  deriving Inhabited

namespace Queue

/-- The number of waiting items. -/
def size (queue : Queue) : Nat := queue.items.size

/-- Whether no item waits. -/
def isEmpty (queue : Queue) : Bool := queue.items.isEmpty

/-- The waiting items in the order of execution. -/
def toList (queue : Queue) : List Item := queue.items.values

/-- Adds an item, unless one with its sequence number is waiting. -/
def push? (queue : Queue) (item : Item) : Option Queue :=
  if queue.sequences.contains item.sequence then none
  else
    some
      { items := queue.items.insert item.orderKey item
        sequences := queue.sequences.insert item.sequence () }

/-- Adds an item; one whose sequence number is waiting already is ignored. -/
def push (queue : Queue) (item : Item) : Queue := (queue.push? item).getD queue

/-- Takes the items that became ready before a tick, in the order of
execution. -/
def drain (queue : Queue) (tick : Tick) : List Item × Queue :=
  let ready := queue.items.filter fun entry => entry.1.tick < tick
  let later := queue.items.filter fun entry => !(entry.1.tick < tick)
  let sequences := ready.values.foldl (fun index item => index.erase item.sequence) queue.sequences
  (ready.values, ⟨later, sequences⟩)

end Queue
end Chronicle
