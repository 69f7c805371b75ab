import Chronicle.Error

/-!
# Items

What a caller submits is an inbound.  With a sequence number it is a
submission, and with the outputs of its resolvers and the tick in which they
were complete it is an item, ready to be executed.  An executed item is
recorded, and the record gives the item back.
-/

namespace Chronicle

/-- What an item is. -/
inductive ItemKind where
  | action
  | clientEvent
  | lifecycle (kind : LifecycleKind)
  deriving Repr, DecidableEq, Inhabited

/-- Details of the connection that a join or leave carries. -/
structure LifecycleDetails where
  device : Option String := none
  guest : Option Bool := none
  metadata : Dict String String := ∅
  deriving DecidableEq, Inhabited

/-- What a caller hands to a land. -/
inductive Inbound where
  | action (type : String) (payload : Json) (actor : Actor)
  | clientEvent (type : String) (payload : Json) (actor : Actor)
  | lifecycle (kind : LifecycleKind) (actor : Actor) (details : LifecycleDetails)
  deriving DecidableEq, Inhabited

/-- An inbound with its sequence number. -/
structure Submission where
  kind : ItemKind
  sequence : Sequence
  type : String
  payload : Json
  actor : Actor
  details : Option LifecycleDetails
  deriving DecidableEq, Inhabited

/-- A submission with the outputs of its resolvers and the tick in which it
became ready. -/
structure Item extends Submission where
  outputs : ResolverOutputs
  resolvedAt : Tick
  deriving DecidableEq, Inhabited

/-- Items are executed in the order of the tick in which they became ready,
and within a tick in the order of their sequence numbers. -/
structure OrderKey where
  tick : Tick
  sequence : Sequence
  deriving Repr, DecidableEq, Inhabited

namespace OrderKey

instance : Ord OrderKey := ⟨compareLex (compareOn tick) (compareOn sequence)⟩

instance : Std.TransOrd OrderKey :=
  inferInstanceAs (Std.TransCmp (compareLex (compareOn tick) (compareOn sequence)))

instance : Std.LawfulEqOrd OrderKey where
  eq_of_compare {a b} same := by
    have both : (compare a.tick b.tick).then (compare a.sequence b.sequence) = .eq := same
    obtain ⟨first, second⟩ := Ordering.then_eq_eq.1 both
    have sameTick : a.tick = b.tick := Std.LawfulEqOrd.eq_of_compare first
    have sameSequence : a.sequence = b.sequence := Std.LawfulEqOrd.eq_of_compare second
    cases a
    cases b
    subst sameTick sameSequence
    rfl

end OrderKey

namespace ItemKind

/-- The name of a kind in a message. -/
def label : ItemKind → String
  | .action => "action"
  | .clientEvent => "client event"
  | .lifecycle kind => kind.name

end ItemKind

namespace Inbound

/-- The kind of the item that an inbound becomes. -/
def kind : Inbound → ItemKind
  | .action _ _ _ => .action
  | .clientEvent _ _ _ => .clientEvent
  | .lifecycle kind _ _ => .lifecycle kind

/-- The type under which an inbound is dispatched. -/
def type : Inbound → String
  | .action type _ _ => type
  | .clientEvent type _ _ => type
  | .lifecycle kind _ _ => kind.name

/-- The name of the operation that submits an inbound. -/
def operation : Inbound → String
  | .action _ _ _ => "submit_action"
  | .clientEvent _ _ _ => "submit_client_event"
  | .lifecycle _ _ _ => "submit_lifecycle_event"

/-- Gives an inbound its sequence number. -/
def submission (sequence : Sequence) : Inbound → Submission
  | .action type payload actor => ⟨.action, sequence, type, payload, actor, none⟩
  | .clientEvent type payload actor => ⟨.clientEvent, sequence, type, payload, actor, none⟩
  | .lifecycle kind actor details =>
      ⟨.lifecycle kind, sequence, kind.name, .null, actor, some details⟩

@[simp] theorem sequence_submission (inbound : Inbound) (sequence : Sequence) :
    (inbound.submission sequence).sequence = sequence := by
  cases inbound <;> rfl

@[simp] theorem kind_submission (inbound : Inbound) (sequence : Sequence) :
    (inbound.submission sequence).kind = inbound.kind := by
  cases inbound <;> rfl

@[simp] theorem type_submission (inbound : Inbound) (sequence : Sequence) :
    (inbound.submission sequence).type = inbound.type := by
  cases inbound <;> rfl

end Inbound

namespace Submission

/-- The item that a submission becomes when its resolvers are done. -/
def resolve (submission : Submission) (outputs : ResolverOutputs) (tick : Tick) : Item :=
  { submission with outputs := outputs, resolvedAt := tick }

end Submission

/-- The recorded form of an item, by the list of a frame it belongs to. -/
inductive ItemRecord where
  | action (input : Recording.Input)
  | clientEvent (input : Recording.Input)
  | lifecycle (event : Recording.Lifecycle)
  deriving DecidableEq, Inhabited

namespace Item

/-- The place of an item in the order of execution. -/
def orderKey (item : Item) : OrderKey := ⟨item.resolvedAt, item.sequence⟩

/-- The record of an item as an input of a kind. -/
def toInput (kind : RecordKind) (item : Item) : Recording.Input :=
  ⟨kind, item.sequence, item.type, item.payload, item.actor, item.outputs, item.resolvedAt⟩

/-- The record of an item as a join or leave executed in a tick. -/
def toLifecycle (kind : LifecycleKind) (tick : Tick) (item : Item) : Recording.Lifecycle :=
  let details := item.details.getD {}
  ⟨kind, item.sequence, tick, item.actor, details.device, details.guest, details.metadata,
    item.outputs, item.resolvedAt⟩

/-- The record of an item that was executed in a tick. -/
def toRecord (tick : Tick) (item : Item) : ItemRecord :=
  match item.kind with
  | .action => .action (item.toInput .action)
  | .clientEvent => .clientEvent (item.toInput .clientEvent)
  | .lifecycle kind => .lifecycle (item.toLifecycle kind tick)

/-- The item of a recorded input. -/
def ofInput (input : Recording.Input) : Item :=
  { kind := if input.kind = .clientEvent then .clientEvent else .action
    sequence := input.sequence
    type := input.type
    payload := input.payload
    actor := input.actor
    details := none
    outputs := input.outputs
    resolvedAt := input.resolvedAt }

/-- The item of a recorded join or leave. -/
def ofLifecycle (event : Recording.Lifecycle) : Item :=
  { kind := .lifecycle event.kind
    sequence := event.sequence
    type := event.kind.name
    payload := .null
    actor := event.actor
    details := some ⟨event.device, event.guest, event.metadata⟩
    outputs := event.outputs
    resolvedAt := event.resolvedAt }

end Item

namespace ItemRecord

/-- The item that a record gives back. -/
def toItem : ItemRecord → Item
  | .action input => .ofInput input
  | .clientEvent input => .ofInput input
  | .lifecycle event => .ofLifecycle event

/-- The name of the list of a frame that a record belongs to. -/
def listName : ItemRecord → String
  | .action _ => "actions"
  | .clientEvent _ => "clientEvents"
  | .lifecycle _ => "lifecycleEvents"

/-- The JSON value of a record. -/
def toJson : ItemRecord → Json
  | .action input => input.toJson
  | .clientEvent input => input.toJson
  | .lifecycle event => event.toJson

end ItemRecord
end Chronicle
