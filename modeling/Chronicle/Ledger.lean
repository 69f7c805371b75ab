import Chronicle.Fingerprint
import Chronicle.Registry

/-!
# The ledger

A ledger keeps notes and a running total.  Its notes can need the approval of
a stamp, its sums can take a bonus, and its messages go to targets of the
sender's choice; what happens on a join, and at which ticks something happens
by itself, is a matter of options.
-/

namespace Chronicle
namespace Ledger

open Json (Decoder Fields)

/-- The type of land that a ledger is. -/
def landType : String := "ledger"

/-- The state of a ledger: the notes with their ticks, the total, and the
number of joins. -/
structure State where
  entries : List (Tick × String) := []
  total : Int64 := 0
  joins : UInt32 := 0
  deriving DecidableEq, Inhabited

namespace State

/-- The layout of notes in bytes. -/
def entriesLayout (entries : List (Tick × String)) : List UInt8 :=
  Bytes.list (Bytes.pair Bytes.word64 Bytes.text) entries

/-- The fingerprint of a state. -/
def fingerprint (state : State) : String :=
  Fingerprint.ofBytes <|
    entriesLayout state.entries ++ Bytes.int64 state.total ++ Bytes.word32 state.joins

/-- Adds a note. -/
def note (state : State) (tick : Tick) (text : String) : State :=
  { state with entries := state.entries ++ [(tick, text)] }

/-- Adds to the total, which wraps around at 64 bits. -/
def add (state : State) (amount : Int64) : State := { state with total := state.total + amount }

end State

/-- What a ledger does on a join: nothing, or count it, at once, with a stamp,
or with a stamp that is never given. -/
inductive JoinRule where
  | ignored
  | plain
  | stamped
  | denied
  deriving Repr, DecidableEq, Inhabited

/-- The options of a ledger: what it does on a join, after how many ticks each
there is a milestone, and the tick whose update fails. -/
structure Options where
  join : JoinRule := .plain
  milestone : UInt64 := 0
  failTick : Option Tick := none
  deriving Repr, DecidableEq, Inhabited

/-- A note. -/
structure Note where
  text : String

instance : Readable Note where
  name := "Note"
  decoder := Decoder.record (Note.mk <$> Fields.required "text" Decoder.string)

/-- A note that needs a stamp. -/
structure Approved where
  text : String

instance : Readable Approved where
  name := "Approved"
  decoder := Decoder.record (Approved.mk <$> Fields.required "text" Decoder.string)

instance : Writable Approved where
  name := "Approved"
  encode approved := .ok <| .ofMembers [("text", .string approved.text)]

/-- Something that is never approved. -/
structure Denied where

instance : Readable Denied where
  name := "Denied"
  decoder := fun room node => (Decoder.unit room node).map fun _ => {}

/-- A sum. -/
structure Add where
  amount : Int64

instance : Readable Add where
  name := "Add"
  decoder := Decoder.record (Add.mk <$> Fields.required "amount" Decoder.int64)

instance : Writable Add where
  name := "Add"
  encode add := .ok <| .ofMembers [("amount", .ofInt64 add.amount)]

/-- A message to a target. -/
structure Whisper where
  text : String
  target : TargetRecord

instance : Readable Whisper where
  name := "Whisper"
  decoder := Decoder.record <|
    Whisper.mk <$> Fields.required "text" Decoder.string
      <*> Fields.required "target" TargetRecord.decoder

/-- A request that gets stuck half way. -/
structure Jam where
  keys : Int64

instance : Readable Jam where
  name := "Jam"
  decoder := Decoder.record (Jam.mk <$> Fields.required "keys" Decoder.int64)

/-- A request for a sign of life, and the way that it is to take. -/
structure Ping where
  n : UInt32
  via : Option String

instance : Readable Ping where
  name := "Ping"
  decoder := Decoder.record <|
    Ping.mk <$> Fields.required "n" Decoder.word32 <*> Fields.optional "via" Decoder.string

/-- The stamp on an approved note. -/
structure Stamp where
  text : String

instance : Readable Stamp where
  name := "Stamp"
  decoder := fun room node => (Decoder.string room node).map Stamp.mk

instance : Writable Stamp where
  name := "Stamp"
  encode stamp := .ok (.string stamp.text)

/-- What is added to a sum. -/
structure Bonus where
  amount : Int64

instance : Readable Bonus where
  name := "Bonus"
  decoder := fun room node => (Decoder.int64 room node).map Bonus.mk

/-- A table whose keys are pairs, for which an object has no place. -/
structure PairTable where
  entries : List ((UInt32 × UInt32) × UInt32)

instance : Writable PairTable where
  name := "Unwritable"
  encode table :=
    match table.entries with
    | [] => .ok (.object [])
    | _ :: _ => .error "key must be a string"

/-- A table that has no JSON form. -/
def pairTable : PairTable := ⟨[((1, 2), 3)]⟩

/-- The name of the resolver that stamps. -/
def stampName : String := "stamp"

/-- Stamps an item with the land, its type, its player and its payload. -/
def stampResolver : Resolver where
  name := stampName
  resolve context _ :=
    let player := context.actor.player.getD ""
    capture (Stamp.mk s!"{context.landId}:{context.type}:{player}:{context.payload.compact}")

/-- Never gives a stamp. -/
def refusingResolver : Resolver where
  name := stampName
  resolve _ _ := .error (.failed "stamp service down")

/-- Emits an event of a type whose payload is given. -/
def announce (type : String) (payload : Json) (target : Target) : Effect State Unit :=
  Effect.emitEvent ⟨type, payload, target⟩

/-- Adds a note. -/
def onNote : Handler State Note := fun context note =>
  Effect.modifyState fun state => state.note context.tick note.text

/-- Adds a note with its stamp. -/
def onApproved : Handler State Approved := fun context approved => do
  let stamp ← context.resolved Stamp stampName
  Effect.modifyState fun state => state.note context.tick s!"{approved.text} {stamp.text}"
  announce "Stamped" (.ofMembers [("text", .string approved.text)]) .all

/-- Does nothing. -/
def onDenied : Handler State Denied := fun _ _ => pure ()

/-- The bonus captured for an item, zero if there is none. -/
def bonus (context : Context) : Except LandError Int64 :=
  match context.resolved Bonus "bonus" with
  | .ok bonus => .ok bonus.amount
  | .error (.missingOutput _) => .ok 0
  | .error error => .error error

/-- Adds a sum and its bonus to the total. -/
def onAdd : Handler State Add := fun context add => do
  let extra ← bonus context
  Effect.modifyState fun state => state.add (add.amount + extra)
  Effect.emit add .all

/-- Sends a message to its target. -/
def onWhisper : Handler State Whisper := fun context whisper => do
  let player ← context.player
  match whisper.target.toTarget with
  | .error error => Effect.reject error.message
  | .ok target =>
      Effect.modifyState fun state => state.add 1
      announce "Whispered"
        (.ofMembers [("from", .string player), ("text", .string whisper.text)]) target

/-- Sets the total and announces it, and then tries to emit what has no JSON
form. -/
def onJam : Handler State Jam := fun _ jam => do
  Effect.modifyState fun state => { state with total := jam.keys }
  announce "Jammed" (.ofInt64 jam.keys) .all
  Effect.emit pairTable .all

/-- The way back to the sender of a ping. -/
def answerTarget? (actor : Actor) : Option String → Option Target
  | some "session" => actor.session.map .session
  | some "player" => actor.player.map .player
  | _ => actor.client.map .client

/-- Answers a ping. -/
def onPing : Handler State Ping := fun context ping =>
  match answerTarget? context.actor ping.via with
  | none => Effect.reject "nobody to answer"
  | some target => announce "Pong" (.ofMembers [("n", .ofUInt32 ping.n)]) target

/-- Refuses a note that comes as a client event. -/
def onNoteEvent : Handler State Note := fun _ _ => Effect.reject "read only"

/-- Counts a join and announces it. -/
def onJoin : Handler State LifecycleDetails := fun context details => do
  Effect.modifyState fun state => { state with joins := state.joins + 1 }
  let player ← context.player
  announce "Joined"
    (.ofMembers
      [("device", .ofOption .string details.device), ("guest", .bool (details.guest.getD false)),
        ("meta", Recording.stringsToJson details.metadata), ("player", .string player)])
    .all

/-- Adds a note of a fixed text, whatever the item says. -/
def tagging (tag : String) : Handler State α := fun context _ =>
  Effect.modifyState fun state => state.note context.tick tag

/-- Whether a milestone falls on a tick: on the last of every so many. -/
def isMilestone (every : UInt64) (tick : Tick) : Bool :=
  0 < every && tick % every == every - 1

/-- Announces a milestone, and fails at the tick that is to fail. -/
def update (options : Options) (context : Context) : Effect State Unit := do
  if isMilestone options.milestone context.tick then
    announce "Milestone" (.ofMembers [("tick", .ofUInt64 context.tick)]) .all
  if options.failTick = some context.tick then Effect.reject "tick refused"

/-- The registration for joins. -/
def joinRegistration : JoinRule → Option (Registration State LifecycleDetails)
  | .ignored => none
  | .plain => some ⟨onJoin, []⟩
  | .stamped => some ⟨onJoin, [stampResolver]⟩
  | .denied => some ⟨onJoin, [refusingResolver]⟩

/-- The handlers of a ledger. -/
def registry (options : Options) : Registry State where
  landType := landType
  actions := .ofList
    [Registry.actionEntry Note [] onNote,
      Registry.actionEntry Approved [stampResolver] onApproved,
      Registry.actionEntry Denied [refusingResolver] onDenied,
      Registry.actionEntry Add [] onAdd,
      Registry.actionEntry Whisper [] onWhisper,
      Registry.actionEntry Jam [] onJam]
  clientEvents := .ofList
    [Registry.clientEventEntry Ping onPing,
      Registry.clientEventEntry Note onNoteEvent]
  join := joinRegistration options.join

/-- The rules of a ledger. -/
def rules (options : Options) : Rules State where
  registry := registry options
  update := update options
  fingerprint := State.fingerprint

end Ledger
end Chronicle
