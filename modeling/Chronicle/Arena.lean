import Chronicle.Fingerprint
import Chronicle.Ieee.Single
import Chronicle.Registry
import Chronicle.Text.Blank

/-!
# The arena

Players join at a random spawn point, walk toward a target of their choice
within the bounds of the world, and chat.
-/

namespace Chronicle
namespace Arena

open Ieee (Single)
open Json (Decoder Fields)

/-- The type of land that an arena is. -/
def landType : String := "arena"

/-- The width of the world. -/
def worldWidth : Nat := 800

/-- The height of the world. -/
def worldHeight : Nat := 600

/-- The distance that an avatar covers in a tick. -/
def moveSpeed : Single := .ofInt 4

/-- The greatest length of a chat message in bytes. -/
def maxChatLength : Nat := 200

/-- A player's place in the world, the target of the walk, and whether the
player is a guest. -/
structure Avatar where
  x : Single
  y : Single
  targetX : Single
  targetY : Single
  isGuest : Bool
  deriving Repr, DecidableEq, Inhabited

namespace Avatar

/-- An avatar that stands at a point. -/
def standingAt (x y : Single) (isGuest : Bool) : Avatar := ⟨x, y, x, y, isGuest⟩

/-- Moves an avatar toward its target: onto it when that is not farther than
one tick's distance. -/
def advance (avatar : Avatar) : Avatar :=
  let dx := avatar.targetX - avatar.x
  let dy := avatar.targetY - avatar.y
  let distance := (dx * dx + dy * dy).sqrt
  if distance.le moveSpeed then { avatar with x := avatar.targetX, y := avatar.targetY }
  else
    { avatar with
      x := avatar.x + dx / distance * moveSpeed
      y := avatar.y + dy / distance * moveSpeed }

/-- The layout of an avatar in bytes. -/
def layout (avatar : Avatar) : List UInt8 :=
  Bytes.word32 avatar.x.bits ++ Bytes.word32 avatar.y.bits ++
    Bytes.word32 avatar.targetX.bits ++ Bytes.word32 avatar.targetY.bits ++
    Bytes.bool avatar.isGuest

end Avatar

/-- The state of an arena: the last tick, the avatars of the players, and the
number of chat messages. -/
structure State where
  tick : Tick := 0
  players : Dict String Avatar := ∅
  chats : UInt64 := 0
  deriving DecidableEq, Inhabited

namespace State

/-- The layout of a state in bytes. -/
def layout (state : State) : List UInt8 :=
  Bytes.word64 state.tick ++ Bytes.dict Bytes.text Avatar.layout state.players ++
    Bytes.word64 state.chats

/-- The fingerprint of a state. -/
def fingerprint (state : State) : String := Fingerprint.ofBytes state.layout

/-- The state in which the arena that a recording is of began.  An arena has
no options, so that is always the empty one. -/
def initial (_metadata : Recording.Metadata) : State := {}

end State

/-- An object whose members are two coordinates. -/
def pointFields (make : Single → Single → α) : Fields α :=
  make <$> Fields.required "x" Decoder.single <*> Fields.required "y" Decoder.single

/-- The request to walk to a point. -/
structure MoveTo where
  x : Single
  y : Single
  deriving Repr, DecidableEq

instance : Readable MoveTo where
  name := "MoveTo"
  decoder := Decoder.record (pointFields MoveTo.mk)

instance : Writable MoveTo where
  name := "MoveTo"
  encode moveTo := .ok <| .ofMembers [("x", .ofSingle moveTo.x), ("y", .ofSingle moveTo.y)]

/-- The request to say something. -/
structure Chat where
  text : String
  deriving Repr, DecidableEq

instance : Readable Chat where
  name := "Chat"
  decoder := Decoder.record (Chat.mk <$> Fields.required "text" Decoder.string)

/-- The point where a player enters the world. -/
structure SpawnPoint where
  x : Single
  y : Single
  deriving Repr, DecidableEq

instance : Readable SpawnPoint where
  name := "SpawnPoint"
  decoder := Decoder.record (pointFields SpawnPoint.mk)

instance : Writable SpawnPoint where
  name := "SpawnPoint"
  encode spawn := .ok <| .ofMembers [("x", .ofSingle spawn.x), ("y", .ofSingle spawn.y)]

/-- The news that a player has joined. -/
structure PlayerJoined where
  player : String
  x : Single
  y : Single
  deriving Repr, DecidableEq

instance : Writable PlayerJoined where
  name := "PlayerJoined"
  encode joined := .ok <| .ofMembers
    [("playerId", .string joined.player), ("x", .ofSingle joined.x), ("y", .ofSingle joined.y)]

/-- The news that a player has left. -/
structure PlayerLeft where
  player : String
  deriving Repr, DecidableEq

instance : Writable PlayerLeft where
  name := "PlayerLeft"
  encode left := .ok <| .ofMembers [("playerId", .string left.player)]

/-- A chat message to everybody. -/
structure ChatMessage where
  player : String
  text : String
  deriving Repr, DecidableEq

instance : Writable ChatMessage where
  name := "ChatMessage"
  encode chat := .ok <| .ofMembers
    [("playerId", .string chat.player), ("text", .string chat.text)]

/-- The spawn point of a draw: a point of the world with whole coordinates. -/
def spawnPoint (draw : Nat) : SpawnPoint :=
  ⟨.ofInt (draw % worldWidth : Nat), .ofInt (draw / worldWidth % worldHeight : Nat)⟩

/-- Draws the spawn point of a player who joins. -/
def spawnResolver : Resolver where
  name := "spawn"
  resolve _ draw := capture (spawnPoint draw)

/-- The text of the error for a player who is not there. -/
def absent (player : String) : String := s!"player {player} is not in the arena"

/-- Puts a player who joins at the spawn point. -/
def onJoin : Handler State LifecycleDetails := fun context details => do
  let player ← context.player
  let spawn ← context.resolved SpawnPoint "spawn"
  let avatar := Avatar.standingAt spawn.x spawn.y (details.guest.getD false)
  Effect.modifyState fun state => { state with players := state.players.insert player avatar }
  Effect.emit (PlayerJoined.mk player spawn.x spawn.y) .all

/-- Takes a player who leaves out of the world. -/
def onLeave : Handler State LifecycleDetails := fun context _ => do
  let player ← context.player
  let state ← Effect.state
  if state.players.contains player then
    Effect.setState { state with players := state.players.erase player }
    Effect.emit (PlayerLeft.mk player) .all
  else Effect.reject (absent player)

/-- Sets the target of a player's walk, within the bounds of the world. -/
def onMoveTo : Handler State MoveTo := fun context moveTo => do
  let player ← context.player
  let state ← Effect.state
  match state.players.get? player with
  | none => Effect.reject (absent player)
  | some avatar =>
      let targetX := moveTo.x.clamp (.ofInt 0) (.ofInt worldWidth)
      let targetY := moveTo.y.clamp (.ofInt 0) (.ofInt worldHeight)
      let moved := { avatar with targetX := targetX, targetY := targetY }
      Effect.setState { state with players := state.players.insert player moved }

/-- Passes a chat message on to everybody, without the blanks around it. -/
def onChat : Handler State Chat := fun context chat => do
  let text := String.ofList (Text.trim chat.text.toList)
  if text.isEmpty || maxChatLength < text.utf8ByteSize then
    Effect.reject s!"chat message must be 1 to {maxChatLength} bytes"
  else
    let player ← context.player
    Effect.modifyState fun state => { state with chats := state.chats + 1 }
    Effect.emit (ChatMessage.mk player text) .all

/-- Moves every avatar at the end of a tick. -/
def update (context : Context) : Effect State Unit :=
  Effect.modifyState fun state =>
    { state with tick := context.tick, players := state.players.map Avatar.advance }

/-- The handlers of an arena. -/
def registry : Registry State where
  landType := landType
  actions := .ofList [Registry.actionEntry MoveTo [] onMoveTo]
  clientEvents := .ofList [Registry.clientEventEntry Chat onChat]
  join := some ⟨onJoin, [spawnResolver]⟩
  leave := some ⟨onLeave, []⟩

/-- The rules of an arena. -/
def rules : Rules State where
  registry := registry
  update := update
  fingerprint := State.fingerprint

end Arena
end Chronicle
