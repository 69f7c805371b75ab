import Chronicle.Json.Decoder

/-!
# Actors

An actor says on whose behalf an item is executed: the player, the client
connection and the session.  Each of the three may be unknown.
-/

namespace Chronicle

/-- On whose behalf something happens. -/
structure Actor where
  player : Option String := none
  client : Option String := none
  session : Option String := none
  deriving Repr, DecidableEq, Inhabited

namespace Actor

/-- The actor of whom nothing is known. -/
def nobody : Actor := {}

/-- An actor of whom everything is known. -/
def ofIds (player client session : String) : Actor := ⟨some player, some client, some session⟩

/-- Whether nothing is known of the actor. -/
def isAnonymous (actor : Actor) : Bool :=
  actor.player.isNone && actor.client.isNone && actor.session.isNone

/-- The members of an actor within a record. -/
def members (actor : Actor) : List (String × Json) :=
  [("playerID", .ofOption .string actor.player),
    ("clientID", .ofOption .string actor.client),
    ("sessionID", .ofOption .string actor.session)]

/-- An actor as a record of its own. -/
def toJson (actor : Actor) : Json := .object actor.members

open Json (Decoder Fields)

/-- Decodes an actor as a record of its own. -/
def decoder : Decoder Actor := Decoder.record <|
  Actor.mk <$> Fields.optional "playerID" Decoder.string
    <*> Fields.optional "clientID" Decoder.string
    <*> Fields.optional "sessionID" Decoder.string

/-- Decodes an actor embedded in another record. -/
def embedded : Fields Actor :=
  Actor.mk <$> Fields.embedded "playerID" Decoder.string
    <*> Fields.embedded "clientID" Decoder.string
    <*> Fields.embedded "sessionID" Decoder.string

end Actor
end Chronicle
