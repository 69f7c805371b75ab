import Chronicle.Actor

/-!
# Targets of server events

A target says which connected clients receive a server event.  Its record is
the flat form that is stored: a case and a list of ids, whose number has to
suit the case.
-/

namespace Chronicle

/-- Who receives a server event. -/
inductive Target where
  | all
  | player (id : String)
  | client (id : String)
  | session (id : String)
  | players (ids : List String)
  deriving Repr, DecidableEq, Inhabited

/-- The case of a stored target. -/
inductive TargetCase where
  | all
  | player
  | client
  | session
  | players
  deriving Repr, DecidableEq, Inhabited

namespace TargetCase

/-- The name under which a case is stored. -/
def name : TargetCase → String
  | .all => "all"
  | .player => "player"
  | .client => "client"
  | .session => "session"
  | .players => "players"

/-- The name of a case in a message. -/
def title : TargetCase → String
  | .all => "All"
  | .player => "Player"
  | .client => "Client"
  | .session => "Session"
  | .players => "Players"

/-- The case stored under a name. -/
def ofName? (name : String) : Option TargetCase :=
  [all, player, client, session, players].find? fun c => c.name == name

/-- How many ids a case takes, in words. -/
def expected : TargetCase → String
  | .all => "0"
  | .player => "1"
  | .client => "1"
  | .session => "1"
  | .players => "1 or more"

end TargetCase

/-- The stored form of a target. -/
structure TargetRecord where
  case : TargetCase
  ids : List String
  deriving Repr, DecidableEq, Inhabited

/-- A stored target whose number of ids does not suit its case. -/
structure TargetError where
  case : TargetCase
  found : Nat
  deriving Repr, DecidableEq

namespace TargetError

/-- The text of the error. -/
def message (error : TargetError) : String :=
  s!"target case {error.case.title} expects {error.case.expected} id(s), found {error.found}"

end TargetError

namespace Target

/-- Whether a connection with the given identity receives the event. -/
def includes (actor : Actor) : Target → Bool
  | .all => true
  | .player id => actor.player == some id
  | .client id => actor.client == some id
  | .session id => actor.session == some id
  | .players ids => actor.player.any ids.contains

/-- The stored form of a target. -/
def toRecord : Target → TargetRecord
  | .all => ⟨.all, []⟩
  | .player id => ⟨.player, [id]⟩
  | .client id => ⟨.client, [id]⟩
  | .session id => ⟨.session, [id]⟩
  | .players ids => ⟨.players, ids⟩

end Target

namespace TargetRecord

/-- The target that a record stands for. -/
def toTarget (record : TargetRecord) : Except TargetError Target :=
  match record.case, record.ids with
  | .all, [] => .ok .all
  | .player, [id] => .ok (.player id)
  | .client, [id] => .ok (.client id)
  | .session, [id] => .ok (.session id)
  | .players, id :: rest => .ok (.players (id :: rest))
  | case, ids => .error ⟨case, ids.length⟩

/-- A stored target as JSON. -/
def toJson (record : TargetRecord) : Json :=
  .object [("case", .string record.case.name), ("ids", .array (record.ids.map .string))]

open Json (Decoder Fields)

/-- Decodes a stored target.  The number of ids is not looked at. -/
def decoder : Decoder TargetRecord := Decoder.record <|
  TargetRecord.mk <$> Fields.required "case" (Decoder.variant TargetCase.ofName?)
    <*> Fields.defaulted "ids" (Decoder.list Decoder.string) []

end TargetRecord
end Chronicle
