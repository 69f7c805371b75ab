import Chronicle.Address
import Chronicle.Target

/-!
# Connected clients

A client is known by its address and has one session at a time.  The identity
of a session consists of the player, the number of the client and the time of
the join; client numbers are never used twice, so neither are the ids made
from them.
-/

namespace Chronicle

/-- A reading of the clocks: the time that never goes back, in nanoseconds,
and the time of day in milliseconds. -/
structure Clock where
  elapsed : Nat
  wall : UInt64
  deriving Repr, DecidableEq, Inhabited

/-- A connected client. -/
structure Session where
  identity : Actor
  address : Address
  lastSeen : Nat
  deriving Repr, DecidableEq, Inhabited

namespace Session

/-- Whether nothing was heard of a client for longer than the timeout. -/
def isTimedOut (session : Session) (timeout : Nat) (clock : Clock) : Bool :=
  timeout < clock.elapsed - session.lastSeen

/-- The player of a session. -/
def player (session : Session) : String := session.identity.player.getD ""

end Session

/-- The connected clients by address, the number of the next one, the most
that may be connected, and the timeout in nanoseconds. -/
structure Clients where
  sessions : Dict Address Session := ∅
  nextNumber : UInt32 := 1
  capacity : Nat
  timeout : Nat := 5000000000
  deriving DecidableEq, Inhabited

namespace Clients

/-- The number of connected clients. -/
def size (clients : Clients) : Nat := clients.sessions.size

/-- Whether no client is connected. -/
def isEmpty (clients : Clients) : Bool := clients.sessions.isEmpty

/-- The session of an address. -/
def byAddress? (clients : Clients) (address : Address) : Option Session :=
  clients.sessions.get? address

/-- The session of a player. -/
def byPlayer? (clients : Clients) (player : String) : Option Session :=
  (clients.sessions.find? fun entry => entry.2.identity.player == some player).map (·.2)

/-- The identity of the client of a number that joins at a time. -/
def identityOf (player : String) (number : UInt32) (clock : Clock) : Actor :=
  .ofIds player s!"c{number.toNat}" s!"s{clock.wall.toNat}-{number.toNat}"

/-- Connects a client, unless all places are taken or the player is connected
already. -/
def add? (clients : Clients) (address : Address) (player : String) (clock : Clock) :
    Option (Actor × Clients) :=
  if clients.capacity ≤ clients.size then none
  else if (clients.byPlayer? player).isSome then none
  else
    let identity := identityOf player clients.nextNumber clock
    some (identity,
      { clients with
        sessions := clients.sessions.insert address ⟨identity, address, clock.elapsed⟩
        nextNumber := clients.nextNumber + 1 })

/-- Disconnects the client of an address. -/
def remove (clients : Clients) (address : Address) : Clients :=
  { clients with sessions := clients.sessions.erase address }

/-- Notes that something was heard of the client of an address. -/
def touch (clients : Clients) (address : Address) (clock : Clock) : Clients :=
  match clients.byAddress? address with
  | some session =>
      { clients with
        sessions := clients.sessions.insert address { session with lastSeen := clock.elapsed } }
  | none => clients

/-- Disconnects the clients of which nothing was heard for too long. -/
def dropSilent (clients : Clients) (clock : Clock) : List Session × Clients :=
  let silent (entry : Address × Session) : Bool := entry.2.isTimedOut clients.timeout clock
  ((clients.sessions.filter silent).values,
    { clients with sessions := clients.sessions.filter fun entry => !silent entry })

/-- The addresses of the clients that a target includes. -/
def addressesFor (clients : Clients) (target : Target) : List Address :=
  (clients.sessions.values.filter fun session => target.includes session.identity).map (·.address)

end Clients
end Chronicle
