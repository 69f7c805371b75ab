import Chronicle.Clients
import Chronicle.Handler
import Chronicle.Packet.Basic

/-!
# The transport

The transport stands between the clients and a land.  It turns packets into
submissions under the identity of the session, answers each request with one
packet, and delivers the events of the land to the sessions that they are for.
-/

namespace Chronicle

/-- Who waits for the acknowledgment of a submission: a client that joins with
a new identity, a client that made a request, or nobody after a leave. -/
inductive Submitter where
  | join (address : Address) (identity : Actor)
  | request (address : Address) (request : UInt32)
  | leave
  deriving Repr, DecidableEq, Inhabited

/-- What waits to be sent: a packet to an address, or an event to the sessions
that it is for when its turn comes. -/
inductive Outgoing where
  | packet (packet : Packet) (address : Address)
  | event (tick : Tick) (event : Event)
  deriving DecidableEq, Inhabited

/-- A submission to the land and who waits for its acknowledgment. -/
structure Request where
  submitter : Submitter
  inbound : Inbound
  deriving DecidableEq, Inhabited

/-- The inbound of a payload that is given as JSON text, if that is a value. -/
def Inbound.ofPayload? (type payload : String) (actor : Actor) (isClientEvent : Bool) :
    Option Inbound :=
  (Json.parse? payload).map fun value =>
    if isClientEvent then .clientEvent type value actor else .action type value actor

/-- The packet that delivers an event. -/
def Event.packet (tick : Tick) (event : Event) : Packet :=
  .serverEvent tick event.type event.payload.compact

/-- The transport: the connected clients, what waits to be sent, and what the reader of
payloads says about a text that is no JSON value. -/
structure Transport where
  clients : Clients
  outbox : List Outgoing := []
  complaint : String → String := fun _ => "not a JSON value"
  deriving Inhabited

namespace Transport

/-- The reason given to a client that makes a request without having joined. -/
def notJoined : String := "Not joined"

/-- The reason given for a payload that is no JSON value. -/
def malformed (complaint : String) : String := s!"Malformed payload: {complaint}"

/-- The reason given to a client that finds no place. -/
def noPlace : String := "Server full or player already connected"

/-- The reason given to every client at the end. -/
def closing : String := "Server shutting down"

/-- The reason given to a client that speaks another version. -/
def unsupported (version : UInt32) : String := s!"Unsupported client version {version.toNat}"

/-- Puts a packet to an address among what waits to be sent. -/
def send (transport : Transport) (packet : Packet) (address : Address) : Transport :=
  { transport with outbox := transport.outbox ++ [.packet packet address] }

/-- Puts an event among what waits to be sent. -/
def publish (transport : Transport) (tick : Tick) (event : Event) : Transport :=
  { transport with outbox := transport.outbox ++ [.event tick event] }

/-- The leave of an identity, as far as the land takes submissions. -/
def leave (isOpen : Bool) (identity : Actor) : List Request :=
  if isOpen then [⟨.leave, .lifecycle .leave identity {}⟩] else []

/-- Connects a client that joins and submits its join. -/
def connect (isOpen : Bool) (clock : Clock) (address : Address) (player : String)
    (details : LifecycleDetails) (transport : Transport) : List Request × Transport :=
  match transport.clients.add? address player clock with
  | none => ([], transport.send (.disconnected noPlace) address)
  | some (identity, clients) =>
      if isOpen then
        ([⟨.join address identity, .lifecycle .join identity details⟩],
          { transport with clients := clients })
      else
        let removed := { transport with clients := clients.remove address }
        ([], removed.send (.disconnected LandError.landClosed.message) address)

/-- Handles a join.  A session that the address has already is replaced, and
its leave is submitted first. -/
def handleJoin (isOpen : Bool) (clock : Clock) (address : Address) (version : UInt32)
    (player : String) (details : LifecycleDetails) (transport : Transport) :
    List Request × Transport :=
  if version ≠ Packet.protocolVersion then
    ([], transport.send (.disconnected (unsupported version)) address)
  else
    let left :=
      match transport.clients.byAddress? address with
      | some session => leave isOpen session.identity
      | none => []
    let vacated := { transport with clients := transport.clients.remove address }
    let (requests, connected) := connect isOpen clock address player details vacated
    (left ++ requests, connected)

/-- Handles an action or a client event. -/
def handleRequest (isOpen : Bool) (clock : Clock) (address : Address) (request : UInt32)
    (type payload : String) (isClientEvent : Bool) (transport : Transport) :
    List Request × Transport :=
  match transport.clients.byAddress? address with
  | none => ([], transport.send (.rejected request notJoined) address)
  | some session =>
      let touched := { transport with clients := transport.clients.touch address clock }
      match Inbound.ofPayload? type payload session.identity isClientEvent with
      | none =>
          let reason := malformed (transport.complaint payload)
          ([], touched.send (.rejected request reason) address)
      | some inbound =>
          if isOpen then ([⟨.request address request, inbound⟩], touched)
          else ([], touched.send (.rejected request LandError.landClosed.message) address)

/-- Handles a packet from an address, in front of a land that takes submissions
or no longer does: the submissions to make, and the transport afterwards. -/
def handle (isOpen : Bool) (clock : Clock) (packet : Packet) (address : Address)
    (transport : Transport) : List Request × Transport :=
  match packet with
  | .join version player device guest metadata =>
      handleJoin isOpen clock address version player ⟨device, some guest, metadata⟩ transport
  | .action request type payload =>
      handleRequest isOpen clock address request type payload false transport
  | .clientEvent request type payload =>
      handleRequest isOpen clock address request type payload true transport
  | .heartbeat => ([], { transport with clients := transport.clients.touch address clock })
  | .leave =>
      match transport.clients.byAddress? address with
      | some session =>
          (leave isOpen session.identity,
            { transport with clients := transport.clients.remove address })
      | none => ([], transport)
  | _ => ([], transport)

/-- The packet that tells a client of its join. -/
def joinedPacket (identity : Actor) : Packet :=
  .joined (identity.player.getD "") (identity.client.getD "") (identity.session.getD "")

/-- Passes on the acknowledgment of a submission, none if it was dropped.  The
session of a join that was refused is removed. -/
def acknowledge (submitter : Submitter) (result : Option (Except LandError Sequence))
    (transport : Transport) : Transport :=
  match submitter, result with
  | .join address identity, some (.ok _) => transport.send (joinedPacket identity) address
  | .join address _, some (.error error) =>
      let removed := { transport with clients := transport.clients.remove address }
      removed.send (.disconnected error.message) address
  | .join address _, none =>
      transport.send (.disconnected LandError.landClosed.message) address
  | .request address request, some (.ok sequence) => transport.send (.ack request sequence) address
  | .request address request, some (.error error) =>
      transport.send (.rejected request error.message) address
  | .request address request, none =>
      transport.send (.rejected request LandError.landClosed.message) address
  | .leave, _ => transport

/-- The datagrams of what is sent. -/
def datagrams (transport : Transport) : Outgoing → List (Address × Packet)
  | .packet packet address => [(address, packet)]
  | .event tick event =>
      (transport.clients.addressesFor event.target).map fun address => (address, event.packet tick)

/-- Sends what has waited longest. -/
def sendNext (transport : Transport) : List (Address × Packet) × Transport :=
  match transport.outbox with
  | [] => ([], transport)
  | next :: rest => (transport.datagrams next, { transport with outbox := rest })

/-- Says goodbye to every connected client. -/
def sayGoodbye (transport : Transport) : Transport :=
  (transport.clients.addressesFor .all).foldl
    (fun transport address => transport.send (.disconnected closing) address) transport

end Transport
end Chronicle
