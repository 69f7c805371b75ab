import Chronicle.Land.Task
import Chronicle.Transport.Basic

/-!
# Services

A service is a transport in front of a land of its own.  The two work side by
side: submissions are on their way to the land, acknowledgments on their way
back, and expired sessions wait for their leave to be submitted.  Each move of
a service is one thing that happens next; the moves may come in any order.
-/

namespace Chronicle

/-- The acknowledgment of a submission on its way to the transport, without a
result if the land has dropped it. -/
structure Receipt where
  submitter : Submitter
  result : Option (Except LandError Sequence)

/-- A transport in front of a land, and what is on its way between them. -/
structure Service (σ : Type) where
  transport : Transport
  task : LandTask σ Submitter
  requests : List Request := []
  receipts : List Receipt := []
  expired : List Session := []
  sent : List (Address × Packet) := []

/-- What can happen next: a packet is handled, silent clients are dropped, the
leave of the next expired session is submitted, the land takes the next
submission, a resolution finishes, a tick is executed, an acknowledgment is
passed on, the next message is sent, or the land is shut down. -/
inductive Move where
  | packet (clock : Clock) (packet : Packet) (address : Address)
  | dropSilent (clock : Clock)
  | expire
  | take
  | resolve (sequence : Sequence) (chance : Chance)
  | tick
  | acknowledge (index : Nat)
  | send
  | close
  deriving DecidableEq

namespace Service

variable {σ : Type}

/-- Takes over a land's new state, its acknowledgments, and what it dropped. -/
def update (service : Service σ) (acknowledgments : List (Acknowledgment Submitter))
    (task : LandTask σ Submitter) : Service σ :=
  let passed := acknowledgments.map fun ack => Receipt.mk ack.submitter (some ack.result)
  let dropped := task.dropped.map fun submitter => Receipt.mk submitter none
  let abandoned :=
    if task.isOpen then [] else service.requests.map fun request => ⟨request.submitter, none⟩
  { service with
    task := { task with dropped := [] }
    receipts := service.receipts ++ passed ++ dropped ++ abandoned
    requests := if task.isOpen then service.requests else [] }

/-- Handles a packet. -/
def handlePacket (clock : Clock) (packet : Packet) (address : Address) (service : Service σ) :
    Service σ :=
  let (requests, transport) :=
    service.transport.handle service.task.isOpen clock packet address
  { service with transport := transport, requests := service.requests ++ requests }

/-- Drops the clients of which nothing was heard for too long. -/
def dropSilent (clock : Clock) (service : Service σ) : Service σ :=
  let (silent, clients) := service.transport.clients.dropSilent clock
  { service with
    transport := { service.transport with clients := clients }
    expired := service.expired ++ silent }

/-- Submits the leave of an identity. -/
def submitLeave (identity : Actor) (service : Service σ) : Service σ :=
  { service with
    requests := service.requests ++ Transport.leave service.task.isOpen identity }

/-- Submits the leave of the next expired session. -/
def expire (service : Service σ) : Service σ :=
  match service.expired with
  | [] => service
  | session :: rest => submitLeave session.identity { service with expired := rest }

/-- Lets the land take the next submission. -/
def take (rules : Rules σ) (service : Service σ) : Service σ :=
  match service.requests with
  | [] => service
  | request :: rest =>
      let (acknowledgments, task) :=
        service.task.submit rules request.submitter request.inbound
      update { service with requests := rest } acknowledgments task

/-- Lets the resolution of a sequence number finish. -/
def resolve (sequence : Sequence) (chance : Chance) (service : Service σ) : Service σ :=
  let running := service.task.running.find? fun r => r.submission.sequence = sequence
  match service.task.isOpen, running with
  | true, some resolution =>
      let completion := resolution.run service.task.land.id chance
      let (acknowledgments, task) := service.task.complete completion
      service.update acknowledgments task
  | _, _ => service

/-- Executes the next tick of an open land: what came of it, and the service
with the events that were heard. -/
def tick (rules : Rules σ) (service : Service σ) : Except LandError TickReport × Service σ :=
  if service.task.isOpen then
    let number := service.task.land.nextTick
    let (stepped, task) := service.task.step rules
    let transport :=
      match stepped.land.mode with
      | .live _ _ _ =>
          stepped.heard.foldl (fun transport event => transport.publish number event)
            service.transport
      | .replay _ _ _ => service.transport
    (stepped.result, update { service with transport := transport } [] task)
  else (.error .landClosed, service)

/-- Passes on one of the acknowledgments that are on their way. -/
def acknowledge (index : Nat) (service : Service σ) : Service σ :=
  match service.receipts[index]? with
  | none => service
  | some receipt =>
      { service with
        transport := service.transport.acknowledge receipt.submitter receipt.result
        receipts := service.receipts.eraseIdx index }

/-- Sends what has waited longest. -/
def send (service : Service σ) : Service σ :=
  let (datagrams, transport) := service.transport.sendNext
  { service with transport := transport, sent := service.sent ++ datagrams }

/-- Shuts the land down. -/
def close (service : Service σ) : Service σ := service.update [] service.task.shutdown

/-- The service after a move. -/
def after (rules : Rules σ) (service : Service σ) : Move → Service σ
  | .packet clock packet address => service.handlePacket clock packet address
  | .dropSilent clock => service.dropSilent clock
  | .expire => service.expire
  | .take => service.take rules
  | .resolve sequence chance => service.resolve sequence chance
  | .tick => (service.tick rules).2
  | .acknowledge index => service.acknowledge index
  | .send => service.send
  | .close => service.close

/-- The next move of work that is left, if there is any. -/
def pending? (chance : Chance) (service : Service σ) : Option Move :=
  if !service.expired.isEmpty then some .expire
  else if !service.requests.isEmpty then some .take
  else if !service.receipts.isEmpty then some (.acknowledge 0)
  else
    match service.task.isOpen, service.task.running with
    | true, resolution :: _ => some (.resolve resolution.submission.sequence chance)
    | _, _ => if service.transport.outbox.isEmpty then none else some .send

/-- Works off what is left, in at most so many moves. -/
def workOff (rules : Rules σ) (chance : Chance) : Nat → Service σ → Service σ
  | 0, service => service
  | fuel + 1, service =>
      match service.pending? chance with
      | some move => workOff rules chance fuel (service.after rules move)
      | none => service

/-- The most moves that what is left can take: a submission is taken, resolved,
acknowledged and answered. -/
def workload (service : Service σ) : Nat :=
  5 * service.expired.length + 4 * service.requests.length + 3 * service.task.running.length +
    2 * service.receipts.length + service.transport.outbox.length

/-- Works off everything that is left. -/
def settle (rules : Rules σ) (chance : Chance) (service : Service σ) : Service σ :=
  workOff rules chance service.workload service

/-- Works off everything that is left, and hands over what was sent. -/
def deliver (rules : Rules σ) (chance : Chance) (service : Service σ) :
    List (Address × Packet) × Service σ :=
  let settled := service.settle rules chance
  (settled.sent, { settled with sent := [] })

/-- Says goodbye to the clients and shuts the land down. -/
def shutdown (service : Service σ) : Service σ :=
  { service with transport := service.transport.sayGoodbye }.close

end Service
end Chronicle
