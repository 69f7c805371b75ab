import Chronicle.Ledger
import Chronicle.Proofs.Acceptance

/-!
# Replies

Every request of a client is answered once.  It is rejected at once, or it is
submitted under the identity of the client's session and answered when its
acknowledgment is passed on: with the number that the land has given to it if the
land has accepted it, and else with a rejection.
-/

namespace Chronicle

/-! ## Requests and replies -/

/-- What a client asks for in a packet. -/
structure Ask where
  number : UInt32
  type : String
  payload : String
  isClientEvent : Bool

/-- What is submitted when somebody asks with a payload. -/
def Ask.inbound (ask : Ask) (payload : Json) (actor : Actor) : Inbound :=
  if ask.isClientEvent then .clientEvent ask.type payload actor else .action ask.type payload actor

namespace Packet

/-- What a packet asks for. -/
def ask? : Packet → Option Ask
  | .action number type payload => some ⟨number, type, payload, false⟩
  | .clientEvent number type payload => some ⟨number, type, payload, true⟩
  | _ => none

/-- The number of the request that a packet answers. -/
def answers? : Packet → Option UInt32
  | .ack number _ => some number
  | .rejected number _ => some number
  | _ => none

/-- The number of the request that a packet accepts, and the sequence number. -/
def accepts? : Packet → Option (UInt32 × Sequence)
  | .ack number sequence => some (number, sequence)
  | _ => none

end Packet

/-- The request that a client waits for. -/
def Submitter.request? : Submitter → Option (Address × UInt32)
  | .request address number => some (address, number)
  | _ => none

theorem Submitter.request?_eq_some_iff
    {submitter : Submitter}
    {address : Address}
    {number : UInt32} :
    submitter.request? = some (address, number) ↔ submitter = .request address number := by
  cases submitter <;> simp [request?]

/-- The packet that waits to be sent, and its address. -/
def Outgoing.addressed? : Outgoing → Option (Address × Packet)
  | .packet content address => some (address, content)
  | .event _ _ => none

/-- The reply to a client's request that an acknowledgment becomes. -/
def Receipt.reply? : Receipt → Option (Address × Packet)
  | ⟨.request address number, some (.ok sequence)⟩ => some (address, .ack number sequence)
  | ⟨.request address number, some (.error error)⟩ =>
      some (address, .rejected number error.message)
  | ⟨.request address number, none⟩ =>
      some (address, .rejected number LandError.landClosed.message)
  | _ => none

/-- What a move asks for, and from which address. -/
def Occurrence.ask? {σ : Type} (occurrence : Occurrence σ) : Option (Address × Ask) :=
  match occurrence.move with
  | .packet _ packet address => packet.ask?.map (address, ·)
  | _ => none

namespace Service

variable {σ : Type}

/-- The replies to requests that were sent or wait to be sent, with their addresses. -/
def replies (service : Service σ) : List (Address × Packet) :=
  (service.sent ++ service.transport.outbox.filterMap Outgoing.addressed?).filter
    fun reply => reply.2.answers?.isSome

/-- The requests that are asked in a course. -/
def asked (past : List (Occurrence σ)) : List (Address × UInt32) :=
  past.filterMap fun occurrence => occurrence.ask?.map fun (address, ask) => (address, ask.number)

/-- The requests that are answered by some replies. -/
def answered (replies : List (Address × Packet)) : List (Address × UInt32) :=
  replies.filterMap fun (address, packet) => packet.answers?.map (address, ·)

/-- The requests that are accepted by some replies, with the sequence numbers. -/
def accepted (replies : List (Address × Packet)) : List (Address × UInt32 × Sequence) :=
  replies.filterMap fun (address, packet) => packet.accepts?.map (address, ·)

end Service

/-! ## Packets -/

namespace Transport

variable {transport : Transport} {packet : Packet}

/-- In front of an open land a request from an address with a session is submitted if its
payload is a value.  Any other request is rejected at once. -/
theorem handle_ask
    (isOpen : Bool)
    (clock : Clock)
    (address : Address)
    {ask : Ask}
    (asks : packet.ask? = some ask) :
    (∃ session value,
      isOpen = true ∧
        transport.clients.byAddress? address = some session ∧
        Json.parse? ask.payload = some value ∧
        (transport.handle isOpen clock packet address).1 =
          [⟨.request address ask.number, ask.inbound value session.identity⟩] ∧
        (transport.handle isOpen clock packet address).2.outbox = transport.outbox) ∨
    (∃ reason,
      ¬ (isOpen = true ∧ (transport.clients.byAddress? address).isSome = true ∧
          (Json.parse? ask.payload).isSome = true) ∧
        (transport.handle isOpen clock packet address).1 = [] ∧
        (transport.handle isOpen clock packet address).2.outbox =
          transport.outbox ++ [.packet (.rejected ask.number reason) address]) := by
  have handled : transport.handle isOpen clock packet address =
      transport.handleRequest isOpen clock address ask.number ask.type ask.payload
        ask.isClientEvent := by
    cases packet <;> simp only [Packet.ask?, Option.some.injEq, reduceCtorEq] at asks
    all_goals
      subst asks
      rfl
  rw [handled, handleRequest]
  cases found : transport.clients.byAddress? address with
  | none => exact .inr ⟨notJoined, by simp, rfl, rfl⟩
  | some session =>
      dsimp only [Inbound.ofPayload?]
      cases parsed : Json.parse? ask.payload with
      | none => exact .inr ⟨malformed (transport.complaint ask.payload), by simp, rfl, rfl⟩
      | some value =>
          cases isOpen with
          | true => exact .inl ⟨session, value, rfl, rfl, rfl, rfl, rfl⟩
          | false => exact .inr ⟨LandError.landClosed.message, by simp, rfl, rfl⟩

/-- A packet that asks for nothing submits at most joins and leaves, and answers no
request. -/
theorem handle_of_no_ask
    (isOpen : Bool)
    (clock : Clock)
    (address : Address)
    (asks : packet.ask? = none) :
    (∀ request ∈ (transport.handle isOpen clock packet address).1,
        request.inbound.visit? ≠ none ∧ request.submitter.request? = none) ∧
      ∃ others : List Outgoing,
        (transport.handle isOpen clock packet address).2.outbox = transport.outbox ++ others ∧
          (others.filterMap Outgoing.addressed?).filter (·.2.answers?.isSome) = [] := by
  have silent {outbox : List Outgoing} (same : outbox = transport.outbox) :
      ∃ others : List Outgoing, outbox = transport.outbox ++ others ∧
        (others.filterMap Outgoing.addressed?).filter (·.2.answers?.isSome) = [] :=
    ⟨[], same.trans (List.append_nil _).symm, rfl⟩
  have refused (reason : String) :
      ∃ others : List Outgoing,
        transport.outbox ++ [.packet (.disconnected reason) address] =
            transport.outbox ++ others ∧
          (others.filterMap Outgoing.addressed?).filter (·.2.answers?.isSome) = [] :=
    ⟨_, rfl, rfl⟩
  have leaves (identity : Actor) : ∀ request ∈ leave isOpen identity,
      request.inbound.visit? ≠ none ∧ request.submitter.request? = none := by
    intro request member
    cases isOpen with
    | true =>
        obtain rfl := List.mem_singleton.1 member
        exact ⟨nofun, rfl⟩
    | false => cases member
  have joins (left : List Request) (player : String) (details : LifecycleDetails)
      (noRequest : ∀ request ∈ left,
        request.inbound.visit? ≠ none ∧ request.submitter.request? = none) :
      let connected := connect isOpen clock address player details
        { transport with clients := transport.clients.remove address }
      (∀ request ∈ left ++ connected.1,
          request.inbound.visit? ≠ none ∧ request.submitter.request? = none) ∧
        ∃ others : List Outgoing, connected.2.outbox = transport.outbox ++ others ∧
          (others.filterMap Outgoing.addressed?).filter (·.2.answers?.isSome) = [] := by
    unfold connect
    dsimp only
    cases (transport.clients.remove address).add? address player clock with
    | none => exact ⟨by simpa using noRequest, refused _⟩
    | some pair =>
        cases isOpen with
        | true =>
            refine ⟨fun request member => ?_, silent rfl⟩
            rcases List.mem_append.1 member with leaving | joining
            · exact noRequest request leaving
            · obtain rfl := List.mem_singleton.1 joining
              exact ⟨nofun, rfl⟩
        | false => exact ⟨by simpa using noRequest, refused _⟩
  unfold handle
  split
  · unfold handleJoin
    split
    · exact ⟨fun _ member => absurd member List.not_mem_nil, refused _⟩
    · refine joins _ _ _ ?_
      split
      · exact leaves _
      · exact fun _ member => absurd member List.not_mem_nil
  · cases asks
  · cases asks
  · exact ⟨fun _ member => absurd member List.not_mem_nil, silent rfl⟩
  · split
    · exact ⟨leaves _, silent rfl⟩
    · exact ⟨fun _ member => absurd member List.not_mem_nil, silent rfl⟩
  · exact ⟨fun _ member => absurd member List.not_mem_nil, silent rfl⟩

end Transport

/-! ## Moves -/

namespace Occurrence

variable {σ : Type} {occurrence : Occurrence σ}

/-- What is asked for is submitted once, or there is a reason not to submit it. -/
theorem requests_of_ask
    {address : Address}
    {ask : Ask}
    (asks : occurrence.ask? = some (address, ask)) :
    let service := occurrence.before
    (∃ session value,
      service.task.isOpen = true ∧
        service.transport.clients.byAddress? address = some session ∧
        Json.parse? ask.payload = some value ∧
        occurrence.requests =
          [⟨.request address ask.number, ask.inbound value session.identity⟩]) ∨
    (¬ (service.task.isOpen = true ∧
          (service.transport.clients.byAddress? address).isSome = true ∧
          (Json.parse? ask.payload).isSome = true) ∧
      occurrence.requests = []) := by
  obtain ⟨service, move⟩ := occurrence
  cases move with
  | packet clock packet sender =>
      obtain ⟨_, isAsk, same⟩ := Option.map_eq_some_iff.1 asks
      obtain ⟨rfl, rfl⟩ := Prod.mk.inj same
      rcases service.transport.handle_ask service.task.isOpen clock sender isAsk with
        ⟨session, value, isOpen, found, parsed, requests, -⟩ | ⟨reason, refused, requests, -⟩
      · exact .inl ⟨session, value, isOpen, found, parsed, requests⟩
      · exact .inr ⟨refused, requests⟩
  | _ => cases asks

/-- Where nothing is asked for, at most joins and leaves are submitted. -/
theorem visit?_of_no_ask (asks : occurrence.ask? = none) :
    ∀ request ∈ occurrence.requests, request.inbound.visit? ≠ none := by
  obtain ⟨service, move⟩ := occurrence
  intro request member
  cases move with
  | packet clock packet sender =>
      have noAsk : packet.ask? = none := Option.map_eq_none_iff.1 asks
      exact ((service.transport.handle_of_no_ask service.task.isOpen clock sender noAsk).1
        request member).1
  | expire =>
      simp only [requests] at member
      split at member
      · cases member
      · rw [Transport.visit?_of_mem_leave member]
        exact Option.some_ne_none _
  | _ => cases member

end Occurrence

namespace Service

variable {σ : Type} {rules : Rules σ}

/-- The replies among what is put to what waits to be sent are added to the others. -/
theorem replies_append
    {service after : Service σ}
    {others : List Outgoing}
    {added : List (Address × Packet)}
    (sent : after.sent = service.sent)
    (outbox : after.transport.outbox = service.transport.outbox ++ others)
    (among : (others.filterMap Outgoing.addressed?).filter (·.2.answers?.isSome) = added) :
    after.replies = service.replies ++ added := by
  rw [replies, replies, sent, outbox, List.filterMap_append, ← List.append_assoc,
    List.filter_append, among]

/-- An acknowledgment that is passed on becomes at most one reply. -/
theorem replies_acknowledge (transport : Transport) (receipt : Receipt) :
    ∃ others : List Outgoing,
      (transport.acknowledge receipt.submitter receipt.result).outbox =
          transport.outbox ++ others ∧
        (others.filterMap Outgoing.addressed?).filter (·.2.answers?.isSome) =
          receipt.reply?.toList := by
  rcases receipt with ⟨_ | _ | _, _ | _ | _⟩
  all_goals first | exact ⟨_, rfl, rfl⟩ | exact ⟨[], (List.append_nil _).symm, rfl⟩

/-- The events of a tick are no replies. -/
theorem replies_heard (rules : Rules σ) (service : Service σ) :
    ∃ others : List Outgoing,
      (service.heard rules).outbox = service.transport.outbox ++ others ∧
        (others.filterMap Outgoing.addressed?).filter (·.2.answers?.isSome) = [] := by
  have publishes (number : Tick) (events : List Event) (transport : Transport) :
      (events.foldl (fun transport event => transport.publish number event) transport).outbox =
        transport.outbox ++ events.map (.event number ·) := by
    induction events generalizing transport with
    | nil => exact (List.append_nil _).symm
    | cons event rest inductionHypothesis =>
        rw [List.foldl_cons, inductionHypothesis, List.map_cons, List.append_cons]
        rfl
  unfold heard
  split
  · refine ⟨_, publishes _ _ _, ?_⟩
    simp [List.filterMap_map, Function.comp_def, Outgoing.addressed?]
  · exact ⟨[], (List.append_nil _).symm, rfl⟩

/-- Sending sends the replies that wait. -/
theorem replies_send (service : Service σ) : service.send.replies = service.replies := by
  unfold send Transport.sendNext
  cases outbox : service.transport.outbox with
  | nil => simp [replies, outbox]
  | cons next rest =>
      cases next with
      | packet packet address => simp [replies, outbox, Transport.datagrams, Outgoing.addressed?]
      | event tick event =>
          have events : ((service.transport.datagrams (.event tick event)).filter
              fun reply => reply.2.answers?.isSome) = [] := by
            simp [Transport.datagrams, Event.packet, Packet.answers?]
          have waiting : (Outgoing.event tick event :: rest).filterMap Outgoing.addressed? =
              rest.filterMap Outgoing.addressed? := List.filterMap_cons_none rfl
          simp [replies, outbox, events, waiting]

/-- What is asked for in a move is submitted or rejected at once; besides, a reply is
queued when the acknowledgment for it is passed on. -/
theorem replies_after (rules : Rules σ) (service : Service σ) (move : Move) :
    ∃ atOnce : List (Address × Packet),
      (service.after rules move).replies =
          service.replies ++
            (atOnce ++ (⟨service, move⟩ : Occurrence σ).receipt?.toList.filterMap
              Receipt.reply?) ∧
        accepted atOnce = [] ∧
        answered atOnce ++
            (⟨service, move⟩ : Occurrence σ).requests.filterMap (·.submitter.request?) =
          asked [⟨service, move⟩] := by
  have silent {after : Service σ} (sent : after.sent = service.sent)
      (outbox : after.transport.outbox = service.transport.outbox) :
      after.replies = service.replies ++ ([] ++ []) := by
    rw [replies, replies, sent, outbox, List.append_nil, List.append_nil]
  have does := service.does rules move
  generalize service.after rules move = after at does ⊢
  cases does with
  | idles idle =>
      rw [idle.requests, idle.receipt?]
      refine ⟨[], silent rfl rfl, rfl, ?_⟩
      cases idle <;> rfl
  | receives clock packet address =>
      let isOpen := service.task.isOpen
      simp only [Occurrence.requests, asked, Occurrence.ask?, List.filterMap_cons,
        List.filterMap_nil]
      cases asks : packet.ask? with
      | none =>
          obtain ⟨noRequest, others, outbox, none⟩ :=
            service.transport.handle_of_no_ask isOpen clock address asks
          refine ⟨[], replies_append rfl outbox none, rfl, ?_⟩
          exact List.filterMap_eq_nil_iff.2 fun request member => (noRequest request member).2
      | some ask =>
          rcases service.transport.handle_ask isOpen clock address asks with
            ⟨session, value, -, -, -, requests, outbox⟩ | ⟨reason, -, requests, outbox⟩
          · refine ⟨[], silent rfl outbox, rfl, ?_⟩
            rw [requests]
            rfl
          · refine ⟨[(address, .rejected ask.number reason)],
              replies_append rfl outbox rfl, rfl, ?_⟩
            rw [requests]
            rfl
  | expires expired =>
      simp only [Occurrence.requests, expired]
      refine ⟨[], silent rfl rfl, rfl, ?_⟩
      cases service.task.isOpen <;> rfl
  | ticks =>
      obtain ⟨others, outbox, none⟩ := service.replies_heard rules
      exact ⟨[], replies_append rfl outbox none, rfl, rfl⟩
  | passesOn found =>
      rename_i index receipt
      simp only [Occurrence.receipt?, found]
      obtain ⟨others, outbox, reply⟩ := replies_acknowledge service.transport receipt
      refine ⟨[], replies_append rfl outbox (reply.trans ?_), rfl, rfl⟩
      cases replied : receipt.reply? <;> simp [replied]
  | sends => exact ⟨[], service.replies_send.trans (List.append_nil _).symm, rfl, rfl⟩
  | drops | takes | resolves | closes => exact ⟨[], silent rfl rfl, rfl, rfl⟩

/-- An acknowledgment that becomes a reply answers whoever waits for it. -/
theorem answered_reply (receipts : List Receipt) :
    answered (receipts.filterMap Receipt.reply?) =
      (receipts.map (·.submitter)).filterMap Submitter.request? := by
  rw [answered, List.filterMap_filterMap, List.filterMap_map]
  refine List.filterMap_congr fun receipt _ => ?_
  rcases receipt with ⟨_ | _ | _, _ | _ | _⟩ <;> rfl

@[simp] theorem answered_append (first second : List (Address × Packet)) :
    answered (first ++ second) = answered first ++ answered second := List.filterMap_append

@[simp] theorem accepted_append (first second : List (Address × Packet)) :
    accepted (first ++ second) = accepted first ++ accepted second := List.filterMap_append

namespace Course

variable {past : List (Occurrence σ)} {start service : Service σ}

/-- Every request was answered or waits. -/
theorem asked_perm
    (course : Course rules start past service)
    (orderly : start.task.Orderly)
    (nobody : start.desk = [])
    (silent : start.replies = []) :
    (asked past).Perm
      (answered service.replies ++ service.desk.filterMap Submitter.request?) := by
  induction course with
  | nothing =>
      rw [nobody, silent]
      exact List.Perm.refl _
  | next course takes inductionHypothesis =>
      rename_i past service move
      obtain ⟨atOnce, replies, -, balance⟩ := replies_after rules service move
      have turned := (desk_after rules service (course.orderly orderly) move).filterMap
        Submitter.request?
      have whole : asked (past ++ [⟨service, move⟩]) = asked past ++ asked [⟨service, move⟩] :=
        List.filterMap_append
      rw [whole, ← balance, replies, answered_append, answered_append, answered_reply]
      rw [List.filterMap_append, List.filterMap_append, List.filterMap_map] at turned
      rw [List.perm_iff_count] at inductionHypothesis turned ⊢
      intro request
      have earlier := inductionHypothesis request
      have now := turned request
      simp only [List.count_append, Function.comp_def] at earlier now ⊢
      omega

/-- What was accepted are the acknowledgments that say so. -/
theorem accepted_eq
    (course : Course rules start past service)
    (silent : start.replies = []) :
    accepted service.replies = accepted ((passedOn past).filterMap Receipt.reply?) := by
  induction course with
  | nothing =>
      rw [silent]
      rfl
  | next course takes inductionHypothesis =>
      rename_i past service move
      obtain ⟨atOnce, replies, rejected, -⟩ := replies_after rules service move
      rw [replies, accepted_append, accepted_append, inductionHypothesis, rejected, passedOn_snoc,
        List.filterMap_append, accepted_append]
      rfl

end Course

/-! ## Courses -/

/-- How the requests of clients are answered in a course. -/
structure AnswersOnce
    (rules : Rules σ)
    (past : List (Occurrence σ))
    (service : Service σ) : Prop where
  /-- A packet that asks for something makes at most one submission. -/
  atMostOnce : ∀ occurrence ∈ past, occurrence.ask? ≠ none → occurrence.requests.length ≤ 1
  /-- It makes one under the identity of the session at its address, if there is one, the
  payload is a value and the land is open. -/
  submits : ∀ occurrence ∈ past, ∀ address ask, occurrence.ask? = some (address, ask) →
    ∀ request, request ∈ occurrence.requests ↔
      occurrence.before.task.isOpen = true ∧
        ∃ session value,
          occurrence.before.transport.clients.byAddress? address = some session ∧
            Json.parse? ask.payload = some value ∧
            request = ⟨.request address ask.number, ask.inbound value session.identity⟩
  /-- Nothing else submits anything but joins and leaves. -/
  nothingElse : ∀ occurrence ∈ past, occurrence.ask? = none →
    ∀ request ∈ occurrence.requests, request.inbound.visit? ≠ none
  /-- The land takes what was submitted in order, each submission once. -/
  inOrder : taken past <+: submitted past
  /-- Every request was answered at its address, or still waits. -/
  account : (asked past).Perm
    (answered service.replies ++ service.desk.filterMap Submitter.request?)
  /-- Requests with a number from an address were answered as often as they were asked, once
  none of them waits. -/
  answered : ∀ address number, .request address number ∉ service.desk →
    (Service.answered service.replies).count (address, number) =
      (asked past).count (address, number)
  /-- The sequence numbers in these answers are those that the land has given to what was
  submitted for these requests and has accepted. -/
  accepted : ∀ address number, .request address number ∉ service.desk →
    ∀ sequence, (address, number, sequence) ∈ Service.accepted service.replies ↔
      (.request address number, sequence) ∈ admissions rules past ∧
        ∃ item ∈ entries rules (passages past), item.sequence = sequence
  /-- No sequence number is in two answers. -/
  distinct : ((Service.accepted service.replies).map (·.2.2)).Nodup

/-- The number that a client is told, if somebody is told one. -/
def toldTo (told : Submitter × Sequence) : Option (Address × UInt32 × Sequence) :=
  told.1.request?.map fun (address, number) => (address, number, told.2)

theorem toldTo_eq_some_iff
    {told : Submitter × Sequence}
    {address : Address}
    {number : UInt32}
    {sequence : Sequence} :
    toldTo told = some (address, number, sequence) ↔
      told = (.request address number, sequence) := by
  obtain ⟨_ | _ | _, _⟩ := told <;> simp [toldTo, Submitter.request?, and_assoc]

/-- The acknowledgments that become acceptances are those of clients. -/
theorem accepted_reply (receipts : List Receipt) :
    accepted (receipts.filterMap Receipt.reply?) =
      (receipts.filterMap Receipt.accepts?).filterMap toldTo := by
  rw [accepted, List.filterMap_filterMap, List.filterMap_filterMap]
  refine List.filterMap_congr fun receipt _ => ?_
  rcases receipt with ⟨_ | _ | _, _ | _ | _⟩ <;> rfl

section Fresh

variable {past : List (Occurrence σ)} {service : Service σ} {clients : Clients} {land : Land σ}

/-- Nobody is told a number that was not admitted, and no number is told twice. -/
theorem Course.told_subperm (course : Course rules (fresh clients land) past service) :
    List.Subperm ((passedOn past).filterMap Receipt.accepts?) (admissions rules past) := by
  have whole := course.acceptances rfl
  rw [List.filterMap_append] at whole
  have claims := course.claims (orderly_fresh clients land) rfl
  refine (List.sublist_append_right _ _).subperm.trans (whole.subperm.trans ?_)
  exact (List.sublist_append_left _ _).subperm.trans claims

/-- Whoever was told a number, or will be, has made the submission that was admitted under
it, and its item has entered the queue. -/
theorem Course.acceptance_iff
    (course : Course rules (fresh clients land) past service)
    (submitter : Submitter)
    (sequence : Sequence) :
    (submitter, sequence) ∈ (service.receipts ++ passedOn past).filterMap Receipt.accepts? ↔
      (submitter, sequence) ∈ admissions rules past ∧
        ∃ item ∈ entries rules (passages past), item.sequence = sequence := by
  have orderly := orderly_fresh clients land
  have entered := course.entered orderly rfl
  have admitted : ∀ told ∈ (acknowledged rules past).filterMap Acknowledgment.accepts?,
      told ∈ admissions rules past := fun told member =>
    (course.claims orderly rfl).subset (List.mem_append_left _ member)
  rw [(course.acceptances rfl).mem_iff]
  constructor
  · intro told
    have number := List.mem_map_of_mem (f := (·.2)) told
    rw [entered, List.mem_map] at number
    exact ⟨admitted _ told, number⟩
  · rintro ⟨admission, item, member, rfl⟩
    have number := List.mem_map_of_mem (f := fun item : Item => item.sequence) member
    rw [← entered, List.mem_map] at number
    obtain ⟨told, isTold, same⟩ := number
    obtain rfl := List.inj_on_of_nodup_map course.issued.distinct (admitted told isTold) admission
      same
    exact isTold

/-- Every request of a client is answered once, in front of any land and whatever
becomes of it. -/
theorem answers_requests_once
    (course : Course rules (fresh clients land) past service) :
    AnswersOnce rules past service := by
  have account := course.asked_perm (orderly_fresh clients land) rfl rfl
  have accepted := (course.accepted_eq rfl).trans (accepted_reply _)
  refine
    { atMostOnce := fun occurrence _ asks => ?_
      submits := fun occurrence _ address ask asks request => ?_
      nothingElse := fun occurrence _ asks => ?_
      inOrder := (List.prefix_append _ _).trans (course.taken_prefix rfl)
      account := account
      answered := fun address number settled => ?_
      accepted := fun address number settled sequence => ?_
      distinct := ?_ }
  · obtain ⟨⟨address, ask⟩, asks⟩ := Option.ne_none_iff_exists'.1 asks
    rcases occurrence.requests_of_ask asks with ⟨_, _, -, -, -, requests⟩ | ⟨-, requests⟩
    · rw [requests]
      exact Nat.le_refl 1
    · rw [requests]
      exact Nat.zero_le 1
  · rcases occurrence.requests_of_ask asks with
      ⟨session, value, isOpen, found, parsed, requests⟩ | ⟨refused, requests⟩
    · rw [requests, List.mem_singleton, found, parsed]
      simp [isOpen]
    · rw [requests]
      refine ⟨fun member => absurd member List.not_mem_nil, ?_⟩
      rintro ⟨isOpen, session, value, found, parsed, -⟩
      exact absurd ⟨isOpen, by rw [found]; rfl, by rw [parsed]; rfl⟩ refused
  · exact occurrence.visit?_of_no_ask asks
  · have waits : (address, number) ∉ service.desk.filterMap Submitter.request? := by
      rintro member
      obtain ⟨submitter, there, isRequest⟩ := List.mem_filterMap.1 member
      obtain rfl := Submitter.request?_eq_some_iff.1 isRequest
      exact settled there
    rw [account.count_eq, List.count_append, List.count_eq_zero_of_not_mem waits, Nat.add_zero]
  · have notReceipt : (.request address number, sequence) ∉
        service.receipts.filterMap Receipt.accepts? := by
      intro member
      obtain ⟨receipt, there, accepts⟩ := List.mem_filterMap.1 member
      have own := Receipt.submitter_of_accepts accepts
      refine settled (List.mem_append_right _ (List.mem_append_right _ ?_))
      exact own ▸ List.mem_map_of_mem there
    rw [← course.acceptance_iff, List.filterMap_append, List.mem_append, accepted,
      List.mem_filterMap]
    simp only [toldTo_eq_some_iff, exists_eq_right, notReceipt, false_or]
  · have numbers : (((passedOn past).filterMap Receipt.accepts?).map (·.2)).Nodup := by
      obtain ⟨told, same, among⟩ := course.told_subperm
      exact (same.map _).nodup_iff.1 (course.issued.distinct.sublist (among.map _))
    rw [accepted, List.Nodup, List.pairwise_map, List.pairwise_filterMap]
    refine (List.pairwise_map.1 numbers).imp fun {first second} different => ?_
    rintro ⟨address, number, one⟩ here ⟨other, another, two⟩ there
    rw [toldTo_eq_some_iff] at here there
    rwa [here, there] at different

/-- On a ledger a note is accepted, what needs a stamp that is never given is rejected, and
so are an unknown action, a payload that is no value, a request of somebody who has not
joined, and one that is still resolving when the land is shut down. -/
theorem answers_requests_once_of_ledger :
    let rules := Ledger.rules {}
    ∃ land past service,
      Land.live rules { landId := "books", landType := "ledger" } .epoch {} = .ok land ∧
        Course rules (fresh { capacity := 8 } land) past service ∧
        (asked past).map (·.2) = [1, 2, 3, 4, 5, 6] ∧
        service.desk = [] ∧
        (accepted service.replies).map (·.2) = [(1, 1)] ∧
        AnswersOnce rules past service := by
  intro rules
  let first : Address := ⟨.v4 0, 4000⟩
  let second : Address := ⟨.v4 0, 4001⟩
  let clock : Clock := ⟨0, 0⟩
  let moves : List Move :=
    [.packet clock (.join Packet.protocolVersion "p1" none false ∅) first, .take,
      .packet clock (.action 1 "Note" "\x7b\x22text\x22:\x22paid\x22\x7d") first,
      .packet clock (.action 2 "Denied" "null") first,
      .packet clock (.clientEvent 3 "Guess" "null") first,
      .packet clock (.action 4 "Note" "\x7b\x22text\x22") first,
      .packet clock (.action 5 "Note" "null") second,
      .packet clock (.action 6 "Approved" "null") first, .take, .take, .take, .take,
      .resolve 2 ⟨0, []⟩, .tick, .close, .acknowledge 1, .acknowledge 1, .acknowledge 1, .send,
      .acknowledge 1, .acknowledge 0]
  obtain ⟨land, started⟩ : ∃ land,
      Land.live rules { landId := "books", landType := "ledger" } .epoch {} = .ok land := ⟨_, rfl⟩
  have course := Course.of_moves rules (fresh { capacity := 8 } land) moves (by
    obtain rfl := Except.ok.inj started
    decide +kernel)
  refine ⟨land, _, _, started, course, ?_, ?_, ?_, answers_requests_once course⟩
  all_goals
    obtain rfl := Except.ok.inj started
    decide +kernel

end Fresh
end Service
end Chronicle
