import Chronicle.Proofs.Service
import Chronicle.Proofs.Visits

/-!
# Who is expected

By the visits in the order of their submission, a player who is there has a
session, or had one that has expired and whose leave is still to be submitted.
This holds after every move of a service, as long as the land is open and the
resolvers of its joins do not fail.
-/

namespace Chronicle

namespace Clients

variable {clients after : Clients} {address : Address} {player : String}

/-- A player has a session. -/
def Holds (clients : Clients) (player : String) : Prop :=
  ∃ entry ∈ clients.sessions.entries, entry.2.identity.player = some player

theorem isSome_byPlayer? : (clients.byPlayer? player).isSome = true ↔ clients.Holds player := by
  simp [byPlayer?, Dict.find?, Holds]

/-- Only the player at an address loses the session there. -/
theorem Holds.remove
    (holds : clients.Holds player)
    (elsewhere : ∀ session, clients.byAddress? address = some session →
      session.identity.player ≠ some player) :
    (clients.remove address).Holds player := by
  obtain ⟨entry, member, own⟩ := holds
  refine ⟨entry, Dict.mem_entries_erase.2 ⟨member, fun same => ?_⟩, own⟩
  subst same
  exact elsewhere entry.2 (Dict.get?_eq_some_iff.2 member) own

/-- A client that is connected has a session, and so has everybody who had one
elsewhere. -/
theorem Holds.add?
    {newcomer : String}
    {clock : Clock}
    {identity : Actor}
    (added : clients.add? address newcomer clock = some (identity, after))
    (vacant : clients.byAddress? address = none)
    (holds : clients.Holds player ∨ identity.player = some player) :
    after.Holds player := by
  unfold Clients.add? at added
  split at added
  · cases added
  · split at added
    · cases added
    · obtain ⟨rfl, rfl⟩ := Prod.mk.inj (Option.some.inj added)
      rcases holds with ⟨entry, member, own⟩ | new
      · refine ⟨entry, Dict.mem_entries_insert.2 (.inr ⟨member, ?_⟩), own⟩
        exact Dict.get?_eq_none_iff.1 vacant entry member
      · exact ⟨(address, _), Dict.mem_entries_insert.2 (.inl rfl), new⟩

/-- A sign of life takes nobody's session. -/
theorem Holds.touch
    (holds : clients.Holds player)
    (address : Address)
    (clock : Clock) :
    (clients.touch address clock).Holds player := by
  obtain ⟨entry, member, own⟩ := holds
  unfold Clients.touch
  split
  · rename_i session found
    by_cases here : entry.1 = address
    · refine ⟨(address, { session with lastSeen := clock.elapsed }),
        Dict.mem_entries_insert.2 (.inl rfl), ?_⟩
      subst here
      rw [byAddress?, Dict.get?_eq_some_iff.2 member] at found
      exact Option.some.inj found ▸ own
    · exact ⟨entry, Dict.mem_entries_insert.2 (.inr ⟨member, here⟩), own⟩
  · exact ⟨entry, member, own⟩

/-- Whoever loses the session for being silent is among those dropped. -/
theorem Holds.dropSilent
    (holds : clients.Holds player)
    (clock : Clock) :
    (clients.dropSilent clock).2.Holds player ∨
      ∃ session ∈ (clients.dropSilent clock).1, session.identity.player = some player := by
  obtain ⟨entry, member, own⟩ := holds
  cases silent : entry.2.isTimedOut clients.timeout clock with
  | false =>
      refine .inl ⟨entry, Dict.mem_entries_filter.2 ⟨member, ?_⟩, own⟩
      simp only [silent, Bool.not_false]
  | true =>
      refine .inr ⟨entry.2, List.mem_map_of_mem (Dict.mem_entries_filter.2 ⟨member, ?_⟩), own⟩
      exact silent

end Clients

/-- Whoever is there by some visits has a session, or had one that has expired. -/
def Expected (visits : List Visit) (clients : Clients) (expired : List Session) : Prop :=
  ∀ player, present player visits = true →
    clients.Holds player ∨ ∃ session ∈ expired, session.identity.player = some player

namespace Expected

variable {visits : List Visit} {clients after : Clients} {expired : List Session}
  {address : Address}

/-- The leave of the client at an address takes the session there. -/
theorem leave
    (expected : Expected visits clients expired)
    {session : Session}
    (found : clients.byAddress? address = some session) :
    Expected (visits ++ [⟨.leave, session.identity.player⟩]) (clients.remove address) expired := by
  intro player there
  rw [present_snoc] at there
  split at there
  · cases there
  · rename_i other
    refine (expected player there).imp_left fun holds => holds.remove fun owner here => ?_
    rw [found] at here
    exact Option.some.inj here ▸ other

/-- The join of a client brings a session. -/
theorem join
    (expected : Expected visits clients expired)
    {newcomer : String}
    {clock : Clock}
    {identity : Actor}
    (added : clients.add? address newcomer clock = some (identity, after))
    (vacant : clients.byAddress? address = none) :
    Expected (visits ++ [⟨.join, identity.player⟩]) after expired := by
  intro player there
  rw [present_snoc] at there
  split at there
  · rename_i own
    exact .inl (Clients.Holds.add? added vacant (.inr own))
  · exact (expected player there).imp_left fun holds => .add? added vacant (.inl holds)

/-- The leave of an expired session. -/
theorem expire
    {session : Session}
    (expected : Expected visits clients (session :: expired)) :
    Expected (visits ++ [⟨.leave, session.identity.player⟩]) clients expired := by
  intro player there
  rw [present_snoc] at there
  split at there
  · cases there
  · rename_i other
    apply (expected player there).imp_right
    rintro ⟨former, member, own⟩
    rcases List.mem_cons.1 member with rfl | later
    · exact absurd own other
    · exact ⟨former, later, own⟩

/-- A sign of life changes nothing. -/
theorem touch
    (expected : Expected visits clients expired)
    (address : Address)
    (clock : Clock) :
    Expected visits (clients.touch address clock) expired :=
  fun player there => (expected player there).imp_left fun holds => holds.touch address clock

/-- Sessions of silent clients expire. -/
theorem dropSilent
    (expected : Expected visits clients expired)
    (clock : Clock) :
    Expected visits (clients.dropSilent clock).2 (expired ++ (clients.dropSilent clock).1) := by
  intro player there
  rcases expected player there with holds | ⟨session, member, own⟩
  · apply (holds.dropSilent clock).imp_right
    rintro ⟨session, member, own⟩
    exact ⟨session, List.mem_append_right _ member, own⟩
  · exact .inr ⟨session, List.mem_append_left _ member, own⟩

/-- The removal of a client that is not there changes nothing. -/
theorem remove_of_none
    (expected : Expected visits clients expired)
    (vacant : clients.byAddress? address = none) :
    Expected visits (clients.remove address) expired := by
  refine fun player there => (expected player there).imp_left fun holds => holds.remove ?_
  intro session here
  rw [vacant] at here
  cases here

end Expected

/-! ## Packets -/

namespace Transport

variable {transport : Transport} {visits : List Visit} {expired : List Session}

/-- The visits that some requests submit. -/
def visitsOf (requests : List Request) : List Visit :=
  requests.filterMap fun request => request.inbound.visit?

/-- A join that finds a place brings a session; another one changes nothing. -/
theorem connect_expected
    (transport : Transport)
    (expected : Expected visits transport.clients expired)
    {address : Address}
    (vacant : transport.clients.byAddress? address = none)
    (clock : Clock)
    (player : String)
    (details : LifecycleDetails) :
    Expected (visits ++ visitsOf (transport.connect true clock address player details).1)
      (transport.connect true clock address player details).2.clients expired := by
  unfold connect
  cases added : transport.clients.add? address player clock with
  | none => exact (List.append_nil visits).symm ▸ expected
  | some pair =>
      obtain ⟨identity, clients⟩ := pair
      exact expected.join added vacant

/-- A join replaces the session that its address had. -/
theorem handleJoin_expected
    (expected : Expected visits transport.clients expired)
    (clock : Clock)
    (address : Address)
    (version : UInt32)
    (player : String)
    (details : LifecycleDetails) :
    Expected
      (visits ++ visitsOf (transport.handleJoin true clock address version player details).1)
      (transport.handleJoin true clock address version player details).2.clients expired := by
  have vacated : (transport.clients.remove address).byAddress? address = none :=
    Dict.get?_eq_none_iff.2 fun entry member => (Dict.mem_entries_erase.1 member).2
  unfold handleJoin
  split
  · exact (List.append_nil visits).symm ▸ expected
  · simp only [visitsOf, List.filterMap_append]
    rw [← List.append_assoc]
    refine connect_expected { transport with clients := transport.clients.remove address } ?_
      vacated clock player details
    cases found : transport.clients.byAddress? address with
    | none => exact (List.append_nil visits).symm ▸ expected.remove_of_none found
    | some session => exact expected.leave found

/-- An action or client event is no visit. -/
theorem handleRequest_expected
    (expected : Expected visits transport.clients expired)
    (clock : Clock)
    (address : Address)
    (request : UInt32)
    (type payload : String)
    (isClientEvent : Bool) :
    Expected
      (visits ++ visitsOf
        (transport.handleRequest true clock address request type payload isClientEvent).1)
      (transport.handleRequest true clock address request type payload isClientEvent).2.clients
      expired := by
  unfold handleRequest
  split
  · exact (List.append_nil visits).symm ▸ expected
  · rename_i session found
    cases decoded : Inbound.ofPayload? type payload session.identity isClientEvent with
    | none => exact (List.append_nil visits).symm ▸ expected.touch address clock
    | some inbound =>
        have noVisit : inbound.visit? = none := by
          obtain ⟨value, -, rfl⟩ := Option.map_eq_some_iff.1 decoded
          cases isClientEvent <;> rfl
        simp only [visitsOf, List.filterMap_cons, noVisit, if_true, List.filterMap_nil,
          List.append_nil]
        exact expected.touch address clock

/-- Whatever a client sends, whoever is there is expected. -/
theorem handle_expected
    (expected : Expected visits transport.clients expired)
    (clock : Clock)
    (packet : Packet)
    (address : Address) :
    Expected (visits ++ visitsOf (transport.handle true clock packet address).1)
      (transport.handle true clock packet address).2.clients expired := by
  have same : Expected (visits ++ visitsOf []) transport.clients expired :=
    (List.append_nil visits).symm ▸ expected
  unfold handle
  split
  · exact handleJoin_expected expected clock address _ _ _
  · exact handleRequest_expected expected clock address _ _ _ false
  · exact handleRequest_expected expected clock address _ _ _ true
  · exact (List.append_nil visits).symm ▸ expected.touch address clock
  · split
    · rename_i session found
      exact expected.leave found
    · exact same
  · exact same

theorem isRequest_of_mem_handleRequest
    {isOpen isClientEvent : Bool}
    {clock : Clock}
    {address : Address}
    {number : UInt32}
    {type payload : String}
    {request : Request}
    (member : request ∈
      (transport.handleRequest isOpen clock address number type payload isClientEvent).1) :
    ∃ address number, request.submitter = .request address number := by
  unfold handleRequest at member
  split at member
  · exact absurd member List.not_mem_nil
  · dsimp only at member
    split at member
    · exact absurd member List.not_mem_nil
    · split at member
      · obtain rfl := List.mem_singleton.1 member
        exact ⟨address, number, rfl⟩
      · exact absurd member List.not_mem_nil

theorem visit?_of_mem_leave
    {isOpen : Bool}
    {identity : Actor}
    {request : Request}
    (member : request ∈ leave isOpen identity) :
    request.inbound.visit? = some ⟨.leave, identity.player⟩ := by
  unfold leave at member
  split at member
  · obtain rfl := List.mem_singleton.1 member
    rfl
  · exact absurd member List.not_mem_nil

/-- What a client submits is a visit, unless it is a request of the client. -/
theorem handle_requests
    {isOpen : Bool}
    {clock : Clock}
    {packet : Packet}
    {address : Address}
    {request : Request}
    (member : request ∈ (transport.handle isOpen clock packet address).1)
    (noVisit : request.inbound.visit? = none) :
    ∃ address number, request.submitter = .request address number := by
  unfold handle at member
  split at member
  · rename_i version player device guest metadata
    unfold handleJoin at member
    split at member
    · exact absurd member List.not_mem_nil
    · rcases List.mem_append.1 member with left | joined
      · split at left
        · cases noVisit.symm.trans (visit?_of_mem_leave left)
        · exact absurd left List.not_mem_nil
      · unfold connect at joined
        split at joined
        · exact absurd joined List.not_mem_nil
        · split at joined
          · obtain rfl := List.mem_singleton.1 joined
            cases noVisit
          · exact absurd joined List.not_mem_nil
  · exact isRequest_of_mem_handleRequest member
  · exact isRequest_of_mem_handleRequest member
  · exact absurd member List.not_mem_nil
  · split at member
    · cases noVisit.symm.trans (visit?_of_mem_leave member)
    · exact absurd member List.not_mem_nil
  · exact absurd member List.not_mem_nil

end Transport

/-! ## Moves -/

section Moves

variable {σ : Type} {rules : Rules σ} {service : Service σ} {start land : Land σ}
  {past : List (Passage σ)} {config : LandConfig} {created : Timestamp} {initial : σ}

/-- The resolvers that a registry declares never fail. -/
def Rules.Reliable (rules : Rules σ) : Prop :=
  ∀ kind type resolvers, rules.registry.resolversFor kind type = .ok resolvers →
    ∀ submission landId chance, ∃ outputs,
      (Resolution.run ⟨submission, resolvers⟩ landId chance).result = .ok outputs

/-- The visits that were submitted: those that the land has admitted, and those
that are on their way to it. -/
def Service.visits (rules : Rules σ) (past : List (Passage σ)) (service : Service σ) :
    List Visit :=
  (admitted rules past).filterMap Submission.visit? ++ Transport.visitsOf service.requests

/-- A land that refuses a submission whose handler it knows has no number left. -/
theorem Land.isFatal_of_submit
    {queue : Queue}
    {recorder : Recorder}
    {resolutions : Nat}
    (live : land.mode = .live queue recorder resolutions)
    {inbound : Inbound}
    {resolvers : List Resolver}
    (known : rules.registry.resolversFor inbound.kind inbound.type = .ok resolvers)
    {error : LandError}
    (refused : (land.submit rules inbound).1 = .error error) :
    error.isFatal = true ∧ (land.submit rules inbound).2.failed = true := by
  simp only [submit, accept, live, known] at refused ⊢
  cases issued : land.numbering.issue with
  | error reason =>
      obtain ⟨-, rfl⟩ := Numbering.issue_eq_error_iff.1 issued
      simp only [issued] at refused ⊢
      obtain rfl := Except.error.inj refused
      exact ⟨rfl, rfl⟩
  | ok pair =>
      obtain ⟨sequence, numbering⟩ := pair
      simp only [issued] at refused
      cases resolvers with
      | nil => cases refused
      | cons resolver rest => cases refused

/-- A visit is never refused, except by a land that fails. -/
theorem Land.visit_of_submit
    {queue : Queue}
    {recorder : Recorder}
    {resolutions : Nat}
    (live : land.mode = .live queue recorder resolutions)
    {inbound : Inbound}
    (going : (land.submit rules inbound).2.failed = false) :
    ((⟨land, .submit inbound⟩ : Passage σ).admitted? rules).toList.filterMap Submission.visit? =
        inbound.visit?.toList ∧
      (inbound.visit? ≠ none → ∀ error, (land.submit rules inbound).1 ≠ .error error) := by
  have notRefused (isVisit : inbound.visit? ≠ none) (error : LandError) :
      (land.submit rules inbound).1 ≠ .error error := by
    intro refused
    have known : ∃ resolvers,
        rules.registry.resolversFor inbound.kind inbound.type = .ok resolvers := by
      cases inbound with
      | action type payload actor => exact absurd rfl isVisit
      | clientEvent type payload actor => exact absurd rfl isVisit
      | lifecycle kind actor details =>
          cases handled : rules.registry.lifecycle kind with
          | none => exact ⟨[], by simp only [Registry.resolversFor, Inbound.kind, handled]⟩
          | some registration =>
              exact ⟨registration.resolvers,
                by simp only [Registry.resolversFor, Inbound.kind, handled]⟩
    obtain ⟨resolvers, known⟩ := known
    have failed := (isFatal_of_submit live known refused).2
    exact Bool.false_ne_true (going.symm.trans failed)
  refine ⟨?_, notRefused⟩
  rcases Land.submit_live_cases rules live inbound with
    ⟨error, refused⟩ | ⟨sequence, numbering, -, -, queued⟩ |
      ⟨resolvers, sequence, numbering, -, -, -, resolving⟩
  · have noVisit : inbound.visit? = none := by
      by_contra isVisit
      exact notRefused isVisit error (by rw [refused])
    simp [Passage.admitted?, refused, noVisit]
  · simp only [Passage.admitted?, queued, Option.toList_some, List.filterMap_cons,
      Inbound.visit?_submission, List.filterMap_nil]
    cases inbound.visit? <;> rfl
  · simp only [Passage.admitted?, resolving, Option.toList_some, List.filterMap_cons,
      Inbound.visit?_submission, List.filterMap_nil]
    cases inbound.visit? <;> rfl

/-- Whoever is there by the visits that were submitted is expected, and only
clients' requests are refused. -/
structure Service.Attended
    (rules : Rules σ)
    (past : List (Passage σ))
    (service : Service σ) : Prop where
  expected : Expected (service.visits rules past) service.transport.clients service.expired
  requests : ∀ request ∈ service.requests, request.inbound.visit? = none →
    ∃ address number, request.submitter = .request address number
  receipts : ∀ receipt ∈ service.receipts, ∀ error, receipt.result = some (.error error) →
    ∃ address number, receipt.submitter = .request address number

namespace Service.Attended

/-- A move of the transport keeps the attendance when it keeps the players
expected. -/
theorem keep
    (attended : service.Attended rules past)
    {after : Service σ}
    (expected : Expected (after.visits rules past) after.transport.clients after.expired)
    (requests : ∀ request ∈ after.requests, request ∈ service.requests ∨
      (request.inbound.visit? = none →
        ∃ address number, request.submitter = .request address number))
    (receipts : after.receipts ⊆ service.receipts) :
    after.Attended rules past where
  expected := expected
  requests := fun request member noVisit =>
    (requests request member).elim
      (fun old => attended.requests request old noVisit) (fun new => new noVisit)
  receipts := fun receipt member => attended.receipts receipt (receipts member)

/-- A packet keeps the attendance. -/
theorem handlePacket
    (attended : service.Attended rules past)
    (isOpen : service.task.isOpen = true)
    (clock : Clock)
    (packet : Packet)
    (address : Address) :
    (service.handlePacket clock packet address).Attended rules past := by
  refine attended.keep ?_ (fun request member => ?_) (List.Subset.refl _)
  · have handled := Transport.handle_expected attended.expected clock packet address
    simp only [visits, Service.handlePacket, isOpen, Transport.visitsOf, List.filterMap_append]
      at handled ⊢
    rw [← List.append_assoc]
    exact handled
  · exact (List.mem_append.1 member).imp_right Transport.handle_requests

/-- The leave of an expired session keeps the attendance. -/
theorem expire
    (attended : service.Attended rules past)
    (isOpen : service.task.isOpen = true) :
    service.expire.Attended rules past := by
  unfold Service.expire
  split
  · exact attended
  · rename_i session rest expired
    have expected := attended.expected
    rw [expired] at expected
    refine attended.keep ?_ (fun request member => ?_) (List.Subset.refl _)
    · simp only [visits, submitLeave, isOpen, Transport.visitsOf, List.filterMap_append]
      rw [← List.append_assoc]
      exact expected.expire
    · apply (List.mem_append.1 member).imp_right
      intro left noVisit
      cases noVisit.symm.trans (Transport.visit?_of_mem_leave left)

/-- An acknowledgment keeps the attendance: only a refused join would take a
session. -/
theorem acknowledge
    (attended : service.Attended rules past)
    (index : Nat) :
    (service.acknowledge index).Attended rules past := by
  unfold Service.acknowledge
  split
  · exact attended
  · rename_i receipt found
    have refusals := attended.receipts receipt (List.mem_of_getElem? found)
    refine attended.keep ?_ (fun request member => .inl member) (List.eraseIdx_subset)
    have sameClients :
        (service.transport.acknowledge receipt.submitter receipt.result).clients =
          service.transport.clients := by
      unfold Transport.acknowledge
      split
      · rfl
      · rename_i error isJoin isError
        obtain ⟨address, number, isRequest⟩ := refusals error isError
        cases isJoin.symm.trans isRequest
      all_goals rfl
    rw [sameClients]
    exact attended.expected

/-- A submission that is taken keeps the attendance. -/
theorem take
    (attended : service.Attended rules past)
    {queue : Queue}
    {recorder : Recorder}
    {resolutions : Nat}
    (live : service.task.land.mode = .live queue recorder resolutions)
    {request : Request}
    {rest : List Request}
    (requests : service.requests = request :: rest)
    (isOpen : (service.take rules).task.isOpen = true) :
    (service.take rules).Attended rules
      (past ++ [⟨service.task.land, .submit request.inbound⟩]) := by
  have expected := attended.expected
  have refusals := attended.requests
  simp only [visits, requests, Transport.visitsOf] at expected refusals
  simp only [Service.take, requests] at isOpen ⊢
  obtain ⟨-, going, -, -, acknowledged⟩ := LandTask.submit_of_isOpen isOpen
  obtain ⟨visit, accepted⟩ := Land.visit_of_submit live going
  refine ⟨?_, fun other member => ?_, fun receipt member error failed => ?_⟩
  · simp only [visits, update_transport, update_expired, update_requests _ _ _ isOpen,
      Transport.visitsOf, admitted_snoc, List.filterMap_append, visit, List.append_assoc]
    rw [List.filterMap_cons] at expected
    cases isVisit : request.inbound.visit? with
    | none => simpa [isVisit] using expected
    | some found => simpa [isVisit] using expected
  · rw [update_requests _ _ _ isOpen] at member
    exact refusals other (List.mem_cons_of_mem _ member)
  · rcases mem_receipts_update _ _ _ member failed with old | ⟨ack, passed, submitter, refused⟩
    · exact attended.receipts receipt old error failed
    · obtain ⟨same, isRefused⟩ := acknowledged ack passed error refused
      rw [← submitter, same]
      apply refusals request List.mem_cons_self
      by_contra isVisit
      exact accepted isVisit error isRefused

/-- A resolution that has outputs keeps the attendance. -/
theorem resolve
    (attended : service.Attended rules past)
    (reliable : rules.Reliable)
    (fronts : service.Fronts rules start past)
    {sequence : Sequence}
    {chance : Chance}
    {resolution : Resolution}
    (wasOpen : service.task.isOpen = true)
    (found : service.task.running.find? (fun other => other.submission.sequence = sequence) =
      some resolution)
    (isOpen : (service.resolve sequence chance).task.isOpen = true) :
    (service.resolve sequence chance).Attended rules
      (past ++ [⟨service.task.land,
        .complete (resolution.run service.task.land.id chance)⟩]) := by
  obtain ⟨outputs, done⟩ := reliable _ _ _
    (fronts.declared resolution (List.mem_of_find?_eq_some found)).1
    resolution.submission service.task.land.id chance
  simp only [Service.resolve, wasOpen, found] at isOpen ⊢
  obtain ⟨-, -, -, acknowledged⟩ := LandTask.complete_of_isOpen isOpen
  refine ⟨?_, fun request member => ?_, fun receipt member error failed => ?_⟩
  · simp only [visits, update_transport, update_expired, update_requests _ _ _ isOpen,
      admitted_snoc, Passage.admitted?, Option.toList_none, List.append_nil]
    exact attended.expected
  · rw [update_requests _ _ _ isOpen] at member
    exact attended.requests request member
  · rcases mem_receipts_update _ _ _ member failed with old | ⟨ack, passed, -, refused⟩
    · exact attended.receipts receipt old error failed
    · rw [acknowledged ack passed, Land.complete, done] at refused
      cases refused

/-- A tick keeps the attendance. -/
theorem tick
    (attended : service.Attended rules past)
    (wasOpen : service.task.isOpen = true)
    (isOpen : (service.tick rules).2.task.isOpen = true) :
    (service.tick rules).2.Attended rules (past ++ [⟨service.task.land, .step⟩]) := by
  have publishes (number : Tick) (events : List Event) (transport : Transport) :
      (events.foldl (fun transport event => transport.publish number event) transport).clients =
        transport.clients := by
    induction events generalizing transport with
    | nil => rfl
    | cons event rest inductionHypothesis => exact inductionHypothesis _
  simp only [Service.tick, wasOpen, if_true] at isOpen ⊢
  refine ⟨?_, fun request member => ?_, fun receipt member error failed => ?_⟩
  · simp only [visits, update_transport, update_expired, update_requests _ _ _ isOpen,
      admitted_snoc, Passage.admitted?, Option.toList_none, List.append_nil]
    split
    · rw [publishes]
      exact attended.expected
    · exact attended.expected
  · rw [update_requests _ _ _ isOpen] at member
    exact attended.requests request member
  · rcases mem_receipts_update _ _ _ member failed with old | ⟨ack, passed, -⟩
    · exact attended.receipts receipt old error failed
    · exact absurd passed List.not_mem_nil

/-- Every move of a service whose land stays open keeps the attendance. -/
theorem after
    (started : Land.live rules config created initial = .ok start)
    (reliable : rules.Reliable)
    (fronts : service.Fronts rules start past)
    (attended : service.Attended rules past)
    {move : Move}
    (isOpen : (service.after rules move).task.isOpen = true) :
    (service.after rules move).Attended rules (past ++ (service.passage? move).toList) := by
  have wasOpen := isOpen_of_after isOpen
  have unmoved : service.Attended rules (past ++ []) := (List.append_nil past).symm ▸ attended
  cases move with
  | packet clock packet address =>
      exact (List.append_nil past).symm ▸ attended.handlePacket wasOpen clock packet address
  | dropSilent clock =>
      refine (List.append_nil past).symm ▸ attended.keep ?_ (fun request member => .inl member)
        (List.Subset.refl _)
      exact attended.expected.dropSilent clock
  | expire => exact (List.append_nil past).symm ▸ attended.expire wasOpen
  | take =>
      cases requests : service.requests with
      | nil =>
          simp only [Service.after, Service.take, passage?, operation?, requests]
          exact unmoved
      | cons request rest =>
          obtain ⟨frames, tracks⟩ := fronts.run.tracks started
          obtain ⟨queue, recorder, resolutions, live, -⟩ := tracks.mode
          simp only [passage?, operation?, requests]
          exact attended.take live requests isOpen
  | resolve sequence chance =>
      cases found : service.task.running.find? fun other =>
          other.submission.sequence = sequence with
      | none =>
          simp only [Service.after, Service.resolve, passage?, operation?, wasOpen, found]
          exact unmoved
      | some resolution =>
          simp only [passage?, operation?, found]
          exact attended.resolve reliable fronts wasOpen found isOpen
  | tick => exact attended.tick wasOpen isOpen
  | acknowledge index => exact (List.append_nil past).symm ▸ attended.acknowledge index
  | send =>
      refine (List.append_nil past).symm ▸ attended.keep ?_ (fun request member => .inl member)
        (List.Subset.refl _)
      have sameClients : service.transport.sendNext.2.clients = service.transport.clients := by
        unfold Transport.sendNext
        split <;> rfl
      simp only [visits, Service.after, Service.send, sameClients]
      exact attended.expected
  | close =>
      simp only [Service.after, close, update_isOpen, LandTask.shutdown, wasOpen, if_true]
        at isOpen
      cases isOpen

end Service.Attended

/-- A service at its start: no client is connected and nothing is on its way. -/
def Service.fresh (clients : Clients) (land : Land σ) : Service σ :=
  { transport := { clients := clients }, task := { land := land } }

/-- A service begins with nothing having passed on its land. -/
theorem Service.Fronts.begins
    (started : Land.live rules config created initial = .ok start)
    (clients : Clients) :
    (fresh clients start).Fronts rules start [] := by
  obtain ⟨recorder, holds, rfl⟩ := Land.live_eq_ok started
  exact ⟨.nothing, trivial, rfl, rfl, fun _ member => absurd member List.not_mem_nil,
    fun _ member => absurd member List.not_mem_nil⟩

/-- A service begins with nobody expected. -/
theorem Service.Attended.begins (clients : Clients) (land : Land σ) :
    (fresh clients land).Attended rules [] where
  expected := fun _ there => by cases there
  requests := fun _ member => absurd member List.not_mem_nil
  receipts := fun _ member => absurd member List.not_mem_nil

/-- Wherever a service gets with its land open, the land is at the end of a run
and whoever is there by the submitted visits is expected. -/
theorem Service.Reaches.attended
    {clients : Clients}
    (started : Land.live rules config created initial = .ok start)
    (reliable : rules.Reliable)
    (reaches : Reaches rules (fresh clients start) service)
    (isOpen : service.task.isOpen = true) :
    ∃ past, service.Fronts rules start past ∧ service.Attended rules past := by
  induction reaches with
  | nothing => exact ⟨[], .begins started clients, .begins clients start⟩
  | next reached takes inductionHypothesis =>
      obtain ⟨past, fronts, attended⟩ := inductionHypothesis (isOpen_of_after isOpen)
      exact ⟨_, fronts.after started takes isOpen, attended.after started reliable fronts isOpen⟩

end Moves
end Chronicle
