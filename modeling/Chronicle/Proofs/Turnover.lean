import Chronicle.Proofs.Course

/-!
# Sessions that come and go

A session begins with the join that is submitted for it.  It ends with the leave
that is submitted for it, at once or after it has expired, or because a join was
refused.  In front of an open land nothing else begins or ends one.
-/

namespace Chronicle

namespace Clients

variable {clients after : Clients} {address : Address}

/-- The identities of the connected clients. -/
def identities (clients : Clients) : List Actor := clients.sessions.values.map (·.identity)

/-- The client at an address is disconnected. -/
theorem identities_remove (clients : Clients) (address : Address) :
    (((clients.byAddress? address).map (·.identity)).toList ++
      (clients.remove address).identities).Perm clients.identities := by
  have taken := (Dict.values_erase_perm clients.sessions address).map Session.identity
  rw [List.map_append] at taken
  rw [byAddress?]
  cases found : clients.sessions.get? address <;> rw [found] at taken <;> exact taken

/-- After it was removed, there is no client at an address. -/
theorem byAddress?_remove_self (clients : Clients) (address : Address) :
    (clients.remove address).byAddress? address = none :=
  Dict.get?_eq_none_iff.2 fun _ member => (Dict.mem_entries_erase.1 member).2

/-- What is known of a client that is added. -/
theorem add?_eq_some
    {player : String}
    {clock : Clock}
    {identity : Actor}
    (added : clients.add? address player clock = some (identity, after)) :
    ¬ clients.Holds player ∧
      identity = identityOf player clients.nextNumber clock ∧
      after =
        { clients with
          sessions := clients.sessions.insert address ⟨identity, address, clock.elapsed⟩
          nextNumber := clients.nextNumber + 1 } := by
  unfold add? at added
  split at added
  · cases added
  · split at added
    · cases added
    · rename_i absent
      obtain ⟨rfl, rfl⟩ := Prod.mk.inj (Option.some.inj added)
      exact ⟨fun holds => absent (isSome_byPlayer?.2 holds), rfl, rfl⟩

/-- The id of the client of a number. -/
def clientId (number : UInt32) : String := s!"c{number.toNat}"

/-- Clients of different numbers have different ids. -/
theorem clientId_injective : Function.Injective clientId := by
  intro first second same
  have digits : Nat.toDigits 10 first.toNat = Nat.toDigits 10 second.toNat := by
    refine String.ofList_inj.1 ?_
    simpa [clientId, toString, Nat.repr_eq_ofList_toDigits] using same
  have numbers := congrArg (Nat.ofDigitChars 10 · 0) digits
  rw [Nat.ofDigitChars_ten_toDigits, Nat.ofDigitChars_ten_toDigits] at numbers
  exact UInt32.toNat_inj.1 numbers

/-- A client that is added is connected besides the others. -/
theorem identities_add?
    {player : String}
    {clock : Clock}
    {identity : Actor}
    (added : clients.add? address player clock = some (identity, after))
    (vacant : clients.byAddress? address = none) :
    after.identities.Perm (identity :: clients.identities) := by
  obtain ⟨-, -, rfl⟩ := add?_eq_some added
  exact (Dict.values_insert_perm _ (Dict.get?_eq_none_iff.1 vacant)).map Session.identity

/-- A sign of life connects and disconnects nobody. -/
theorem identities_touch (clients : Clients) (address : Address) (clock : Clock) :
    (clients.touch address clock).identities.Perm clients.identities := by
  unfold touch
  split
  · rename_i session found
    have removed := identities_remove clients address
    rw [found] at removed
    exact ((Dict.values_insert_perm_erase _ _ _).map Session.identity).trans removed
  · exact List.Perm.refl _

/-- Clients that are silent are disconnected. -/
theorem identities_dropSilent (clients : Clients) (clock : Clock) :
    ((clients.dropSilent clock).1.map (·.identity) ++
      (clients.dropSilent clock).2.identities).Perm clients.identities := by
  simp only [dropSilent, identities, Dict.values, Dict.filter, ← List.map_append]
  exact ((List.filter_append_perm _ _).map Prod.snd).map Session.identity

/-- No client is connected but those that were. -/
def Among (after clients : Clients) : Prop :=
  ∀ address session, after.byAddress? address = some session →
    ∃ former, clients.byAddress? address = some former ∧ former.identity = session.identity

namespace Among

theorem refl (clients : Clients) : clients.Among clients :=
  fun _ session found => ⟨session, found, rfl⟩

theorem trans {later : Clients} (second : later.Among after) (first : after.Among clients) :
    later.Among clients := by
  intro address session found
  obtain ⟨former, here, same⟩ := second address session found
  obtain ⟨earlier, there, alike⟩ := first address former here
  exact ⟨earlier, there, alike.trans same⟩

theorem remove (clients : Clients) (address : Address) :
    (clients.remove address).Among clients := by
  intro other session found
  have member := Dict.get?_eq_some_iff.1 found
  exact ⟨session, Dict.get?_eq_some_iff.2 (Dict.mem_entries_erase.1 member).1, rfl⟩

theorem dropSilent (clients : Clients) (clock : Clock) :
    (clients.dropSilent clock).2.Among clients := by
  intro other session found
  have member := Dict.get?_eq_some_iff.1 found
  exact ⟨session, Dict.get?_eq_some_iff.2 (Dict.mem_entries_filter.1 member).1, rfl⟩

theorem touch (clients : Clients) (address : Address) (clock : Clock) :
    (clients.touch address clock).Among clients := by
  unfold Clients.touch
  split
  · rename_i former here
    intro other session found
    rcases Dict.mem_entries_insert.1 (Dict.get?_eq_some_iff.1 found) with same | ⟨member, -⟩
    · obtain ⟨rfl, rfl⟩ := Prod.mk.inj same
      exact ⟨former, here, rfl⟩
    · exact ⟨session, Dict.get?_eq_some_iff.2 member, rfl⟩
  · exact refl clients

/-- A client that is added and removed again has changed nobody's place. -/
theorem remove_add?
    {player : String}
    {clock : Clock}
    {identity : Actor}
    (added : clients.add? address player clock = some (identity, after)) :
    (after.remove address).Among clients := by
  obtain ⟨-, -, rfl⟩ := add?_eq_some added
  intro other session found
  obtain ⟨member, elsewhere⟩ := Dict.mem_entries_erase.1 (Dict.get?_eq_some_iff.1 found)
  rcases Dict.mem_entries_insert.1 member with same | ⟨former, -⟩
  · exact absurd (Prod.mk.inj same).1 elsewhere
  · exact ⟨session, Dict.get?_eq_some_iff.2 former, rfl⟩

end Among

/-- No client is connected but those that were, and no number was given. -/
structure Within (after clients : Clients) : Prop where
  nextNumber : after.nextNumber = clients.nextNumber
  among : after.Among clients

namespace Within

theorem refl (clients : Clients) : clients.Within clients := ⟨rfl, .refl clients⟩

theorem remove (clients : Clients) (address : Address) :
    (clients.remove address).Within clients := ⟨rfl, .remove clients address⟩

theorem dropSilent (clients : Clients) (clock : Clock) :
    (clients.dropSilent clock).2.Within clients := ⟨rfl, .dropSilent clients clock⟩

theorem touch (clients : Clients) (address : Address) (clock : Clock) :
    (clients.touch address clock).Within clients := by
  refine ⟨?_, .touch clients address clock⟩
  unfold Clients.touch
  split <;> rfl

end Within
end Clients

/-! ## Packets -/

namespace Transport

/-- The leave of the client at an address, if there is one. -/
def leaving (clients : Clients) (address : Address) : List Request :=
  match clients.byAddress? address with
  | some session => leave true session.identity
  | none => []

/-- What a packet from an address does in front of an open land: nothing, it is a
sign of life or a request, the client at the address leaves, or a client joins in
its place. -/
inductive Handles (clock : Clock) (address : Address) (clients : Clients) :
    Packet → List Request → Clients → Prop where
  | nothing (packet : Packet) : Handles clock address clients packet [] clients
  | touches (packet : Packet) :
      Handles clock address clients packet [] (clients.touch address clock)
  | asks (packet : Packet) {number : UInt32} {inbound : Inbound}
      (noVisit : inbound.visit? = none) :
      Handles clock address clients packet [⟨.request address number, inbound⟩]
        (clients.touch address clock)
  | leaves (packet : Packet) :
      Handles clock address clients packet (leaving clients address) (clients.remove address)
  | joins {version : UInt32} {player : String} {device : Option String} {guest : Bool}
      {metadata : Dict String String} {identity : Actor} {after : Clients}
      (added : (clients.remove address).add? address player clock = some (identity, after)) :
      Handles clock address clients (.join version player device guest metadata)
        (leaving clients address ++
          [⟨.join address identity, .lifecycle .join identity ⟨device, some guest, metadata⟩⟩])
        after

/-- The packets that an open land's transport handles do nothing else. -/
theorem handle_handles
    (transport : Transport)
    (clock : Clock)
    (packet : Packet)
    (address : Address) :
    Handles clock address transport.clients packet
      (transport.handle true clock packet address).1
      (transport.handle true clock packet address).2.clients := by
  have asks (number : UInt32) (type payload : String) (isClientEvent : Bool) :
      Handles clock address transport.clients packet
        (transport.handleRequest true clock address number type payload isClientEvent).1
        (transport.handleRequest true clock address number type payload
          isClientEvent).2.clients := by
    unfold handleRequest
    split
    · exact .nothing packet
    · rename_i session found
      cases decoded : Inbound.ofPayload? type payload session.identity isClientEvent with
      | none => exact .touches packet
      | some inbound =>
          obtain ⟨value, -, rfl⟩ := Option.map_eq_some_iff.1 decoded
          refine .asks packet ?_
          cases isClientEvent <;> rfl
  unfold handle
  split
  · unfold handleJoin
    split
    · exact .nothing _
    · unfold connect
      dsimp only
      cases added : (transport.clients.remove address).add? address _ clock with
      | none =>
          rw [List.append_nil]
          exact .leaves _
      | some pair => exact .joins added
  · exact asks _ _ _ false
  · exact asks _ _ _ true
  · exact .touches _
  · cases found : transport.clients.byAddress? address with
    | none => exact .nothing _
    | some session =>
        have left : Handles clock address transport.clients .leave
            (leaving transport.clients address) (transport.clients.remove address) := .leaves _
        rw [leaving, found] at left
        exact left
  · exact .nothing _

/-- In front of a land that has ended nobody is connected. -/
theorem among_handle_closed
    (transport : Transport)
    (clock : Clock)
    (packet : Packet)
    (address : Address) :
    (transport.handle false clock packet address).2.clients.Among transport.clients := by
  have asks (number : UInt32) (type payload : String) (isClientEvent : Bool) :
      (transport.handleRequest false clock address number type payload
        isClientEvent).2.clients.Among transport.clients := by
    unfold handleRequest
    split
    · exact .refl _
    · dsimp only
      split <;> exact .touch _ address clock
  unfold handle
  split
  · unfold handleJoin
    split
    · exact .refl _
    · unfold connect
      dsimp only
      cases added : (transport.clients.remove address).add? address _ clock with
      | none => exact .remove _ address
      | some pair => exact (Clients.Among.remove_add? added).trans (.remove _ address)
  · exact asks _ _ _ false
  · exact asks _ _ _ true
  · exact .touch _ address clock
  · split
    · exact .remove _ address
    · exact .refl _
  · exact .refl _

end Transport

/-- The address and the identity that somebody joins with. -/
def Submitter.join? (submitter : Submitter) : Option (Address × Actor) :=
  match submitter with
  | .join address identity => some (address, identity)
  | _ => none

/-- The identity whose leave a request submits. -/
def Request.leaves? (request : Request) : Option Actor :=
  match request.inbound with
  | .lifecycle .leave identity _ => some identity
  | _ => none

/-- The joins among some requests. -/
def joinsOf (requests : List Request) : List (Address × Actor) :=
  requests.filterMap (·.submitter.join?)

/-- The leaves among some requests. -/
def leavesOf (requests : List Request) : List Actor := requests.filterMap Request.leaves?

@[simp] theorem joinsOf_nil : joinsOf [] = [] := rfl

@[simp] theorem leavesOf_nil : leavesOf [] = [] := rfl

@[simp] theorem joinsOf_append (first second : List Request) :
    joinsOf (first ++ second) = joinsOf first ++ joinsOf second := List.filterMap_append

@[simp] theorem leavesOf_append (first second : List Request) :
    leavesOf (first ++ second) = leavesOf first ++ leavesOf second := List.filterMap_append

namespace Transport

@[simp] theorem joinsOf_leave (isOpen : Bool) (identity : Actor) :
    joinsOf (leave isOpen identity) = [] := by
  cases isOpen <;> rfl

@[simp] theorem leavesOf_leave (identity : Actor) :
    leavesOf (leave true identity) = [identity] := rfl

@[simp] theorem joinsOf_leaving (clients : Clients) (address : Address) :
    joinsOf (leaving clients address) = [] := by
  unfold leaving
  split
  · exact joinsOf_leave true _
  · rfl

@[simp] theorem leavesOf_leaving (clients : Clients) (address : Address) :
    leavesOf (leaving clients address) =
      ((clients.byAddress? address).map (·.identity)).toList := by
  unfold leaving
  split
  · rename_i session found
    rw [found]
    rfl
  · rename_i vacant
    rw [vacant]
    rfl

namespace Handles

variable {clock : Clock} {address : Address} {clients after : Clients} {packet : Packet}
  {requests : List Request}

/-- A request for something else is no leave. -/
theorem leavesOf_asks
    {number : UInt32}
    {inbound : Inbound}
    (noVisit : inbound.visit? = none) :
    leavesOf [⟨.request address number, inbound⟩] = [] := by
  cases inbound with
  | action type payload actor => rfl
  | clientEvent type payload actor => rfl
  | lifecycle kind actor details => cases noVisit

/-- Who was connected or joins, is connected or leaves. -/
theorem identities (handles : Handles clock address clients packet requests after) :
    (clients.identities ++ (joinsOf requests).map (·.2)).Perm
      (after.identities ++ leavesOf requests) := by
  cases handles with
  | nothing => exact List.Perm.refl _
  | touches => exact ((Clients.identities_touch clients address clock).append_right []).symm
  | asks _ noVisit =>
      rw [leavesOf_asks noVisit]
      exact ((Clients.identities_touch clients address clock).append_right []).symm
  | leaves =>
      rw [joinsOf_leaving, leavesOf_leaving, List.map_nil, List.append_nil]
      exact (Clients.identities_remove clients address).symm.trans List.perm_append_comm
  | joins added =>
      have vacant := Clients.byAddress?_remove_self clients address
      have newcomer := Clients.identities_add? added vacant
      have removed := Clients.identities_remove clients address
      rw [joinsOf_append, joinsOf_leaving, leavesOf_append, leavesOf_leaving, List.nil_append]
      refine (removed.symm.append_right _).trans ?_
      rw [List.append_assoc]
      refine List.perm_append_comm.trans ?_
      rw [show leavesOf [_] = ([] : List Actor) from rfl, List.append_nil]
      exact (List.perm_append_comm.trans newcomer.symm).append_right _

/-- Only a packet that joins connects a client, in the place of whoever was there. -/
theorem newcomers (handles : Handles clock address clients packet requests after) :
    (joinsOf requests = [] ∧ after.Within clients) ∨
    ∃ version player device guest metadata identity,
      packet = .join version player device guest metadata ∧
        joinsOf requests = [(address, identity)] ∧
        (clients.remove address).add? address player clock = some (identity, after) := by
  cases handles with
  | nothing => exact .inl ⟨rfl, .refl clients⟩
  | touches => exact .inl ⟨rfl, .touch clients address clock⟩
  | asks => exact .inl ⟨rfl, .touch clients address clock⟩
  | leaves => exact .inl ⟨joinsOf_leaving clients address, .remove clients address⟩
  | joins added =>
      refine .inr ⟨_, _, _, _, _, _, rfl, ?_, added⟩
      rw [joinsOf_append, joinsOf_leaving]
      rfl

end Handles

end Transport

/-! ## Services -/

namespace Service

variable {σ : Type}

/-- The identities of the sessions whose leave has not been submitted: of those that
are connected, and of those that have expired. -/
def held (service : Service σ) : List Actor :=
  service.transport.clients.identities ++ service.expired.map (·.identity)

end Service

/-- The join that an acknowledgment refuses. -/
def Receipt.refused? (receipt : Receipt) : Option (Address × Actor) :=
  match receipt with
  | ⟨.join address identity, some (.error _)⟩ => some (address, identity)
  | _ => none

namespace Occurrence

variable {σ : Type}

/-- The join whose refusal is passed on in a move. -/
def refused? (occurrence : Occurrence σ) : Option (Address × Actor) :=
  occurrence.receipt?.bind Receipt.refused?

/-- A refusal that is passed on was on its way. -/
theorem exists_receipt_of_refused
    {occurrence : Occurrence σ}
    {join : Address × Actor}
    (refused : occurrence.refused? = some join) :
    ∃ receipt ∈ occurrence.before.receipts, receipt.refused? = some join := by
  obtain ⟨service, move⟩ := occurrence
  obtain ⟨receipt, passed, isRefused⟩ := Option.bind_eq_some_iff.1 refused
  cases move with
  | acknowledge index => exact ⟨receipt, List.mem_of_getElem? passed, isRefused⟩
  | _ => cases passed

/-- The session that is taken down in a move because a join was refused. -/
def evicted (occurrence : Occurrence σ) : List Actor :=
  match occurrence.refused? with
  | some (address, _) =>
      ((occurrence.before.transport.clients.byAddress? address).map (·.identity)).toList
  | none => []

end Occurrence

namespace Service

variable {σ : Type} {rules : Rules σ}

/-- The clients after an acknowledgment was passed on: a refused join takes down the
session at its address. -/
theorem clients_acknowledge (transport : Transport) (receipt : Receipt) :
    (transport.acknowledge receipt.submitter receipt.result).clients =
      match receipt.refused? with
      | some (address, _) => transport.clients.remove address
      | none => transport.clients := by
  rcases receipt with ⟨_ | _ | _, _ | _ | _⟩ <;> rfl

/-- Who was held or joins, is held after the move, or leaves, or is taken down by a
refused join. -/
theorem held_after
    (rules : Rules σ)
    (service : Service σ)
    (move : Move)
    (isOpen : service.task.isOpen = true) :
    (service.held ++ (joinsOf (⟨service, move⟩ : Occurrence σ).requests).map (·.2)).Perm
      ((service.after rules move).held ++
        (leavesOf (⟨service, move⟩ : Occurrence σ).requests ++
          (⟨service, move⟩ : Occurrence σ).evicted)) := by
  have same {after : Service σ} (clients : after.transport.clients = service.transport.clients)
      (expired : after.expired = service.expired) :
      (service.held ++ []).Perm (after.held ++ ([] ++ [])) := by
    rw [held, held, clients, expired]
    exact List.Perm.refl _
  have does := service.does rules move
  generalize service.after rules move = after at does ⊢
  cases does with
  | idles idle =>
      rw [idle.requests, Occurrence.evicted, Occurrence.refused?, idle.receipt?]
      exact same rfl rfl
  | receives clock packet address =>
      have handled := (Transport.handle_handles service.transport clock packet address).identities
      have nobody : (⟨service, .packet clock packet address⟩ : Occurrence σ).evicted = [] := rfl
      rw [nobody, List.append_nil]
      simp only [held, Occurrence.requests, handlePacket, isOpen]
      rw [List.append_assoc, List.append_assoc]
      refine (List.perm_append_comm.append_left _).trans ?_
      rw [← List.append_assoc]
      refine (handled.append_right _).trans ?_
      rw [List.append_assoc]
      exact List.perm_append_comm.append_left _
  | drops clock =>
      have dropped := Clients.identities_dropSilent service.transport.clients clock
      refine (List.append_nil _).symm ▸ (List.append_nil _).symm ▸ ?_
      simp only [held, dropSilent, List.map_append]
      refine (dropped.symm.append_right _).trans ?_
      rw [List.append_assoc]
      exact List.perm_append_comm.trans (List.Perm.of_eq (List.append_assoc _ _ _))
  | expires expired =>
      simp only [held, expired, isOpen, Occurrence.requests, Occurrence.evicted,
        Occurrence.refused?, Occurrence.receipt?, Transport.joinsOf_leave,
        Transport.leavesOf_leave, List.map_cons, List.map_nil, List.append_nil]
      refine List.perm_middle.trans ?_
      exact (List.perm_append_singleton _ _).symm
  | ticks => exact same (heard_clients rules service) rfl
  | passesOn found =>
      rename_i index receipt
      have clients := clients_acknowledge service.transport receipt
      have passed : (⟨service, .acknowledge index⟩ : Occurrence σ).refused? = receipt.refused? :=
        congrArg (Option.bind · Receipt.refused?) found
      rw [Occurrence.evicted, passed]
      cases refused : receipt.refused? with
      | none =>
          rw [refused] at clients
          exact same clients rfl
      | some join =>
          obtain ⟨address, identity⟩ := join
          rw [refused] at clients
          have removed := Clients.identities_remove service.transport.clients address
          simp only [held, clients]
          refine (List.append_nil _).symm ▸ ?_
          refine (removed.symm.append_right _).trans ?_
          rw [List.append_assoc]
          exact List.perm_append_comm
  | sends =>
      refine same ?_ rfl
      simp only [send, Transport.sendNext]
      split <;> rfl
  | takes | resolves | closes => exact same rfl rfl

/-- Only a packet connects somebody. -/
theorem within_after
    (rules : Rules σ)
    (service : Service σ)
    {move : Move}
    (noPacket : ∀ clock packet address, move ≠ .packet clock packet address) :
    joinsOf (⟨service, move⟩ : Occurrence σ).requests = [] ∧
      (service.after rules move).transport.clients.Within service.transport.clients := by
  have same {after : Service σ} (clients : after.transport.clients = service.transport.clients) :
      after.transport.clients.Within service.transport.clients := clients ▸ .refl _
  have does := service.does rules move
  generalize service.after rules move = after at does ⊢
  cases does with
  | idles idle => exact ⟨congrArg joinsOf idle.requests, same rfl⟩
  | receives clock packet address => exact absurd rfl (noPacket clock packet address)
  | drops clock => exact ⟨rfl, .dropSilent _ clock⟩
  | expires expired =>
      simp only [Occurrence.requests, expired]
      exact ⟨Transport.joinsOf_leave _ _, same rfl⟩
  | ticks => exact ⟨rfl, same (heard_clients rules service)⟩
  | passesOn found =>
      rename_i index receipt
      refine ⟨rfl, ?_⟩
      simp only [clients_acknowledge service.transport receipt]
      split
      · exact .remove _ _
      · exact .refl _
  | sends =>
      refine ⟨rfl, same ?_⟩
      simp only [send, Transport.sendNext]
      split <;> rfl
  | takes | resolves | closes => exact ⟨rfl, same rfl⟩

/-- In front of an open land a move connects nobody, or it is a join from an address, in
the place of whoever was there. -/
theorem newcomers_after
    (rules : Rules σ)
    (service : Service σ)
    (move : Move)
    (isOpen : service.task.isOpen = true) :
    (joinsOf (⟨service, move⟩ : Occurrence σ).requests = [] ∧
      (service.after rules move).transport.clients.Within service.transport.clients) ∨
    ∃ clock version player device guest metadata address identity,
      move = .packet clock (.join version player device guest metadata) address ∧
        joinsOf (⟨service, move⟩ : Occurrence σ).requests = [(address, identity)] ∧
        (service.transport.clients.remove address).add? address player clock =
          some (identity, (service.after rules move).transport.clients) := by
  cases move with
  | packet clock packet address =>
      simp only [Occurrence.requests, after, handlePacket, isOpen]
      rcases (Transport.handle_handles service.transport clock packet address).newcomers with
        nobody | ⟨version, player, device, guest, metadata, identity, rfl, joins, added⟩
      · exact .inl nobody
      · exact .inr ⟨clock, version, player, device, guest, metadata, address, identity, rfl, joins,
          added⟩
  | _ => exact .inl (within_after rules service fun _ _ _ same => by cases same)

/-- In front of a land that has ended a move connects nobody. -/
theorem among_after_of_closed
    (rules : Rules σ)
    (service : Service σ)
    (move : Move)
    (closed : service.task.isOpen = false) :
    (service.after rules move).transport.clients.Among service.transport.clients := by
  cases move with
  | packet clock packet address =>
      simp only [after, handlePacket, closed]
      exact Transport.among_handle_closed service.transport clock packet address
  | _ => exact (within_after rules service fun _ _ _ same => by cases same).2.among

/-- The session at an address is that of the last join from it. -/
def Latest (joins : List (Address × Actor)) (clients : Clients) : Prop :=
  ∀ address session, clients.byAddress? address = some session →
    ∃ before after, joins = before ++ (address, session.identity) :: after ∧
      ∀ later ∈ after, later.1 ≠ address

namespace Latest

variable {joins : List (Address × Actor)} {clients after : Clients}

/-- As long as nobody is connected, the sessions are those of the same joins. -/
theorem keep (latest : Latest joins clients) (among : after.Among clients) :
    Latest joins after := by
  intro address session found
  obtain ⟨former, here, same⟩ := among address session found
  exact same ▸ latest address former here

/-- Whoever joins has the session at the address. -/
theorem join
    (latest : Latest joins clients)
    {address : Address}
    {player : String}
    {clock : Clock}
    {identity : Actor}
    (added : (clients.remove address).add? address player clock = some (identity, after)) :
    Latest (joins ++ [(address, identity)]) after := by
  obtain ⟨-, -, rfl⟩ := Clients.add?_eq_some added
  intro other session found
  rcases Dict.mem_entries_insert.1 (Dict.get?_eq_some_iff.1 found) with new | ⟨member, elsewhere⟩
  · obtain ⟨rfl, rfl⟩ := Prod.mk.inj new
    exact ⟨joins, [], rfl, fun _ member => absurd member List.not_mem_nil⟩
  · have former := Dict.get?_eq_some_iff.2 (Dict.mem_entries_erase.1 member).1
    obtain ⟨before, behind, rfl, last⟩ := latest other session former
    refine ⟨before, behind ++ [(address, identity)], by simp, fun later there => ?_⟩
    rcases List.mem_append.1 there with older | now
    · exact last later older
    · rw [List.mem_singleton.1 now]
      exact Ne.symm elsewhere

end Latest

namespace Course

variable {past : List (Occurrence σ)} {start service : Service σ}

/-- Every session that was joined is held, or its leave was submitted, or it was taken
down by a refused join. -/
theorem sessions
    (course : Course rules start past service)
    (begins : start.held = [])
    (isOpen : service.task.isOpen = true) :
    ((joinsOf (submitted past)).map (·.2)).Perm
      (service.held ++ (leavesOf (submitted past) ++ past.flatMap (·.evicted))) := by
  induction course with
  | nothing =>
      rw [begins]
      exact List.Perm.refl _
  | next course takes inductionHypothesis =>
      rename_i past service move
      have wasOpen := isOpen_of_after isOpen
      have turned := held_after rules service move wasOpen
      have before := inductionHypothesis wasOpen
      rw [submitted_snoc, joinsOf_append, leavesOf_append, List.map_append, List.flatMap_append,
        List.flatMap_singleton]
      rw [List.perm_iff_count] at before turned ⊢
      intro identity
      have earlier := before identity
      have now := turned identity
      simp only [List.count_append] at earlier now ⊢
      omega

/-- A session is that of the last join from its address. -/
theorem latest
    (course : Course rules start past service)
    (begins : start.transport.clients.sessions = ∅) :
    Latest (joinsOf (submitted past)) service.transport.clients := by
  induction course with
  | nothing =>
      intro address session found
      rw [Clients.byAddress?, begins] at found
      cases found
  | next course takes inductionHypothesis =>
      rename_i past service move
      rw [submitted_snoc, joinsOf_append]
      cases isOpen : service.task.isOpen with
      | true =>
          rcases newcomers_after rules service move isOpen with
            ⟨nobody, within⟩ | ⟨_, _, _, _, _, _, _, _, -, joins, added⟩
          · rw [nobody, List.append_nil]
            exact inductionHypothesis.keep within.among
          · rw [joins]
            exact inductionHypothesis.join added
      | false =>
          rw [requests_eq_nil_of_closed isOpen, joinsOf_nil, List.append_nil]
          exact inductionHypothesis.keep (among_after_of_closed rules service move isOpen)

/-- Clients are numbered in the order of their joins. -/
theorem clientIds
    (course : Course rules start past service)
    (begins : start.transport.clients.nextNumber = 1) :
    (joinsOf (submitted past)).map (·.2.client) =
        (List.range (joinsOf (submitted past)).length).map
          (fun index => some (Clients.clientId (UInt32.ofNat (index + 1)))) ∧
      (service.task.isOpen = true →
        service.transport.clients.nextNumber =
          UInt32.ofNat ((joinsOf (submitted past)).length + 1)) := by
  induction course with
  | nothing => exact ⟨rfl, fun _ => begins⟩
  | next course takes inductionHypothesis =>
      rename_i past service move
      obtain ⟨numbered, next⟩ := inductionHypothesis
      rw [submitted_snoc, joinsOf_append]
      cases isOpen : service.task.isOpen with
      | true =>
          have next := next isOpen
          rcases newcomers_after rules service move isOpen with
            ⟨nobody, within⟩ | ⟨_, _, _, _, _, _, address, _, -, joins, added⟩
          · rw [nobody, List.append_nil]
            exact ⟨numbered, fun _ => within.nextNumber.trans next⟩
          · obtain ⟨-, identity, clients⟩ := Clients.add?_eq_some added
            have number : (service.transport.clients.remove address).nextNumber =
                UInt32.ofNat ((joinsOf (submitted past)).length + 1) := next
            rw [number] at identity clients
            rw [joins, List.length_append, List.length_singleton, List.range_succ, List.map_append,
              List.map_append, numbered, identity, clients]
            exact ⟨rfl, fun _ => (UInt32.ofNat_add _ 1).symm⟩
      | false =>
          rw [requests_eq_nil_of_closed isOpen, joinsOf_nil, List.append_nil]
          refine ⟨numbered, fun stillOpen => ?_⟩
          rw [isOpen_of_after stillOpen] at isOpen
          cases isOpen

/-- As long as the numbers of clients do not wrap around, every join has an identity of
its own. -/
theorem nodup_joins
    (course : Course rules start past service)
    (begins : start.transport.clients.nextNumber = 1)
    (fewer : (joinsOf (submitted past)).length < UInt32.size) :
    ((joinsOf (submitted past)).map (·.2)).Nodup := by
  apply List.Nodup.of_map Actor.client
  rw [List.map_map]
  refine (course.clientIds begins).1 ▸ List.Nodup.map_on ?_ List.nodup_range
  intro first here second there same
  have small {index : Nat} (member : index ∈ List.range (joinsOf (submitted past)).length) :
      (UInt32.ofNat (index + 1)).toNat = index + 1 :=
    UInt32.toNat_ofNat_of_lt (Nat.lt_of_le_of_lt (List.mem_range.1 member) fewer)
  have numbers := congrArg UInt32.toNat (Clients.clientId_injective (Option.some.inj same))
  rw [small here, small there] at numbers
  exact Nat.succ.inj numbers

end Course
end Service
end Chronicle
