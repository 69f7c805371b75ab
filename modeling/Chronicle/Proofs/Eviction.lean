import Chronicle.Proofs.Acceptance
import Chronicle.Proofs.Session
import Chronicle.Proofs.Turnover

/-!
# Sessions that refused joins take down

When the refusal of a join is passed on, the session at its address is taken down.
This is the session of the refused join, unless a later join from the address has
taken its place: then somebody is disconnected whose join was accepted, and no leave
is submitted for the session.
-/

namespace Chronicle

/-- Whoever is refused a join has joined. -/
theorem Receipt.join_of_refused
    {receipt : Receipt}
    {join : Address × Actor}
    (refused : receipt.refused? = some join) :
    receipt.submitter.join? = some join := by
  unfold Receipt.refused? at refused
  split at refused
  · exact refused
  · cases refused

namespace Gate

/-- A ticket is drawn for everybody who joins; the first one is not valid. -/
def ticket : Resolver where
  name := "ticket"
  resolve _ draw := if draw = 0 then .error (.failed "no ticket") else .ok ⟨"Ticket", .null⟩

/-- A land that lets nobody in without a ticket and does nothing else. -/
def rules : Rules Unit where
  registry :=
    { landType := "gate"
      join := some ⟨fun _ _ => pure (), [ticket]⟩
      leave := some ⟨fun _ _ => pure (), []⟩ }
  fingerprint _ := ""

end Gate

namespace Service

variable {σ : Type} {rules : Rules σ} {past : List (Occurrence σ)} {start service : Service σ}

/-- A refused join was overtaken: when its refusal was passed on, a later join from the
same address had the session there. -/
def Overtaken (past : List (Occurrence σ)) : Prop :=
  ∃ earlier occurrence later address identity session,
    past = earlier ++ occurrence :: later ∧
      occurrence.refused? = some (address, identity) ∧
      occurrence.before.transport.clients.byAddress? address = some session ∧
      List.Sublist [(address, identity), (address, session.identity)]
        (joinsOf (submitted earlier))

/-- The session that is taken down by the refusal of a join is that of the join. -/
def EvictsOwn (past : List (Occurrence σ)) : Prop :=
  ∀ occurrence ∈ past, ∀ address identity session,
    occurrence.refused? = some (address, identity) →
    occurrence.before.transport.clients.byAddress? address = some session →
      session.identity = identity

/-- Refused joins take down their own sessions only. -/
structure OwnSessions (past : List (Occurrence σ)) (service : Service σ) : Prop where
  own : EvictsOwn past
  /-- As long as the land is open, a session whose join it has accepted is connected, or
  has expired and its leave is about to be submitted, or its leave was submitted once. -/
  accounted : service.task.isOpen = true → ∀ address identity sequence,
    ⟨.join address identity, some (.ok sequence)⟩ ∈ service.receipts ++ passedOn past →
      (service.held ++ leavesOf (submitted past)).count identity = 1

/-- Whoever waits for the acknowledgment of a join, or was passed one, has joined, each
join counted once. -/
theorem Course.joins_subperm
    (course : Course rules start past service)
    (begins : start.task.Orderly)
    (nobody : start.desk = []) :
    List.Subperm ((service.receipts ++ passedOn past).filterMap (·.submitter.join?))
      (joinsOf (submitted past)) := by
  have told := (course.desk begins nobody).filterMap Submitter.join?
  have known : List.Sublist ((service.receipts ++ passedOn past).map (·.submitter))
      (service.desk ++ (passedOn past).map (·.submitter)) := by
    rw [List.map_append]
    refine List.Sublist.append ?_ (List.Sublist.refl _)
    exact (List.sublist_append_right _ _).trans (List.sublist_append_right _ _)
  have joined := (known.filterMap Submitter.join?).subperm.trans told.symm.subperm
  rwa [List.filterMap_map, List.filterMap_map] at joined

/-- A join whose refusal is passed on was submitted before. -/
theorem Course.mem_joins_of_refused
    (course : Course rules start past service)
    (begins : start.task.Orderly)
    (nobody : start.desk = [])
    {move : Move}
    {join : Address × Actor}
    (refused : (⟨service, move⟩ : Occurrence σ).refused? = some join) :
    join ∈ joinsOf (submitted past) := by
  obtain ⟨receipt, member, isRefused⟩ := Occurrence.exists_receipt_of_refused refused
  exact (course.joins_subperm begins nobody).subset (List.mem_filterMap.2
    ⟨receipt, List.mem_append_left _ member, Receipt.join_of_refused isRefused⟩)

/-- The session at the address of a refused join is that of the join, or the join was
overtaken. -/
theorem Course.own_or_overtaken
    (course : Course rules start past service)
    (begins : start.task.Orderly)
    (nobody : start.desk = [])
    (empty : start.transport.clients.sessions = ∅)
    {move : Move}
    {address : Address}
    {identity : Actor}
    {session : Session}
    (refused : (⟨service, move⟩ : Occurrence σ).refused? = some (address, identity))
    (found : service.transport.clients.byAddress? address = some session) :
    session.identity = identity ∨
      List.Sublist [(address, identity), (address, session.identity)]
        (joinsOf (submitted past)) := by
  have joined := course.mem_joins_of_refused begins nobody refused
  obtain ⟨before, after, joins, last⟩ := course.latest empty address session found
  rw [joins] at joined ⊢
  rcases List.mem_append.1 joined with older | newer
  · exact .inr ((List.singleton_sublist.2 older).append
      (List.singleton_sublist.2 List.mem_cons_self))
  · rcases List.mem_cons.1 newer with same | behind
    · exact .inl (Prod.mk.inj same).2.symm
    · exact absurd rfl (last _ behind)

/-- Whoever was accepted is not taken down by a join that takes down its own session. -/
theorem Course.not_evicted
    (course : Course rules start past service)
    (begins : start.task.Orderly)
    (nobody : start.desk = [])
    (distinct : ((joinsOf (submitted past)).map (·.2)).Nodup)
    (own : EvictsOwn past)
    {address : Address}
    {identity : Actor}
    {sequence : Sequence}
    (accepted : ⟨.join address identity, some (.ok sequence)⟩ ∈
      service.receipts ++ passedOn past) :
    identity ∉ past.flatMap (·.evicted) := by
  intro evicted
  obtain ⟨occurrence, member, takenDown⟩ := List.mem_flatMap.1 evicted
  unfold Occurrence.evicted at takenDown
  split at takenDown
  · rename_i place other refused
    obtain ⟨session, found, rfl⟩ := Option.map_eq_some_iff.1 (Option.mem_toList.1 takenDown)
    obtain ⟨receipt, passed, isRefused⟩ := Option.bind_eq_some_iff.1 refused
    have refusal : receipt ∈ service.receipts ++ passedOn past :=
      List.mem_append_right _ (List.mem_filterMap.2 ⟨occurrence, member, passed⟩)
    have once : ((service.receipts ++ passedOn past).filterMap
        fun receipt => receipt.submitter.join?.map (·.2)).Nodup := by
      obtain ⟨joined, told, among⟩ := course.joins_subperm begins nobody
      have apart := (told.map (·.2)).nodup_iff.1 ((among.map (·.2)).nodup distinct)
      rwa [List.map_filterMap] at apart
    have same := eq_of_nodup_filterMap once accepted refusal rfl (by
      rw [Receipt.join_of_refused isRefused, own occurrence member _ _ _ refused found]
      rfl)
    rw [← same] at isRefused
    cases isRefused
  · cases takenDown

/-- Where no two joins come from one address, no join is overtaken. -/
theorem not_overtaken_of_nodup
    (apart : ((joinsOf (submitted past)).map (·.1)).Nodup) :
    ¬ Overtaken past := by
  rintro ⟨earlier, occurrence, later, address, identity, session, rfl, -, -, overtaken⟩
  rw [submitted_append, joinsOf_append] at apart
  have twice := ((overtaken.trans (List.sublist_append_left _ _)).map (·.1)).nodup apart
  simp at twice

/-- Refused joins take down their own sessions exactly as long as none of them was
overtaken. -/
theorem refused_joins_own_sessions_iff
    {land : Land σ}
    {capacity timeout : Nat}
    (course :
      Course rules (fresh { capacity := capacity, timeout := timeout } land) past service)
    (fewer : (joinsOf (submitted past)).length < UInt32.size) :
    OwnSessions past service ↔ ¬ Overtaken past := by
  have begins := orderly_fresh { capacity := capacity, timeout := timeout } land
  have distinct := course.nodup_joins rfl fewer
  constructor
  · rintro ⟨own, -⟩ ⟨earlier, occurrence, later, address, identity, session, rfl, refused, found,
      overtaken⟩
    have same := own occurrence (by simp) _ _ _ refused found
    have before : List.Sublist (joinsOf (submitted earlier))
        (joinsOf (submitted (earlier ++ occurrence :: later))) := by
      rw [submitted_append, joinsOf_append]
      exact List.sublist_append_left _ _
    have twice := ((overtaken.trans before).map (·.2)).nodup distinct
    simp [same] at twice
  · intro notOvertaken
    have own : EvictsOwn past := by
      intro occurrence member address identity session refused found
      obtain ⟨earlier, later, rfl⟩ := List.append_of_mem member
      obtain ⟨course, -⟩ := course.cut
      refine (course.own_or_overtaken begins rfl rfl refused found).resolve_right fun overtaken =>
        notOvertaken ?_
      exact ⟨earlier, occurrence, later, address, identity, session, rfl, refused, found, overtaken⟩
    refine ⟨own, fun isOpen address identity sequence accepted => ?_⟩
    have joined : identity ∈ (joinsOf (submitted past)).map (·.2) :=
      List.mem_map_of_mem ((course.joins_subperm begins rfl).subset
        (List.mem_filterMap.2 ⟨_, accepted, rfl⟩))
    have told := (course.sessions rfl isOpen).count_eq identity
    rw [List.count_eq_one_of_mem distinct joined, ← List.append_assoc, List.count_append,
      List.count_eq_zero.2 (course.not_evicted begins rfl distinct own accepted)] at told
    exact told.symm

/-- The first of two players is refused and loses the own session only; the second one
stays. -/
theorem refused_joins_own_sessions_of_gate :
    ∃ land past service,
      Land.live Gate.rules { landId := "gate-1", landType := "gate" } .epoch () = .ok land ∧
        Course Gate.rules (fresh { capacity := 8 } land) past service ∧
        (joinsOf (submitted past)).length < UInt32.size ∧
        service.task.isOpen = true ∧
        (passedOn past).filterMap Receipt.refused? =
          [(⟨.v4 0, 4000⟩, Clients.identityOf "p1" 1 ⟨0, 0⟩)] ∧
        service.held = [Clients.identityOf "p2" 2 ⟨0, 0⟩] ∧
        OwnSessions past service := by
  let first : Address := ⟨.v4 0, 4000⟩
  let second : Address := ⟨.v4 0, 4001⟩
  let moves : List Move :=
    [.packet ⟨0, 0⟩ (.join Packet.protocolVersion "p1" none false ∅) first,
      .packet ⟨0, 0⟩ (.join Packet.protocolVersion "p2" none false ∅) second, .take, .take,
      .resolve 1 ⟨1, []⟩, .resolve 0 ⟨0, []⟩, .acknowledge 1, .acknowledge 0]
  obtain ⟨land, started⟩ : ∃ land,
      Land.live Gate.rules { landId := "gate-1", landType := "gate" } .epoch () = .ok land :=
    ⟨_, rfl⟩
  have course := Course.of_moves Gate.rules (fresh { capacity := 8 } land) moves (by
    obtain rfl := Except.ok.inj started
    decide +kernel)
  have fewer : (joinsOf (submitted
      ((fresh { capacity := 8 } land).occurrences Gate.rules moves))).length < UInt32.size := by
    obtain rfl := Except.ok.inj started
    decide +kernel
  have apart : ((joinsOf (submitted
      ((fresh { capacity := 8 } land).occurrences Gate.rules moves))).map (·.1)).Nodup := by
    obtain rfl := Except.ok.inj started
    decide +kernel
  refine ⟨land, _, _, started, course, fewer, ?_, ?_, ?_,
    (refused_joins_own_sessions_iff course fewer).2 (not_overtaken_of_nodup apart)⟩
  all_goals
    obtain rfl := Except.ok.inj started
    decide +kernel

/-- A player joins twice from one address.  The second join is accepted, and then the
refusal of the first one takes the second session down: nobody is connected any longer,
and no leave was submitted for the second session. -/
theorem accepted_session_taken_down :
    ∃ land past service,
      Land.live Gate.rules { landId := "gate-1", landType := "gate" } .epoch () = .ok land ∧
        Course Gate.rules (fresh { capacity := 8 } land) past service ∧
        service.task.isOpen = true ∧
        service.desk = [] ∧
        joinsOf (submitted past) =
          [(⟨.v4 0, 4000⟩, Clients.identityOf "p1" 1 ⟨0, 0⟩),
            (⟨.v4 0, 4000⟩, Clients.identityOf "p1" 2 ⟨0, 0⟩)] ∧
        (passedOn past).filterMap Receipt.accepts? =
          [(.leave, 1), (.join ⟨.v4 0, 4000⟩ (Clients.identityOf "p1" 2 ⟨0, 0⟩), 2)] ∧
        (passedOn past).filterMap Receipt.refused? =
          [(⟨.v4 0, 4000⟩, Clients.identityOf "p1" 1 ⟨0, 0⟩)] ∧
        past.flatMap (·.evicted) = [Clients.identityOf "p1" 2 ⟨0, 0⟩] ∧
        service.held = [] ∧
        leavesOf (submitted past) = [Clients.identityOf "p1" 1 ⟨0, 0⟩] := by
  let address : Address := ⟨.v4 0, 4000⟩
  let join : Move := .packet ⟨0, 0⟩ (.join Packet.protocolVersion "p1" none false ∅) address
  let moves : List Move :=
    [join, .take, join, .take, .take, .resolve 2 ⟨1, []⟩, .resolve 0 ⟨0, []⟩,
      .acknowledge 0, .acknowledge 0, .acknowledge 0]
  obtain ⟨land, started⟩ : ∃ land,
      Land.live Gate.rules { landId := "gate-1", landType := "gate" } .epoch () = .ok land :=
    ⟨_, rfl⟩
  have course := Course.of_moves Gate.rules (fresh { capacity := 8 } land) moves (by
    obtain rfl := Except.ok.inj started
    decide +kernel)
  refine ⟨land, _, _, started, course, ?_, ?_, ?_, ?_, ?_, ?_, ?_, ?_⟩
  all_goals
    obtain rfl := Except.ok.inj started
    decide +kernel

end Service
end Chronicle
