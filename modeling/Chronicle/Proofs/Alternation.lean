import Chronicle.Proofs.Turnover

/-!
# Joins and leaves in turn

As long as no player joins while an expired session of the player still has to be
left, the joins and leaves of a player are submitted in turn: each leave is that of
the session that the join before it has begun.  A land admits them in the same order.
-/

namespace Chronicle

/-- Of what may be there at most one thing is found. -/
theorem filterMap_toList
    {α β : Type}
    (find? : α → Option β)
    (known : Option α) :
    known.toList.filterMap find? = (known.bind find?).toList := by
  cases known with
  | none => rfl
  | some entry =>
      rw [Option.toList_some, List.filterMap_cons, List.filterMap_nil, Option.bind_some]
      cases find? entry <;> rfl

/-- Whether a submission is a join or a leave of a player, and who joins or leaves. -/
def Submission.visitOf? (player : String) (submission : Submission) :
    Option (LifecycleKind × Actor) :=
  match submission.kind with
  | .lifecycle kind =>
      if submission.actor.player = some player then some (kind, submission.actor) else none
  | _ => none

/-- Whether an inbound is a join or a leave of a player, and who joins or leaves. -/
def Inbound.visitOf? (player : String) (inbound : Inbound) : Option (LifecycleKind × Actor) :=
  (inbound.submission 0).visitOf? player

section VisitOf

variable {player : String}

theorem Submission.visitOf?_eq_some_iff
    {submission : Submission}
    {kind : LifecycleKind}
    {actor : Actor} :
    submission.visitOf? player = some (kind, actor) ↔
      submission.visit? = some ⟨kind, some player⟩ ∧ submission.actor = actor := by
  unfold visitOf? visit?
  cases submission.kind with
  | action => simp
  | clientEvent => simp
  | lifecycle visited => by_cases own : submission.actor.player = some player <;> simp [own]

@[simp] theorem Inbound.visitOf?_submission (inbound : Inbound) (sequence : Sequence) :
    (inbound.submission sequence).visitOf? player = inbound.visitOf? player := by
  cases inbound <;> rfl

/-- What is no visit is no visit of a player. -/
theorem Inbound.visitOf?_eq_none {inbound : Inbound} (noVisit : inbound.visit? = none) :
    inbound.visitOf? player = none := by
  cases inbound with
  | action type payload actor => rfl
  | clientEvent type payload actor => rfl
  | lifecycle kind actor details => cases noVisit

/-- A join or leave is one of the player who joins or leaves. -/
theorem Inbound.visitOf?_lifecycle
    (kind : LifecycleKind)
    (actor : Actor)
    (details : LifecycleDetails) :
    (Inbound.lifecycle kind actor details).visitOf? player =
      if actor.player = some player then some (kind, actor) else none := rfl

end VisitOf

/-! ## Taking turns -/

/-- Joins and leaves come in turn, and each leave is of whoever has joined just before
it; the last one to join has not left yet. -/
inductive Alternates : List (LifecycleKind × Actor) → Option Actor → Prop where
  | nothing : Alternates [] none
  | comes {visits : List (LifecycleKind × Actor)} {actor : Actor}
      (before : Alternates visits none) :
      Alternates (visits ++ [(.join, actor)]) (some actor)
  | goes {visits : List (LifecycleKind × Actor)} {actor : Actor}
      (before : Alternates visits (some actor)) :
      Alternates (visits ++ [(.leave, actor)]) none

namespace Alternates

variable {visits older newer : List (LifecycleKind × Actor)} {current : Option Actor}
  {actor : Actor} {kind : LifecycleKind}

/-- What was before the last visit came in turn as well. -/
theorem init
    (alternates : Alternates (visits ++ [(kind, actor)]) current) :
    (kind = .join ∧ current = some actor ∧ Alternates visits none) ∨
      (kind = .leave ∧ current = none ∧ Alternates visits (some actor)) := by
  generalize whole : visits ++ [(kind, actor)] = list at alternates
  cases alternates with
  | nothing => exact absurd whole (by simp)
  | comes before =>
      obtain ⟨rfl, same⟩ := List.append_inj' whole rfl
      obtain ⟨rfl, rfl⟩ := Prod.mk.inj (List.singleton_inj.1 same)
      exact .inl ⟨rfl, rfl, before⟩
  | goes before =>
      obtain ⟨rfl, same⟩ := List.append_inj' whole rfl
      obtain ⟨rfl, rfl⟩ := Prod.mk.inj (List.singleton_inj.1 same)
      exact .inr ⟨rfl, rfl, before⟩

/-- The first visits come in turn as all of them do. -/
theorem take (alternates : Alternates (older ++ newer) current) :
    ∃ current, Alternates older current := by
  induction newer using List.reverseRecOn generalizing current with
  | nil => exact ⟨current, List.append_nil older ▸ alternates⟩
  | append_singleton newer last inductionHypothesis =>
      rw [← List.append_assoc] at alternates
      rcases alternates.init with ⟨-, -, before⟩ | ⟨-, -, before⟩
      · exact inductionHypothesis before
      · exact inductionHypothesis before

/-- Just before a leave its own join came. -/
theorem join_before (alternates : Alternates (older ++ (.leave, actor) :: newer) current) :
    ∃ before, older = before ++ [(.join, actor)] := by
  rw [List.append_cons] at alternates
  obtain ⟨_, upTo⟩ := alternates.take
  rcases upTo.init with ⟨isJoin, -⟩ | ⟨-, -, joined⟩
  · cases isJoin
  · cases joined with
    | comes before => exact ⟨_, rfl⟩

/-- Just after a join its own leave comes, if anything does. -/
theorem leave_after
    {next : LifecycleKind × Actor}
    (alternates : Alternates (older ++ (.join, actor) :: next :: newer) current) :
    next = (.leave, actor) := by
  obtain ⟨kind, other⟩ := next
  rw [List.append_cons, List.append_cons] at alternates
  obtain ⟨_, upTo⟩ := alternates.take
  rcases upTo.init with ⟨-, -, before⟩ | ⟨rfl, -, before⟩
  · rcases before.init with ⟨-, absent, -⟩ | ⟨isLeave, -⟩
    · cases absent
    · cases isLeave
  · rcases before.init with ⟨-, same, -⟩ | ⟨isLeave, -⟩
    · rw [Option.some.inj same]
    · cases isLeave

/-- Between a leave and what is in front of it in a list there is its own join, and no
other visit after that. -/
theorem exists_join
    {α : Type}
    {visit? : α → Option (LifecycleKind × Actor)}
    {before after : List α}
    {leave : α}
    (alternates : Alternates ((before ++ leave :: after).filterMap visit?) current)
    (leaves : visit? leave = some (.leave, actor)) :
    ∃ older join between,
      before = older ++ join :: between ∧
        visit? join = some (.join, actor) ∧
        ∀ other ∈ between, visit? other = none := by
  rw [List.filterMap_append, List.filterMap_cons_some leaves] at alternates
  obtain ⟨_, isBefore⟩ := alternates.join_before
  obtain ⟨older, rest, rfl, -, joined⟩ := List.filterMap_eq_append_iff.1 isBefore
  obtain ⟨others, join, between, rfl, -, joins, nothing⟩ := List.filterMap_eq_cons_iff.1 joined
  exact ⟨older ++ others, join, between, (List.append_assoc _ _ _).symm, joins,
    List.filterMap_eq_nil_iff.1 nothing⟩

/-- Of the visits that follow a join in a list its own leave is the first one. -/
theorem exists_leave
    {α : Type}
    {visit? : α → Option (LifecycleKind × Actor)}
    {before after : List α}
    {join other : α}
    (alternates : Alternates ((before ++ join :: after).filterMap visit?) current)
    (joins : visit? join = some (.join, actor))
    (later : other ∈ after)
    (visits : visit? other ≠ none) :
    ∃ between leave newer,
      after = between ++ leave :: newer ∧
        visit? leave = some (.leave, actor) ∧
        ∀ other ∈ between, visit? other = none := by
  rw [List.filterMap_append, List.filterMap_cons_some joins] at alternates
  cases following : after.filterMap visit? with
  | nil => exact absurd (List.filterMap_eq_nil_iff.1 following other later) visits
  | cons next rest =>
      rw [following] at alternates
      obtain ⟨between, leave, newer, rfl, none, leaves, -⟩ := List.filterMap_eq_cons_iff.1 following
      exact ⟨between, leave, newer, rfl, leaves.trans (congrArg some alternates.leave_after), none⟩

variable {submissions : List Submission} {player : String}

/-- The join of a session has the last number of a visit of the player before its leave. -/
theorem exists_join_of_leave
    (alternates : Alternates (submissions.filterMap (·.visitOf? player)) current)
    (ascending : submissions.Pairwise fun first second => first.sequence < second.sequence)
    {leave : Submission}
    (submitted : leave ∈ submissions)
    (leaves : leave.visitOf? player = some (.leave, actor)) :
    ∃ join ∈ submissions,
      join.visitOf? player = some (.join, actor) ∧
        join.sequence < leave.sequence ∧
        ∀ other ∈ submissions, other.visitOf? player ≠ none →
          other.sequence < join.sequence ∨ other = join ∨ other = leave ∨
            leave.sequence < other.sequence := by
  obtain ⟨before, after, rfl⟩ := List.append_of_mem submitted
  obtain ⟨older, join, between, rfl, joins, none⟩ := alternates.exists_join leaves
  obtain ⟨front, back, across⟩ := List.pairwise_append.1 ascending
  obtain ⟨-, -, outer⟩ := List.pairwise_append.1 front
  refine ⟨join, by simp, joins, ?_, fun other member visits => ?_⟩
  · exact across join (by simp) leave List.mem_cons_self
  · rcases List.mem_append.1 member with inFront | behind
    · rcases List.mem_append.1 inFront with earlier | rest
      · exact .inl (outer other earlier join List.mem_cons_self)
      · rcases List.mem_cons.1 rest with same | inBetween
        · exact .inr (.inl same)
        · exact absurd (none other inBetween) visits
    · rcases List.mem_cons.1 behind with same | later
      · exact .inr (.inr (.inl same))
      · exact .inr (.inr (.inr ((List.pairwise_cons.1 back).1 other later)))

/-- Between two joins of a player there is the number of a leave. -/
theorem exists_leave_between
    (alternates : Alternates (submissions.filterMap (·.visitOf? player)) current)
    (ascending : submissions.Pairwise fun first second => first.sequence < second.sequence)
    {first second : Submission}
    {other : Actor}
    (here : first ∈ submissions)
    (there : second ∈ submissions)
    (firstJoins : first.visitOf? player = some (.join, actor))
    (secondJoins : second.visitOf? player = some (.join, other))
    (smaller : first.sequence < second.sequence) :
    ∃ leave ∈ submissions,
      leave.visitOf? player = some (.leave, actor) ∧
        first.sequence < leave.sequence ∧ leave.sequence < second.sequence := by
  obtain ⟨before, after, rfl⟩ := List.append_of_mem here
  obtain ⟨-, back, across⟩ := List.pairwise_append.1 ascending
  obtain ⟨following, behind⟩ := List.pairwise_cons.1 back
  have later : second ∈ after := by
    rcases List.mem_append.1 there with earlier | rest
    · have greater := across second earlier first List.mem_cons_self
      exact absurd (UInt64.lt_trans smaller greater) (UInt64.lt_irrefl _)
    · rcases List.mem_cons.1 rest with rfl | later
      · exact absurd smaller (UInt64.lt_irrefl _)
      · exact later
  obtain ⟨between, leave, newer, rfl, leaves, none⟩ :=
    alternates.exists_leave firstJoins later (by rw [secondJoins]; nofun)
  refine ⟨leave, by simp, leaves, following leave (by simp), ?_⟩
  rcases List.mem_append.1 later with inBetween | rest
  · rw [none second inBetween] at secondJoins
    cases secondJoins
  · rcases List.mem_cons.1 rest with rfl | afterwards
    · rw [leaves] at secondJoins
      cases secondJoins
    · exact (List.pairwise_cons.1 (List.pairwise_append.1 behind).2.1).1 second afterwards

end Alternates

/-- The visits of a player came in turn, and of the player's sessions that one is held
which was joined last, as long as it has not been left. -/
def InTurn
    (player : String)
    (visits : List (LifecycleKind × Actor))
    (held : List Actor) : Prop :=
  ∃ current, Alternates visits current ∧
    (held.filter fun actor => actor.player = some player).Perm current.toList

namespace InTurn

variable {player : String} {visits : List (LifecycleKind × Actor)} {held after : List Actor}
  {actor : Actor}

/-- At first nobody has come. -/
theorem nothing : InTurn player [] [] := ⟨none, .nothing, List.Perm.refl _⟩

/-- The order of the sessions does not matter. -/
theorem perm (inTurn : InTurn player visits held) (same : after.Perm held) :
    InTurn player visits after := by
  obtain ⟨current, alternates, own⟩ := inTurn
  exact ⟨current, alternates, (same.filter _).trans own⟩

/-- Whoever is held leaves. -/
theorem leave
    (inTurn : InTurn player visits held)
    (left : held.Perm (actor :: after))
    (details : LifecycleDetails) :
    InTurn player (visits ++ ((Inbound.lifecycle .leave actor details).visitOf? player).toList)
      after := by
  obtain ⟨current, alternates, own⟩ := inTurn
  have rest := (left.filter fun actor => actor.player = some player).symm.trans own
  rw [Inbound.visitOf?_lifecycle]
  split
  · rename_i isOwn
    rw [List.filter_cons_of_pos (by simpa using isOwn)] at rest
    cases current with
    | none => exact absurd rest.length_eq (by simp)
    | some joined =>
        have same : actor = joined := List.mem_singleton.1 (rest.subset List.mem_cons_self)
        subst same
        exact ⟨none, alternates.goes, (List.perm_cons actor).1 rest⟩
  · rename_i other
    rw [List.filter_cons_of_neg (by simpa using other)] at rest
    exact ⟨current, (List.append_nil visits).symm ▸ alternates, rest⟩

/-- Somebody joins whose player is not held. -/
theorem join
    (inTurn : InTurn player visits held)
    (joined : after.Perm (actor :: held))
    (absent : actor.player = some player → ∀ other ∈ held, other.player ≠ some player)
    (details : LifecycleDetails) :
    InTurn player (visits ++ ((Inbound.lifecycle .join actor details).visitOf? player).toList)
      after := by
  obtain ⟨current, alternates, own⟩ := inTurn
  have all := joined.filter fun actor => actor.player = some player
  rw [Inbound.visitOf?_lifecycle]
  split
  · rename_i isOwn
    have nobody : (held.filter fun actor => actor.player = some player) = [] :=
      List.filter_eq_nil_iff.2 fun other member => by simpa using absent isOwn other member
    rw [nobody] at own
    rw [List.filter_cons_of_pos (by simpa using isOwn), nobody] at all
    cases current with
    | some joined => exact absurd own.length_eq (by simp)
    | none => exact ⟨some actor, alternates.comes, all⟩
  · rename_i other
    rw [List.filter_cons_of_neg (by simpa using other)] at all
    exact ⟨current, (List.append_nil visits).symm ▸ alternates, all.trans own⟩

end InTurn

/-- The joins and leaves of a player among some requests, in their order. -/
def ownVisits (player : String) (requests : List Request) : List (LifecycleKind × Actor) :=
  requests.filterMap fun request => request.inbound.visitOf? player

@[simp] theorem ownVisits_append (player : String) (first second : List Request) :
    ownVisits player (first ++ second) = ownVisits player first ++ ownVisits player second :=
  List.filterMap_append

theorem ownVisits_singleton (player : String) (request : Request) :
    ownVisits player [request] = (request.inbound.visitOf? player).toList :=
  filterMap_toList _ (some request)

/-! ## Packets -/

namespace Transport

variable {player : String} {visits : List (LifecycleKind × Actor)} {waiting : List Actor}
  {clock : Clock} {address : Address} {clients after : Clients} {packet : Packet}
  {requests : List Request}

/-- Whoever is at an address leaves. -/
theorem inTurn_leaving
    (inTurn : InTurn player visits (clients.identities ++ waiting))
    (address : Address) :
    InTurn player (visits ++ ownVisits player (leaving clients address))
      ((clients.remove address).identities ++ waiting) := by
  have removed := Clients.identities_remove clients address
  unfold leaving
  split
  · rename_i session found
    rw [found] at removed
    rw [leave, if_pos rfl, ownVisits_singleton]
    exact inTurn.leave (removed.symm.append_right waiting) {}
  · rename_i vacant
    rw [vacant] at removed
    rw [ownVisits, List.filterMap_nil, List.append_nil]
    exact inTurn.perm (removed.append_right waiting)

/-- Whatever a client sends to an open land, the player's visits stay in turn, unless the
player joins while an expired session of the player is waiting to be left. -/
theorem Handles.inTurn
    (handles : Handles clock address clients packet requests after)
    (inTurn : InTurn player visits (clients.identities ++ waiting))
    (prompt : ∀ version device guest metadata,
      packet = .join version player device guest metadata →
        ∀ actor ∈ waiting, actor.player ≠ some player) :
    InTurn player (visits ++ ownVisits player requests) (after.identities ++ waiting) := by
  have touched := inTurn.perm
    ((Clients.identities_touch clients address clock).append_right waiting)
  cases handles with
  | nothing => exact (List.append_nil visits).symm ▸ inTurn
  | touches => exact (List.append_nil visits).symm ▸ touched
  | asks _ noVisit =>
      rw [ownVisits_singleton, Inbound.visitOf?_eq_none noVisit]
      exact (List.append_nil visits).symm ▸ touched
  | leaves => exact inTurn_leaving inTurn address
  | joins added =>
      have vacant := Clients.byAddress?_remove_self clients address
      have newcomer := Clients.identities_add? added vacant
      obtain ⟨notHeld, rfl, -⟩ := Clients.add?_eq_some added
      rw [ownVisits_append, ownVisits_singleton, ← List.append_assoc]
      refine (inTurn_leaving inTurn address).join (newcomer.append_right waiting) ?_ _
      intro own other member
      obtain rfl := Option.some.inj own
      rcases List.mem_append.1 member with connected | expired
      · intro same
        obtain ⟨session, isSession, rfl⟩ := List.mem_map.1 connected
        obtain ⟨entry, isEntry, rfl⟩ := List.mem_map.1 isSession
        exact notHeld ⟨entry, isEntry, same⟩
      · exact prompt _ _ _ _ rfl other expired

end Transport

/-! ## Lands -/

/-- An open land admits every visit that it takes. -/
theorem Land.visitOf_of_submit
    {σ : Type}
    {rules : Rules σ}
    {land : Land σ}
    {queue : Queue}
    {recorder : Recorder}
    {resolutions : Nat}
    (live : land.mode = .live queue recorder resolutions)
    {inbound : Inbound}
    (going : (land.submit rules inbound).2.failed = false)
    (player : String) :
    ((⟨land, .submit inbound⟩ : Passage σ).admitted? rules).bind (·.visitOf? player) =
      inbound.visitOf? player := by
  rcases Land.submit_live_cases rules live inbound with
    ⟨error, refused⟩ | ⟨sequence, numbering, -, -, queued⟩ |
      ⟨resolvers, sequence, numbering, -, -, -, resolving⟩
  · have noVisit : inbound.visit? = none := by
      by_contra isVisit
      exact (Land.visit_of_submit live going).2 isVisit error (by rw [refused])
    simp [Passage.admitted?, refused, Inbound.visitOf?_eq_none noVisit]
  · simp [Passage.admitted?, queued]
  · simp [Passage.admitted?, resolving]

/-! ## Courses -/

namespace Occurrence

variable {σ : Type}

/-- The player who joins with the packet that is handled in a move. -/
def joining? (occurrence : Occurrence σ) : Option String :=
  match occurrence.move with
  | .packet _ (.join _ player _ _ _) _ => some player
  | _ => none

end Occurrence

namespace Service

variable {σ : Type} {rules : Rules σ} {player : String} {past : List (Occurrence σ)}
  {start service : Service σ}

/-- A player never joins while an expired session of the player is waiting for its leave
to be submitted. -/
def Prompt (player : String) (past : List (Occurrence σ)) : Prop :=
  ∀ occurrence ∈ past, occurrence.joining? = some player →
    ∀ session ∈ occurrence.before.expired, session.identity.player ≠ some player

instance (player : String) (past : List (Occurrence σ)) : Decidable (Prompt player past) :=
  inferInstanceAs (Decidable (∀ occurrence ∈ past, _ → _))

/-- A move in front of an open land in which nobody is taken down keeps the visits of a
prompt player in turn. -/
theorem inTurn_after
    {visits : List (LifecycleKind × Actor)}
    (move : Move)
    (isOpen : service.task.isOpen = true)
    (nobody : (⟨service, move⟩ : Occurrence σ).evicted = [])
    (prompt : Prompt player [(⟨service, move⟩ : Occurrence σ)])
    (inTurn : InTurn player visits service.held) :
    InTurn player (visits ++ ownVisits player (⟨service, move⟩ : Occurrence σ).requests)
      (service.after rules move).held := by
  have turned := held_after rules service move isOpen
  rw [nobody, List.append_nil] at turned
  have same (nothing : (⟨service, move⟩ : Occurrence σ).requests = []) :
      InTurn player (visits ++ ownVisits player (⟨service, move⟩ : Occurrence σ).requests)
        (service.after rules move).held := by
    rw [nothing] at turned ⊢
    refine (List.append_nil visits).symm ▸ inTurn.perm ?_
    simpa using turned.symm
  have does := service.does rules move
  generalize service.after rules move = after at does turned same ⊢
  cases does with
  | idles idle => exact same idle.requests
  | receives clock packet address =>
      have handles := Transport.handle_handles service.transport clock packet address
      have kept := handles.inTurn inTurn fun version device guest metadata isJoin actor member => by
        obtain ⟨session, expired, rfl⟩ := List.mem_map.1 member
        refine prompt _ List.mem_cons_self ?_ session expired
        rw [Occurrence.joining?, isJoin]
      simpa only [held, Occurrence.requests, handlePacket, isOpen] using kept
  | expires expired =>
      rename_i session rest
      have left : (⟨service, .expire⟩ : Occurrence σ).requests =
          Transport.leave true session.identity := by
        simp only [Occurrence.requests, expired, isOpen]
      rw [left] at turned ⊢
      rw [Transport.leave, if_pos rfl, ownVisits_singleton]
      refine inTurn.leave (?_ : service.held.Perm _) {}
      simpa using turned.trans List.perm_append_comm
  | drops | takes | resolves | ticks | passesOn | sends | closes => exact same rfl

/-- In a move the land admits the visit that it takes, as long as it stays open. -/
theorem visits_after
    {queue : Queue}
    {recorder : Recorder}
    {resolutions : Nat}
    (live : service.task.land.mode = .live queue recorder resolutions)
    {move : Move}
    (isOpen : (service.after rules move).task.isOpen = true)
    (player : String) :
    ((⟨service, move⟩ : Occurrence σ).passage?.toList.filterMap
        (Passage.admitted? rules)).filterMap (·.visitOf? player) =
      ownVisits player (⟨service, move⟩ : Occurrence σ).taken?.toList := by
  have wasOpen := isOpen_of_after isOpen
  rw [Occurrence.passage?, if_pos wasOpen, filterMap_toList, filterMap_toList, ownVisits,
    filterMap_toList]
  cases move with
  | take =>
      cases requests : service.requests with
      | nil => simp only [passage?, operation?, Occurrence.taken?, requests]; rfl
      | cons request rest =>
          rw [after, take, requests] at isOpen
          obtain ⟨-, going, -⟩ := LandTask.submit_of_isOpen isOpen
          simp only [passage?, operation?, Occurrence.taken?, requests, List.head?_cons,
            Option.map_some, Option.bind_some, Land.visitOf_of_submit live going player]
  | resolve sequence chance =>
      simp only [passage?, operation?]
      cases service.task.running.find? _ <;> rfl
  | _ => rfl

namespace Course

/-- In front of an open land that refuses nobody, the visits of a prompt player are
submitted in turn. -/
theorem inTurn
    (course : Course rules start past service)
    (begins : start.held = [])
    (isOpen : service.task.isOpen = true)
    (nobody : past.flatMap (·.evicted) = [])
    (prompt : Prompt player past) :
    InTurn player (ownVisits player (submitted past)) service.held := by
  induction course with
  | nothing =>
      rw [begins]
      exact .nothing
  | next course takes inductionHypothesis =>
      rw [List.flatMap_append, List.flatMap_singleton, List.append_eq_nil_iff] at nobody
      have wasOpen := isOpen_of_after isOpen
      rw [submitted_snoc, ownVisits_append]
      refine inTurn_after _ wasOpen nobody.2 (fun occurrence member => ?_) ?_
      · exact prompt occurrence (List.mem_append_right _ member)
      · exact inductionHypothesis wasOpen nobody.1 fun occurrence member =>
          prompt occurrence (List.mem_append_left _ member)

variable {land : Land σ} {clients : Clients} {config : LandConfig} {created : Timestamp}
  {initial : σ}

/-- In front of an open land whose resolvers do not fail nobody is taken down. -/
theorem evicted_eq_nil
    (started : Land.live rules config created initial = .ok land)
    (reliable : rules.Reliable)
    (course : Course rules (fresh clients land) past service)
    (isOpen : service.task.isOpen = true) :
    past.flatMap (·.evicted) = [] := by
  induction course with
  | nothing => rfl
  | next course takes inductionHypothesis =>
      rename_i past service move
      have wasOpen := isOpen_of_after isOpen
      have attended := course.attended started reliable wasOpen
      have notRefused : (⟨service, move⟩ : Occurrence σ).refused? = none := by
        refine Option.eq_none_iff_forall_ne_some.2 fun join refused => ?_
        obtain ⟨receipt, member, isRefused⟩ := Occurrence.exists_receipt_of_refused refused
        unfold Receipt.refused? at isRefused
        split at isRefused
        · obtain ⟨_, _, isRequest⟩ := attended.receipts _ member _ rfl
          cases isRequest
        · cases isRefused
      rw [List.flatMap_append, List.flatMap_singleton, inductionHypothesis wasOpen,
        Occurrence.evicted, notRefused]
      rfl

/-- An open land has admitted the visits that it has taken, in their order. -/
theorem visits_admitted
    (started : Land.live rules config created initial = .ok land)
    (course : Course rules (fresh clients land) past service)
    (isOpen : service.task.isOpen = true)
    (player : String) :
    (admitted rules (passages past)).filterMap (·.visitOf? player) =
      ownVisits player (taken past) := by
  induction course with
  | nothing => rfl
  | next course takes inductionHypothesis =>
      have wasOpen := isOpen_of_after isOpen
      obtain ⟨_, tracks⟩ := (course.fronts started wasOpen).run.tracks started
      obtain ⟨_, _, _, live, -⟩ := tracks.mode
      rw [passages_snoc, taken_snoc, admitted, List.filterMap_append, List.filterMap_append,
        ← admitted, inductionHypothesis wasOpen, ownVisits_append,
        visits_after live isOpen player]

/-- The visits of a prompt player are admitted in turn by an open land whose resolvers do
not fail. -/
theorem alternates
    (started : Land.live rules config created initial = .ok land)
    (reliable : rules.Reliable)
    (course : Course rules (fresh clients land) past service)
    (empty : clients.sessions = ∅)
    (isOpen : service.task.isOpen = true)
    (prompt : Prompt player past) :
    ∃ current,
      Alternates ((admitted rules (passages past)).filterMap (·.visitOf? player)) current := by
  have begins : (fresh clients land).held = [] := by
    rw [held, Clients.identities]
    simp only [fresh, empty]
    rfl
  obtain ⟨_, alternates, -⟩ := course.inTurn begins isOpen
    (course.evicted_eq_nil started reliable isOpen) prompt
  rw [course.submitted_eq rfl isOpen, ownVisits_append, ← course.visits_admitted started isOpen]
    at alternates
  exact alternates.take

end Course
end Service
end Chronicle
