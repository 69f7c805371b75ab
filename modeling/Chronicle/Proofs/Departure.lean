import Chronicle.Proofs.Alternation
import Chronicle.Proofs.Arena

/-!
# Whose avatar a leave removes

An arena knows its avatars by their players.  A leave removes the avatar that its own
session was given, as long as the player does not join before the leave of an expired
session of the player is submitted, and no leave is executed while an earlier join of
the player is resolving.  Otherwise it can remove the avatar of another session.
-/

namespace Chronicle
namespace Arena

/-! ## Avatars and their sessions -/

/-- Who was given the avatar of a player that is there after some items: whoever has
joined last, unless the player has left since. -/
def owner (player : String) (items : List Item) : Option Actor :=
  items.foldl
    (fun owner item =>
      match item.toSubmission.visitOf? player with
      | some (.join, actor) => some actor
      | some (.leave, _) => none
      | none => owner)
    none

section Owner

variable {player : String} {items older newer : List Item}

theorem owner_snoc (player : String) (items : List Item) (last : Item) :
    owner player (items ++ [last]) =
      match last.toSubmission.visitOf? player with
      | some (.join, actor) => some actor
      | some (.leave, _) => none
      | none => owner player items := by
  rw [owner, List.foldl_append]
  rfl

/-- The avatar stays with whoever has joined while nobody visits for the player. -/
theorem owner_of_join
    {join : Item}
    {actor : Actor}
    (joins : join.toSubmission.visitOf? player = some (.join, actor))
    (nobody : ∀ item ∈ newer, item.toSubmission.visitOf? player = none) :
    owner player (older ++ join :: newer) = some actor := by
  rw [List.append_cons]
  induction newer using List.reverseRecOn with
  | nil => rw [List.append_nil, owner_snoc, joins]
  | append_singleton newer last inductionHypothesis =>
      rw [← List.append_assoc, owner_snoc, nobody last (by simp)]
      exact inductionHypothesis fun item member => nobody item (List.mem_append_left _ member)

/-- The avatar stays with whoever has joined until a leave that is executed later, if every
other visit for the player comes before the join or after the leave. -/
theorem owner_of_ordered
    {join leave : Item}
    {actor : Actor}
    {others : List Item}
    (ordered : (older ++ join :: newer ++ leave :: others).Pairwise Item.Precedes)
    (joins : join.toSubmission.visitOf? player = some (.join, actor))
    (apart : ∀ item ∈ newer, item.toSubmission.visitOf? player ≠ none →
      item.Precedes join ∨ item = join ∨ item = leave ∨ leave.Precedes item) :
    owner player (older ++ join :: newer) = some actor := by
  obtain ⟨front, -, ahead⟩ := List.pairwise_append.1 ordered
  obtain ⟨-, following, -⟩ := List.pairwise_append.1 front
  refine owner_of_join joins fun item member => ?_
  have afterJoin := (List.pairwise_cons.1 following).1 item member
  have beforeLeave := ahead item (by simp [member]) leave List.mem_cons_self
  by_contra visits
  rcases apart item member visits with first | rfl | rfl | last
  · exact afterJoin.asymm first
  · exact afterJoin.asymm afterJoin
  · exact beforeLeave.asymm beforeLeave
  · exact beforeLeave.asymm last

end Owner

/-- The state of an arena in its next tick, after some of the items of the tick. -/
def stateAfter (land : Land State) (items : List Item) : State :=
  items.foldl
    (fun state item =>
      ((rules.registry.dispatch (.ofItem land.nextTick item) item).perform state).2.state)
    land.state

/-- In a course the tick of an open land executes an item after some others. -/
structure Executes
    (past earlier : List (Occurrence State))
    (before : Service State)
    (items : List Item)
    (item : Item) : Prop where
  happens : ∃ later, past = earlier ++ ⟨before, .tick⟩ :: later
  isOpen : before.task.isOpen = true
  inTick : ∃ others, before.task.land.take.1 = items ++ item :: others

/-- A leave of a player only ever removes an avatar that its own session was given:
whenever it finds the player in the arena, whoever leaves owns the avatar. -/
def OwnAvatars (player : String) (past : List (Occurrence State)) : Prop :=
  ∀ earlier before items leave,
    Executes past earlier before items leave →
    leave.visit? = some ⟨.leave, some player⟩ →
    (stateAfter before.task.land items).players.contains player = true →
      owner player (log (Service.passages earlier) ++ items) = some leave.actor

/-- No leave of a player is executed while a join of the player that was submitted before
it is still resolving. -/
def Patient (player : String) (past : List (Occurrence State)) : Prop :=
  ∀ occurrence ∈ past, occurrence.move = .tick → occurrence.before.task.isOpen = true →
    ∀ leave ∈ occurrence.before.task.land.take.1,
      leave.visit? = some ⟨.leave, some player⟩ →
      ∀ resolution ∈ occurrence.before.task.running,
        resolution.submission.visit? = some ⟨.join, some player⟩ →
          ¬ resolution.submission.sequence < leave.sequence

instance (player : String) (past : List (Occurrence State)) : Decidable (Patient player past) :=
  inferInstanceAs (Decidable (∀ occurrence ∈ past, _ → _))

/-! ## The order of a player's visits -/

section Visits

variable {start land : Land State} {service : Service State} {past : List (Passage State)}
  {config : LandConfig} {created : Timestamp} {player : String}

/-- Every item that has entered was executed or is executed in the next tick, and all of
them in order. -/
theorem executed_before_tick
    (started : Land.live rules config created {} = .ok start)
    (run : Run rules start past land)
    (genuine : Genuine rules past)
    (going : land.failed = false)
    (notFinal : land.nextTick ≠ finalTick) :
    ∃ queue, Balanced rules past land queue ∧
      land.take.1 = queue.toList ∧
      (log past ++ queue.toList).Pairwise Item.Precedes := by
  obtain ⟨frames, tracks⟩ := run.tracks started
  obtain ⟨queue, recorder, resolutions, live, consistent, -⟩ := tracks.mode
  have balanced := run.balanced started genuine going live
  obtain ⟨everything, -⟩ := balanced.executed_step live consistent notFinal
  refine ⟨queue, balanced, everything, List.pairwise_append.2
    ⟨(run.logInOrder started genuine going).ascending, consistent.ordered, ?_⟩⟩
  intro first executed second waits
  refine Item.precedes_iff.2 (.inl ?_)
  rw [balanced.waiting second waits]
  exact balanced.done first executed

/-- What was admitted to an arena is resolving or has entered. -/
theorem running_or_entered
    (fronts : service.Fronts rules start past)
    {submission : Submission}
    (member : submission ∈ admitted rules past) :
    (∃ resolution ∈ service.task.running, resolution.submission = submission) ∨
      ∃ item ∈ entries rules past, item.toSubmission = submission := by
  rcases admitted_cases member with running | isDropped | entered
  · rw [← fronts.running] at running
    exact .inl (List.mem_map.1 running)
  · rw [dropped_eq_nil fronts.resolved] at isDropped
    exact absurd isDropped List.not_mem_nil
  · exact .inr entered

/-- A leave that was admitted has entered without resolvers. -/
theorem entered_of_leave
    (started : Land.live rules config created {} = .ok start)
    (fronts : service.Fronts rules start past)
    {submission : Submission}
    (member : submission ∈ admitted rules past)
    (leaves : submission.visit? = some ⟨.leave, some player⟩) :
    ∃ item ∈ entries rules past, item.toSubmission = submission ∧ item ∈ direct rules past := by
  have notJoin : submission.kind ≠ .lifecycle .join := by
    intro isJoin
    simp [Submission.visit?, isJoin] at leaves
  rcases running_or_entered fronts member with ⟨resolution, running, rfl⟩ | ⟨item, entered, rfl⟩
  · obtain ⟨declared, some⟩ := fronts.declared resolution running
    rcases resolversFor_eq declared with ⟨isJoin, -⟩ | ⟨-, none⟩
    · exact absurd isJoin notJoin
    · exact absurd none some
  · rcases entry_cases started fronts.run fronts.resolved entered with ⟨isJoin, -⟩ | ⟨-, isDirect⟩
    · exact absurd isJoin notJoin
    · exact ⟨item, entered, rfl, isDirect⟩

/-- Every join of a player that was submitted before a leave has entered to be executed
before it. -/
def Punctual (player : String) (past : List (Passage State)) (leave : Item) : Prop :=
  ∀ join ∈ admitted rules past, join.visit? = some ⟨.join, some player⟩ →
    join.sequence < leave.sequence →
      ∃ item ∈ entries rules past, item.toSubmission = join ∧ item.Precedes leave

/-- A leave that is executed while no join before it is resolving is punctual. -/
theorem punctual_of_take
    (started : Land.live rules config created {} = .ok start)
    (fronts : service.Fronts rules start past)
    (notFinal : service.task.land.nextTick ≠ finalTick)
    {leave : Item}
    (inTick : leave ∈ service.task.land.take.1)
    (patient : ∀ resolution ∈ service.task.running,
      resolution.submission.visit? = some ⟨.join, some player⟩ →
        ¬ resolution.submission.sequence < leave.sequence) :
    Punctual player past leave := by
  intro join member joins smaller
  obtain ⟨queue, balanced, everything, -⟩ :=
    executed_before_tick started fronts.run fronts.genuine fronts.going notFinal
  rcases running_or_entered fronts member with ⟨resolution, running, rfl⟩ | ⟨item, entered, rfl⟩
  · exact absurd smaller (patient resolution running joins)
  · refine ⟨item, entered, rfl, Item.precedes_of_le ?_ smaller⟩
    rw [balanced.waiting leave (everything ▸ inTick)]
    rcases List.mem_append.1 (balanced.conserved.mem_iff.2 entered) with executed | waits
    · exact UInt64.le_of_lt (balanced.done item executed)
    · exact UInt64.le_of_eq (balanced.waiting item waits)

/-- A leave stays punctual, because later joins have greater numbers. -/
theorem Punctual.mono
    (started : Land.live rules config created {} = .ok start)
    {last : Passage State}
    {after : Land State}
    (run : Run rules start (past ++ [last]) after)
    (genuine : Genuine rules (past ++ [last]))
    {leave : Item}
    (entered : leave ∈ entries rules past)
    (punctual : Punctual player past leave) :
    Punctual player (past ++ [last]) leave := by
  intro join member joins smaller
  have ascending := run.admitted_ascending started genuine
  rw [admitted_snoc] at member ascending
  rcases List.mem_append.1 member with earlier | now
  · obtain ⟨item, there, same, before⟩ := punctual join earlier joins smaller
    refine ⟨item, ?_, same, before⟩
    rw [entries_snoc]
    exact List.mem_append_left _ there
  · have greater := (List.pairwise_append.1 ascending).2.2 leave.toSubmission
      (mem_admitted_of_entries (genuine_snoc_iff.1 genuine).1 entered) join now
    exact absurd (UInt64.lt_trans smaller greater) (UInt64.lt_irrefl _)

end Visits

section Courses

variable {start : Land State} {clients : Clients} {service : Service State}
  {past : List (Occurrence State)} {config : LandConfig} {created : Timestamp} {player : String}

/-- Items are executed in ticks of an open land only. -/
theorem tick_of_executed
    {occurrence : Occurrence State}
    {passage : Passage State}
    (passes : occurrence.passage? = some passage)
    {item : Item}
    (executed : item ∈ passage.executed) :
    occurrence.move = .tick ∧ occurrence.before.task.isOpen = true ∧
      item ∈ occurrence.before.task.land.take.1 := by
  obtain ⟨service, move⟩ := occurrence
  unfold Occurrence.passage? at passes
  split at passes
  · rename_i isOpen
    obtain ⟨operation, isOperation, rfl⟩ := Option.map_eq_some_iff.1 passes
    cases move with
    | tick =>
        obtain rfl := Option.some.inj isOperation
        exact ⟨rfl, isOpen, executed⟩
    | take =>
        obtain ⟨_, -, rfl⟩ := Option.map_eq_some_iff.1 isOperation
        exact absurd executed List.not_mem_nil
    | resolve sequence chance =>
        obtain ⟨_, -, rfl⟩ := Option.map_eq_some_iff.1 isOperation
        exact absurd executed List.not_mem_nil
    | _ => cases isOperation
  · cases passes

/-- Every leave that was executed is punctual, if its player is patient. -/
theorem punctual_of_log
    (started : Land.live rules config created {} = .ok start)
    (course : Service.Course rules (.fresh clients start) past service)
    (isOpen : service.task.isOpen = true)
    (patient : Patient player past)
    {leave : Item}
    (executed : leave ∈ log (Service.passages past))
    (leaves : leave.visit? = some ⟨.leave, some player⟩) :
    Punctual player (Service.passages past) leave := by
  induction course with
  | nothing => exact absurd executed List.not_mem_nil
  | next course takes inductionHypothesis =>
      rename_i past service move
      have wasOpen := Service.isOpen_of_after isOpen
      have fronts := course.fronts started wasOpen
      have after := (course.next takes).fronts started isOpen
      have earlier := inductionHypothesis wasOpen
        fun occurrence member => patient occurrence (List.mem_append_left _ member)
      rw [Service.passages_snoc] at executed after ⊢
      cases passes : (⟨service, move⟩ : Occurrence State).passage? with
      | none =>
          rw [passes] at executed
          simp only [Option.toList_none, List.append_nil] at executed ⊢
          exact earlier executed
      | some passage =>
          rw [passes] at executed after
          simp only [Option.toList_some] at executed after ⊢
          rw [log_snoc] at executed
          rcases List.mem_append.1 executed with before | now
          · obtain ⟨frames, tracks⟩ := fronts.run.tracks started
            obtain ⟨_, _, _, live, -⟩ := tracks.mode
            have balanced := fronts.run.balanced started fronts.genuine fronts.going live
            exact (earlier before).mono started after.run after.genuine
              (balanced.mem_log_iff.1 before).1
          · obtain ⟨rfl, -, inTick⟩ := tick_of_executed passes now
            obtain ⟨queue, balanced, everything, -⟩ :=
              executed_before_tick started fronts.run fronts.genuine fronts.going (takes rfl)
            refine (punctual_of_take started fronts (takes rfl) inTick ?_).mono started after.run
              after.genuine (balanced.conserved.mem_iff.1 (List.mem_append_right _ ?_))
            · exact patient _ (List.mem_append_right _ List.mem_cons_self) rfl wasOpen leave inTick
                leaves
            · exact everything ▸ inTick

/-- The visits of a prompt and patient player are executed in the order of their
submission. -/
theorem precedes_of_visits
    (started : Land.live rules config created {} = .ok start)
    (course : Service.Course rules (.fresh clients start) past service)
    (empty : clients.sessions = ∅)
    (isOpen : service.task.isOpen = true)
    (prompt : Service.Prompt player past)
    (punctual : ∀ leave ∈ entries rules (Service.passages past),
      leave.visit? = some ⟨.leave, some player⟩ → Punctual player (Service.passages past) leave)
    {first second : Item}
    (here : first ∈ entries rules (Service.passages past))
    (there : second ∈ entries rules (Service.passages past))
    (firstVisits : first.toSubmission.visitOf? player ≠ none)
    (secondVisits : second.toSubmission.visitOf? player ≠ none)
    (smaller : first.sequence < second.sequence) :
    first.Precedes second := by
  have fronts := course.fronts started isOpen
  obtain ⟨frames, tracks⟩ := fronts.run.tracks started
  obtain ⟨_, _, _, live, -⟩ := tracks.mode
  have balanced := fronts.run.balanced started fronts.genuine fronts.going live
  have admits {item : Item} (entered : item ∈ entries rules (Service.passages past)) :=
    mem_admitted_of_entries fronts.genuine entered
  have directly {leave other : Item}
      (isDirect : leave ∈ direct rules (Service.passages past))
      (entered : other ∈ entries rules (Service.passages past))
      (smaller : leave.sequence < other.sequence) : leave.Precedes other :=
    Item.precedes_of_le
      (fronts.run.resolvedAt_le_of_direct started fronts.genuine isDirect entered smaller) smaller
  have beforeLeave {join leave : Item}
      (entered : join ∈ entries rules (Service.passages past))
      (later : leave ∈ entries rules (Service.passages past))
      (joins : join.visit? = some ⟨.join, some player⟩)
      (leaves : leave.visit? = some ⟨.leave, some player⟩)
      (smaller : join.sequence < leave.sequence) : join.Precedes leave := by
    obtain ⟨item, there, same, before⟩ :=
      punctual leave later leaves join.toSubmission (admits entered) joins smaller
    obtain rfl := balanced.eq_of_sequence_eq there entered (congrArg Submission.sequence same)
    exact before
  obtain ⟨⟨firstKind, firstActor⟩, firstVisit⟩ := Option.ne_none_iff_exists'.1 firstVisits
  obtain ⟨⟨secondKind, secondActor⟩, secondVisit⟩ := Option.ne_none_iff_exists'.1 secondVisits
  obtain ⟨isFirst, -⟩ := Submission.visitOf?_eq_some_iff.1 firstVisit
  obtain ⟨isSecond, -⟩ := Submission.visitOf?_eq_some_iff.1 secondVisit
  cases firstKind with
  | leave =>
      obtain ⟨item, entered, same, isDirect⟩ :=
        entered_of_leave started fronts (admits here) isFirst
      obtain rfl := balanced.eq_of_sequence_eq entered here (congrArg Submission.sequence same)
      exact directly isDirect there smaller
  | join =>
      cases secondKind with
      | leave => exact beforeLeave here there isFirst isSecond smaller
      | join =>
          obtain ⟨_, alternates⟩ := course.alternates started reliable empty isOpen prompt
          obtain ⟨leave, submitted, leaves, behind, ahead⟩ :=
            alternates.exists_leave_between
              (fronts.run.admitted_ascending started fronts.genuine) (admits here) (admits there)
              firstVisit secondVisit smaller
          obtain ⟨isLeave, -⟩ := Submission.visitOf?_eq_some_iff.1 leaves
          obtain ⟨item, entered, rfl, isDirect⟩ :=
            entered_of_leave started fronts submitted isLeave
          exact Std.TransCmp.lt_trans (beforeLeave here entered isFirst isLeave behind)
            (directly isDirect there ahead)

/-- Before a tick of a patient player every leave that has entered is punctual. -/
theorem punctual_of_entered
    (started : Land.live rules config created {} = .ok start)
    (course : Service.Course rules (.fresh clients start) past service)
    (isOpen : service.task.isOpen = true)
    (notFinal : service.task.land.nextTick ≠ finalTick)
    (patient : Patient player (past ++ [⟨service, .tick⟩]))
    {leave : Item}
    (entered : leave ∈ entries rules (Service.passages past))
    (leaves : leave.visit? = some ⟨.leave, some player⟩) :
    Punctual player (Service.passages past) leave := by
  have fronts := course.fronts started isOpen
  obtain ⟨queue, balanced, everything, -⟩ :=
    executed_before_tick started fronts.run fronts.genuine fronts.going notFinal
  rcases List.mem_append.1 (balanced.conserved.mem_iff.2 entered) with executed | waits
  · exact punctual_of_log started course isOpen
      (fun occurrence member => patient occurrence (List.mem_append_left _ member)) executed leaves
  · have inTick : leave ∈ service.task.land.take.1 := everything ▸ waits
    exact punctual_of_take started fronts notFinal inTick
      (patient _ (List.mem_append_right _ List.mem_cons_self) rfl isOpen leave inTick leaves)

/-- A leave of a prompt and patient player removes the avatar that its own session was
given. -/
theorem leaves_remove_own_avatars
    {capacity timeout : Nat}
    (started : Land.live rules config created {} = .ok start)
    (course : Service.Course rules
      (.fresh { capacity := capacity, timeout := timeout } start) past service)
    (prompt : Service.Prompt player past)
    (patient : Patient player past) :
    OwnAvatars player past := by
  rintro earlier before items leave ⟨⟨later, rfl⟩, isOpen, others, inTick⟩ leaves -
  obtain ⟨course, takes⟩ := course.cut
  have fronts := course.fronts started isOpen
  have promptBefore : Service.Prompt player earlier :=
    fun occurrence member => prompt occurrence (List.mem_append_left _ member)
  have patientBefore : Patient player (earlier ++ [⟨before, .tick⟩]) := by
    rw [List.append_cons] at patient
    exact fun occurrence member => patient occurrence (List.mem_append_left _ member)
  have punctual : ∀ left ∈ entries rules (Service.passages earlier),
      left.visit? = some ⟨.leave, some player⟩ →
        Punctual player (Service.passages earlier) left :=
    fun _ => punctual_of_entered started course isOpen (takes rfl) patientBefore
  obtain ⟨queue, balanced, everything, ordered⟩ :=
    executed_before_tick started fronts.run fronts.genuine fronts.going (takes rfl)
  have conserved := balanced.conserved
  rw [← everything, inTick, ← List.append_assoc] at conserved ordered
  have isEntry := conserved.mem_iff.1 (List.mem_append_right _ List.mem_cons_self)
  have leaving := Submission.visitOf?_eq_some_iff.2 ⟨leaves, rfl⟩
  obtain ⟨_, alternates⟩ := course.alternates started reliable rfl isOpen promptBefore
  obtain ⟨_, submitted, joins, smaller, adjacent⟩ :=
    alternates.exists_join_of_leave (fronts.run.admitted_ascending started fronts.genuine)
      (mem_admitted_of_entries fronts.genuine isEntry) leaving
  obtain ⟨isJoin, -⟩ := Submission.visitOf?_eq_some_iff.1 joins
  obtain ⟨join, joined, rfl, first⟩ := punctual leave isEntry leaves _ submitted isJoin smaller
  have executed : join ∈ log (Service.passages earlier) ++ items := by
    refine (List.mem_append.1 (conserved.mem_iff.2 joined)).resolve_right fun behind => ?_
    rcases List.mem_cons.1 behind with rfl | later
    · exact first.asymm first
    · obtain ⟨following, -⟩ := List.pairwise_cons.1 (List.pairwise_append.1 ordered).2.1
      exact first.asymm (following join later)
  obtain ⟨older, newer, split⟩ := List.append_of_mem executed
  rw [split] at conserved ordered ⊢
  refine owner_of_ordered ordered joins fun visitor member visits => ?_
  have entered := conserved.mem_iff.1 (by simp [member] : visitor ∈ older ++ join :: newer ++ _)
  have same {other : Item} (isOther : other ∈ entries rules (Service.passages earlier))
      (equal : visitor.toSubmission = other.toSubmission) : visitor = other :=
    balanced.eq_of_sequence_eq entered isOther (congrArg Submission.sequence equal)
  rcases adjacent _ (mem_admitted_of_entries fronts.genuine entered) visits with
    before | equal | equal | behind
  · exact .inl (precedes_of_visits started course rfl isOpen promptBefore punctual entered joined
      visits (by rw [joins]; nofun) before)
  · exact .inr (.inl (same joined equal))
  · exact .inr (.inr (.inl (same isEntry equal)))
  · exact .inr (.inr (.inr (precedes_of_visits started course rfl isOpen promptBefore punctual
      isEntry entered (by rw [leaving]; nofun) visits behind)))

end Courses

/-- A player joins, is silent for too long and is left, and joins again. -/
theorem leaves_remove_own_avatars_of_silence :
    ∃ start past service,
      Land.live rules { landId := "arena-1", landType := "arena" } .epoch {} = .ok start ∧
        Service.Course rules (.fresh { capacity := 8 } start) past service ∧
        Service.Prompt "p1" past ∧
        Patient "p1" past ∧
        (log (Service.passages past)).map (fun item => (item.kind, item.actor)) =
          [(.lifecycle .join, Clients.identityOf "p1" 1 ⟨0, 0⟩),
            (.lifecycle .leave, Clients.identityOf "p1" 1 ⟨0, 0⟩),
            (.lifecycle .join, Clients.identityOf "p1" 2 ⟨6000000000, 0⟩)] ∧
        service.task.land.state.players.contains "p1" = true ∧
        OwnAvatars "p1" past := by
  let config : LandConfig := { landId := "arena-1", landType := "arena" }
  let address : Address := ⟨.v4 0, 4000⟩
  let moves : List Move :=
    [.packet ⟨0, 0⟩ (.join Packet.protocolVersion "p1" none false ∅) address, .take,
      .resolve 0 ⟨0, []⟩, .tick, .dropSilent ⟨6000000000, 0⟩, .expire, .take,
      .packet ⟨6000000000, 0⟩ (.join Packet.protocolVersion "p1" none false ∅) address, .take,
      .resolve 3 ⟨0, []⟩, .tick]
  obtain ⟨start, started⟩ : ∃ start, Land.live rules config .epoch {} = .ok start := ⟨_, rfl⟩
  have course := Service.Course.of_moves rules (.fresh { capacity := 8 } start) moves (by
    obtain rfl := Except.ok.inj started
    decide +kernel)
  have prompt : Service.Prompt "p1"
      ((Service.fresh { capacity := 8 } start).occurrences rules moves) := by
    obtain rfl := Except.ok.inj started
    decide +kernel
  have patient : Patient "p1"
      ((Service.fresh { capacity := 8 } start).occurrences rules moves) := by
    obtain rfl := Except.ok.inj started
    decide +kernel
  refine ⟨start, _, _, started, course, prompt, patient, ?_, ?_,
    leaves_remove_own_avatars started course prompt patient⟩
  all_goals
    obtain rfl := Except.ok.inj started
    decide +kernel

/-- A player is silent for too long and joins again before the first session is left.
The leave of the first session then removes the avatar of the second one, who stays
connected without it. -/
theorem leave_removes_later_avatar :
    ∃ start past service,
      Land.live rules { landId := "arena-1", landType := "arena" } .epoch {} = .ok start ∧
        Service.Course rules (.fresh { capacity := 8 } start) past service ∧
        service.task.isOpen = true ∧
        (service.transport.clients.byPlayer? "p1").map (·.identity) =
          some (Clients.identityOf "p1" 2 ⟨6000000000, 0⟩) ∧
        (log (Service.passages past)).map (fun item => (item.kind, item.actor)) =
          [(.lifecycle .join, Clients.identityOf "p1" 1 ⟨0, 0⟩),
            (.lifecycle .join, Clients.identityOf "p1" 2 ⟨6000000000, 0⟩),
            (.lifecycle .leave, Clients.identityOf "p1" 1 ⟨0, 0⟩)] ∧
        service.task.land.ticks.failures = 0 ∧
        service.task.land.state.players.contains "p1" = false ∧
        ¬ OwnAvatars "p1" past := by
  let config : LandConfig := { landId := "arena-1", landType := "arena" }
  let address : Address := ⟨.v4 0, 4000⟩
  let moves : List Move :=
    [.packet ⟨0, 0⟩ (.join Packet.protocolVersion "p1" none false ∅) address, .take,
      .resolve 0 ⟨0, []⟩, .tick, .dropSilent ⟨6000000000, 0⟩,
      .packet ⟨6000000000, 0⟩ (.join Packet.protocolVersion "p1" none false ∅) address, .take,
      .resolve 2 ⟨0, []⟩, .tick, .expire, .take]
  obtain ⟨start, started⟩ : ∃ start, Land.live rules config .epoch {} = .ok start := ⟨_, rfl⟩
  have course := Service.Course.of_moves rules (.fresh { capacity := 8 } start) (moves ++ [.tick])
    (by
      obtain rfl := Except.ok.inj started
      decide +kernel)
  let first : Service State := .fresh { capacity := 8 } start
  let before : Service State := moves.foldl (Service.after rules) first
  have isOpen : before.task.isOpen = true := by
    obtain rfl := Except.ok.inj started
    decide +kernel
  obtain ⟨leave, inTick⟩ : ∃ leave, before.task.land.take.1 = [leave] :=
    List.length_eq_one_iff.1 (by
      obtain rfl := Except.ok.inj started
      decide +kernel)
  have shown : before.task.land.take.1.map (fun item => (item.visit?, item.actor)) =
      [(some ⟨.leave, some "p1"⟩, Clients.identityOf "p1" 1 ⟨0, 0⟩)] := by
    obtain rfl := Except.ok.inj started
    decide +kernel
  have there : (stateAfter before.task.land []).players.contains "p1" = true := by
    obtain rfl := Except.ok.inj started
    decide +kernel
  have owned : owner "p1" (log (Service.passages (first.occurrences rules moves)) ++ []) =
      some (Clients.identityOf "p1" 2 ⟨6000000000, 0⟩) := by
    obtain rfl := Except.ok.inj started
    decide +kernel
  rw [inTick] at shown
  obtain ⟨leaves, actor⟩ := Prod.mk.inj (List.singleton_inj.1 shown)
  refine ⟨start, _, _, started, course, ?_, ?_, ?_, ?_, ?_, fun own => ?_⟩
  case refine_6 =>
    have removed := own _ before [] leave
      ⟨⟨[], Service.occurrences_append first moves [.tick]⟩, isOpen, [], inTick⟩ leaves there
    rw [owned, actor] at removed
    exact absurd removed (by decide +kernel)
  all_goals
    obtain rfl := Except.ok.inj started
    decide +kernel

end Arena
end Chronicle
