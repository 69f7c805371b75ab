import Chronicle.Ledger
import Chronicle.Proofs.Session

/-!
# Acknowledgments

Every submission to a land of its own is acknowledged at most once: at once, or when
its own resolvers are done.  An acknowledgment with a number means that the first
tick to start after it executes the number, and one with an error that the item is
never executed.
-/

namespace Chronicle
namespace LandTask

variable {σ ν : Type} {rules : Rules σ} {first task : LandTask σ ν}
  {turns before later between rest : List (Turn σ ν)} {turn made tick : Turn σ ν} {submitter : ν}
  {start land : Land σ} {earlier : List (Passage σ)} {config : LandConfig}
  {created : Timestamp} {initial : σ}

/-- How the submissions of a session are acknowledged, on a land that has been through
a run before. -/
structure Acknowledges
    (rules : Rules σ)
    (earlier : List (Passage σ))
    (turns : List (Turn σ ν))
    (task : LandTask σ ν) : Prop where
  /-- No submission is acknowledged twice. -/
  once : ((acknowledged rules turns).map (·.submitter)).Nodup
  /-- Every submission is acknowledged, or its submitter waits or was dropped when the
  land ended. -/
  accounted : ((acknowledged rules turns).map (·.submitter) ++
    (task.awaiting.values ++ task.dropped)).Perm (submitters turns)
  /-- A refused submission is acknowledged with its error at once. -/
  refused : ∀ turn ∈ turns, ∀ submitter inbound error,
    turn.message = .submit submitter inbound →
    (turn.before.land.submit rules inbound).1 = .error error →
      turn.acknowledgments rules = [⟨submitter, .error error⟩]
  /-- A submission without resolvers is acknowledged with its number at once. -/
  queued : ∀ turn ∈ turns, ∀ submitter inbound sequence,
    turn.message = .submit submitter inbound →
    (turn.before.land.submit rules inbound).1 = .ok (.queued sequence) →
      turn.acknowledgments rules = [⟨submitter, .ok sequence⟩]
  /-- A submission with resolvers is acknowledged when it is completed, with its number if
  its resolvers have not failed, and in no other turn. -/
  resolving : ∀ before turn after submitter inbound resolution,
    turns = before ++ turn :: after →
    turn.message = .submit submitter inbound →
    (turn.before.land.submit rules inbound).1 = .ok (.resolving resolution) →
      turn.acknowledgments rules = [] ∧
      (∀ other ∈ after, ∀ completion, other.message = .complete completion →
        completion.submission = resolution.submission →
          other.acknowledgments rules =
            [⟨submitter, completion.result.map fun _ => resolution.submission.sequence⟩]) ∧
      ∀ other ∈ turns, ∀ ack ∈ other.acknowledgments rules, ack.submitter = submitter →
        ∃ completion, other.message = .complete completion ∧
          completion.submission = resolution.submission ∧
          ack.result = completion.result.map fun _ => resolution.submission.sequence
  /-- At every moment those wait whose submissions are still resolving, each under the
  number of the submission. -/
  waiting : (∀ before turn after, turns = before ++ turn :: after →
      Waits rules earlier before turn.before.awaiting) ∧
    (task.isOpen = true → Waits rules earlier turns task.awaiting)
  /-- A tick has what it executes handled, in this order, and then runs the update, unless
  it runs out of numbers. -/
  performed : ∀ turn ∈ turns, turn.message = .step →
    turn.before.land.Performs rules turn.executed (turn.before.step rules).1 ∨
      turn.before.land.BreaksOff rules turn.executed (turn.before.step rules).1
  /-- Once a tick has run after an acknowledgment with a number, one tick has executed the
  number: the first to start after the acknowledgment. -/
  executed : ∀ before turn after, turns = before ++ turn :: after →
    ∀ ack ∈ turn.acknowledgments rules, ∀ sequence, ack.result = .ok sequence →
    (∃ tick ∈ after, tick.Ticks rules) →
      ∃ between tick rest report,
        after = between ++ tick :: rest ∧
        (∀ other ∈ between, other.message ≠ .step) ∧
        tick.message = .step ∧
        tick.before.land.Performs rules tick.executed (tick.before.step rules).1 ∧
        (tick.before.step rules).1.result = .ok report ∧
        report.executed.count sequence = 1 ∧
        ∀ item ∈ log earlier ++ (before ++ turn :: (between ++ rest)).flatMap Turn.executed,
          item.sequence ≠ sequence
  /-- A submission that was acknowledged with an error is never executed. -/
  unexecuted : ∀ turn ∈ turns, ∀ ack ∈ turn.acknowledgments rules, ∀ error,
    ack.result = .error error →
    ∀ made ∈ turns, made.message.submitter? = some ack.submitter →
      ∀ submission, made.admitted? rules = some submission →
      ∀ item ∈ turns.flatMap Turn.executed, item.sequence ≠ submission.sequence
  /-- What a tick executes was admitted before the session, or acknowledged with its number
  before the tick. -/
  justified : ∀ before tick after, turns = before ++ tick :: after →
    ∀ item ∈ tick.executed,
      item.toSubmission ∈ admitted rules earlier ∨
      ∃ made ∈ before, ∃ submitter,
        made.message.submitter? = some submitter ∧
        made.admitted? rules = some item.toSubmission ∧
        ∃ turn ∈ before, ⟨submitter, .ok item.sequence⟩ ∈ turn.acknowledgments rules

/-- What passes in some turns executes what the turns do. -/
theorem log_passages (turns : List (Turn σ ν)) :
    log (passages turns) = turns.flatMap Turn.executed := by
  induction turns with
  | nil => rfl
  | cons turn rest inductionHypothesis =>
      rw [passages_cons, log, List.flatMap_append, ← log, ← log, inductionHypothesis,
        List.flatMap_cons]
      refine congrArg (· ++ _) ?_
      obtain ⟨task, message⟩ := turn
      cases message <;> simp [log, Turn.passage?, Turn.executed, Passage.executed]

theorem log_append_passages (turns : List (Turn σ ν)) :
    log (earlier ++ passages turns) = log earlier ++ turns.flatMap Turn.executed := by
  rw [← log_passages, log, List.flatMap_append]
  rfl

/-- Where something runs a step, a first step is run. -/
theorem exists_first_step (ticks : ∃ tick ∈ later, tick.message = .step) :
    ∃ between tick rest, later = between ++ tick :: rest ∧
      (∀ other ∈ between, other.message ≠ .step) ∧ tick.message = .step := by
  induction later with
  | nil => exact absurd ticks (by simp)
  | cons turn later inductionHypothesis =>
      by_cases isStep : turn.message = .step
      · have quiet : ∀ other ∈ ([] : List (Turn σ ν)), other.message ≠ .step :=
          fun _ member => absurd member List.not_mem_nil
        exact ⟨[], turn, later, rfl, quiet, isStep⟩
      · obtain ⟨tick, member, ticks⟩ := ticks
        have further : tick ∈ later := by
          rcases List.mem_cons.1 member with rfl | further
          · exact absurd ticks isStep
          · exact further
        obtain ⟨between, tick, rest, rfl, quiet, isTick⟩ :=
          inductionHypothesis ⟨tick, further, ticks⟩
        exact ⟨turn :: between, tick, rest, rfl, List.forall_mem_cons.2 ⟨isStep, quiet⟩, isTick⟩

/-- Without a step message no step passes. -/
theorem passages_quiet (quiet : ∀ other ∈ between, other.message ≠ .step) :
    ∀ passage ∈ passages between, passage.operation ≠ .step := by
  intro passage member
  obtain ⟨⟨task, message⟩, there, passes⟩ := List.mem_filterMap.1 member
  have notStep := quiet _ there
  cases message with
  | submit submitter inbound =>
      obtain rfl := Option.some.inj passes
      nofun
  | complete completion =>
      obtain rfl := Option.some.inj passes
      nofun
  | step => exact absurd rfl notStep
  | stats => cases passes
  | shutdown => cases passes

namespace Session

section Opened

variable (started : Land.live rules config created initial = .ok start)
  (begins : Keeps rules start earlier [] first)
  (begun : first.land.failed = false)
  (session : Session rules first turns task)
include started begins begun session

/-- What is known before every turn of a session. -/
theorem at_turn (split : turns = before ++ turn :: later) :
    Keeps rules start earlier before turn.before ∧ turn.before.Takes turn.message ∧
      turn.before.land.failed = false := by
  subst split
  obtain ⟨opened, takes⟩ := session.cut
  exact ⟨opened.keeps started begins begun, takes, opened.going begun takes.1⟩

/-- A submission with resolvers is acknowledged by its own completion. -/
theorem acknowledged_of_launches
    (split : turns = before ++ turn :: later)
    {submission : Submission}
    (launches : turn.launches? rules = some (submitter, submission))
    {other : Turn σ ν}
    (member : other ∈ later)
    {completion : Completion}
    (completes : other.message = .complete completion)
    (own : completion.submission = submission) :
    other.acknowledgments rules =
      [⟨submitter, completion.result.map fun _ => submission.sequence⟩] := by
  obtain ⟨between, rest, rfl⟩ := List.append_of_mem member
  have further : turns = (before ++ turn :: between) ++ other :: rest := by
    rw [split, List.append_assoc, List.cons_append]
  obtain ⟨keeps, takes, -⟩ := session.at_turn started begins begun further
  obtain ⟨isOpen, suits⟩ := takes
  rw [completes] at suits
  obtain ⟨-, sent⟩ := keeps.acknowledgments_complete started isOpen suits
  rw [Turn.acknowledgments, completes]
  subst own
  exact sent turn (List.mem_append_right _ List.mem_cons_self) submitter launches

/-- Whoever has waited for resolvers is acknowledged by the own completion, with what its
result says. -/
theorem completes_of_acknowledged
    (member : turn ∈ turns)
    {submission : Submission}
    (launches : turn.launches? rules = some (submitter, submission))
    (silent : turn.acknowledgments rules = [])
    {other : Turn σ ν}
    (there : other ∈ turns)
    {ack : Acknowledgment ν}
    (sent : ack ∈ other.acknowledgments rules)
    (toSubmitter : ack.submitter = submitter) :
    ∃ completion, other.message = .complete completion ∧ completion.submission = submission ∧
      ack.result = completion.result.map fun _ => submission.sequence := by
  obtain ⟨byTurn, -⟩ := Turn.admitted_of_launches launches
  obtain ⟨before, later, split⟩ := List.append_of_mem there
  obtain ⟨keeps, ⟨isOpen, suits⟩, -⟩ := session.at_turn started begins begun split
  obtain ⟨opened, message⟩ := other
  cases message with
  | submit another inbound =>
      have same : another = submitter := (submitter_of_mem_submit sent).symm.trans toSubmitter
      have isTurn := session.eq_of_submitter there member (congrArg some same) byTurn
      rw [isTurn, silent] at sent
      cases sent
  | complete completion =>
      obtain ⟨result, made, madeBefore, madeIt⟩ :=
        (keeps.acknowledgments_complete started isOpen suits).1 ack sent
      have madeThere : made ∈ turns := split ▸ List.mem_append_left _ madeBefore
      rw [toSubmitter] at madeIt
      have isTurn := session.eq_of_submitter madeThere member
        (Turn.admitted_of_launches madeIt).1 byTurn
      rw [isTurn, launches] at madeIt
      obtain ⟨-, rfl⟩ := Prod.mk.inj (Option.some.inj madeIt)
      exact ⟨completion, rfl, rfl, result⟩
  | step => cases sent
  | stats => cases sent
  | shutdown => cases sent

/-- The first tick after an acknowledgment with a number executes the number, when a
tick has run since. -/
theorem executed_by_first_tick
    (split : turns = before ++ turn :: later)
    {ack : Acknowledgment ν}
    (sent : ack ∈ turn.acknowledgments rules)
    {sequence : Sequence}
    (accepted : ack.result = .ok sequence)
    (ticks : ∃ tick ∈ later, tick.Ticks rules) :
    ∃ between tick rest report,
      later = between ++ tick :: rest ∧
      (∀ other ∈ between, other.message ≠ .step) ∧
      tick.message = .step ∧
      tick.before.land.Performs rules tick.executed (tick.before.step rules).1 ∧
      (tick.before.step rules).1.result = .ok report ∧
      report.executed.count sequence = 1 ∧
      ∀ item ∈ log earlier ++ (before ++ turn :: (between ++ rest)).flatMap Turn.executed,
        item.sequence ≠ sequence := by
  obtain ⟨passage, item, passes, entered, rfl⟩ := Turn.exists_enters sent accepted
  obtain ⟨ran, isLater, isStep, harmless⟩ := ticks
  obtain ⟨between, tick, rest, rfl, quiet, isTick⟩ := exists_first_step ⟨ran, isLater, isStep⟩
  have keeps := session.keeps started begins begun
  have run := keeps.run
  have genuine := keeps.genuine
  have tickPasses : tick.passage? = some ⟨tick.before.land, .step⟩ := by
    rw [Turn.passage?, isTick]
  have parts : earlier ++ passages turns =
      (earlier ++ passages before) ++
        passage :: (passages between ++ ⟨tick.before.land, .step⟩ :: passages rest) := by
    rw [split, passages_append, passages_cons, passes, passages_append, passages_cons,
      tickPasses, List.append_assoc]
    rfl
  rw [parts] at run genuine
  obtain ⟨once, elsewhere⟩ :=
    run.executed_once started genuine entered (passages_quiet quiet) rfl
  have lastRuns : passages rest = [] → ∀ error,
      (tick.before.land.step rules).result = .error error → error.isFatal = false := by
    intro none
    have isRan : ran = tick := by
      rcases List.mem_append.1 isLater with early | late
      · exact absurd isStep (quiet ran early)
      · refine (List.mem_cons.1 late).resolve_right fun further => ?_
        have passes : ran.passage? = some ⟨ran.before.land, .step⟩ := by
          rw [Turn.passage?, isStep]
        have member : (⟨ran.before.land, .step⟩ : Passage σ) ∈ passages rest :=
          List.mem_filterMap.2 ⟨ran, further, passes⟩
        rw [none] at member
        cases member
    exact isRan ▸ harmless
  rw [← List.cons_append, ← List.append_assoc] at run
  have performs := run.performs_of_harmless started lastRuns
  refine ⟨between, tick, rest, _, rfl, quiet, isTick, ?_, performs.report, once, ?_⟩
  · rw [Turn.executed, isTick]
    exact performs
  · intro another executed
    have inLog : another ∈ log ((earlier ++ passages before) ++
        passage :: (passages between ++ passages rest)) := by
      rw [← log_append_passages, passages_append, passages_cons, passes, passages_append,
        ← List.append_assoc] at executed
      exact executed
    obtain ⟨other, member, executed⟩ := List.mem_flatMap.1 inLog
    exact elsewhere other member another executed

/-- A tick performs what it takes, or it breaks off. -/
theorem performs_or_breaksOff
    (member : tick ∈ turns)
    (isTick : tick.message = .step) :
    tick.before.land.Performs rules tick.executed (tick.before.step rules).1 ∨
      tick.before.land.BreaksOff rules tick.executed (tick.before.step rules).1 := by
  obtain ⟨before, later, split⟩ := List.append_of_mem member
  obtain ⟨keeps, -, going⟩ := session.at_turn started begins begun split
  rw [Turn.executed, isTick]
  exact keeps.run.performs_or_breaksOff started going

/-- When an item enters the queue, its submitter is acknowledged with its number, unless
it was submitted before the session. -/
theorem acknowledged_of_enters
    (split : turns = before ++ turn :: later)
    {passage : Passage σ}
    (passes : turn.passage? = some passage)
    {item : Item}
    (enters : passage.enters? rules = some item) :
    item.toSubmission ∈ admitted rules earlier ∨
      ∃ made ∈ before ++ [turn], ∃ submitter,
        made.message.submitter? = some submitter ∧
        made.admitted? rules = some item.toSubmission ∧
        ⟨submitter, .ok item.sequence⟩ ∈ turn.acknowledgments rules := by
  obtain ⟨keeps, ⟨isOpen, suits⟩, -⟩ := session.at_turn started begins begun split
  obtain ⟨opened, message⟩ := turn
  cases message with
  | submit submitter inbound =>
      obtain rfl := Option.some.inj passes
      obtain ⟨admits, sent⟩ := mem_submit_of_enters submitter enters
      exact .inr ⟨_, List.mem_append_right _ List.mem_cons_self, submitter, rfl, admits, sent⟩
  | complete completion =>
      obtain rfl := Option.some.inj passes
      simp only [Passage.enters?, Passage.direct?, Passage.resolved?, Option.none_or,
        Option.map_eq_some_iff] at enters
      obtain ⟨outputs, done, rfl⟩ := enters
      have running : completion.submission ∈ outstanding rules (earlier ++ passages before) :=
        keeps.running ▸ suits
      have wasLaunched := (launched_perm keeps.genuine).mem_iff.1 (List.mem_append_left _ running)
      rw [launched, List.filterMap_append, ← launched, ← launched] at wasLaunched
      rcases List.mem_append.1 wasLaunched with long | now
      · exact .inl ((launched_sublist rules earlier).subset long)
      · obtain ⟨made, member, submitter, launches⟩ := exists_launches now
        obtain ⟨byMade, admits⟩ := Turn.admitted_of_launches launches
        refine .inr ⟨made, List.mem_append_left _ member, submitter, byMade, admits, ?_⟩
        have answered := (keeps.acknowledgments_complete started isOpen suits).2
        rw [Turn.acknowledgments_complete, answered made member submitter launches]
        obtain ⟨submission, result⟩ := completion
        obtain rfl : result = .ok outputs := by
          cases result with
          | ok others => exact congrArg Except.ok (Option.some.inj done)
          | error error => cases done
        exact List.mem_cons_self
  | step =>
      obtain rfl := Option.some.inj passes
      cases enters
  | stats => cases passes
  | shutdown => cases passes

/-- What a tick executes was admitted before the session, or its submitter has been
acknowledged. -/
theorem acknowledged_of_executed
    (split : turns = before ++ tick :: later)
    {item : Item}
    (executed : item ∈ tick.executed) :
    item.toSubmission ∈ admitted rules earlier ∨
      ∃ made ∈ before, ∃ submitter,
        made.message.submitter? = some submitter ∧
        made.admitted? rules = some item.toSubmission ∧
        ∃ turn ∈ before, ⟨submitter, .ok item.sequence⟩ ∈ turn.acknowledgments rules := by
  obtain ⟨keeps, ⟨isOpen, suits⟩, going⟩ := session.at_turn started begins begun split
  obtain ⟨opened, message⟩ := tick
  cases message with
  | step =>
      have run := keeps.run.next (⟨going, fun _ => suits⟩ : opened.land.Takes .step)
      have genuine : Genuine rules ((earlier ++ passages before) ++ [⟨opened.land, .step⟩]) :=
        genuine_snoc keeps.genuine rfl
      have inLog : item ∈ log ((earlier ++ passages before) ++ [⟨opened.land, .step⟩]) := by
        rw [log_snoc]
        exact List.mem_append_right _ executed
      have entered := run.mem_entries_of_log started genuine inLog
      rw [entries_snoc] at entered
      have entered := (List.mem_append.1 entered).resolve_right List.not_mem_nil
      rw [entries, List.filterMap_append, ← entries] at entered
      rcases List.mem_append.1 entered with long | now
      · exact .inl (mem_admitted_of_entries (genuine_append_iff.1 keeps.genuine).1 long)
      · obtain ⟨passage, there, enters⟩ := List.mem_filterMap.1 now
        obtain ⟨turn, member, passes⟩ := List.mem_filterMap.1 there
        obtain ⟨older, newer, rfl⟩ := List.append_of_mem member
        rw [List.append_assoc, List.cons_append] at split
        rcases session.acknowledged_of_enters started begins begun split passes enters with
          long | ⟨made, madeBefore, submitter, byMade, admits, sent⟩
        · exact .inl long
        · refine .inr ⟨made, ?_, submitter, byMade, admits, turn, member, sent⟩
          rw [List.append_cons]
          exact List.mem_append_left _ madeBefore
  | submit submitter inbound => cases executed
  | complete completion => cases executed
  | stats => cases executed
  | shutdown => cases executed

/-- After an acknowledgment with an error the item is never executed, and has not been
executed before. -/
theorem not_executed_of_error
    (member : turn ∈ turns)
    {ack : Acknowledgment ν}
    (sent : ack ∈ turn.acknowledgments rules)
    {error : LandError}
    (failed : ack.result = .error error)
    (there : made ∈ turns)
    (byMade : made.message.submitter? = some ack.submitter)
    {submission : Submission}
    (admits : made.admitted? rules = some submission)
    {item : Item}
    (executed : item ∈ turns.flatMap Turn.executed) :
    item.sequence ≠ submission.sequence := by
  obtain ⟨before, later, split⟩ := List.append_of_mem member
  obtain ⟨keeps, ⟨isOpen, suits⟩, -⟩ := session.at_turn started begins begun split
  obtain ⟨opened, message⟩ := turn
  cases message with
  | submit submitter inbound =>
      have same := submitter_of_mem_submit sent
      obtain rfl := session.eq_of_submitter there member byMade (congrArg some same.symm)
      rw [admitted_of_error sent failed] at admits
      cases admits
  | complete completion =>
      obtain ⟨result, maker, madeBefore, launches⟩ :=
        (keeps.acknowledgments_complete started isOpen suits).1 ack sent
      obtain ⟨byMaker, alsoAdmits⟩ := Turn.admitted_of_launches launches
      have makerThere : maker ∈ turns := split ▸ List.mem_append_left _ madeBefore
      obtain rfl := session.eq_of_submitter there makerThere byMade byMaker
      obtain rfl := Option.some.inj (admits.symm.trans alsoAdmits)
      obtain ⟨submission, outcome⟩ := completion
      cases outcome with
      | ok outputs =>
          rw [failed] at result
          cases result
      | error reason =>
          have whole := session.keeps started begins begun
          have fails : (⟨opened.land, .complete ⟨submission, .error reason⟩⟩ : Passage σ) ∈
              passages turns := List.mem_filterMap.2 ⟨_, member, rfl⟩
          have isDropped : submission ∈ Chronicle.dropped (earlier ++ passages turns) :=
            List.mem_filterMap.2 ⟨_, List.mem_append_right _ fails, rfl⟩
          refine whole.run.ne_of_mem_dropped started whole.genuine isDropped ?_
          rw [log_append_passages]
          exact List.mem_append_right _ executed
  | step => cases sent
  | stats => cases sent
  | shutdown => cases sent

end Opened
end Session

/-- A land of its own that a live land is put on, after any genuine run, acknowledges the
submissions of every session as it should, until it is shut down or fails. -/
theorem session_acknowledges_submissions
    (started : Land.live rules config created initial = .ok start)
    (run : Run rules start earlier land)
    (genuine : Genuine rules earlier)
    (going : land.failed = false)
    {running : List Resolution}
    (leftOver : running.map (·.submission) = outstanding rules earlier)
    (session : Session rules { land := land, running := running } turns task) :
    Acknowledges rules earlier turns task := by
  have begins : Keeps rules start earlier []
      ({ land := land, running := running } : LandTask σ ν) := .begins run genuine leftOver
  have keeps := session.keeps started begins going
  have accounted := keeps.accounted
  refine
    { once := (List.nodup_append.1 (accounted.nodup_iff.2 session.nodup_submitters)).1
      accounted := accounted
      refused := ?_
      queued := ?_
      resolving := ?_
      waiting := ⟨fun before turn after split => ?_, keeps.waits⟩
      performed := fun turn member isStep =>
        session.performs_or_breaksOff started begins going member isStep
      executed := fun before turn after split ack sent sequence accepted ticks =>
        session.executed_by_first_tick started begins going split sent accepted ticks
      unexecuted := fun turn member ack sent error failed made there byMade submission admits
          item executed =>
        session.not_executed_of_error started begins going member sent failed there byMade admits
          executed
      justified := fun before tick after split item executed =>
        session.acknowledged_of_executed started begins going split executed }
  · rintro ⟨opened, message⟩ - submitter inbound error rfl refused
    have whole : opened.land.submit rules inbound =
        (.error error, (opened.land.submit rules inbound).2) := Prod.ext refused rfl
    rw [Turn.acknowledgments_submit, submit_of_error whole]
  · rintro ⟨opened, message⟩ - submitter inbound sequence rfl queued
    have whole : opened.land.submit rules inbound =
        (.ok (.queued sequence), (opened.land.submit rules inbound).2) := Prod.ext queued rfl
    rw [Turn.acknowledgments_submit, submit_of_queued whole]
  · rintro before ⟨opened, message⟩ after submitter inbound resolution split rfl resolving
    have whole : opened.land.submit rules inbound =
        (.ok (.resolving resolution), (opened.land.submit rules inbound).2) :=
      Prod.ext resolving rfl
    have silent : (⟨opened, .submit submitter inbound⟩ : Turn σ ν).acknowledgments rules = [] := by
      rw [Turn.acknowledgments_submit, submit_of_resolving whole]
    have launches : (⟨opened, .submit submitter inbound⟩ : Turn σ ν).launches? rules =
        some (submitter, resolution.submission) := by
      simp only [Turn.launches?, Passage.resolving?, resolving, Option.map_some]
    have member : (⟨opened, .submit submitter inbound⟩ : Turn σ ν) ∈ turns :=
      split ▸ List.mem_append_right before List.mem_cons_self
    refine ⟨silent, fun other later completion completes own => ?_,
      fun other there ack sent toSubmitter => ?_⟩
    · exact session.acknowledged_of_launches started begins going split launches later completes own
    · exact session.completes_of_acknowledged started begins going member launches silent there
        sent toSubmitter
  · obtain ⟨keeps, takes, -⟩ := session.at_turn started begins going split
    exact keeps.waits takes.1

/-- On a ledger where a join from before still waits for its stamp, a leave is acknowledged
at once, an unknown action is refused, the stamp of one join fails and that of another
arrives, and the submitter of a third is dropped when the land shuts down. -/
theorem session_acknowledges_submissions_of_stamped_joins :
    let rules := Ledger.rules { join := .stamped }
    ∃ start earlier land running turns, ∃ task : LandTask Ledger.State String,
      Land.live rules { landId := "books", landType := "ledger" } .epoch {} = .ok start ∧
        Run rules start earlier land ∧
        running.map (·.submission.sequence) = [0] ∧
        Session rules { land := land, running := running } turns task ∧
        (acknowledged rules turns).map (fun ack => (ack.submitter, ack.result.toOption)) =
          [("leaving", some 2), ("guessing", none), ("joining", none), ("joining again", some 3)] ∧
        task.dropped = ["joining late"] ∧
        task.land.state.joins = 2 ∧
        Acknowledges rules earlier turns task := by
  intro rules
  let config : LandConfig := { landId := "books", landType := "ledger" }
  let player := Actor.ofIds "p1" "c1" "s1"
  let join : Inbound := .lifecycle .join player {}
  let messages : List (Message String) :=
    [.submit "joining" join, .submit "leaving" (.lifecycle .leave player {}),
      .submit "guessing" (.action "Guess" .null player), .complete ⟨join.submission 0, .ok ∅⟩,
      .complete ⟨join.submission 1, .error (.resolverFailure "stamp" "stamp service down")⟩,
      .submit "joining again" join, .stats, .complete ⟨join.submission 3, .ok ∅⟩, .step,
      .submit "joining late" join, .step, .shutdown]
  obtain ⟨start, started⟩ : ∃ start, Land.live rules config .epoch {} = .ok start := ⟨_, rfl⟩
  have run := Run.of_operations rules start [.submit join] (by
    obtain rfl := Except.ok.inj started
    decide +kernel)
  let first : LandTask Ledger.State String :=
    { land := start.after rules (.submit join), running := startedBy (start.submit rules join).1 }
  have begins : Session rules first [] first := .nothing
  have session := begins.append_told messages (by
    obtain rfl := Except.ok.inj started
    decide +kernel) (by
    obtain rfl := Except.ok.inj started
    decide +kernel)
  refine ⟨start, _, _, _, _, _, started, run, ?_, session, ?_, ?_, ?_,
    session_acknowledges_submissions started run ?_ ?_ ?_ session⟩
  all_goals
    obtain rfl := Except.ok.inj started
    decide +kernel

end LandTask
end Chronicle
