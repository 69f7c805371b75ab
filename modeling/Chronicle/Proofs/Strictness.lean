import Chronicle.Proofs.Loadable
import Mathlib.Data.List.TakeWhile

/-!
# Strict, lenient and cancelled replays

A lenient replay goes through all ticks of a recording and counts the
differences.  A strict one executes the same ticks up to the first hash that
differs, and a cancelled one executes the same ticks up to the one before which
it is cancelled, so what they come to can be told from the lenient one.
-/

namespace Chronicle

open Recording (Frame ServerEvent)

/-- An emitted event agrees with a recorded one in type, payload and target. -/
structure Recording.ServerEvent.Agrees (recorded emitted : ServerEvent) : Prop where
  type : recorded.type = emitted.type
  payload : recorded.payload.agrees emitted.payload = true
  target : recorded.target = emitted.target

/-- Lists of events pass the check if they are equally long and agree one by
one. -/
theorem Verification.allEventsAgree_iff {recorded emitted : List ServerEvent} :
    allEventsAgree recorded emitted = true ↔
      List.Forall₂ ServerEvent.Agrees recorded emitted := by
  induction recorded generalizing emitted with
  | nil => cases emitted <;> simp [allEventsAgree]
  | cons first rest inductionHypothesis =>
      cases emitted with
      | nil => simp [allEventsAgree]
      | cons other others =>
          have same : eventsAgree first other = true ↔ first.Agrees other := by
            simp only [eventsAgree, Bool.and_eq_true, beq_iff_eq]
            constructor
            · rintro ⟨⟨type, payload⟩, target⟩
              exact ⟨type, payload, target⟩
            · rintro ⟨type, payload, target⟩
              exact ⟨⟨type, payload⟩, target⟩
          rw [allEventsAgree, Bool.and_eq_true, same, inductionHypothesis, List.forall₂_cons]

/-- A recorded tick, and what its replay reports. -/
structure Comparison where
  frame : Frame
  report : TickReport

namespace Comparison

/-- A hash is recorded, and it is another one than the replayed one. -/
def HashDiffers (compared : Comparison) : Prop :=
  ∃ recorded ∈ compared.frame.stateHash, recorded ≠ compared.report.stateHash

/-- As many events were emitted as are recorded, and they agree one by one. -/
def EventsAgree (compared : Comparison) : Prop :=
  List.Forall₂ ServerEvent.Agrees compared.frame.serverEvents compared.report.serverEvents

instance (compared : Comparison) : Decidable compared.HashDiffers :=
  inferInstanceAs (Decidable (∃ recorded ∈ compared.frame.stateHash,
    recorded ≠ compared.report.stateHash))

instance (compared : Comparison) : Decidable compared.EventsAgree :=
  decidable_of_iff _ Verification.allEventsAgree_iff

/-- No hash is recorded, or the replayed one, or another one. -/
theorem hash_cases (compared : Comparison) :
    (compared.frame.stateHash = none ∧ ¬ compared.HashDiffers) ∨
    (compared.frame.stateHash = some compared.report.stateHash ∧ ¬ compared.HashDiffers) ∨
    ∃ recorded, compared.frame.stateHash = some recorded ∧
      recorded ≠ compared.report.stateHash ∧ compared.HashDiffers := by
  rw [HashDiffers]
  cases compared.frame.stateHash with
  | none => simp
  | some recorded => by_cases same : recorded = compared.report.stateHash <;> simp [same]

/-- The error of a strict replay, if the hash differs. -/
def fault? (compared : Comparison) : Option LandError :=
  match compared.frame.stateHash with
  | none => none
  | some recorded =>
      if recorded = compared.report.stateHash then none
      else some (.hashMismatch compared.report.tick recorded compared.report.stateHash)

/-- A strict replay does not fail at a tick exactly if the hash does not
differ. -/
theorem fault?_eq_none_iff {compared : Comparison} :
    compared.fault? = none ↔ ¬ compared.HashDiffers := by
  rcases compared.hash_cases with ⟨hash, same⟩ | ⟨hash, same⟩ | ⟨recorded, hash, other, differs⟩
  · simp [fault?, hash, same]
  · simp [fault?, hash, same]
  · simp [fault?, hash, other, differs]

/-- The error of a strict replay names the two hashes. -/
theorem exists_fault? {compared : Comparison} (differs : compared.HashDiffers) :
    ∃ recorded ∈ compared.frame.stateHash,
      compared.fault? =
        some (.hashMismatch compared.report.tick recorded compared.report.stateHash) := by
  obtain ⟨recorded, hash, other⟩ := differs
  refine ⟨recorded, hash, ?_⟩
  rw [fault?, Option.mem_def.1 hash]
  exact if_neg other

/-- The first error of a strict replay is that of the first hash that differs. -/
theorem findSome?_fault? (compared : List Comparison) :
    compared.findSome? fault? =
      (compared.filter fun tick => tick.HashDiffers).head?.bind fault? := by
  induction compared with
  | nil => rfl
  | cons first rest inductionHypothesis =>
      rw [List.findSome?_cons, List.filter_cons]
      by_cases differs : first.HashDiffers
      · obtain ⟨recorded, -, fault⟩ := exists_fault? differs
        simp [differs, fault]
      · rw [fault?_eq_none_iff.2 differs, inductionHypothesis]
        simp [differs]

/-- All ticks are before the cancellation of a replay that is not cancelled. -/
theorem takeWhile_never (compared : List Comparison) :
    (compared.takeWhile fun _ => !false) = compared :=
  List.takeWhile_eq_self_iff.2 fun _ _ => rfl

/-- Among ascending ticks, those before the one at which a replay is cancelled are
the smaller ones. -/
theorem takeWhile_eq_filter
    {compared : List Comparison}
    {cancelledBefore : Tick → Bool}
    {tick : Tick}
    (ascending : (compared.map (·.report.tick)).Pairwise (· < ·))
    (member : tick ∈ compared.map (·.report.tick))
    (cancelled : cancelledBefore tick = true)
    (going : ∀ earlier < tick, cancelledBefore earlier = false) :
    (compared.takeWhile fun next => !cancelledBefore next.report.tick) =
      compared.filter fun next => next.report.tick < tick := by
  obtain ⟨next, inside, rfl⟩ := List.mem_map.1 member
  obtain ⟨before, after, rfl⟩ := List.append_of_mem inside
  rw [List.map_append, List.map_cons, List.pairwise_append, List.pairwise_cons] at ascending
  obtain ⟨-, ⟨above, -⟩, below⟩ := ascending
  have smaller : ∀ other ∈ before, other.report.tick < next.report.tick := fun other there =>
    below _ (List.mem_map_of_mem there) _ List.mem_cons_self
  have greater : ∀ other ∈ after, ¬ other.report.tick < next.report.tick := fun other there =>
    UInt64.not_lt.2 (UInt64.le_of_lt (above _ (List.mem_map_of_mem there)))
  rw [List.takeWhile_append_of_pos fun other there => by
      rw [going _ (smaller other there), Bool.not_false],
    List.takeWhile_cons, cancelled, List.filter_append, List.filter_cons,
    List.filter_eq_self.2 fun other there => decide_eq_true (smaller other there),
    List.filter_eq_nil_iff.2 fun other there => by simpa using greater other there]
  simp

/-- The lenient check of a tick passes, and the strict one comes to the same unless
it fails. -/
theorem check_cases (compared : Comparison) :
    ∃ verification,
      Verification.check false compared.report.tick compared.frame.stateHash
        compared.report.stateHash = .ok verification ∧
      (compared.fault? = none →
        Verification.check true compared.report.tick compared.frame.stateHash
          compared.report.stateHash = .ok verification) ∧
      ∀ error, compared.fault? = some error →
        Verification.check true compared.report.tick compared.frame.stateHash
          compared.report.stateHash = .error error := by
  rcases compared.hash_cases with ⟨hash, same⟩ | ⟨hash, same⟩ | ⟨recorded, hash, other, differs⟩ <;>
    simp [fault?, Verification.check, *]

end Comparison

namespace ReplaySummary

/-- The totals of some compared ticks. -/
def totals (initialMismatch : Bool) (compared : List Comparison) : ReplaySummary where
  ticks := compared.length
  hashMatches := compared.countP fun tick => tick.frame.stateHash = some tick.report.stateHash
  mismatches := (compared.filter fun tick => tick.HashDiffers).map (·.report.tick)
  withoutHash := compared.countP fun tick => tick.frame.stateHash = none
  eventMismatches := (compared.filter fun tick => ¬ tick.EventsAgree).map (·.report.tick)
  initialMismatch := initialMismatch

/-- One more compared tick is counted. -/
theorem count_totals (initialMismatch : Bool) (compared : List Comparison) (next : Comparison) :
    (totals initialMismatch compared).count next.report.tick
        (Verification.allEventsAgree next.frame.serverEvents next.report.serverEvents)
        (Verification.check false next.report.tick next.frame.stateHash next.report.stateHash) =
      totals initialMismatch (compared ++ [next]) := by
  have events : Verification.allEventsAgree next.frame.serverEvents next.report.serverEvents =
      decide next.EventsAgree := by
    rw [Bool.eq_iff_iff, Verification.allEventsAgree_iff, decide_eq_true_iff,
      Comparison.EventsAgree]
  rw [events]
  rcases next.hash_cases with ⟨hash, same⟩ | ⟨hash, same⟩ | ⟨recorded, hash, other, differs⟩ <;>
    by_cases agree : next.EventsAgree <;>
      simp [totals, count, Verification.check, *]

/-- Every compared tick is a match, a mismatch or without a hash. -/
theorem ticks_totals (initialMismatch : Bool) (compared : List Comparison) :
    (totals initialMismatch compared).hashMatches +
        (totals initialMismatch compared).mismatches.length +
        (totals initialMismatch compared).withoutHash =
      (totals initialMismatch compared).ticks := by
  induction compared with
  | nil => rfl
  | cons tick rest inductionHypothesis =>
      simp only [totals, List.length_map, List.length_cons, List.countP_cons,
        List.filter_cons] at inductionHypothesis ⊢
      rcases tick.hash_cases with ⟨hash, same⟩ | ⟨hash, same⟩ | ⟨recorded, hash, other, differs⟩
      · simp only [hash, same, reduceCtorEq, decide_false, decide_true, if_true]
        simp
        omega
      · simp [hash, same]
        omega
      · simp [hash, other, differs]
        omega

end ReplaySummary

/-- A tick that is aborted lacks numbers, and one that is executed is the one that
was to be executed. -/
theorem Rules.execute_cases
    {σ : Type}
    (rules : Rules σ)
    (tick : Tick)
    (items : List Item)
    (state : σ)
    (numbering : Numbering)
    (stats : TickStats) :
    (rules.execute tick items state numbering stats).result = .error .sequenceOverflow ∨
    ∃ outcome, (rules.execute tick items state numbering stats).result = .ok outcome ∧
      outcome.tick = tick := by
  rw [execute]
  cases performed : TickRun.performAll tick ⟨state, numbering, [], [], 0⟩
      (rules.effects tick items) with
  | mk result run =>
    cases result with
    | error error =>
        have fatal := TickRun.isFatal_of_performAll performed
        refine .inl ?_
        cases error <;> first | rfl | cases fatal
    | ok done => exact .inr ⟨_, rfl, rfl⟩

namespace Land

variable {σ : Type}

/-- The same land in a strict replay. -/
def strictly (land : Land σ) : Land σ :=
  match land.mode with
  | .replay source _ summary => { land with mode := .replay source true summary }
  | .live _ _ _ => land

/-- A lenient replay executes a recorded tick and counts how it compares with its
frame; a strict one does the same, unless the hash differs. -/
theorem step_of_lenient
    (rules : Rules σ)
    {land : Land σ}
    {source : Source}
    {summary : ReplaySummary}
    {frame : Frame}
    (mode : land.mode = .replay source false summary)
    (found : source.frame? land.nextTick = some frame) :
    (land.step rules).result = .error .sequenceOverflow ∨
    ∃ report after heard,
      land.step rules = ⟨.ok report, after, heard⟩ ∧
      report.tick = land.nextTick ∧
      after.nextTick = land.nextTick + 1 ∧
      after.mode = .replay source false (summary.count report.tick
        (Verification.allEventsAgree frame.serverEvents report.serverEvents)
        (Verification.check false report.tick frame.stateHash report.stateHash)) ∧
      (Comparison.fault? ⟨frame, report⟩ = none →
        land.strictly.step rules = ⟨.ok report, after.strictly, heard⟩) ∧
      ∀ error, Comparison.fault? ⟨frame, report⟩ = some error →
        (land.strictly.step rules).result = .error error := by
  have events : source.serverEvents land.nextTick = frame.serverEvents := by
    rw [Source.serverEvents, found, Option.map_some, Option.getD_some]
  have hash : source.recordedHash? land.nextTick = frame.stateHash := by
    rw [Source.recordedHash?, found, Option.bind_some]
  let executed := rules.execute land.nextTick (source.items land.nextTick) land.state
    land.numbering land.ticks
  rcases rules.execute_cases land.nextTick (source.items land.nextTick) land.state
    land.numbering land.ticks with overflow | ⟨outcome, done, tick⟩
  · refine .inl ?_
    simp only [step, take, mode, overflow]
  · let stateHash := rules.fingerprint executed.state
    obtain ⟨verification, lenient, passed, failed⟩ :=
      Comparison.check_cases ⟨frame, report outcome stateHash⟩
    let reported := { report outcome stateHash with verification := some verification }
    let after : Land σ :=
      { land with
        mode := .replay source false (summary.count land.nextTick
          (Verification.allEventsAgree frame.serverEvents outcome.serverEvents)
          (.ok verification))
        state := executed.state
        numbering := executed.numbering
        ticks := executed.stats
        nextTick := land.nextTick + 1 }
    refine .inr ⟨reported, after, executed.heard, ?_, tick, rfl, ?_, fun agrees => ?_,
      fun error differs => ?_⟩
    · simp only [report, tick] at lenient
      simp only [step, take, mode, done, conclude, tick, events, hash]
      simp [lenient, Except.map, after, reported, stateHash, executed]
    · have counted : Verification.check false reported.tick frame.stateHash reported.stateHash =
          .ok verification := lenient
      have number : reported.tick = land.nextTick := tick
      rw [counted, number]
      rfl
    · have strict := passed agrees
      simp only [report, tick] at strict
      simp only [strictly, mode, step, take, done, conclude, tick, events, hash]
      simp [strict, Except.map, after, reported, stateHash, executed]
    · have strict := failed error differs
      simp only [report, tick] at strict
      simp only [strictly, mode, step, take, done, conclude, tick, events, hash]
      simp [strict, Except.map, stateHash, executed]

end Land

namespace Source

/-- A source gives back frames that number the ticks. -/
structure Gives (source : Source) (frames : List Frame) : Prop where
  numbered : Recording.Numbered frames
  found : ∀ frame ∈ frames, source.frame? frame.tick = some frame
  ends : source.lastTick? = frames.getLast?.map (·.tick)

/-- The source of a recording with fewer frames than there are ticks gives them
back. -/
theorem gives_of_ofRecording
    {recording : Recording}
    {source : Source}
    (accepted : ofRecording recording = .ok source)
    (fits : recording.frames.length < UInt64.size) :
    source.metadata = recording.metadata ∧ source.Gives recording.frames := by
  have valid := (exists_ofRecording_iff recording).1 ⟨source, accepted⟩
  obtain ⟨numbered, addressed⟩ := Recording.of_validate valid (Nat.le_of_lt fits)
  obtain ⟨other, isSource, metadata, found, ends⟩ := ofRecording_eq_ok numbered addressed
  obtain rfl := Except.ok.inj (accepted.symm.trans isSource)
  exact ⟨metadata, numbered, found, ends⟩

end Source

namespace Replay

variable {σ : Type} {rules : Rules σ}

/-- The same replay, but strict. -/
def strictly (replay : Replay σ) : Replay σ := { replay with land := replay.land.strictly }

/-- What a replay reports of at most some further ticks, up to the first error. -/
def reports (rules : Rules σ) : Nat → Replay σ → List TickReport
  | 0, _ => []
  | ticks + 1, replay =>
      match (replay.step rules).1 with
      | .ok (some report) => report :: reports rules ticks (replay.step rules).2
      | _ => []

/-- A lenient replay has compared the ticks before the next one. -/
structure Stands
    (replay : Replay σ)
    (source : Source)
    (initialMismatch : Bool)
    (past : List Comparison) : Prop where
  mode : replay.land.mode = .replay source false (.totals initialMismatch past)
  nextTick : replay.land.nextTick = UInt64.ofNat past.length
  lastTick : replay.lastTick = source.lastTick?

/-- A lenient replay that has compared some ticks goes through the others to the
end of its recording, and a strict one goes along with it up to the first hash
that differs. -/
inductive Goes (rules : Rules σ) (source : Source) (initialMismatch : Bool) :
    Replay σ → (past rest : List Comparison) → Prop where
  | ends
      {replay : Replay σ}
      {past : List Comparison}
      (stands : replay.Stands source initialMismatch past)
      (finished : replay.isFinished = true) :
      Goes rules source initialMismatch replay past []
  | compares
      {replay : Replay σ}
      {past rest : List Comparison}
      {next : Comparison}
      (stands : replay.Stands source initialMismatch past)
      (unfinished : ¬ replay.isFinished = true)
      (replayed : (replay.step rules).1 = .ok (some next.report))
      (tick : next.report.tick = replay.land.nextTick)
      (agrees : next.fault? = none →
        replay.strictly.step rules = (.ok (some next.report), (replay.step rules).2.strictly))
      (differs : ∀ error, next.fault? = some error →
        (replay.strictly.step rules).1 = .error error)
      (others : Goes rules source initialMismatch (replay.step rules).2 (past ++ [next]) rest) :
      Goes rules source initialMismatch replay past (next :: rest)

namespace Stands

variable {replay : Replay σ} {source : Source} {initialMismatch : Bool}
  {past : List Comparison} {frames : List Frame}

/-- The land of the strict replay differs from the lenient one in nothing else. -/
theorem strictly_land (stands : replay.Stands source initialMismatch past) :
    replay.strictly.land = { replay.land with
      mode := .replay source true (.totals initialMismatch past) } := by
  rw [strictly, Land.strictly, stands.mode]

/-- A strict replay is finished together with the lenient one. -/
theorem isFinished_strictly (stands : replay.Stands source initialMismatch past) :
    replay.strictly.isFinished = replay.isFinished := by
  rw [isFinished, stands.strictly_land]
  rfl

/-- A replay is finished when it has compared all frames. -/
theorem isFinished_iff
    {rest : List Frame}
    (stands : replay.Stands source initialMismatch past)
    (gives : source.Gives frames)
    (fits : frames.length < UInt64.size)
    (split : frames = past.map (·.frame) ++ rest) :
    replay.isFinished = true ↔ rest = [] := by
  have whole : frames.length = past.length + rest.length := by
    rw [split, List.length_append, List.length_map]
  rw [isFinished, stands.lastTick, gives.ends, ← List.length_eq_zero_iff]
  cases last : frames.getLast? with
  | none =>
      rw [List.getLast?_eq_none_iff.1 last, List.length_nil] at whole
      simp only [Option.map_none, true_iff]
      omega
  | some frame =>
      rw [List.getLast?_eq_getElem?] at last
      have inside := (List.getElem?_eq_some_iff.1 last).1
      rw [Option.map_some, decide_eq_true_iff, UInt64.lt_iff_toNat_lt, gives.numbered _ _ last,
        stands.nextTick, UInt64.toNat_ofNat_of_lt' (by omega)]
      omega

/-- A replay that has not begun has all frames to go. -/
theorem remaining_eq
    (stands : replay.Stands source initialMismatch [])
    (gives : source.Gives frames) :
    replay.remaining = frames.length := by
  have start : replay.land.nextTick.toNat = 0 := congrArg UInt64.toNat stands.nextTick
  rw [remaining, stands.lastTick, gives.ends]
  cases last : frames.getLast? with
  | none => rw [List.getLast?_eq_none_iff.1 last, Option.map_none, List.length_nil]
  | some frame =>
      rw [List.getLast?_eq_getElem?] at last
      have inside := (List.getElem?_eq_some_iff.1 last).1
      have number := gives.numbered _ _ last
      simp only [Option.map_some]
      omega

/-- A strict replay has as many ticks to go as the lenient one. -/
theorem remaining_strictly (stands : replay.Stands source initialMismatch past) :
    replay.strictly.remaining = replay.remaining := by
  rw [remaining, stands.strictly_land]
  rfl

/-- The next recorded tick is compared, unless the numbers run out. -/
theorem step
    (rules : Rules σ)
    {frame : Frame}
    (stands : replay.Stands source initialMismatch past)
    (gives : source.Gives frames)
    (unfinished : ¬ replay.isFinished = true)
    (next : frames[past.length]? = some frame) :
    (replay.step rules).1 = .error .sequenceOverflow ∨
    ∃ report,
      (replay.step rules).1 = .ok (some report) ∧
      report.tick = replay.land.nextTick ∧
      (replay.step rules).2.Stands source initialMismatch (past ++ [⟨frame, report⟩]) ∧
      (Comparison.fault? ⟨frame, report⟩ = none →
        replay.strictly.step rules = (.ok (some report), (replay.step rules).2.strictly)) ∧
      ∀ error, Comparison.fault? ⟨frame, report⟩ = some error →
        (replay.strictly.step rules).1 = .error error := by
  have number : frame.tick = replay.land.nextTick := by
    rw [stands.nextTick]
    exact gives.numbered.onward _ _ next
  have found : source.frame? replay.land.nextTick = some frame :=
    number ▸ gives.found frame (List.mem_of_getElem? next)
  have strictUnfinished : ¬ replay.strictly.isFinished = true :=
    stands.isFinished_strictly ▸ unfinished
  rw [step_of_unfinished unfinished, step_of_unfinished strictUnfinished]
  rcases Land.step_of_lenient rules stands.mode found with
    overflow | ⟨report, after, heard, stepped, tick, successor, mode, agrees, differs⟩
  · exact .inl (by rw [overflow]; rfl)
  · rw [ReplaySummary.count_totals initialMismatch past ⟨frame, report⟩] at mode
    refine .inr ⟨report, by rw [stepped]; rfl, tick, ⟨?_, ?_, stands.lastTick⟩, fun none => ?_,
      fun error some => ?_⟩
    · rw [stepped]
      exact mode
    · rw [stepped, List.length_append, UInt64.ofNat_add, ← stands.nextTick]
      exact successor
    · have together : replay.strictly.land.step rules = ⟨.ok report, after.strictly, heard⟩ :=
        agrees none
      rw [stepped, together]
      rfl
    · exact congrArg (Except.map Option.some) (differs error some)

/-- A lenient replay goes through the rest of its frames, unless the numbers run
out. -/
theorem goes
    {rest : List Frame}
    (stands : replay.Stands source initialMismatch past)
    (gives : source.Gives frames)
    (fits : frames.length < UInt64.size)
    (split : frames = past.map (·.frame) ++ rest) :
    replay.runFor rules (fun _ => false) (rest.length + 1) = .error .sequenceOverflow ∨
    ∃ compared,
      Goes rules source initialMismatch replay past compared ∧ compared.map (·.frame) = rest := by
  have finished := stands.isFinished_iff gives fits split
  induction rest generalizing replay past with
  | nil =>
      exact .inr ⟨[], .ends stands (finished.2 rfl), rfl⟩
  | cons frame rest inductionHypothesis =>
      have unfinished : ¬ replay.isFinished = true :=
        fun done => List.cons_ne_nil _ _ (finished.1 done)
      have next : frames[past.length]? = some frame := by
        rw [split, List.getElem?_append_right (by rw [List.length_map]), List.length_map,
          Nat.sub_self]
        rfl
      rw [List.length_cons, runFor_succ unfinished rfl]
      rcases stands.step rules gives unfinished next with
        overflow | ⟨report, replayed, tick, there, agrees, differs⟩
      · exact .inl (by rw [overflow])
      · have splitThere :
            frames = (past ++ [(⟨frame, report⟩ : Comparison)]).map (·.frame) ++ rest := by
          rw [split, List.map_append, List.append_assoc]
          rfl
        rw [replayed]
        refine (inductionHypothesis there splitThere
          (there.isFinished_iff gives fits splitThere)).imp_right
            fun ⟨compared, others, same⟩ =>
              ⟨_, .compares stands unfinished replayed tick agrees differs others, ?_⟩
        rw [List.map_cons, same]

end Stands

namespace Goes

variable {replay : Replay σ} {source : Source} {initialMismatch : Bool}
  {past rest : List Comparison}

/-- A replay that goes on has compared the ticks before. -/
theorem stands (goes : Goes rules source initialMismatch replay past rest) :
    replay.Stands source initialMismatch past := by
  cases goes <;> assumption

/-- The compared ticks are those that the replay reports. -/
theorem reports_eq (goes : Goes rules source initialMismatch replay past rest) :
    replay.reports rules rest.length = rest.map (·.report) := by
  induction goes with
  | ends => rfl
  | compares _ _ replayed _ _ _ _ inductionHypothesis =>
      rw [List.length_cons, reports, replayed]
      exact congrArg _ inductionHypothesis

/-- The compared ticks follow those before one by one. -/
theorem ticks_eq (goes : Goes rules source initialMismatch replay past rest) :
    rest.map (·.report.tick) = (List.range' past.length rest.length).map UInt64.ofNat := by
  induction goes with
  | ends => rfl
  | compares stands _ _ tick _ _ _ inductionHypothesis =>
      rw [List.map_cons, tick, stands.nextTick, inductionHypothesis, List.length_append]
      rfl

/-- A lenient replay counts the ticks before the one at which it is cancelled. -/
theorem runFor_eq
    (goes : Goes rules source initialMismatch replay past rest)
    (cancelledBefore : Tick → Bool) :
    replay.runFor rules cancelledBefore (rest.length + 1) =
      .ok { ReplaySummary.totals initialMismatch
              (past ++ rest.takeWhile fun tick => !cancelledBefore tick.report.tick) with
            cancelled := rest.any fun tick => cancelledBefore tick.report.tick } := by
  induction goes with
  | ends stands finished =>
      rw [runFor, if_pos finished, Land.replaySummary, stands.mode, List.takeWhile_nil,
        List.append_nil]
      rfl
  | compares stands unfinished replayed tick _ _ _ inductionHypothesis =>
      rename_i replay past rest next _ _ _
      cases cancelled : cancelledBefore replay.land.nextTick with
      | true =>
          rw [runFor, if_neg unfinished, if_pos cancelled, Land.updateSummary, stands.mode]
          simp [Land.replaySummary, tick, cancelled]
      | false =>
          rw [List.length_cons, runFor_succ unfinished cancelled, replayed]
          simp only [inductionHypothesis, List.takeWhile_cons, List.any_cons, tick, cancelled,
            List.append_assoc]
          rfl

/-- A strict replay fails at the first hash that differs before the tick at which it
is cancelled, and otherwise comes to the same as the lenient one. -/
theorem runFor_strictly
    (goes : Goes rules source initialMismatch replay past rest)
    (cancelledBefore : Tick → Bool) :
    replay.strictly.runFor rules cancelledBefore (rest.length + 1) =
      match (rest.takeWhile fun tick => !cancelledBefore tick.report.tick).findSome?
          Comparison.fault? with
      | some error => .error error
      | none => replay.runFor rules cancelledBefore (rest.length + 1) := by
  induction goes with
  | ends stands finished =>
      rw [runFor, if_pos (stands.isFinished_strictly.trans finished), runFor, if_pos finished,
        Land.replaySummary, Land.replaySummary, stands.strictly_land, stands.mode]
      rfl
  | compares stands unfinished replayed tick agrees differs _ inductionHypothesis =>
      rename_i replay past rest next _
      have strictUnfinished : ¬ replay.strictly.isFinished = true :=
        stands.isFinished_strictly ▸ unfinished
      have sameTick : replay.strictly.land.nextTick = replay.land.nextTick := by
        rw [stands.strictly_land]
      cases cancelled : cancelledBefore replay.land.nextTick with
      | true =>
          have strictCancelled : cancelledBefore replay.strictly.land.nextTick = true :=
            sameTick ▸ cancelled
          rw [runFor, if_neg strictUnfinished, if_pos strictCancelled, runFor, if_neg unfinished,
            if_pos cancelled, Land.updateSummary, Land.updateSummary, stands.strictly_land,
            stands.mode]
          simp [Land.replaySummary, tick, cancelled]
      | false =>
          have strictGoing : cancelledBefore replay.strictly.land.nextTick = false :=
            sameTick ▸ cancelled
          rw [List.length_cons, runFor_succ strictUnfinished strictGoing,
            runFor_succ unfinished cancelled, List.takeWhile_cons, tick, cancelled, Bool.not_false,
            if_pos rfl, List.findSome?_cons, replayed]
          cases fault : next.fault? with
          | none => rw [agrees fault, inductionHypothesis]
          | some error => rw [differs error fault]

end Goes

/-- A lenient replay of a recording of the right type begins before the first tick;
a strict one begins with it, or fails because the initial state differs. -/
theorem start_lenient
    {source : Source}
    (matching : source.metadata.landType = rules.landType)
    (rebuild : Recording.Metadata → σ) :
    ∃ lenient initialMismatch,
      start rules source false rebuild = .ok lenient ∧
      lenient.Stands source initialMismatch [] ∧
      (initialMismatch = true ↔ ∃ recorded ∈ source.metadata.initialHash,
        recorded ≠ rules.fingerprint (rebuild source.metadata)) ∧
      (initialMismatch = true → ∃ recorded, start rules source true rebuild =
        .error (.initialStateMismatch recorded (rules.fingerprint (rebuild source.metadata)))) ∧
      (initialMismatch = false → start rules source true rebuild = .ok lenient.strictly) := by
  unfold start Land.replay
  rw [if_pos matching, if_pos matching]
  cases hash : source.metadata.initialHash with
  | none => exact ⟨_, false, rfl, ⟨rfl, rfl, rfl⟩, by simp, by simp, fun _ => rfl⟩
  | some recorded =>
      by_cases same : recorded = rules.fingerprint (rebuild source.metadata)
      · refine ⟨_, false, if_pos same, ⟨rfl, rfl, rfl⟩, ?_, by simp, fun _ => if_pos same⟩
        simp [same]
      · refine ⟨_, true, if_neg same, ⟨rfl, rfl, rfl⟩, ?_, fun _ => ⟨recorded, ?_⟩, by simp⟩
        · simp [same]
        · exact if_neg same

/-- What the replays of a recording come to, told by the ticks that the lenient one
has compared and by the summary of it. -/
structure Concordant
    (rules : Rules σ)
    (source : Source)
    (rebuild : Recording.Metadata → σ)
    (lenient : Replay σ)
    (compared : List Comparison)
    (summary : ReplaySummary) : Prop where
  /-- The lenient replay compares every tick, once and in order. -/
  ticks : compared.map (·.report.tick.toNat) = List.range summary.ticks
  mismatches : summary.mismatches =
    (compared.filter fun tick => tick.HashDiffers).map (·.report.tick)
  eventMismatches : summary.eventMismatches =
    (compared.filter fun tick => ¬ tick.EventsAgree).map (·.report.tick)
  hashes : summary.hashMatches + summary.mismatches.length + summary.withoutHash = summary.ticks
  initial : summary.initialMismatch = true ↔
    ∃ recorded ∈ source.metadata.initialHash,
      recorded ≠ rules.fingerprint (rebuild source.metadata)
  totals : summary = .totals summary.initialMismatch compared
  /-- The strict replay begins unless the initial state differs, and fails at the first
  mismatch. -/
  refused : (∃ error, start rules source true rebuild = .error error) ↔
    summary.initialMismatch = true
  fails : ∀ strict first others, start rules source true rebuild = .ok strict →
    compared.filter (fun tick => tick.HashDiffers) = first :: others →
      ∃ recorded ∈ first.frame.stateHash,
        strict.run rules (fun _ => false) =
          .error (.hashMismatch first.report.tick recorded first.report.stateHash)
  passes : ∀ strict, start rules source true rebuild = .ok strict → summary.mismatches = [] →
    strict.run rules (fun _ => false) = .ok summary
  /-- A replay that is cancelled before a tick has counted the ticks before it. -/
  cut : ∀ (cancelledBefore : Tick → Bool) (tick : Tick), tick.toNat < summary.ticks →
    cancelledBefore tick = true → (∀ earlier < tick, cancelledBefore earlier = false) →
      ∃ cut, lenient.run rules cancelledBefore = .ok cut ∧
        cut = { ReplaySummary.totals summary.initialMismatch
                  (compared.filter fun compared => compared.report.tick < tick) with
                cancelled := true } ∧
        cut.passed = false
  cutStrictly : ∀ (cancelledBefore : Tick → Bool) (tick : Tick) (strict : Replay σ),
    start rules source true rebuild = .ok strict → tick.toNat < summary.ticks →
      cancelledBefore tick = true → (∀ earlier < tick, cancelledBefore earlier = false) →
        strict.run rules cancelledBefore =
          if ∃ mismatch ∈ summary.mismatches, mismatch < tick then
            strict.run rules (fun _ => false)
          else lenient.run rules cancelledBefore

namespace Goes

variable {lenient : Replay σ} {source : Source} {initialMismatch : Bool}
  {compared : List Comparison}

/-- A replay from the beginning compares the ticks from zero on. -/
theorem ticks_eq_range
    (goes : Goes rules source initialMismatch lenient [] compared)
    (fits : compared.length < UInt64.size) :
    compared.map (·.report.tick.toNat) = List.range compared.length := by
  have ticks := congrArg (List.map UInt64.toNat) goes.ticks_eq
  rw [List.map_map, List.map_map, List.length_nil, ← List.range_eq_range'] at ticks
  refine ticks.trans ((List.map_congr_left fun index below => ?_).trans (List.map_id _))
  exact UInt64.toNat_ofNat_of_lt' (Nat.lt_trans (List.mem_range.1 below) fits)

/-- The ticks of a replay from the beginning ascend. -/
theorem ticks_ascending
    (goes : Goes rules source initialMismatch lenient [] compared)
    (fits : compared.length < UInt64.size) :
    (compared.map (·.report.tick)).Pairwise (· < ·) := by
  have ascending : (compared.map (·.report.tick.toNat)).Pairwise (· < ·) := by
    rw [goes.ticks_eq_range fits]
    exact List.pairwise_lt_range
  rw [List.pairwise_map] at ascending ⊢
  exact ascending.imp UInt64.lt_iff_toNat_lt.2

/-- A lenient replay from the beginning counts the ticks before the one at which it
is cancelled. -/
theorem run_eq
    (goes : Goes rules source initialMismatch lenient [] compared)
    (gives : source.Gives (compared.map (·.frame)))
    (cancelledBefore : Tick → Bool) :
    lenient.run rules cancelledBefore =
      .ok { ReplaySummary.totals initialMismatch
              (compared.takeWhile fun tick => !cancelledBefore tick.report.tick) with
            cancelled := compared.any fun tick => cancelledBefore tick.report.tick } := by
  rw [run, goes.stands.remaining_eq gives, List.length_map, goes.runFor_eq, List.nil_append]

/-- A strict replay from the beginning fails at the first hash that differs before
the tick at which it is cancelled, and otherwise comes to the same as the lenient
one. -/
theorem run_strictly
    (goes : Goes rules source initialMismatch lenient [] compared)
    (gives : source.Gives (compared.map (·.frame)))
    (cancelledBefore : Tick → Bool) :
    lenient.strictly.run rules cancelledBefore =
      match (compared.takeWhile fun tick => !cancelledBefore tick.report.tick).findSome?
          Comparison.fault? with
      | some error => .error error
      | none => lenient.run rules cancelledBefore := by
  rw [run, run, goes.stands.remaining_strictly, goes.stands.remaining_eq gives, List.length_map,
    goes.runFor_strictly]

/-- A lenient replay that is not cancelled counts all ticks. -/
theorem run_whole
    (goes : Goes rules source initialMismatch lenient [] compared)
    (gives : source.Gives (compared.map (·.frame))) :
    lenient.run rules (fun _ => false) = .ok (.totals initialMismatch compared) := by
  rw [goes.run_eq gives, Comparison.takeWhile_never, List.any_eq_false.2 (by simp)]
  rfl

/-- A strict replay that is not cancelled fails at the first hash that differs. -/
theorem run_strictly_whole
    (goes : Goes rules source initialMismatch lenient [] compared)
    (gives : source.Gives (compared.map (·.frame))) :
    lenient.strictly.run rules (fun _ => false) =
      match compared.findSome? Comparison.fault? with
      | some error => .error error
      | none => .ok (.totals initialMismatch compared) := by
  rw [goes.run_strictly gives, Comparison.takeWhile_never, goes.run_whole gives]

end Goes

/-- The replays of a recording with fewer frames than there are ticks come to what
the lenient one tells, unless its numbers run out. -/
theorem Goes.concordant
    {lenient : Replay σ}
    {source : Source}
    {initialMismatch : Bool}
    {compared : List Comparison}
    {rebuild : Recording.Metadata → σ}
    (goes : Goes rules source initialMismatch lenient [] compared)
    (gives : source.Gives (compared.map (·.frame)))
    (fits : compared.length < UInt64.size)
    (initial : initialMismatch = true ↔ ∃ recorded ∈ source.metadata.initialHash,
      recorded ≠ rules.fingerprint (rebuild source.metadata))
    (refused : initialMismatch = true → ∃ recorded, start rules source true rebuild =
      .error (.initialStateMismatch recorded (rules.fingerprint (rebuild source.metadata))))
    (begins : initialMismatch = false → start rules source true rebuild = .ok lenient.strictly) :
    lenient.Concordant rules source rebuild compared (.totals initialMismatch compared) := by
  have isStrict {strict : Replay σ} (started : start rules source true rebuild = .ok strict) :
      strict = lenient.strictly := by
    cases mismatch : initialMismatch with
    | true =>
        obtain ⟨recorded, failed⟩ := refused mismatch
        rw [failed] at started
        cases started
    | false => exact (Except.ok.inj ((begins mismatch).symm.trans started)).symm
  have kept {cancelledBefore : Tick → Bool} {tick : Tick} (within : tick.toNat < compared.length)
      (cancelled : cancelledBefore tick = true)
      (going : ∀ earlier < tick, cancelledBefore earlier = false) :
      tick ∈ compared.map (·.report.tick) ∧
      (compared.takeWhile fun next => !cancelledBefore next.report.tick) =
        compared.filter fun next => next.report.tick < tick := by
    have member : tick ∈ compared.map (·.report.tick) := by
      have number : tick.toNat ∈ compared.map (·.report.tick.toNat) := by
        rw [goes.ticks_eq_range fits]
        exact List.mem_range.2 within
      obtain ⟨next, inside, same⟩ := List.mem_map.1 number
      exact List.mem_map.2 ⟨next, inside, UInt64.toNat_inj.1 same⟩
    exact ⟨member,
      Comparison.takeWhile_eq_filter (goes.ticks_ascending fits) member cancelled going⟩
  refine
    { ticks := goes.ticks_eq_range fits
      mismatches := rfl
      eventMismatches := rfl
      hashes := ReplaySummary.ticks_totals initialMismatch compared
      initial := initial
      totals := rfl
      refused := ?_
      fails := ?_
      passes := ?_
      cut := ?_
      cutStrictly := ?_ }
  · refine ⟨fun ⟨error, failed⟩ => ?_, fun mismatch => ?_⟩
    · by_contra agrees
      rw [begins (Bool.eq_false_iff.2 agrees)] at failed
      cases failed
    · obtain ⟨recorded, failed⟩ := refused mismatch
      exact ⟨_, failed⟩
  · intro strict first others started differing
    have member : first ∈ compared.filter fun tick => tick.HashDiffers :=
      differing ▸ List.mem_cons_self
    obtain ⟨recorded, hash, fault⟩ :=
      Comparison.exists_fault? (of_decide_eq_true (List.mem_filter.1 member).2)
    refine ⟨recorded, hash, ?_⟩
    rw [isStrict started, goes.run_strictly_whole gives, Comparison.findSome?_fault?, differing,
      List.head?_cons, Option.bind_some, fault]
  · intro strict started none
    rw [isStrict started, goes.run_strictly_whole gives, Comparison.findSome?_fault?,
      List.map_eq_nil_iff.1 none]
    rfl
  · intro cancelledBefore tick within cancelled going
    obtain ⟨member, cut⟩ := kept within cancelled going
    refine ⟨_, goes.run_eq gives cancelledBefore, ?_, ?_⟩
    · obtain ⟨next, inside, rfl⟩ := List.mem_map.1 member
      rw [cut, List.any_eq_true.2 ⟨next, inside, cancelled⟩]
      rfl
    · obtain ⟨next, inside, rfl⟩ := List.mem_map.1 member
      rw [List.any_eq_true.2 ⟨next, inside, cancelled⟩]
      simp [ReplaySummary.passed]
  · intro cancelledBefore tick strict started within cancelled going
    obtain ⟨-, cut⟩ := kept within cancelled going
    have early : (∃ mismatch ∈ (ReplaySummary.totals initialMismatch compared).mismatches,
        mismatch < tick) ↔
        (compared.takeWhile fun next => !cancelledBefore next.report.tick).findSome?
          Comparison.fault? ≠ none := by
      rw [cut, ne_eq, List.findSome?_eq_none_iff]
      simp [ReplaySummary.totals, Comparison.fault?_eq_none_iff, and_comm]
    have whole := congrArg (List.findSome? Comparison.fault?)
      (List.takeWhile_append_dropWhile (p := fun next : Comparison =>
        !cancelledBefore next.report.tick) (l := compared))
    rw [List.findSome?_append] at whole
    rw [isStrict started, goes.run_strictly gives, goes.run_strictly_whole gives, ← whole]
    cases found : (compared.takeWhile fun next => !cancelledBefore next.report.tick).findSome?
        Comparison.fault? with
    | none => rw [if_neg fun some => early.1 some found]
    | some error => rw [if_pos (early.2 (by rw [found]; exact Option.some_ne_none _))]; rfl

end Replay

/-- Whatever a recording that makes a source has in its frames, its lenient replay
compares every one of them, unless the sequence numbers run out, and the strict
and the cancelled replays come to what follows from the comparison. -/
theorem replays_concordant
    {σ : Type}
    {rules : Rules σ}
    {recording : Recording}
    {source : Source}
    (accepted : Source.ofRecording recording = .ok source)
    (fits : recording.frames.length < UInt64.size)
    (matching : recording.metadata.landType = rules.landType)
    (rebuild : Recording.Metadata → σ) :
    ∃ lenient,
      Replay.start rules source false rebuild = .ok lenient ∧
      (lenient.run rules (fun _ => false) ≠ .error .sequenceOverflow →
        ∃ compared summary,
          compared.map (·.frame) = recording.frames ∧
          compared.map (·.report) = lenient.reports rules recording.frames.length ∧
          lenient.run rules (fun _ => false) = .ok summary ∧
          summary.ticks = recording.frames.length ∧
          lenient.Concordant rules source rebuild compared summary) := by
  obtain ⟨metadata, gives⟩ := Source.gives_of_ofRecording accepted fits
  have sameType : source.metadata.landType = rules.landType := metadata ▸ matching
  obtain ⟨lenient, initialMismatch, started, stands, initial, refused, begins⟩ :=
    Replay.start_lenient sameType rebuild
  refine ⟨lenient, started, fun numbered => ?_⟩
  rw [Replay.run, stands.remaining_eq gives] at numbered
  have whole : recording.frames = ([] : List Comparison).map (·.frame) ++ recording.frames := rfl
  rcases stands.goes gives fits whole with overflow | ⟨compared, goes, frames⟩
  · exact absurd overflow numbered
  · have length : compared.length = recording.frames.length := by rw [← frames, List.length_map]
    rw [← frames] at gives
    refine ⟨compared, .totals initialMismatch compared, frames, ?_, goes.run_whole gives, length,
      goes.concordant gives (length ▸ fits) initial refused begins⟩
    rw [← length, goes.reports_eq]

/-- On a ledger a sum is replayed as it was recorded, a second one comes to a wrong hash and
emits an event that was not recorded, and for a note there is no hash.  The mismatch fails
the strict replay. -/
theorem replays_concordant_of_wrong_hash :
    let rules := Ledger.rules {}
    let input (sequence : Sequence) (type : String) (payload : Json) (tick : Tick) :
        Recording.Input := ⟨.action, sequence, type, payload, .nobody, ∅, tick⟩
    let sum : Json := .object [("amount", .ofInt64 2)]
    let frames : List Recording.Frame :=
      [{ tick := 0
         actions := [input 0 "Add" sum 0]
         serverEvents := [TickRun.record 0 1 ⟨"Add", sum, .all⟩]
         stateHash := some (rules.fingerprint { total := 2 }) },
        { tick := 1, actions := [input 2 "Add" sum 1], stateHash := some "0" },
        { tick := 2, actions := [input 4 "Note" (.object [("text", .string "late")]) 2] }]
    ∃ source lenient strict compared summary,
      Source.ofRecording
          ⟨{ landId := "books", landType := "ledger", createdAt := .epoch }, frames⟩ =
        .ok source ∧
        Replay.start rules source false (fun _ => {}) = .ok lenient ∧
        lenient.run rules (fun _ => false) = .ok summary ∧
        summary = { ticks := 3, hashMatches := 1, mismatches := [1], withoutHash := 1,
                    eventMismatches := [1] } ∧
        Replay.start rules source true (fun _ => {}) = .ok strict ∧
        strict.run rules (fun _ => false) =
          .error (.hashMismatch 1 "0" (rules.fingerprint { total := 4 })) ∧
        lenient.Concordant rules source (fun _ => {}) compared summary := by
  intro rules input sum frames
  let recording : Recording :=
    ⟨{ landId := "books", landType := "ledger", createdAt := .epoch }, frames⟩
  obtain ⟨source, accepted⟩ : ∃ source, Source.ofRecording recording = .ok source := ⟨_, rfl⟩
  have matching : recording.metadata.landType = rules.landType := rfl
  obtain ⟨lenient, started, concordant⟩ :=
    replays_concordant accepted (by decide) matching fun _ => {}
  obtain ⟨strict, begun⟩ : ∃ strict, Replay.start rules source true (fun _ => {}) = .ok strict := by
    obtain rfl := Except.ok.inj accepted
    exact ⟨_, rfl⟩
  have outcome : lenient.run rules (fun _ => false) =
      .ok { ticks := 3, hashMatches := 1, mismatches := [1], withoutHash := 1,
            eventMismatches := [1] } := by
    obtain rfl := Except.ok.inj accepted
    obtain rfl := Except.ok.inj started
    decide +kernel
  obtain ⟨compared, summary, -, -, done, -, agree⟩ := concordant (by rw [outcome]; exact nofun)
  obtain rfl := Except.ok.inj (outcome.symm.trans done)
  refine ⟨source, lenient, strict, compared, _, accepted, started, done, rfl, begun, ?_, agree⟩
  obtain rfl := Except.ok.inj accepted
  obtain rfl := Except.ok.inj begun
  decide +kernel

end Chronicle
