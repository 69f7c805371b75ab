import Chronicle.Proofs.Numbering

/-!
# The tick that executes an item

The numbers given in a run are distinct and what was executed has entered the
queue before, also in the tick of a fatal error.  An item is executed by the first
tick that starts after it has entered, and by no other.
-/

namespace Chronicle

variable {σ : Type} {rules : Rules σ} {past earlier between later : List (Passage σ)}
  {passage tick last : Passage σ} {start land : Land σ} {config : LandConfig}
  {created : Timestamp} {initial : σ}

/-! ## Parts of a run -/

/-- A run ends with the land after its last operation. -/
theorem Run.eq_after (run : Run rules start (past ++ [last]) land) : land = last.after rules := by
  generalize whole : past ++ [last] = all at run
  cases run with
  | nothing => exact absurd whole (by simp)
  | next run takes =>
      obtain ⟨-, same⟩ := List.append_inj' whole rfl
      obtain rfl := List.singleton_inj.1 same
      rfl

/-- A land that goes on after an operation has not failed in it. -/
theorem Run.going_after
    (run : Run rules start (earlier ++ passage :: later) land)
    (goesOn : later ≠ []) :
    (passage.after rules).failed = false := by
  obtain ⟨next, rest, rfl⟩ := List.exists_cons_of_ne_nil goesOn
  rw [List.append_cons] at run
  obtain ⟨run, takes⟩ := run.before
  rw [← run.eq_after]
  exact takes.1

/-- Only a step executes items. -/
theorem Passage.executed_of_not_step (notStep : passage.operation ≠ .step) :
    passage.executed = [] := by
  obtain ⟨land, operation⟩ := passage
  cases operation with
  | submit inbound => rfl
  | complete completion => rfl
  | step => exact absurd rfl notStep

/-- Nothing is executed without a step. -/
theorem log_eq_nil (quiet : ∀ other ∈ past, other.operation ≠ .step) : log past = [] :=
  List.flatMap_eq_nil_iff.2 fun other member => Passage.executed_of_not_step (quiet other member)

/-! ## Runs that may have failed -/

section Runs

variable (started : Land.live rules config created initial = .ok start)
include started

/-- In every run the given numbers are distinct and what was executed has entered
the queue, each item once. -/
theorem Run.account (run : Run rules start past land) (genuine : Genuine rules past) :
    (given rules past).Nodup ∧ ∃ waiting, (log past ++ waiting).Perm (entries rules past) := by
  cases run with
  | nothing => exact ⟨List.nodup_nil, [], List.Perm.refl _⟩
  | next run takes =>
      rename_i past land operation
      obtain ⟨frames, tracks⟩ := run.tracks started
      obtain ⟨queue, recorder, resolutions, live, consistent, -⟩ := tracks.mode
      obtain ⟨older, running⟩ := genuine_snoc_iff.1 genuine
      have balanced := run.balanced started older takes.1 live
      cases operation with
      | submit inbound =>
          obtain ⟨_, _, _, -, after⟩ := balanced.submit live consistent inbound
          exact ⟨after.issued.distinct, _, after.conserved⟩
      | complete completion =>
          obtain ⟨_, _, _, -, after⟩ := balanced.complete live consistent (running _ rfl)
          exact ⟨after.issued.distinct, _, after.conserved⟩
      | step =>
          have after : Balanced rules (past ++ [⟨land, .step⟩])
              { land with nextTick := land.nextTick + 1 } (queue.drain (land.nextTick + 1)).2 :=
            balanced.step live consistent (takes.2 rfl) rfl (Nat.le_refl _)
          exact ⟨after.issued.distinct, _, after.conserved⟩

/-- What was executed has entered the queue. -/
theorem Run.mem_entries_of_log
    (run : Run rules start past land)
    (genuine : Genuine rules past)
    {item : Item}
    (executed : item ∈ log past) :
    item ∈ entries rules past := by
  obtain ⟨-, waiting, conserved⟩ := run.account started genuine
  exact conserved.mem_iff.1 (List.mem_append_left waiting executed)

/-- No number is executed twice. -/
theorem Run.nodup_log (run : Run rules start past land) (genuine : Genuine rules past) :
    ((log past).map (·.sequence)).Nodup := by
  obtain ⟨distinct, waiting, conserved⟩ := run.account started genuine
  exact Chronicle.nodup_log distinct conserved

/-- What was dropped is not executed. -/
theorem Run.ne_of_mem_dropped
    (run : Run rules start past land)
    (genuine : Genuine rules past)
    {submission : Submission}
    (isDropped : submission ∈ dropped past)
    {item : Item}
    (executed : item ∈ log past) :
    item.sequence ≠ submission.sequence := by
  obtain ⟨distinct, -⟩ := run.account started genuine
  have entered := run.mem_entries_of_log started genuine executed
  exact (List.nodup_append.1 distinct).2.2 _ (List.mem_map_of_mem entered) _
    (List.mem_map_of_mem (List.mem_append_right _ isDropped))

/-- The first step after an item has entered the queue executes it. -/
theorem Run.mem_executed
    (run : Run rules start (earlier ++ passage :: (between ++ tick :: later)) land)
    (genuine : Genuine rules (earlier ++ passage :: (between ++ tick :: later)))
    {item : Item}
    (entered : passage.enters? rules = some item)
    (quiet : ∀ other ∈ between, other.operation ≠ .step)
    (isStep : tick.operation = .step) :
    item ∈ tick.executed := by
  obtain ⟨toPassage, takesPassage⟩ := run.before
  have older := (genuine_append_iff.1 genuine).1
  rw [← List.cons_append, ← List.append_assoc] at run genuine
  obtain ⟨toTick, takes⟩ := run.before
  have genuine := (genuine_append_iff.1 genuine).1
  obtain ⟨frames, tracks⟩ := toTick.tracks started
  obtain ⟨queue, recorder, resolutions, live, consistent, -⟩ := tracks.mode
  have balanced := toTick.balanced started genuine takes.1 live
  have inEntries : item ∈ entries rules (earlier ++ passage :: between) :=
    List.mem_filterMap.2 ⟨passage, List.mem_append_right _ List.mem_cons_self, entered⟩
  have notLogged : item ∉ log (earlier ++ passage :: between) := by
    intro executed
    have notStep : passage.operation ≠ .step := by
      intro step
      rw [Passage.enters?, Passage.direct?, Passage.resolved?, step] at entered
      cases entered
    have sameLog : log (earlier ++ passage :: between) = log earlier := by
      have none := log_eq_nil (List.forall_mem_cons.2 ⟨notStep, quiet⟩)
      rw [log] at none ⊢
      rw [List.flatMap_append, none, List.append_nil]
      rfl
    rw [sameLog] at executed
    obtain ⟨frames, tracks⟩ := toPassage.tracks started
    obtain ⟨_, _, _, live, -⟩ := tracks.mode
    have done := (toPassage.balanced started older takesPassage.1 live).done item executed
    rw [Passage.resolvedAt_of_enters entered] at done
    exact UInt64.lt_irrefl _ done
  have waits := (List.mem_append.1 (balanced.conserved.mem_iff.2 inEntries)).resolve_left notLogged
  obtain ⟨before, operation⟩ := tick
  obtain rfl : operation = .step := isStep
  rw [(balanced.executed_step live consistent (takes.2 rfl)).1]
  exact waits

/-- The first step after an item has entered the queue executes it once, and no other
operation executes its number. -/
theorem Run.executed_once
    (run : Run rules start (earlier ++ passage :: (between ++ tick :: later)) land)
    (genuine : Genuine rules (earlier ++ passage :: (between ++ tick :: later)))
    {item : Item}
    (entered : passage.enters? rules = some item)
    (quiet : ∀ other ∈ between, other.operation ≠ .step)
    (isStep : tick.operation = .step) :
    (tick.executed.map (·.sequence)).count item.sequence = 1 ∧
      ∀ other ∈ earlier ++ passage :: (between ++ later), ∀ another ∈ other.executed,
        another.sequence ≠ item.sequence := by
  have executed := run.mem_executed started genuine entered quiet isStep
  have distinct := run.nodup_log started genuine
  have parts : (log (earlier ++ passage :: (between ++ tick :: later))).Perm
      (tick.executed ++ log (earlier ++ passage :: (between ++ later))) := by
    rw [← List.cons_append, ← List.append_assoc, ← List.cons_append, ← List.append_assoc]
    exact List.perm_middle.flatMap_right _
  rw [(parts.map _).nodup_iff, List.map_append] at distinct
  obtain ⟨within, -, apart⟩ := List.nodup_append.1 distinct
  refine ⟨List.count_eq_one_of_mem within (List.mem_map_of_mem executed), ?_⟩
  intro other member another elsewhere same
  exact apart _ (List.mem_map_of_mem executed) _
    (List.mem_map_of_mem (List.mem_flatMap.2 ⟨other, member, elsewhere⟩)) same.symm

/-- A step of a run performs what it takes, unless it ends the run with a fatal error. -/
theorem Run.performs_of_harmless
    {before : Land σ}
    (run : Run rules start (earlier ++ ⟨before, .step⟩ :: later) land)
    (harmless : later = [] → ∀ error, (before.step rules).result = .error error →
      error.isFatal = false) :
    before.Performs rules before.take.1 (before.step rules) := by
  obtain ⟨upToStep, takes⟩ := run.before
  rcases upToStep.performs_or_breaksOff started takes.1 with performs | breaksOff
  · exact performs
  · exfalso
    by_cases isLast : later = []
    · cases harmless isLast _ breaksOff.result
    · have going := run.going_after isLast
      rw [Passage.after, Land.after, breaksOff.failed] at going
      cases going

end Runs
end Chronicle
