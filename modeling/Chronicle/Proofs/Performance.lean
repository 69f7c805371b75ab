import Chronicle.Proofs.Execution
import Chronicle.Proofs.History

/-!
# What a step performs

A step of a live land has its items handled, one after the other, and then runs the
update.  Its state, its events and its report are what comes of that.  Without
numbers for all events it breaks off, and the land has failed.
-/

namespace Chronicle

open Effect (stateAfter failuresOf)

variable {σ : Type} {rules : Rules σ} {land start : Land σ} {past : List (Passage σ)}
  {config : LandConfig} {created : Timestamp} {initial : σ}

namespace Land

/-- A step has had some items handled, each on the state that the one before has left,
and then it has run the update. -/
structure Performs
    (rules : Rules σ)
    (land : Land σ)
    (items : List Item)
    (stepped : Stepped σ) : Prop where
  state : stepped.land.state =
    stateAfter (rules.handling land.nextTick items ++ [rules.update (.ofTick land.nextTick)])
      land.state
  heard : stepped.heard = rules.events land.nextTick items land.state
  report : stepped.result = .ok
    { tick := land.nextTick
      stateHash := rules.fingerprint stepped.land.state
      executed := items.map (·.sequence)
      failures := failuresOf
        (rules.handling land.nextTick items ++ [rules.update (.ofTick land.nextTick)]) land.state
      serverEvents := TickRun.records land.nextTick land.numbering
        (rules.events land.nextTick items land.state) }

/-- A step has run out of numbers: the items were handled up to the one with the first
event for which there is none, or all of them, and the land has failed. -/
structure BreaksOff
    (rules : Rules σ)
    (land : Land σ)
    (items : List Item)
    (stepped : Stepped σ) : Prop where
  state : rules.StopsShort land.nextTick items land.state land.numbering.room stepped.land.state
  heard : stepped.heard =
    (rules.events land.nextTick items land.state).take land.numbering.room
  result : stepped.result = .error .sequenceOverflow
  failed : stepped.land.failed = true

section Live

variable {queue : Queue} {recorder : Recorder} {resolutions : Nat}
  {metadata : Recording.Metadata} {frames : List Recording.Frame}

/-- With numbers for all events a step performs what it takes. -/
theorem performs_of_room
    (live : land.mode = .live queue recorder resolutions)
    (holds : recorder.Holds metadata frames)
    (continues : Recorder.Continues frames land.nextTick)
    (fits : (rules.events land.nextTick land.take.1 land.state).length ≤ land.numbering.room) :
    land.Performs rules land.take.1 (land.step rules) := by
  have taken : land.take.1 = (queue.drain (land.nextTick + 1)).1 := by rw [take, live]
  rw [taken] at fits ⊢
  have performed := TickRun.performAll_of_room land.nextTick
    (rules.effects land.nextTick (queue.drain (land.nextTick + 1)).1)
    ⟨land.state, land.numbering, [], [], 0⟩ fits
  rcases step_live_cases rules live holds continues with
    ⟨error, run, aborted, -⟩ | ⟨run, after, outcome, ended, rfl, -, stats, stepped⟩
  · rw [performed] at aborted
    cases aborted
  · rw [performed] at ended
    obtain rfl := (Prod.mk.inj ended).2
    rw [stepped]
    constructor <;> simp [TickRun.further, report, Rules.effects_eq]

/-- Without numbers for all events a step breaks off. -/
theorem breaksOff_of_no_room
    (rules : Rules σ)
    (land : Land σ)
    (short : land.numbering.room <
      (rules.events land.nextTick land.take.1 land.state).length) :
    land.BreaksOff rules land.take.1 (land.step rules) := by
  obtain ⟨result, state, -, -, heard⟩ :=
    rules.aborts_of_no_room land.nextTick land.take.1 land.state land.numbering land.ticks short
  unfold step
  dsimp only
  rw [result]
  dsimp only
  rw [note_eq]
  exact ⟨state, heard, rfl, Bool.or_true _⟩

end Live
end Land

section Runs

variable (started : Land.live rules config created initial = .ok start)
  (run : Run rules start past land)
include started run

/-- A step of a run performs what it takes, or it breaks off. -/
theorem Run.performs_or_breaksOff (going : land.failed = false) :
    land.Performs rules land.take.1 (land.step rules) ∨
      land.BreaksOff rules land.take.1 (land.step rules) := by
  obtain ⟨frames, tracks⟩ := run.tracks started
  obtain ⟨queue, recorder, resolutions, live, -, holds⟩ := tracks.mode
  rcases Nat.lt_or_ge land.numbering.room
    (rules.events land.nextTick land.take.1 land.state).length with short | fits
  · exact .inr (land.breaksOff_of_no_room rules short)
  · exact .inl (Land.performs_of_room live holds (tracks.continues going) fits)

/-- As long as no fatal error occurs, every step of a run performs what it takes. -/
theorem Run.performs (going : land.failed = false) :
    ∀ passage ∈ past, passage.operation = .step →
      passage.before.Performs rules passage.before.take.1 (passage.before.step rules) := by
  induction run with
  | nothing => exact fun _ member => absurd member List.not_mem_nil
  | next run takes inductionHypothesis =>
      intro passage member isStep
      rcases List.mem_append.1 member with earlier | last
      · exact inductionHypothesis takes.1 passage earlier isStep
      · obtain rfl := List.mem_singleton.1 last
        obtain rfl := isStep
        rcases run.performs_or_breaksOff started takes.1 with performs | breaksOff
        · exact performs
        · exact absurd breaksOff.failed (Bool.eq_false_iff.1 going)

end Runs
end Chronicle
