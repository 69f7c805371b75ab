import Chronicle.Land.Held
import Chronicle.Ledger
import Chronicle.Proofs.Effect

/-!
# A tick from end to end

The effects of a tick are performed one after the other, each on the state that
the one before has left, whether that one has failed or not.  What they emit is
published in the same order under one number after the other.  A tick comes to
its end exactly when there are numbers for everything that it emits; otherwise it
stops behind the effect with the first event for which there is none.
-/

namespace Chronicle

namespace Numbering

variable {numbering : Numbering} {count : Nat}

/-- How many numbers are still to be issued. -/
def room (numbering : Numbering) : Nat := limit.toNat - numbering.next.toNat

/-- The counter after it has issued some numbers. -/
def advance (numbering : Numbering) (count : Nat) : Numbering :=
  ⟨.ofNat (numbering.next.toNat + count)⟩

theorem next_add_room (numbering : Numbering) :
    numbering.next.toNat + numbering.room = limit.toNat := by
  have bound : numbering.next.toNat < 18446744073709551616 := numbering.next.toNat_lt
  have isLimit : limit.toNat = 18446744073709551615 := rfl
  rw [room]
  omega

theorem toNat_advance (fits : count ≤ numbering.room) :
    (numbering.advance count).next.toNat = numbering.next.toNat + count := by
  have within := numbering.next_add_room
  have isLimit : limit.toNat = 18446744073709551615 := rfl
  exact UInt64.toNat_ofNat_of_lt' (by rw [UInt64.size]; omega)

theorem room_advance (fits : count ≤ numbering.room) :
    (numbering.advance count).room = numbering.room - count := by
  rw [room, toNat_advance fits, room, Nat.sub_sub]

theorem advance_advance (fits : count ≤ numbering.room) (more : Nat) :
    (numbering.advance count).advance more = numbering.advance (count + more) := by
  rw [advance, toNat_advance fits, advance, Nat.add_assoc]

/-- A counter issues its next number, unless none is left. -/
theorem issue_eq (numbering : Numbering) :
    numbering.issue =
      if numbering.room = 0 then .error .sequenceOverflow
      else .ok (numbering.next, numbering.advance 1) := by
  have within := numbering.next_add_room
  cases result : numbering.issue with
  | error error =>
      obtain ⟨reached, rfl⟩ := issue_eq_error_iff.1 result
      rw [if_pos (by rw [room, reached, Nat.sub_self])]
  | ok pair =>
      obtain ⟨sequence, after⟩ := pair
      obtain ⟨below, rfl, successor⟩ := issue_eq_ok_iff.1 result
      have notFull : numbering.room ≠ 0 := fun full => below (UInt64.toNat_inj.1 (by omega))
      rw [if_neg notFull, advance, ← successor, UInt64.ofNat_toNat]

end Numbering

namespace Effect

variable {σ : Type}

/-- Performs effects one after the other, each on the state that the one before
has left, whatever came of it. -/
def performEach : List (Effect σ Unit) → σ → List (Except LandError Unit × Scene σ)
  | [], _ => []
  | effect :: rest, state =>
      effect.perform state :: performEach rest (effect.perform state).2.state

/-- The events that effects emit in order, also those that one of them emits
before it fails. -/
def emittedBy (effects : List (Effect σ Unit)) (state : σ) : List Event :=
  (performEach effects state).flatMap (·.2.emitted)

/-- The number of the effects that fail. -/
def failuresOf (effects : List (Effect σ Unit)) (state : σ) : Nat :=
  (performEach effects state).countP fun performed => !performed.1.isOk

section Lists

variable (effects others : List (Effect σ Unit)) (state : σ)

theorem stateAfter_append :
    stateAfter (effects ++ others) state = stateAfter others (stateAfter effects state) :=
  List.foldl_append

theorem performEach_append :
    performEach (effects ++ others) state =
      performEach effects state ++ performEach others (stateAfter effects state) := by
  induction effects generalizing state with
  | nil => rfl
  | cons effect rest inductionHypothesis =>
      exact congrArg (effect.perform state :: ·) (inductionHypothesis _)

theorem emittedBy_append :
    emittedBy (effects ++ others) state =
      emittedBy effects state ++ emittedBy others (stateAfter effects state) := by
  rw [emittedBy, performEach_append, List.flatMap_append, emittedBy, emittedBy]

theorem failuresOf_append :
    failuresOf (effects ++ others) state =
      failuresOf effects state + failuresOf others (stateAfter effects state) := by
  rw [failuresOf, performEach_append, List.countP_append, failuresOf, failuresOf]

end Lists

end Effect

namespace TickRun

open Effect (stateAfter emittedBy failuresOf)

variable {σ : Type} {tick : Tick} {run : TickRun σ}

/-- The records of events that are published in a tick, with the numbers from a
counter on. -/
def records (tick : Tick) (first : Numbering) (events : List Event) :
    List Recording.ServerEvent :=
  (events.zipIdx first.next.toNat).map fun entry => record tick (.ofNat entry.2) entry.1

theorem records_append {first : Numbering} {events : List Event}
    (fits : events.length ≤ first.room) (others : List Event) :
    records tick first (events ++ others) =
      records tick first events ++ records tick (first.advance events.length) others := by
  rw [records, List.zipIdx_append, List.map_append, records, records,
    Numbering.toNat_advance fits]

/-- A tick in which some more effects were performed and some events published. -/
def further (tick : Tick) (run : TickRun σ) (effects : List (Effect σ Unit))
    (events : List Event) : TickRun σ where
  state := stateAfter effects run.state
  numbering := run.numbering.advance events.length
  recorded := run.recorded ++ records tick run.numbering events
  heard := run.heard ++ events
  failures := run.failures + failuresOf effects run.state

theorem further_nil : further tick run [] [] = run := by
  simp [further, Numbering.advance, records, stateAfter, failuresOf, Effect.performEach]

theorem further_further
    {events : List Event}
    (fits : events.length ≤ run.numbering.room)
    (effects more : List (Effect σ Unit))
    (others : List Event) :
    further tick (further tick run effects events) more others =
      further tick run (effects ++ more) (events ++ others) := by
  simp only [further, Effect.stateAfter_append, Effect.failuresOf_append, records_append fits,
    Numbering.advance_advance fits, List.length_append, List.append_assoc, Nat.add_assoc]

/-- What is published takes its numbers from those that are left. -/
theorem room_further
    {events : List Event}
    (fits : events.length ≤ run.numbering.room)
    (effects : List (Effect σ Unit)) :
    (further tick run effects events).numbering.room = run.numbering.room - events.length :=
  Numbering.room_advance fits

/-- Events are published as long as there are numbers for them. -/
theorem publish_eq (run : TickRun σ) (events : List Event) :
    publish tick run events =
      (if events.length ≤ run.numbering.room then .ok () else .error .sequenceOverflow,
        further tick run [] (events.take run.numbering.room)) := by
  induction events generalizing run with
  | nil => simp [publish, further_nil]
  | cons event rest inductionHypothesis =>
      rw [publish, Numbering.issue_eq]
      by_cases full : run.numbering.room = 0
      · simp [full, further_nil]
      · obtain ⟨left, isLeft⟩ := Nat.exists_eq_add_one_of_ne_zero full
        have one : [event].length ≤ run.numbering.room := by simp [isLeft]
        have first : withEvent tick run event run.numbering.next (run.numbering.advance 1) =
            further tick run [] [event] := by
          simp [further, records, stateAfter, failuresOf, Effect.performEach]
        have room : (further tick run [] [event]).numbering.room = left := by
          rw [room_further one, isLeft]
          exact Nat.add_sub_cancel _ _
        rw [if_neg full]
        change publish tick (withEvent tick run event run.numbering.next _) rest = _
        rw [first, inductionHypothesis, room, further_further one, isLeft,
          List.take_succ_cons, List.singleton_append, List.length_cons]
        simp only [Nat.add_le_add_iff_right, List.append_nil]

/-- The events of one effect are published as long as there are numbers for
them. -/
theorem perform_eq (run : TickRun σ) (effect : Effect σ Unit) :
    run.perform tick effect =
      (if (emittedBy [effect] run.state).length ≤ run.numbering.room then .ok ()
        else .error .sequenceOverflow,
        further tick run [effect]
          ((emittedBy [effect] run.state).take run.numbering.room)) := by
  have emitted : emittedBy [effect] run.state = (effect.perform run.state).2.emitted :=
    List.append_nil _
  have failed : failuresOf [effect] run.state =
      if (effect.perform run.state).1.isOk then 0 else 1 := by
    rw [failuresOf, Effect.performEach, Effect.performEach, List.countP_singleton]
    cases (effect.perform run.state).1 <;> rfl
  have left : stateAfter [effect] run.state = (effect.perform run.state).2.state := rfl
  rw [perform, emitted, further, failed, left]
  obtain ⟨result, scene⟩ := effect.perform run.state
  cases result <;> exact publish_eq _ _

/-- With numbers for everything that they emit, all effects are performed. -/
theorem performAll_of_room
    (tick : Tick)
    (effects : List (Effect σ Unit))
    (run : TickRun σ)
    (fits : (emittedBy effects run.state).length ≤ run.numbering.room) :
    performAll tick run effects =
      (.ok (), further tick run effects (emittedBy effects run.state)) := by
  induction effects generalizing run with
  | nil => rw [performAll, emittedBy, Effect.performEach, List.flatMap_nil, further_nil]
  | cons effect rest inductionHypothesis =>
      have parts : emittedBy (effect :: rest) run.state =
          emittedBy [effect] run.state ++ emittedBy rest (stateAfter [effect] run.state) :=
        Effect.emittedBy_append [effect] rest run.state
      rw [parts, List.length_append] at fits
      have first : (emittedBy [effect] run.state).length ≤ run.numbering.room := by omega
      let next := further tick run [effect] (emittedBy [effect] run.state)
      have later : (emittedBy rest next.state).length ≤ next.numbering.room := by
        rw [room_further first]
        exact Nat.le_sub_of_add_le' fits
      rw [performAll, perform_eq, if_pos first, List.take_of_length_le first]
      refine (inductionHypothesis next later).trans ?_
      rw [further_further first, parts]
      rfl

/-- Without numbers for everything that they emit, the effects up to the one with
the first event that has none are performed. -/
theorem performAll_of_no_room
    (tick : Tick)
    (effects : List (Effect σ Unit))
    (run : TickRun σ)
    (short : run.numbering.room < (emittedBy effects run.state).length) :
    ∃ before effect after,
      effects = before ++ effect :: after ∧
      (emittedBy before run.state).length ≤ run.numbering.room ∧
      run.numbering.room < (emittedBy (before ++ [effect]) run.state).length ∧
      performAll tick run effects =
        (.error .sequenceOverflow,
          further tick run (before ++ [effect])
            ((emittedBy effects run.state).take run.numbering.room)) := by
  induction effects generalizing run with
  | nil => exact absurd short (Nat.not_lt_zero _)
  | cons effect rest inductionHypothesis =>
      have parts (others : List (Effect σ Unit)) : emittedBy (effect :: others) run.state =
          emittedBy [effect] run.state ++ emittedBy others (stateAfter [effect] run.state) :=
        Effect.emittedBy_append [effect] others run.state
      rw [parts] at short ⊢
      by_cases first : (emittedBy [effect] run.state).length ≤ run.numbering.room
      · let next := further tick run [effect] (emittedBy [effect] run.state)
        have room : next.numbering.room = run.numbering.room - _ := room_further first _
        rw [List.length_append] at short
        obtain ⟨before, last, after, rfl, fits, exceeds, performed⟩ :=
          inductionHypothesis next (by
            rw [room]
            exact Nat.sub_lt_left_of_lt_add first short)
        rw [room] at fits exceeds performed
        refine ⟨effect :: before, last, after, rfl, ?_, ?_, ?_⟩
        · rw [parts, List.length_append]
          exact Nat.add_le_of_le_sub' first fits
        · rw [List.cons_append, parts, List.length_append]
          exact (Nat.sub_lt_iff_lt_add' first).1 exceeds
        · rw [performAll, perform_eq, if_pos first, List.take_of_length_le first]
          refine performed.trans ?_
          rw [further_further first, List.take_append, List.take_of_length_le first]
          rfl
      · refine ⟨[], effect, rest, rfl, Nat.zero_le _, Nat.lt_of_not_le first, ?_⟩
        rw [performAll, perform_eq, if_neg first,
          List.take_append_of_le_length (Nat.le_of_not_le first)]
        rfl

end TickRun

namespace Rules

open Effect (stateAfter emittedBy failuresOf)

variable {σ : Type} {rules : Rules σ} {tick : Tick} {items : List Item} {start : σ}
  {first : Numbering}

/-- What the handlers of items do, in the order of the items. -/
def handling (rules : Rules σ) (tick : Tick) (items : List Item) : List (Effect σ Unit) :=
  items.map fun item => rules.registry.dispatch (.ofItem tick item) item

/-- The events of a tick: those that the handlers emit, item by item, and then
those of the update. -/
abbrev events (rules : Rules σ) (tick : Tick) (items : List Item) (start : σ) : List Event :=
  emittedBy (rules.handling tick items ++ [rules.update (.ofTick tick)]) start

/-- A tick has come to its end: every handler and then the update has run, and all
that they have emitted is numbered from the first number on, recorded and heard. -/
structure Completes
    (rules : Rules σ)
    (tick : Tick)
    (items : List Item)
    (start : σ)
    (first : Numbering)
    (totals : TickStats)
    (executed : ExecutedTick σ) : Prop where
  result : executed.result = .ok
    { tick := tick
      executed := items
      serverEvents := TickRun.records tick first (rules.events tick items start)
      failures := failuresOf (rules.handling tick items ++ [rules.update (.ofTick tick)]) start }
  state : executed.state =
    stateAfter (rules.handling tick items ++ [rules.update (.ofTick tick)]) start
  numbering : executed.numbering.next.toNat =
    first.next.toNat + (rules.events tick items start).length
  stats : executed.stats =
    { ticks := totals.ticks + 1
      items := totals.items + items.length
      failures := totals.failures +
        failuresOf (rules.handling tick items ++ [rules.update (.ofTick tick)]) start
      events := totals.events + (rules.events tick items start).length }
  heard : executed.heard = rules.events tick items start

/-- The handlers up to that of the item with the first event for which no number is
left have run, or all of them and the update, when it is an event of the update. -/
def StopsShort
    (rules : Rules σ)
    (tick : Tick)
    (items : List Item)
    (start : σ)
    (room : Nat)
    (state : σ) : Prop :=
  (∃ before item after, items = before ++ item :: after ∧
    (emittedBy (rules.handling tick before) start).length ≤ room ∧
    room < (emittedBy (rules.handling tick (before ++ [item])) start).length ∧
    state = stateAfter (rules.handling tick (before ++ [item])) start) ∨
  ((emittedBy (rules.handling tick items) start).length ≤ room ∧
    state = stateAfter (rules.handling tick items ++ [rules.update (.ofTick tick)]) start)

/-- A tick was aborted for a lack of numbers: the events that there were numbers for
were heard, and of the totals only theirs has changed. -/
structure Aborts
    (rules : Rules σ)
    (tick : Tick)
    (items : List Item)
    (start : σ)
    (first : Numbering)
    (totals : TickStats)
    (executed : ExecutedTick σ) : Prop where
  result : executed.result = .error .sequenceOverflow
  state : rules.StopsShort tick items start first.room executed.state
  numbering : executed.numbering.next = Numbering.limit
  stats : executed.stats = { totals with events := totals.events + first.room }
  heard : executed.heard = (rules.events tick items start).take first.room

/-- The effects that a tick performs are what its handlers do and then the update. -/
theorem effects_eq (rules : Rules σ) (tick : Tick) (items : List Item) :
    rules.effects tick items = rules.handling tick items ++ [rules.update (.ofTick tick)] := rfl

/-- A tick with numbers for all of its events comes to its end. -/
theorem completes_of_room
    (rules : Rules σ)
    (tick : Tick)
    (items : List Item)
    (start : σ)
    (first : Numbering)
    (totals : TickStats)
    (fits : (rules.events tick items start).length ≤ first.room) :
    rules.Completes tick items start first totals
      (rules.execute tick items start first totals) := by
  have performed := TickRun.performAll_of_room tick
    (rules.handling tick items ++ [rules.update (.ofTick tick)]) ⟨start, first, [], [], 0⟩ fits
  have numbered := Numbering.toNat_advance fits
  unfold execute
  rw [effects_eq, performed]
  constructor
  · simp [TickRun.further]
  · simp [TickRun.further]
  · simpa [TickRun.further] using numbered
  · simp [TickRun.further, TickRun.records]
  · simp [TickRun.further]

/-- Effects of a tick that stop at one of them stop at the handler of an item or at
the update. -/
theorem stopsShort_of_parts
    {before after : List (Effect σ Unit)}
    {effect : Effect σ Unit}
    {room : Nat}
    (parts : rules.handling tick items ++ [rules.update (.ofTick tick)] =
      before ++ effect :: after)
    (fits : (emittedBy before start).length ≤ room)
    (exceeds : room < (emittedBy (before ++ [effect]) start).length) :
    rules.StopsShort tick items start room (stateAfter (before ++ [effect]) start) := by
  rcases List.eq_nil_or_concat after with rfl | ⟨others, last, rfl⟩
  · obtain ⟨rfl, update⟩ := List.append_inj' parts rfl
    obtain rfl := List.singleton_inj.1 update
    exact .inr ⟨fits, rfl⟩
  · rw [List.concat_eq_append, ← List.cons_append, ← List.append_assoc] at parts
    obtain ⟨handled, rest, rfl, rfl, others⟩ :=
      List.map_eq_append_iff.1 (List.append_inj' parts rfl).1
    obtain ⟨item, later, rfl, rfl, -⟩ := List.map_eq_cons_iff.1 others
    refine .inl ⟨handled, item, later, rfl, fits, ?_, ?_⟩
    · rwa [handling, List.map_append]
    · rw [handling, List.map_append]
      rfl

/-- A tick without numbers for all of its events is aborted. -/
theorem aborts_of_no_room
    (rules : Rules σ)
    (tick : Tick)
    (items : List Item)
    (start : σ)
    (first : Numbering)
    (totals : TickStats)
    (short : first.room < (rules.events tick items start).length) :
    rules.Aborts tick items start first totals
      (rules.execute tick items start first totals) := by
  obtain ⟨before, effect, after, parts, fits, exceeds, performed⟩ :=
    TickRun.performAll_of_no_room tick
      (rules.handling tick items ++ [rules.update (.ofTick tick)])
      ⟨start, first, [], [], 0⟩ short
  have published : ((rules.events tick items start).take first.room).length = first.room := by
    rw [List.length_take]
    exact Nat.min_eq_left (Nat.le_of_lt short)
  unfold execute
  rw [effects_eq, performed]
  constructor
  · rfl
  · exact stopsShort_of_parts parts fits exceeds
  · refine UInt64.toNat_inj.1 ?_
    change (first.advance ((rules.events tick items start).take first.room).length).next.toNat = _
    rw [published, Numbering.toNat_advance (Nat.le_refl _), first.next_add_room]
  · simp [TickRun.further, TickRun.records, published]
  · simp [TickRun.further]

/-- A tick that has an outcome has come to its end. -/
theorem completes_of_result
    {totals : TickStats}
    {outcome : TickOutcome}
    (ended : (rules.execute tick items start first totals).result = .ok outcome) :
    rules.Completes tick items start first totals
      (rules.execute tick items start first totals) := by
  rcases Nat.lt_or_ge first.room (rules.events tick items start).length with short | fits
  · rw [(aborts_of_no_room rules tick items start first totals short).result] at ended
    cases ended
  · exact completes_of_room rules tick items start first totals fits

end Rules

/-- A tick that was executed to its end, and the state that it began in. -/
structure Execution (σ : Type) where
  before : σ
  outcome : TickOutcome

/-- Ticks that are executed to their ends one after the other, from a state and a
counter on.  The counter may go on in between, for what is submitted. -/
inductive Rules.Executes {σ : Type} (rules : Rules σ) (initial : σ) (first : Numbering) :
    List (Execution σ) → σ → Numbering → Prop
  | begins : Executes rules initial first [] initial first
  | numbered {past : List (Execution σ)} {state : σ} {numbering later : Numbering}
      (older : Executes rules initial first past state numbering)
      (behind : numbering.Behind later) :
      Executes rules initial first past state later
  | executed {past : List (Execution σ)} {state : σ} {numbering : Numbering} {tick : Tick}
      {items : List Item} {totals : TickStats} {outcome : TickOutcome}
      (older : Executes rules initial first past state numbering)
      (ended : (rules.execute tick items state numbering totals).result = .ok outcome) :
      Executes rules initial first (past ++ [⟨state, outcome⟩])
        (rules.execute tick items state numbering totals).state
        (rules.execute tick items state numbering totals).numbering

/-- The events of ticks take their numbers from the counter that the ticks began with. -/
theorem Rules.Executes.length_serverEvents
    {σ : Type}
    {rules : Rules σ}
    {initial state : σ}
    {first numbering : Numbering}
    {past : List (Execution σ)}
    (executes : rules.Executes initial first past state numbering) :
    first.next.toNat + (past.flatMap (·.outcome.serverEvents)).length ≤
      numbering.next.toNat := by
  induction executes with
  | begins => exact Nat.le_refl _
  | numbered older behind inductionHypothesis => exact Nat.le_trans inductionHypothesis behind
  | @executed past state numbering tick items totals outcome older ended inductionHypothesis =>
      have completes := completes_of_result ended
      obtain rfl := Except.ok.inj (ended.symm.trans completes.result)
      rw [completes.numbering, List.flatMap_append, List.length_append, ← Nat.add_assoc]
      refine Nat.add_le_add inductionHypothesis (Nat.le_of_eq ?_)
      simp [TickRun.records]

section Listening

variable {σ : Type}

/-- A step hears what its tick has let be heard, also when the tick was aborted or
its record refused. -/
theorem Land.heard_step (rules : Rules σ) (land : Land σ) :
    (land.step rules).heard =
      (rules.execute land.nextTick land.take.1 land.state land.numbering land.ticks).heard := by
  unfold step
  dsimp only
  split
  · rfl
  · split <;> rfl

/-- The next step of a land executes a tick. -/
structure HeldLand.Faces
    (held : HeldLand σ)
    (tick : Tick)
    (items : List Item)
    (start : σ)
    (first : Numbering)
    (totals : TickStats) : Prop where
  tick : held.land.nextTick = tick
  items : held.land.take.1 = items
  state : held.land.state = start
  numbering : held.land.numbering = first
  totals : held.land.ticks = totals

/-- The listener of a held land is given the number of the tick with every event. -/
theorem HeldLand.Faces.heard
    {rules : Rules σ}
    {held : HeldLand σ}
    {tick : Tick}
    {items : List Item}
    {start : σ}
    {first : Numbering}
    {totals : TickStats}
    (faces : held.Faces tick items start first totals) :
    (held.step rules).2.heard.toList =
      held.heard.toList ++
        (rules.execute tick items start first totals).heard.map fun event => (tick, event) := by
  obtain ⟨rfl, rfl, rfl, rfl, rfl⟩ := faces
  rw [← Land.heard_step]
  exact Log.toList_append _ _

end Listening

/-- Whatever the items of a tick are and whatever their handlers do, a tick with
numbers for all events of the handlers and of the update comes to its end, and any
other one is aborted at the first event for which there is none.  A listener hears
the events in order, each with the number of the tick. -/
theorem execute_completes_or_aborts
    {σ : Type}
    (rules : Rules σ)
    (tick : Tick)
    (items : List Item)
    (start : σ)
    (first : Numbering)
    (totals : TickStats) :
    let executed := rules.execute tick items start first totals
    (if first.next.toNat + (rules.events tick items start).length ≤ Numbering.limit.toNat then
      rules.Completes tick items start first totals executed
    else rules.Aborts tick items start first totals executed) ∧
    ∀ held : HeldLand σ, held.Faces tick items start first totals →
      (held.step rules).2.heard.toList =
        held.heard.toList ++ executed.heard.map fun event => (tick, event) := by
  have room := first.next_add_room
  refine ⟨?_, fun held faces => faces.heard⟩
  split
  · exact rules.completes_of_room tick items start first totals (by omega)
  · exact rules.aborts_of_no_room tick items start first totals (by omega)

/-- On a ledger a request gets stuck behind its event, a sum and a note are added, and the
update fails behind the event of a milestone.  With three numbers left the tick comes to its
end.  With two the milestone is not announced, and with one the sum is added but not
announced, and the note is not taken. -/
theorem execute_completes_or_aborts_of_jam :
    let rules := Ledger.rules { milestone := 1, failTick := some 0 }
    let jam : Inbound := .action "Jam" (.object [("keys", .ofInt64 5)]) .nobody
    let add : Inbound := .action "Add" (.object [("amount", .ofInt64 2)]) .nobody
    let note : Inbound := .action "Note" (.object [("text", .string "late")]) .nobody
    let items : List Item :=
      [(jam.submission 0).resolve ∅ 0, (add.submission 1).resolve ∅ 0,
        (note.submission 2).resolve ∅ 0]
    let last (count : Sequence) : Numbering := ⟨Numbering.limit - count⟩
    let executed (count : Sequence) := rules.execute 0 items {} (last count) {}
    (rules.Completes 0 items {} (last 3) {} (executed 3) ∧
      (executed 3).state = { entries := [(0, "late")], total := 7 } ∧
      (executed 3).heard.map (·.type) = ["Jammed", "Add", "Milestone"] ∧
      (executed 3).stats = { ticks := 1, items := 3, failures := 2, events := 3 }) ∧
    (rules.Aborts 0 items {} (last 2) {} (executed 2) ∧
      (executed 2).state = { entries := [(0, "late")], total := 7 } ∧
      (executed 2).heard.map (·.type) = ["Jammed", "Add"] ∧
      (executed 2).stats = { events := 2 }) ∧
    (rules.Aborts 0 items {} (last 1) {} (executed 1) ∧
      (executed 1).state = { total := 7 } ∧
      (executed 1).heard.map (·.type) = ["Jammed"] ∧
      (executed 1).stats = { events := 1 }) ∧
    ∃ held : HeldLand Ledger.State,
      held.Faces 0 items {} ⟨3⟩ {} ∧
      (held.step rules).2.heard.toList = held.heard.toList ++
        (rules.execute 0 items {} ⟨3⟩ {}).heard.map fun event => (0, event) := by
  intro rules jam add note items last executed
  have whole := (execute_completes_or_aborts rules 0 items {} (last 3) {}).1
  have atUpdate := (execute_completes_or_aborts rules 0 items {} (last 2) {}).1
  have atHandler := (execute_completes_or_aborts rules 0 items {} (last 1) {}).1
  rw [if_pos (by decide +kernel)] at whole
  rw [if_neg (by decide +kernel)] at atUpdate atHandler
  obtain ⟨land, started⟩ : ∃ land : Land Ledger.State,
      Land.live rules { landId := "books", landType := "ledger" } .epoch {} = .ok land := ⟨_, rfl⟩
  let held : HeldLand Ledger.State :=
    [jam, add, note].foldl (fun held inbound => (held.submit rules inbound).2) { land := land }
  have faces : held.Faces 0 items {} ⟨3⟩ {} := by
    obtain rfl := Except.ok.inj started
    constructor <;> decide +kernel
  exact ⟨⟨whole, by decide +kernel⟩, ⟨atUpdate, by decide +kernel⟩,
    ⟨atHandler, by decide +kernel⟩, held, faces,
    (execute_completes_or_aborts rules 0 items {} ⟨3⟩ {}).2 held faces⟩

end Chronicle
