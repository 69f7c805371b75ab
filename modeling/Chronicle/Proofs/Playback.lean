import Chronicle.Proofs.Frame
import Chronicle.Proofs.Loadable
import Chronicle.Proofs.Refusal

/-!
# Playing a recording back

The items of a tick are recorded in three lists, by their kinds.  The lists give back
what was submitted, and put in order they are what was executed.  Nothing that is
checked about a recording keeps two of its items from having one place in the order,
and only then do the items of a tick not ascend.
-/

namespace Chronicle

/-! ## What a record gives back -/

/-- An item that somebody has submitted, as it is when its resolvers are done. -/
def Item.Submitted (item : Item) : Prop :=
  ∃ (inbound : Inbound) (sequence : Sequence) (outputs : ResolverOutputs) (resolvedAt : Tick),
    item = (inbound.submission sequence).resolve outputs resolvedAt

/-- A record gives back the whole of an item that was submitted. -/
theorem Item.Submitted.asRecorded
    {item : Item}
    (submitted : item.Submitted)
    (tick : Tick) :
    item.asRecorded tick = item := by
  obtain ⟨inbound, sequence, outputs, resolvedAt, rfl⟩ := submitted
  cases inbound <;> rfl

/-! ## Places -/

/-- The places that the items of a frame have in the order of execution. -/
def Recording.Frame.places (frame : Recording.Frame) : List OrderKey :=
  frame.records.map fun record => ⟨record.resolvedAt, record.sequence⟩

/-- A record gives its item back in its place. -/
theorem ItemRecord.orderKey_toItem (record : ItemRecord) :
    record.toItem.orderKey = ⟨record.resolvedAt, record.sequence⟩ := by
  cases record <;> rfl

namespace Source

variable {recording : Recording} {source : Source} {tick : Tick} {frame : Recording.Frame}

theorem map_orderKey_frameItems (frame : Recording.Frame) :
    (frameItems frame).map Item.orderKey = frame.places := by
  rw [frameItems_eq, List.map_map, Recording.Frame.places]
  exact List.map_congr_left fun record _ => record.orderKey_toItem

/-- Items ascend when they are put in order, unless two of them have one place. -/
theorem pairwise_inOrder_iff (items : List Item) :
    (inOrder items).Pairwise Item.Precedes ↔ (items.map Item.orderKey).Nodup := by
  rw [← ((inOrder_perm items).map Item.orderKey).nodup_iff, List.Nodup, List.pairwise_map]
  constructor
  · exact fun ascending => ascending.imp Item.Precedes.orderKey_ne
  · intro distinct
    refine ((pairwise_inOrder items).and distinct).imp fun ⟨below, different⟩ => ?_
    exact (Ordering.isLE_iff_eq_lt_or_eq_eq.1 below).resolve_right
      fun same => different (Std.LawfulEqOrd.eq_of_compare same)

/-- The frame of a tick is the frame of the recording with its number. -/
theorem frame?_eq_some_iff
    (accepted : ofRecording recording = .ok source)
    (fits : recording.frames.length ≤ UInt64.size) :
    source.frame? tick = some frame ↔ frame ∈ recording.frames ∧ frame.tick = tick := by
  have valid := (exists_ofRecording_iff recording).1 ⟨source, accepted⟩
  obtain ⟨numbered, -⟩ := Recording.of_validate valid fits
  rw [ofRecording, valid] at accepted
  obtain rfl := Except.ok.inj accepted
  rw [frame?, Dict.get?_eq_some_iff, Dict.entries_ofList numbered.ascending, List.mem_map]
  constructor
  · rintro ⟨found, member, same⟩
    obtain ⟨rfl, rfl⟩ := Prod.mk.inj same
    exact ⟨member, rfl⟩
  · rintro ⟨member, rfl⟩
    exact ⟨frame, member, rfl⟩

/-- The items of a frame of the recording, put in order. -/
theorem items_of_mem
    (accepted : ofRecording recording = .ok source)
    (fits : recording.frames.length ≤ UInt64.size)
    (member : frame ∈ recording.frames) :
    source.items frame.tick = inOrder (frameItems frame) := by
  rw [items, (frame?_eq_some_iff accepted fits).2 ⟨member, rfl⟩]

/-- A tick without a frame has no items. -/
theorem items_of_no_frame
    (accepted : ofRecording recording = .ok source)
    (fits : recording.frames.length ≤ UInt64.size)
    (unrecorded : ∀ frame ∈ recording.frames, frame.tick ≠ tick) :
    source.items tick = [] := by
  rw [items]
  split
  · rename_i frame found
    obtain ⟨member, same⟩ := (frame?_eq_some_iff accepted fits).1 found
    exact absurd same (unrecorded frame member)
  · rfl

/-- The items of a tick ascend exactly when no two items of its frame have one
place. -/
theorem pairwise_items_iff
    (accepted : ofRecording recording = .ok source)
    (fits : recording.frames.length ≤ UInt64.size) :
    (source.items tick).Pairwise Item.Precedes ↔
      ∀ frame ∈ recording.frames, frame.tick = tick → frame.places.Nodup := by
  by_cases recorded : ∃ frame ∈ recording.frames, frame.tick = tick
  · obtain ⟨frame, member, rfl⟩ := recorded
    rw [items_of_mem accepted fits member, pairwise_inOrder_iff, map_orderKey_frameItems]
    constructor
    · intro distinct other inside same
      have found := (frame?_eq_some_iff accepted fits).2 ⟨inside, same⟩
      rw [(frame?_eq_some_iff accepted fits).2 ⟨member, rfl⟩] at found
      exact Option.some.inj found ▸ distinct
    · exact fun distinct => distinct frame member rfl
  · rw [items_of_no_frame accepted fits fun frame member same => recorded ⟨frame, member, same⟩]
    exact iff_of_true .nil fun frame member same => absurd ⟨frame, member, same⟩ recorded

end Source

/-! ## What was executed -/

/-- The source of a valid recording gives back the items of a tick just as they were
executed, whatever their kinds, if they were submitted and executed in order.  Of other
ticks it has no items. -/
theorem executed_items_read_back
    {recording : Recording}
    (valid : recording.validate = .ok ())
    (fits : recording.frames.length ≤ UInt64.size) :
    ∃ source,
      Source.ofRecording recording = .ok source ∧
        (∀ (outcome : TickOutcome) (stateHash : Option String),
          outcome.toFrame stateHash ∈ recording.frames →
          outcome.executed.Pairwise Item.Precedes →
          (∀ item ∈ outcome.executed, item.Submitted) →
            source.items outcome.tick = outcome.executed) ∧
        ∀ tick, (∀ frame ∈ recording.frames, frame.tick ≠ tick) → source.items tick = [] := by
  obtain ⟨source, accepted⟩ := (Source.exists_ofRecording_iff recording).2 valid
  refine ⟨source, accepted, fun outcome stateHash member ordered submitted => ?_,
    fun tick unrecorded => Source.items_of_no_frame accepted fits unrecorded⟩
  have given : source.items outcome.tick = _ := Source.items_of_mem accepted fits member
  rw [given, Source.inOrder_frameItems_toFrame outcome stateHash ordered]
  exact (List.map_congr_left fun item executed => (submitted item executed).asRecorded _).trans
    (List.map_id _)

/-- A join that was ready a tick before, a client event, an action and a leave are read
back in the order in which they were executed. -/
theorem executed_items_read_back_of_mixture :
    let actor : Actor := .ofIds "p1" "c1" "s1"
    let item (sequence : Sequence) (inbound : Inbound) (outputs : ResolverOutputs)
        (resolvedAt : Tick) : Item := (inbound.submission sequence).resolve outputs resolvedAt
    let executed : List Item :=
      [item 3 (.lifecycle .join actor { device := some "phone", guest := some true })
          ((∅ : ResolverOutputs).insert "stamp" ⟨"Stamp", .string "in"⟩) 0,
        item 1 (.clientEvent "Ping" (.object [("n", .ofInt64 2)]) actor) ∅ 1,
        item 2 (.action "Note" (.object [("text", .string "a")]) actor) ∅ 1,
        item 4 (.lifecycle .leave actor {}) ∅ 1]
    let outcome : TickOutcome := ⟨1, executed, [], 0⟩
    let recording : Recording :=
      ⟨({ landId := "books", landType := "ledger" } : LandConfig).recordingMetadata .epoch none,
        [{ tick := 0 }, outcome.toFrame (some "h")]⟩
    ∃ source,
      Source.ofRecording recording = .ok source ∧
        source.items 1 = executed ∧
        source.items 2 = [] := by
  intro actor item executed outcome recording
  obtain ⟨source, accepted, same, none⟩ :=
    executed_items_read_back (show recording.validate = .ok () from rfl) (by decide +kernel)
  refine ⟨source, accepted, same outcome (some "h") ?_ ?_ ?_, none 2 ?_⟩
  · simp [recording]
  · decide +kernel
  · simp only [outcome, executed, List.forall_mem_cons]
    exact ⟨⟨_, _, _, _, rfl⟩, ⟨_, _, _, _, rfl⟩, ⟨_, _, _, _, rfl⟩, ⟨_, _, _, _, rfl⟩,
      List.forall_mem_nil _⟩
  · decide +kernel

/-! ## Items that ascend -/

/-- Items that were executed in order were recorded in different places. -/
theorem TickOutcome.nodup_places
    {outcome : TickOutcome}
    (ordered : outcome.executed.Pairwise Item.Precedes)
    (stateHash : Option String) :
    (outcome.toFrame stateHash).places.Nodup := by
  rw [← Source.map_orderKey_frameItems, ← Source.pairwise_inOrder_iff,
    Source.inOrder_frameItems_toFrame outcome stateHash ordered]
  exact Item.pairwise_asRecorded outcome.tick ordered

/-- No two items of an executed tick are recorded in one place. -/
theorem History.nodup_places
    {σ : Type}
    {rules : Rules σ}
    {initial state : σ}
    {frames : List Recording.Frame}
    {reports : List TickReport}
    {numbering : Numbering}
    (history : History rules initial frames reports state numbering) :
    ∀ frame ∈ frames, frame.places.Nodup := by
  induction history with
  | begins => exact List.forall_mem_nil _
  | numbered _ _ inductionHypothesis => exact inductionHypothesis
  | executed _ _ _ ordered _ _ _ inductionHypothesis =>
      rw [List.forall_mem_append, List.forall_mem_singleton]
      exact ⟨inductionHypothesis, TickOutcome.nodup_places ordered _⟩

/-- The recording of a live land has no two items of a tick in one place. -/
theorem Run.nodup_places
    {σ : Type}
    {rules : Rules σ}
    {config : LandConfig}
    {created : Timestamp}
    {initial : σ}
    {start land : Land σ}
    {past : List (Passage σ)}
    (started : Land.live rules config created initial = .ok start)
    (run : Run rules start past land) :
    ∃ recording, land.recording? = some recording ∧
      ∀ frame ∈ recording.frames, frame.places.Nodup := by
  obtain ⟨frames, tracks⟩ := run.tracks started
  obtain ⟨state, numbering, history, -⟩ := tracks.history
  exact ⟨_, tracks.recording_eq, history.nodup_places⟩

/-- The items of an accepted recording ascend in every tick exactly when no two items of
a frame have one place.  The items that a replay is about to execute, whatever has
happened to it, ascend exactly when no two items of their frame have one place. -/
theorem recorded_items_ascend_iff
    {recording : Recording}
    {source : Source}
    (accepted : Source.ofRecording recording = .ok source)
    (fits : recording.frames.length ≤ UInt64.size) :
    ((∀ tick, (source.items tick).Pairwise Item.Precedes) ↔
      ∀ frame ∈ recording.frames, frame.places.Nodup) ∧
    ∀ {σ : Type} {rules : Rules σ} {strict : Bool} {initial : σ} {start : Land σ},
      Land.replay rules source strict initial = .ok start →
      ∀ operations : List Operation,
        let land := operations.foldl (Land.after rules) start
        land.take.1.Pairwise Item.Precedes ↔
          ∀ frame ∈ recording.frames, frame.tick = land.nextTick → frame.places.Nodup := by
  constructor
  · simp only [Source.pairwise_items_iff accepted fits]
    exact ⟨fun distinct frame member => distinct frame.tick frame member rfl,
      fun distinct tick frame member _ => distinct frame member⟩
  · intro σ rules strict initial start started operations land
    have replays : land.Replays source :=
      List.foldlRecOn (motive := fun land : Land σ => land.Replays source) operations _
        (Land.replays_of_replay started) fun _ replays operation _ => replays.after rules operation
    obtain ⟨isStrict, summary, mode⟩ := replays
    rw [Land.take, mode]
    exact Source.pairwise_items_iff accepted fits

/-- Two notes that were recorded the wrong way round, in different places, are put in
order before a replay executes them. -/
theorem recorded_items_ascend_of_notes :
    let note (sequence : Sequence) : Recording.Input :=
      ⟨.action, sequence, "Note", .object [("text", .string "a")], .ofIds "p1" "c1" "s1", ∅, 0⟩
    let recording : Recording :=
      ⟨({ landId := "books", landType := "ledger" } : LandConfig).recordingMetadata .epoch none,
        [{ tick := 0, actions := [note 6, note 5] }]⟩
    ∃ source start,
      Source.ofRecording recording = .ok source ∧
        Land.replay (Ledger.rules {}) source true {} = .ok start ∧
        source.items 0 = [.ofInput (note 5), .ofInput (note 6)] ∧
        (∀ tick, (source.items tick).Pairwise Item.Precedes) ∧
        start.take.1.Pairwise Item.Precedes := by
  intro note recording
  obtain ⟨source, accepted⟩ : ∃ source, Source.ofRecording recording = .ok source := ⟨_, rfl⟩
  obtain ⟨start, started⟩ : ∃ start, Land.replay (Ledger.rules {}) source true {} = .ok start := by
    obtain rfl := Except.ok.inj accepted
    exact ⟨_, rfl⟩
  have fits : recording.frames.length ≤ UInt64.size := by decide +kernel
  have distinct : ∀ frame ∈ recording.frames, frame.places.Nodup := by decide +kernel
  obtain ⟨ascend, replayed⟩ := recorded_items_ascend_iff accepted fits
  refine ⟨source, start, accepted, started, ?_, ascend.2 distinct,
    (replayed started []).2 fun frame member _ => distinct frame member⟩
  exact (Source.items_of_mem accepted fits List.mem_cons_self).trans
    (Source.inOrder_eq_of_perm (List.Perm.swap _ _ _) (by decide +kernel))

/-- A recording with two notes in one place is accepted, and a replay is about to execute
them although they do not ascend. -/
theorem notes_of_one_place_accepted :
    let note : Recording.Input :=
      ⟨.action, 5, "Note", .object [("text", .string "a")], .ofIds "p1" "c1" "s1", ∅, 0⟩
    let recording : Recording :=
      ⟨({ landId := "books", landType := "ledger" } : LandConfig).recordingMetadata .epoch none,
        [{ tick := 0, actions := [note, note] }]⟩
    ∃ source start,
      Source.ofRecording recording = .ok source ∧
        Land.replay (Ledger.rules {}) source true {} = .ok start ∧
        ¬(source.items 0).Pairwise Item.Precedes ∧
        ¬start.take.1.Pairwise Item.Precedes := by
  intro note recording
  obtain ⟨source, accepted⟩ : ∃ source, Source.ofRecording recording = .ok source := ⟨_, rfl⟩
  have twice : ¬(source.items 0).Pairwise Item.Precedes := by
    rw [Source.pairwise_items_iff accepted (by decide +kernel)]
    exact fun distinct => absurd (distinct _ List.mem_cons_self rfl) (by decide +kernel)
  obtain ⟨start, started⟩ : ∃ start, Land.replay (Ledger.rules {}) source true {} = .ok start := by
    obtain rfl := Except.ok.inj accepted
    exact ⟨_, rfl⟩
  refine ⟨source, start, accepted, started, twice, ?_⟩
  obtain rfl := Except.ok.inj accepted
  obtain rfl := Except.ok.inj started
  exact twice

end Chronicle
