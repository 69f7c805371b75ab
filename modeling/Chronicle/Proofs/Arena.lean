import Chronicle.Arena
import Chronicle.Proofs.Attendance
import Chronicle.Proofs.Effect
import Chronicle.Proofs.Widening

/-!
# Who is in an arena

Every spawn point that is drawn can be read back, so a join that is executed
puts its player into the arena, and a leave takes the player out.  Nothing else
changes who is there: the players of an arena are those that are present by the
visits in the order of their execution.
-/

namespace Chronicle

open Json (Decoder)

namespace Arena

/-! ## Spawn points -/

/-- A coordinate of the world is captured as a number. -/
theorem ofSingle_eq_number
    (coordinate : Nat)
    (inside : coordinate < worldWidth) :
    ∃ number, Json.ofSingle (.ofInt coordinate) = .number number := by
  have small : coordinate < 2 ^ 10 := Nat.lt_trans inside (by decide)
  have finite := Ieee.Double.isFinite_ofSingle (Ieee.Single.bits_ofInt_lt small)
  refine ⟨.decimal _ finite, ?_⟩
  rw [Json.ofSingle, Json.Number.ofDouble?, dif_pos finite]

/-- A spawn point that was drawn is captured in a form that can be read back. -/
theorem capture_spawnPoint (draw : Nat) :
    ∃ output spawn,
      capture (spawnPoint draw) = .ok output ∧
        ResolverOutput.read SpawnPoint "spawn" output = .ok spawn := by
  obtain ⟨x, isX⟩ := ofSingle_eq_number (draw % worldWidth)
    (Nat.mod_lt _ (by decide))
  obtain ⟨y, isY⟩ := ofSingle_eq_number (draw / worldWidth % worldHeight)
    (Nat.lt_trans (Nat.mod_lt _ (by decide)) (by decide))
  have ascending : compare "y" "x" = .gt := by decide
  have canonical : Json.ofMembers [("x", .number x), ("y", .number y)] =
      .object [("x", .number x), ("y", .number y)] := by
    simp [Json.ofMembers, Json.insertMember, Dict.insertEntry, ascending]
  refine ⟨⟨"SpawnPoint", .object [("x", .number x), ("y", .number y)]⟩,
    ⟨x.toSingle, y.toSingle⟩, ?_, rfl⟩
  simp only [capture, Writable.encode, spawnPoint, isX, isY, canonical]
  rfl

/-- What a completion of a join brings: a spawn point that can be read. -/
def Spawned (outputs : ResolverOutputs) : Prop :=
  ∃ output spawn,
    outputs.get? "spawn" = some output ∧
      ResolverOutput.read SpawnPoint "spawn" output = .ok spawn

/-- The spawn resolver always has its output. -/
theorem run_spawnResolver (submission : Submission) (landId : String) (chance : Chance) :
    ∃ outputs,
      (Resolution.run ⟨submission, [spawnResolver]⟩ landId chance).result = .ok outputs ∧
        Spawned outputs := by
  obtain ⟨output, spawn, captured, read⟩ := capture_spawnPoint chance.draw
  have alone : Resolver.finishing chance.order (Resolver.start [spawnResolver]) =
      [⟨0, spawnResolver⟩] :=
    List.perm_singleton.1 (Resolver.finishing_perm chance.order _)
  refine ⟨(∅ : ResolverOutputs).insert "spawn" output, ?_, output, spawn,
    Dict.get?_insert_self _ _ _, read⟩
  have resolved (context : ResolverContext) :
      spawnResolver.resolve context chance.draw = .ok output := captured
  simp only [Resolution.run, Resolver.resolveAll, Resolver.resolveInOrder, alone, List.map_cons,
    List.map_nil, Resolver.Task.run, Resolver.collect, resolved]
  rfl

theorem entries_actions :
    rules.registry.actions.entries = [Registry.actionEntry MoveTo [] onMoveTo] :=
  Dict.entries_ofList (List.pairwise_singleton _ _)

theorem entries_clientEvents :
    rules.registry.clientEvents.entries = [Registry.clientEventEntry Chat onChat] :=
  Dict.entries_ofList (List.pairwise_singleton _ _)

/-- The one type of action in an arena. -/
theorem get?_actions_eq_some_iff {type : String} {registration : Registration State Json} :
    rules.registry.actions.get? type = some registration ↔
      type = Typed.name MoveTo ∧ registration = ⟨Registry.decoding MoveTo onMoveTo, []⟩ := by
  rw [Dict.get?_eq_some_iff, entries_actions, List.mem_singleton, Registry.actionEntry,
    Prod.mk.injEq]

/-- The one type of client event in an arena. -/
theorem get?_clientEvents_eq_some_iff {type : String} {handler : Handler State Json} :
    rules.registry.clientEvents.get? type = some handler ↔
      type = Typed.name Chat ∧ handler = Registry.decoding Chat onChat := by
  rw [Dict.get?_eq_some_iff, entries_clientEvents, List.mem_singleton,
    Registry.clientEventEntry, Prod.mk.injEq]

/-- Only joins have resolvers. -/
theorem resolversFor_eq
    {kind : ItemKind}
    {type : String}
    {resolvers : List Resolver}
    (declared : rules.registry.resolversFor kind type = .ok resolvers) :
    kind = .lifecycle .join ∧ resolvers = [spawnResolver] ∨
      kind ≠ .lifecycle .join ∧ resolvers = [] := by
  unfold Registry.resolversFor at declared
  cases kind with
  | action =>
      refine .inr ⟨nofun, ?_⟩
      dsimp only at declared
      split at declared
      · rename_i registration found
        obtain ⟨-, rfl⟩ := get?_actions_eq_some_iff.1 found
        exact (Except.ok.inj declared).symm
      · cases declared
  | clientEvent =>
      refine .inr ⟨nofun, ?_⟩
      dsimp only at declared
      split at declared
      · exact (Except.ok.inj declared).symm
      · cases declared
  | lifecycle kind =>
      cases kind with
      | join => exact .inl ⟨rfl, (Except.ok.inj declared).symm⟩
      | leave => exact .inr ⟨nofun, (Except.ok.inj declared).symm⟩

/-- The resolvers of an arena never fail. -/
theorem reliable : rules.Reliable := by
  intro kind type resolvers declared submission landId chance
  rcases resolversFor_eq declared with ⟨-, rfl⟩ | ⟨-, rfl⟩
  · obtain ⟨outputs, done, -⟩ := run_spawnResolver submission landId chance
    exact ⟨outputs, done⟩
  · exact ⟨∅, by
      have nobody : Resolver.finishing chance.order (Resolver.start []) = [] :=
        List.perm_nil.1 (Resolver.finishing_perm chance.order _)
      simp only [Resolution.run, Resolver.resolveAll, Resolver.resolveInOrder, nobody,
        List.map_nil, Resolver.collect]⟩

/-! ## Handlers -/

section Handlers

variable {context : Context} {state : State} {player : String}

/-- A join puts its player into the arena. -/
theorem contains_onJoin
    (details : LifecycleDetails)
    (spawn : SpawnPoint)
    (spawned : context.resolved SpawnPoint "spawn" = .ok spawn) :
    ((onJoin context details).perform state).2.state.players.contains player =
      if context.actor.player = some player then true else state.players.contains player := by
  cases known : context.actor.player with
  | none => simp [onJoin, Effect.perform_eq, Context.player, known]
  | some newcomer =>
      by_cases same : player = newcomer
      · subst same
        simp [onJoin, Effect.perform_eq, Context.player, known, spawned, Dict.contains_insert]
      · simp [onJoin, Effect.perform_eq, Context.player, known, spawned, Dict.contains_insert, same,
          Ne.symm same]

/-- A leave takes its player out of the arena. -/
theorem contains_onLeave (details : LifecycleDetails) :
    ((onLeave context details).perform state).2.state.players.contains player =
      if context.actor.player = some player then false else state.players.contains player := by
  cases known : context.actor.player with
  | none => simp [onLeave, Effect.perform_eq, Context.player, known]
  | some leaver =>
      simp only [onLeave, Effect.perform_eq, Context.player, known, Effect.bind_apply,
        Effect.liftM_apply, Effect.state_apply]
      split
      · by_cases same : player = leaver
        · subst same
          simp [Dict.contains_erase]
        · simp [Dict.contains_erase, same, Ne.symm same]
      · rename_i absent
        by_cases same : player = leaver
        · subst same
          simp [absent]
        · simp [Ne.symm same]

/-- A request to walk changes nobody's presence. -/
theorem contains_onMoveTo (payload : Json) :
    ((Registry.decoding MoveTo onMoveTo context payload).perform state).2.state.players.contains
        player =
      state.players.contains player := by
  simp only [Registry.decoding, Effect.perform_eq, Effect.bind_apply, Effect.liftM_apply]
  cases readAs MoveTo payload with
  | error error => rfl
  | ok moveTo =>
      cases known : context.actor.player with
      | none => simp [onMoveTo, Context.player, known]
      | some walker =>
          simp only [onMoveTo, Context.player, known, Effect.bind_apply, Effect.liftM_apply,
            Effect.state_apply]
          cases found : state.players.get? walker with
          | none => simp
          | some avatar =>
              by_cases same : player = walker
              · subst same
                simp [Dict.contains, found]
              · simp [Dict.contains_insert, same]

/-- A chat message changes nobody's presence. -/
theorem players_onChat (payload : Json) :
    ((Registry.decoding Chat onChat context payload).perform state).2.state.players =
      state.players := by
  simp only [Registry.decoding, Effect.perform_eq, Effect.bind_apply, Effect.liftM_apply]
  cases readAs Chat payload with
  | error error => rfl
  | ok chat =>
      unfold onChat
      dsimp only
      split
      · rfl
      · cases known : context.actor.player with
        | none => simp [Context.player, known]
        | some speaker => simp [Context.player, known]

/-- An item changes who is there by its visit, if it is one. -/
theorem contains_dispatch
    (tick : Tick)
    (state : State)
    (player : String)
    {item : Item}
    (spawned : item.kind = .lifecycle .join → Spawned item.outputs) :
    ((rules.registry.dispatch (.ofItem tick item) item).perform state).2.state.players.contains
        player =
      match item.visit? with
      | some visit =>
          if visit.player = some player then decide (visit.kind = .join)
          else state.players.contains player
      | none => state.players.contains player := by
  unfold Registry.dispatch Item.visit? Submission.visit?
  cases isKind : item.kind with
  | action =>
      dsimp only
      cases found : rules.registry.actions.get? item.type with
      | none => rfl
      | some registration =>
          obtain ⟨-, rfl⟩ := get?_actions_eq_some_iff.1 found
          exact contains_onMoveTo item.payload
  | clientEvent =>
      dsimp only
      cases found : rules.registry.clientEvents.get? item.type with
      | none => rfl
      | some handler =>
          obtain ⟨-, rfl⟩ := get?_clientEvents_eq_some_iff.1 found
          exact congrArg (·.contains player) (players_onChat item.payload)
  | lifecycle kind =>
      cases kind with
      | join =>
          obtain ⟨output, spawn, found, read⟩ := spawned isKind
          refine contains_onJoin (item.details.getD {}) spawn ?_
          simp only [Context.resolved, Context.ofItem, found, read]
      | leave => exact contains_onLeave (item.details.getD {})

/-- The update at the end of a tick changes nobody's presence. -/
theorem contains_update :
    ((update context).perform state).2.state.players.contains player =
      state.players.contains player :=
  Dict.contains_map _ _ _

/-- Items change who is there by their visits, in the order of execution. -/
theorem contains_items
    {tick : Tick}
    {items : List Item}
    {visits : List Visit}
    (spawned : ∀ item ∈ items, item.kind = .lifecycle .join → Spawned item.outputs)
    (before : state.players.contains player = present player visits) :
    (items.foldl (fun state item =>
        ((rules.registry.dispatch (.ofItem tick item) item).perform state).2.state)
        state).players.contains player =
      present player (visits ++ items.filterMap Item.visit?) := by
  induction items generalizing state visits with
  | nil => simpa using before
  | cons item rest inductionHypothesis =>
      obtain ⟨first, later⟩ := List.forall_mem_cons.1 spawned
      have dispatched := contains_dispatch tick state player first
      rw [List.foldl_cons, List.filterMap_cons]
      cases isVisit : item.visit? with
      | none =>
          rw [isVisit] at dispatched
          exact inductionHypothesis later (dispatched.trans before)
      | some visit =>
          rw [isVisit] at dispatched
          rw [List.append_cons]
          refine inductionHypothesis later ?_
          rw [dispatched, present_snoc, before]

/-- A tick changes who is there by its visits, in the order of execution. -/
theorem contains_effects
    {tick : Tick}
    {items : List Item}
    {visits : List Visit}
    (spawned : ∀ item ∈ items, item.kind = .lifecycle .join → Spawned item.outputs)
    (before : state.players.contains player = present player visits) :
    (Effect.stateAfter (rules.effects tick items) state).players.contains player =
      present player (visits ++ items.filterMap Item.visit?) := by
  rw [Effect.stateAfter, Rules.effects, List.foldl_append, List.foldl_cons, List.foldl_nil,
    List.foldl_map]
  exact contains_update.trans (contains_items spawned before)

end Handlers

/-! ## Runs -/

section Runs

variable {start land : Land State} {past : List (Passage State)} {config : LandConfig}
  {created : Timestamp}

/-- An item that has entered is a join with its spawn point, or needs no
resolvers. -/
theorem entry_cases
    (started : Land.live rules config created {} = .ok start)
    (run : Run rules start past land)
    (resolved : ∀ passage ∈ past, passage.Resolved rules)
    {item : Item}
    (entered : item ∈ entries rules past) :
    item.kind = .lifecycle .join ∧ Spawned item.outputs ∨
      item.kind ≠ .lifecycle .join ∧ item ∈ direct rules past := by
  induction run with
  | nothing => exact absurd entered List.not_mem_nil
  | next run takes inductionHypothesis =>
      rename_i past land operation
      obtain ⟨frames, tracks⟩ := run.tracks started
      obtain ⟨queue, recorder, resolutions, live, -⟩ := tracks.mode
      rw [entries_snoc] at entered
      rcases List.mem_append.1 entered with earlier | now
      · have before := inductionHypothesis
          (fun passage member => resolved passage (List.mem_append_left _ member)) earlier
        refine before.imp_right fun needsNothing => ⟨needsNothing.1, ?_⟩
        rw [direct_snoc]
        exact List.mem_append_left _ needsNothing.2
      · rw [Option.mem_toList, Passage.enters?] at now
        cases operation with
        | submit inbound =>
            rw [Passage.resolved?, Option.or_none] at now
            refine .inr ⟨?_, ?_⟩
            · rcases Land.submit_live_cases rules live inbound with
                ⟨error, refused⟩ | ⟨sequence, numbering, declared, -, queued⟩ |
                  ⟨resolvers, sequence, numbering, -, -, -, resolving⟩
              · simp [Passage.direct?, refused] at now
              · simp only [Passage.direct?, queued, Option.some.injEq] at now
                subst now
                rcases resolversFor_eq declared with ⟨-, some⟩ | ⟨notJoin, -⟩
                · cases some
                · exact fun isJoin => notJoin ((inbound.kind_submission sequence).symm.trans isJoin)
              · simp [Passage.direct?, resolving] at now
            · rw [direct_snoc]
              exact List.mem_append_right _ (Option.mem_toList.2 now)
        | complete completion =>
            obtain ⟨resolvers, landId, chance, declared, some, isRun⟩ :=
              resolved _ (List.mem_append_right _ List.mem_cons_self) completion rfl
            rcases resolversFor_eq declared with ⟨isJoin, rfl⟩ | ⟨-, none⟩
            · obtain ⟨outputs, done, spawned⟩ :=
                run_spawnResolver completion.submission landId chance
              rw [← isRun] at done
              simp only [Passage.direct?, Passage.resolved?, Option.none_or, done,
                Except.toOption, Option.map_some, Option.some.injEq] at now
              subst now
              exact .inl ⟨isJoin, spawned⟩
            · exact absurd none some
        | step => cases now

/-- The joins of the next tick have their spawn points. -/
theorem spawned_take
    (started : Land.live rules config created {} = .ok start)
    (run : Run rules start past land)
    (genuine : Genuine rules past)
    (resolved : ∀ passage ∈ past, passage.Resolved rules)
    (going : land.failed = false)
    (notFinal : land.nextTick ≠ finalTick) :
    ∀ item ∈ land.take.1, item.kind = .lifecycle .join → Spawned item.outputs := by
  intro item executed isJoin
  obtain ⟨frames, tracks⟩ := run.tracks started
  obtain ⟨queue, recorder, resolutions, live, consistent, -⟩ := tracks.mode
  have balanced := run.balanced started genuine going live
  obtain ⟨everything, -⟩ := balanced.executed_step live consistent notFinal
  have waits : item ∈ queue.toList := everything ▸ executed
  have entered := balanced.conserved.mem_iff.1 (List.mem_append_right _ waits)
  rcases entry_cases started run resolved entered with ⟨-, spawned⟩ | ⟨notJoin, -⟩
  · exact spawned
  · exact absurd isJoin notJoin

/-- The players of an arena are those who are present by the visits that were
executed. -/
theorem contains_eq_present
    (started : Land.live rules config created {} = .ok start)
    (run : Run rules start past land)
    (genuine : Genuine rules past)
    (resolved : ∀ passage ∈ past, passage.Resolved rules)
    (going : land.failed = false)
    (player : String) :
    land.state.players.contains player = present player ((log past).filterMap Item.visit?) := by
  induction run with
  | nothing =>
      obtain ⟨recorder, holds, rfl⟩ := Land.live_eq_ok started
      rfl
  | next run takes inductionHypothesis =>
      rename_i past land operation
      obtain ⟨frames, tracks⟩ := run.tracks started
      obtain ⟨queue, recorder, resolutions, live, -, holds⟩ := tracks.mode
      have earlier : ∀ passage ∈ past, passage.Resolved rules :=
        fun passage member => resolved passage (List.mem_append_left _ member)
      have before := inductionHypothesis (genuine_snoc_iff.1 genuine).1 earlier takes.1
      rw [log_snoc, List.filterMap_append]
      cases operation with
      | submit inbound =>
          have sameState : (land.submit rules inbound).2.state = land.state := by
            rcases Land.submit_live_cases rules live inbound with
              ⟨error, refused⟩ | ⟨sequence, numbering, -, -, queued⟩ |
                ⟨resolvers, sequence, numbering, -, -, -, resolving⟩
            · rw [refused, Land.note_eq]
            · rw [queued]
            · rw [resolving]
          rw [Land.after, sameState, before]
          simp [Passage.executed]
      | complete completion =>
          have sameState : (land.complete completion).2.state = land.state := by
            rcases Land.complete_live_cases live completion with
              ⟨outputs, -, queued⟩ | ⟨error, -, dropped⟩
            · rw [queued]
            · rw [dropped]
          rw [Land.after, sameState, before]
          simp [Passage.executed]
      | step =>
          have spawned := spawned_take started run (genuine_snoc_iff.1 genuine).1 earlier takes.1
            (takes.2 rfl)
          simp only [Land.take, live] at spawned
          rcases Land.step_live_cases rules live holds (tracks.continues takes.1) with
            ⟨error, run, performed, stats, aborted⟩ | ⟨run, after, outcome, performed, -, -, stats,
              executed⟩
          · have fatal : error.isFatal = true := TickRun.isFatal_of_performAll performed
            rw [Land.after, aborted, Land.note_eq] at going
            simp [fatal] at going
          · rw [Land.after, executed]
            simp only [Passage.executed, Land.take, live]
            rw [TickRun.state_of_performAll performed]
            exact contains_effects spawned before

end Runs

/-! ## Players without a session -/

/-- Nothing is left to be done about the visits of a service: no submission is
on its way to the land, resolving or queued, and every session that has expired
has its leave submitted. -/
structure Quiet (service : Service State) : Prop where
  requests : service.requests = []
  expired : service.expired = []
  running : service.task.running = []
  queued : service.task.land.stats.pending = 0

/-- No join of a player was executed in a later tick than all leaves of the
player. -/
def LeftLast (land : Land State) (player : String) : Prop :=
  ∀ join ∈ land.lifecycleEvents, join.visit = ⟨.join, some player⟩ →
    ∃ leave ∈ land.lifecycleEvents, leave.visit = ⟨.leave, some player⟩ ∧ join.tick ≤ leave.tick

instance (land : Land State) (player : String) : Decidable (LeftLast land player) :=
  inferInstanceAs (Decidable (∀ join ∈ land.lifecycleEvents, _ → _))

section Quiet

variable {start : Land State} {service : Service State} {past : List (Passage State)}
  {config : LandConfig} {created : Timestamp} {player : String}

/-- No submission is dropped, because no resolver fails. -/
theorem dropped_eq_nil (resolved : ∀ passage ∈ past, passage.Resolved rules) :
    dropped past = [] := by
  refine List.filterMap_eq_nil_iff.2 fun passage member => ?_
  obtain ⟨land, operation⟩ := passage
  cases operation with
  | submit inbound => rfl
  | step => rfl
  | complete completion =>
      obtain ⟨resolvers, landId, chance, declared, -, isRun⟩ := resolved _ member completion rfl
      obtain ⟨outputs, done⟩ := reliable _ _ _ declared completion.submission landId chance
      obtain ⟨submission, result⟩ := completion
      rw [← isRun] at done
      simp only at done
      subst done
      rfl

/-- Once nothing is left to be done, everything that was admitted has been
executed. -/
theorem mem_log_of_admitted
    (started : Land.live rules config created {} = .ok start)
    (fronts : service.Fronts rules start past)
    (quiet : Quiet service) :
    (log past).Perm (entries rules past) ∧
      ∀ submission ∈ admitted rules past, ∃ item ∈ log past, item.toSubmission = submission := by
  obtain ⟨frames, tracks⟩ := fronts.run.tracks started
  obtain ⟨queue, recorder, resolutions, live, -⟩ := tracks.mode
  have balanced := fronts.run.balanced started fronts.genuine fronts.going live
  have nobodyWaits : queue.toList = [] := by
    have size := quiet.queued
    simp only [Land.stats, live] at size
    exact List.map_eq_nil_iff.2 (List.length_eq_zero_iff.1 size)
  have executed : (log past).Perm (entries rules past) := by
    have conserved := balanced.conserved
    rwa [nobodyWaits, List.append_nil] at conserved
  have settled : outstanding rules past = [] := by
    rw [← fronts.running, quiet.running, List.map_nil]
  refine ⟨executed, fun submission member => ?_⟩
  rcases admitted_cases member with running | isDropped | ⟨item, entered, same⟩
  · rw [settled] at running
    exact absurd running List.not_mem_nil
  · rw [dropped_eq_nil fronts.resolved] at isDropped
    exact absurd isDropped List.not_mem_nil
  · exact ⟨item, executed.mem_iff.2 entered, same⟩

/-- Leaves are executed in the order of their numbers. -/
theorem resolvedAt_le_of_leave
    (started : Land.live rules config created {} = .ok start)
    (fronts : service.Fronts rules start past)
    {first second : Item}
    (here : first ∈ entries rules past)
    (there : second ∈ entries rules past)
    (firstLeaves : first.visit? = some ⟨.leave, some player⟩)
    (secondLeaves : second.visit? = some ⟨.leave, some player⟩)
    (smaller : first.sequence < second.sequence) :
    first.resolvedAt ≤ second.resolvedAt := by
  have isDirect {item : Item} (entered : item ∈ entries rules past)
      (leaves : item.visit? = some ⟨.leave, some player⟩) : item ∈ direct rules past := by
    rcases entry_cases started fronts.run fronts.resolved entered with ⟨isJoin, -⟩ | ⟨-, isDirect⟩
    · simp [Item.visit?, Submission.visit?, isJoin] at leaves
    · exact isDirect
  have ascending := fronts.run.direct_ascending started fronts.genuine
  refine List.Pairwise.forall_of_forall_of_flip
    (R := fun first second => first.sequence < second.sequence →
      first.resolvedAt ≤ second.resolvedAt)
    (fun _ _ _ => UInt64.le_refl _)
    (ascending.imp fun ordered _ => ordered.1)
    (ascending.imp fun ordered smaller =>
      absurd (UInt64.lt_trans ordered.2 smaller) (UInt64.lt_irrefl _))
    (isDirect here firstLeaves) (isDirect there secondLeaves) smaller

/-- After every join of a player without a session a leave was submitted. -/
theorem exists_leave_after
    (started : Land.live rules config created {} = .ok start)
    (fronts : service.Fronts rules start past)
    (attended : service.Attended rules past)
    (quiet : Quiet service)
    (gone : service.transport.clients.byPlayer? player = none)
    {joined : Item}
    (executed : joined ∈ log past)
    (joins : joined.visit? = some ⟨.join, some player⟩) :
    ∃ left ∈ log past,
      left.visit? = some ⟨.leave, some player⟩ ∧ ¬ left.sequence < joined.sequence := by
  obtain ⟨onlyEntries, everything⟩ := mem_log_of_admitted started fronts quiet
  have unexpected :
      ¬ present player ((admitted rules past).filterMap Submission.visit?) = true := by
    intro expected
    have visits : service.visits rules past =
        (admitted rules past).filterMap Submission.visit? := by
      rw [Service.visits, quiet.requests]
      exact List.append_nil _
    rcases attended.expected player (visits ▸ expected) with holds | ⟨session, member, -⟩
    · have found := Clients.isSome_byPlayer?.2 holds
      rw [gone] at found
      cases found
    · rw [quiet.expired] at member
      exact absurd member List.not_mem_nil
  rw [present_iff Submission.visit? (fun _ _ => UInt64.lt_asymm)
    (fronts.run.admitted_ascending started fronts.genuine)] at unexpected
  by_contra noLeave
  refine unexpected ⟨joined.toSubmission,
    mem_admitted_of_entries fronts.genuine (onlyEntries.mem_iff.1 executed), joins,
    fun submission member leaves => ?_⟩
  obtain ⟨left, leftExecuted, rfl⟩ := everything submission member
  by_contra greater
  exact noLeave ⟨left, leftExecuted, leaves, greater⟩

/-- A player without a session is not in the arena exactly when no join of the
player was executed in a later tick than all of the leaves. -/
theorem contains_eq_false_iff
    {clients : Clients}
    (started : Land.live rules config created {} = .ok start)
    (reaches : Service.Reaches rules (.fresh clients start) service)
    (isOpen : service.task.isOpen = true)
    (quiet : Quiet service)
    (gone : service.transport.clients.byPlayer? player = none) :
    service.task.land.state.players.contains player = false ↔
      LeftLast service.task.land player := by
  obtain ⟨past, fronts, attended⟩ := reaches.attended started reliable isOpen
  have recorded := fronts.run.exists_lifecycleEvent_iff started fronts.genuine fronts.going
  obtain ⟨executed, everything⟩ := mem_log_of_admitted started fronts quiet
  have inOrder := (fronts.run.logInOrder started fronts.genuine fronts.going).ascending
  have there := present_iff Item.visit? (fun _ _ => Item.Precedes.asymm) inOrder player
  rw [contains_eq_present started fronts.run fronts.genuine fronts.resolved fronts.going player]
  constructor
  · intro absent join member isJoin
    obtain ⟨item, itemExecuted, joins, inTick⟩ :=
      (recorded _ (· = join.tick)).1 ⟨join, member, isJoin, rfl⟩
    by_contra noLeave
    rw [← Bool.not_eq_true, there] at absent
    refine absent ⟨item, itemExecuted, joins, fun left leftExecuted leaves => ?_⟩
    rw [Item.precedes_iff]
    refine .inl (UInt64.not_le.1 fun late => noLeave ?_)
    exact (recorded _ (join.tick ≤ ·)).2 ⟨left, leftExecuted, leaves, inTick ▸ late⟩
  · intro leftLast
    by_contra present
    rw [Bool.not_eq_false, there] at present
    obtain ⟨joined, joinExecuted, joins, last⟩ := present
    obtain ⟨event, member, isJoin, inTick⟩ :=
      (recorded _ (· = joined.resolvedAt)).2 ⟨joined, joinExecuted, joins, rfl⟩
    obtain ⟨left, leftExecuted, leaves, late⟩ :=
      (recorded _ (event.tick ≤ ·)).1 (leftLast event member isJoin)
    rw [inTick] at late
    have smaller : left.sequence < joined.sequence := by
      rcases Item.precedes_iff.1 (last left leftExecuted leaves) with earlier | ⟨-, smaller⟩
      · exact absurd earlier (UInt64.not_lt.2 late)
      · exact smaller
    obtain ⟨later, laterExecuted, laterLeaves, greater⟩ :=
      exists_leave_after started fronts attended quiet gone joinExecuted joins
    have laterBefore := Item.precedes_iff.1 (last later laterExecuted laterLeaves)
    have notEarlier := resolvedAt_le_of_leave started fronts (executed.mem_iff.1 leftExecuted)
      (executed.mem_iff.1 laterExecuted) leaves laterLeaves
      (UInt64.lt_of_lt_of_le smaller (UInt64.not_lt.1 greater))
    rcases laterBefore with earlier | ⟨-, smallerToo⟩
    · exact absurd (UInt64.lt_of_lt_of_le earlier late) (UInt64.not_lt.2 notEarlier)
    · exact greater smallerToo

/-- Once nothing is left to be done, every player in an arena has a session
exactly when no player without one has joined in a later tick than left. -/
theorem players_have_sessions_iff
    {clients : Clients}
    (started : Land.live rules config created {} = .ok start)
    (reaches : Service.Reaches rules (.fresh clients start) service)
    (isOpen : service.task.isOpen = true)
    (quiet : Quiet service) :
    (∀ player, service.task.land.state.players.contains player = true →
        (service.transport.clients.byPlayer? player).isSome = true) ↔
      ∀ player, service.transport.clients.byPlayer? player = none →
        LeftLast service.task.land player := by
  constructor
  · intro connected player gone
    refine (contains_eq_false_iff started reaches isOpen quiet gone).1 (Bool.eq_false_iff.2 ?_)
    intro there
    have found := connected player there
    rw [gone] at found
    cases found
  · intro leftLast player there
    by_contra gone
    rw [Bool.not_eq_true, Option.isSome_eq_false_iff, Option.isNone_iff_eq_none] at gone
    have absent :=
      (contains_eq_false_iff started reaches isOpen quiet gone).2 (leftLast player gone)
    exact Bool.false_ne_true (absent.symm.trans there)

end Quiet

/-- One player joins and stays, another one joins and leaves, each when the last
was executed. -/
theorem players_have_sessions_of_visits :
    ∃ start service,
      Land.live rules { landId := "arena-1", landType := "arena" } .epoch {} = .ok start ∧
        Service.Reaches rules (.fresh { capacity := 8 } start) service ∧
        service.task.land.state.players.contains "p1" = true ∧
        ((∀ player, service.task.land.state.players.contains player = true →
            (service.transport.clients.byPlayer? player).isSome = true) ↔
          ∀ player, service.transport.clients.byPlayer? player = none →
            LeftLast service.task.land player) := by
  let config : LandConfig := { landId := "arena-1", landType := "arena" }
  let first : Address := ⟨.v4 0, 4000⟩
  let second : Address := ⟨.v4 0, 4001⟩
  let moves : List Move :=
    [.packet ⟨0, 0⟩ (.join Packet.protocolVersion "p1" none false ∅) first, .take,
      .resolve 0 ⟨0, []⟩,
      .packet ⟨0, 0⟩ (.join Packet.protocolVersion "p2" none false ∅) second, .take,
      .resolve 1 ⟨7, []⟩, .tick, .packet ⟨1, 0⟩ .leave second, .take, .tick]
  obtain ⟨start, started⟩ : ∃ start, Land.live rules config .epoch {} = .ok start := ⟨_, rfl⟩
  have reaches : Service.Reaches rules (.fresh { capacity := 8 } start)
      (moves.foldl (Service.after rules) (.fresh { capacity := 8 } start)) :=
    Service.Reaches.nothing.foldl moves (by
      obtain rfl := Except.ok.inj started
      decide +kernel)
  refine ⟨start, _, started, reaches, ?_, players_have_sessions_iff started reaches ?_
    ⟨?_, ?_, ?_, ?_⟩⟩
  all_goals obtain rfl := Except.ok.inj started
  · decide +kernel
  · decide +kernel
  · decide +kernel
  · decide +kernel
  · exact List.isEmpty_iff.1 (by decide +kernel)
  · decide +kernel

/-- A player leaves while the join is still resolving.  The leave is executed
first and finds nobody; the join is executed in the next tick and its player
stays in the arena for good, with no session and nothing left on its way. -/
theorem ghost_of_late_join :
    ∃ start service,
      Land.live rules { landId := "arena-1", landType := "arena" } .epoch {} = .ok start ∧
        Service.Reaches rules (.fresh { capacity := 8 } start) service ∧
        service.task.isOpen = true ∧
        Quiet service ∧
        service.receipts.isEmpty = true ∧
        service.transport.outbox = [] ∧
        service.task.land.state.players.contains "p1" = true ∧
        service.transport.clients.byPlayer? "p1" = none := by
  let config : LandConfig := { landId := "arena-1", landType := "arena" }
  let address : Address := ⟨.v4 0, 4000⟩
  let moves : List Move :=
    [.packet ⟨0, 0⟩ (.join Packet.protocolVersion "p1" none false ∅) address,
      .packet ⟨0, 0⟩ .leave address, .take, .take, .tick, .resolve 0 ⟨0, []⟩, .tick, .acknowledge 0,
      .acknowledge 0, .send, .send]
  obtain ⟨start, started⟩ : ∃ start, Land.live rules config .epoch {} = .ok start := ⟨_, rfl⟩
  have reaches : Service.Reaches rules (.fresh { capacity := 8 } start)
      (moves.foldl (Service.after rules) (.fresh { capacity := 8 } start)) :=
    Service.Reaches.nothing.foldl moves (by
      obtain rfl := Except.ok.inj started
      decide +kernel)
  refine ⟨start, _, started, reaches, ?_, ⟨?_, ?_, ?_, ?_⟩, ?_, ?_, ?_, ?_⟩
  all_goals obtain rfl := Except.ok.inj started
  · decide +kernel
  · decide +kernel
  · decide +kernel
  · exact List.isEmpty_iff.1 (by decide +kernel)
  · decide +kernel
  · decide +kernel
  · decide +kernel
  · decide +kernel
  · decide +kernel

end Arena
end Chronicle
