import Chronicle.Proofs.Arena
import Chronicle.Proofs.Decoding
import Chronicle.Proofs.Execution

/-!
# The roster of an arena

An item that is executed in an arena is refused and does nothing, or its player
joins, leaves, sets out for a point or speaks, and what is emitted tells of it.  So
whoever follows the events of an arena from the first one on knows who is there.
-/

namespace Chronicle

/-- The type and the payload of an event. -/
def Event.content (event : Event) : String × Json := (event.type, event.payload)

/-- The type and the payload of a recorded event. -/
def Recording.ServerEvent.content (event : Recording.ServerEvent) : String × Json :=
  (event.type, event.payload)

/-- The visit of an item, if the item was successful. -/
def Item.visited? (item : Item) : Except LandError Unit → Option Visit
  | .ok _ => item.visit?
  | .error _ => none

namespace Arena

/-- News to everybody in an arena about one of its players. -/
def news (type player : String) (details : List (String × Json)) : Event :=
  ⟨type, .object (("playerId", .string player) :: details), .all⟩

/-- What comes of an item in an arena: it is refused and nothing happens, or its
player joins, leaves, sets out for a point, or says something. -/
inductive Does (item : Item) (state : State) : Except LandError Unit × Scene State → Prop
  | refused (error : LandError) : Does item state (.error error, ⟨state, []⟩)
  | joins {player : String} (spawn : SpawnPoint) (isGuest : Bool)
      (isJoin : item.kind = .lifecycle .join)
      (known : item.actor.player = some player) :
      Does item state (.ok (),
        ⟨{ state with
            players := state.players.insert player (.standingAt spawn.x spawn.y isGuest) },
          [news "PlayerJoined" player [("x", .ofSingle spawn.x), ("y", .ofSingle spawn.y)]]⟩)
  | leaves {player : String}
      (isLeave : item.kind = .lifecycle .leave)
      (known : item.actor.player = some player)
      (there : state.players.contains player = true) :
      Does item state (.ok (),
        ⟨{ state with players := state.players.erase player }, [news "PlayerLeft" player []]⟩)
  | walks {player : String} {avatar : Avatar} (targetX targetY : Ieee.Single)
      (isAction : item.kind = .action)
      (known : item.actor.player = some player)
      (found : state.players.get? player = some avatar) :
      Does item state (.ok (),
        ⟨{ state with
            players :=
              state.players.insert player { avatar with targetX := targetX, targetY := targetY } },
          []⟩)
  | chats {player : String} (text : String)
      (isClientEvent : item.kind = .clientEvent)
      (known : item.actor.player = some player) :
      Does item state (.ok (),
        ⟨{ state with chats := state.chats + 1 },
          [news "ChatMessage" player [("text", .string text)]]⟩)

section Handlers

variable (tick : Tick) {item : Item} (state : State)

theorem encode_joined (player : String) (spawn : SpawnPoint) :
    Writable.encode (PlayerJoined.mk player spawn.x spawn.y) = .ok
      (news "PlayerJoined" player
        [("x", .ofSingle spawn.x), ("y", .ofSingle spawn.y)]).payload := by
  refine congrArg Except.ok (Json.ofMembers_of_ascending ?_)
  have first : compare "playerId" "x" = .lt := by decide
  have second : compare "playerId" "y" = .lt := by decide
  have third : compare "x" "y" = .lt := by decide
  simp [Ascending, first, second, third]

theorem encode_chat (player text : String) :
    Writable.encode (ChatMessage.mk player text) = .ok
      (news "ChatMessage" player [("text", .string text)]).payload := by
  refine congrArg Except.ok (Json.ofMembers_of_ascending ?_)
  have first : compare "playerId" "text" = .lt := by decide
  simp [Ascending, first]

/-- What is looked up before anything happens refuses the item if it is not there. -/
theorem Does.of_lookup
    {α : Type}
    {result : Except LandError α}
    {next : α → Effect State Unit}
    (goes : ∀ value, result = .ok value → Does item state (next value ⟨state, []⟩)) :
    Does item state (((liftM result : Effect State α) >>= next) ⟨state, []⟩) := by
  rw [Effect.bind_apply, Effect.liftM_apply]
  cases result with
  | error error => exact .refused error
  | ok value => exact goes value rfl

/-- An item that has a player acts for the player. -/
theorem known_of_player
    {player : String}
    (isPlayer : (Context.ofItem tick item).player = .ok player) :
    item.actor.player = some player := by
  unfold Context.player at isPlayer
  split at isPlayer
  · rename_i other known
    rw [← Except.ok.inj isPlayer]
    exact known
  · cases isPlayer

theorem does_join (isJoin : item.kind = .lifecycle .join) (details : LifecycleDetails) :
    Does item state ((onJoin (.ofItem tick item) details).perform state) := by
  refine .of_lookup state fun player isPlayer => .of_lookup state fun spawn _ => ?_
  simp only [Effect.bind_apply, Effect.modifyState_apply,
    Effect.emit_of_encode _ (encode_joined player spawn)]
  exact .joins spawn _ isJoin (known_of_player tick isPlayer)

theorem does_leave (isLeave : item.kind = .lifecycle .leave) (details : LifecycleDetails) :
    Does item state ((onLeave (.ofItem tick item) details).perform state) := by
  refine .of_lookup state fun player isPlayer => ?_
  rw [Effect.bind_apply, Effect.state_apply]
  dsimp only
  split
  · rename_i there
    exact .leaves isLeave (known_of_player tick isPlayer) there
  · exact .refused _

theorem does_moveTo (isAction : item.kind = .action) (payload : Json) :
    Does item state
      ((Registry.decoding MoveTo onMoveTo (.ofItem tick item) payload).perform state) := by
  refine .of_lookup state fun moveTo _ => .of_lookup state fun player isPlayer => ?_
  rw [Effect.bind_apply, Effect.state_apply]
  cases found : state.players.get? player with
  | none =>
      simp only [found]
      exact .refused _
  | some avatar =>
      simp only [found]
      exact .walks _ _ isAction (known_of_player tick isPlayer) found

theorem does_chat (isClientEvent : item.kind = .clientEvent) (payload : Json) :
    Does item state
      ((Registry.decoding Chat onChat (.ofItem tick item) payload).perform state) := by
  refine .of_lookup state fun chat _ => ?_
  unfold onChat
  split
  · exact .refused _
  · refine .of_lookup state fun player isPlayer => ?_
    simp only [Effect.bind_apply, Effect.modifyState_apply,
      Effect.emit_of_encode _ (encode_chat player _)]
    exact .chats _ isClientEvent (known_of_player tick isPlayer)

/-- Every item is refused, or does what its kind is for. -/
theorem does (item : Item) :
    Does item state ((rules.registry.dispatch (.ofItem tick item) item).perform state) := by
  unfold Registry.dispatch
  split
  · rename_i isAction
    split
    · rename_i registration found
      obtain ⟨-, rfl⟩ := get?_actions_eq_some_iff.1 found
      exact does_moveTo tick state isAction item.payload
    · exact .refused _
  · rename_i isClientEvent
    split
    · rename_i handler found
      obtain ⟨-, rfl⟩ := get?_clientEvents_eq_some_iff.1 found
      exact does_chat tick state isClientEvent item.payload
    · exact .refused _
  · rename_i kind isLifecycle
    cases kind with
    | join => exact does_join tick state isLifecycle (item.details.getD {})
    | leave => exact does_leave tick state isLifecycle (item.details.getD {})

end Handlers

/-! ## Following the news -/

/-- The player that an event with a payload names. -/
def named? : Json → Option String
  | .object members =>
      members.findSome? fun
        | ("playerId", .string player) => some player
        | _ => none
  | _ => none

/-- The players in an arena as somebody knows them who hears of one more event. -/
def follow (roster : Finset String) (content : String × Json) : Finset String :=
  match named? content.2 with
  | none => roster
  | some player =>
      if content.1 = Typed.name PlayerJoined then insert player roster
      else if content.1 = Typed.name PlayerLeft then roster.erase player
      else roster

/-- Whether an event passes a chat message on. -/
def isChat (content : String × Json) : Bool := content.1 = Typed.name ChatMessage

theorem follow_news (roster : Finset String) (type player : String)
    (details : List (String × Json)) :
    follow roster (news type player details).content =
      if type = "PlayerJoined" then insert player roster
      else if type = "PlayerLeft" then roster.erase player
      else roster := rfl

theorem isChat_news (type player : String) (details : List (String × Json)) :
    isChat (news type player details).content = decide (type = "ChatMessage") := rfl

/-- A state of an arena agrees with the events that were emitted and with the joins and
leaves that were successful. -/
structure Agrees (state : State) (heard : List (String × Json)) (visits : List Visit) :
    Prop where
  roster : ∀ player, player ∈ heard.foldl follow ∅ ↔ state.players.contains player = true
  visitors : ∀ player, state.players.contains player = present player visits
  chats : state.chats = .ofNat (heard.countP isChat)

section Following

variable {tick : Tick} {item : Item} {state : State}
  {heard : List (String × Json)} {visits : List Visit}

/-- An item that is executed keeps the agreement. -/
theorem Agrees.does
    {performed : Except LandError Unit × Scene State}
    (agrees : Agrees state heard visits)
    (does : Does item state performed) :
    Agrees performed.2.state (heard ++ performed.2.emitted.map (·.content))
      (visits ++ (item.visited? performed.1).toList) := by
  obtain ⟨roster, visitors, chats⟩ := agrees
  cases does with
  | refused error =>
      simp only [Item.visited?, Option.toList_none, List.map_nil, List.append_nil]
      exact ⟨roster, visitors, chats⟩
  | @joins player spawn isGuest isJoin known =>
      have visit : item.visit? = some ⟨.join, some player⟩ := by
        simp [Item.visit?, Submission.visit?, isJoin, known]
      constructor
      · simp [follow_news, roster, Dict.contains_insert]
      · simp [Item.visited?, visit, visitors, Dict.contains_insert, eq_comm]
      · simp [isChat_news, chats]
  | @leaves player isLeave known there =>
      have visit : item.visit? = some ⟨.leave, some player⟩ := by
        simp [Item.visit?, Submission.visit?, isLeave, known]
      constructor
      · simp [follow_news, roster, Dict.contains_erase]
      · simp [Item.visited?, visit, visitors, Dict.contains_erase, eq_comm]
      · simp [isChat_news, chats]
  | @walks player avatar targetX targetY isAction known found =>
      have visit : item.visit? = none := by
        simp [Item.visit?, Submission.visit?, isAction]
      have there : state.players.contains player = true := by simp [Dict.contains, found]
      have same := Dict.contains_insert_of_contains there
      constructor
      · simp [roster, same]
      · simp [Item.visited?, visit, visitors, same]
      · simp [chats]
  | @chats player text isClientEvent known =>
      have visit : item.visit? = none := by
        simp [Item.visit?, Submission.visit?, isClientEvent]
      constructor
      · simp [follow_news, roster]
      · simp [Item.visited?, visit, visitors]
      · simp [isChat_news, chats]

/-- The visits among items that are executed one after the other, as far as their
handlers are successful. -/
def visitsOf (tick : Tick) : List Item → State → List Visit
  | [], _ => []
  | item :: rest, state =>
      let performed := (rules.registry.dispatch (.ofItem tick item) item).perform state
      (item.visited? performed.1).toList ++ visitsOf tick rest performed.2.state

/-- Items that are executed one after the other keep the agreement. -/
theorem Agrees.handling
    (agrees : Agrees state heard visits)
    (tick : Tick)
    (items : List Item) :
    Agrees (Effect.stateAfter (rules.handling tick items) state)
      (heard ++ (Effect.emittedBy (rules.handling tick items) state).map (·.content))
      (visits ++ visitsOf tick items state) := by
  induction items generalizing state heard visits with
  | nil =>
      rw [visitsOf, List.append_nil]
      exact (List.append_nil heard).symm ▸ agrees
  | cons item rest inductionHypothesis =>
      have later := inductionHypothesis (agrees.does (Arena.does tick state item))
      rw [List.append_assoc, List.append_assoc, ← List.map_append] at later
      exact later

/-- A tick keeps the agreement, and its number is the last one of the arena. -/
theorem Agrees.executing
    (agrees : Agrees state heard visits)
    (tick : Tick)
    (items : List Item) :
    let after := Effect.stateAfter
      (rules.handling tick items ++ [rules.update (.ofTick tick)]) state
    Agrees after (heard ++ (rules.events tick items state).map (·.content))
        (visits ++ visitsOf tick items state) ∧
      after.tick = tick := by
  have handled := agrees.handling tick items
  have silent (state : State) : Effect.emittedBy [rules.update (.ofTick tick)] state = [] := rfl
  intro after
  rw [Rules.events, Effect.emittedBy_append, silent, List.append_nil]
  rw [show after = _ from Effect.stateAfter_append _ _ state]
  refine ⟨⟨fun player => ?_, fun player => ?_, handled.chats⟩, rfl⟩
  · exact (handled.roster player).trans (by rw [← Dict.contains_map _ Avatar.advance]; rfl)
  · exact (Dict.contains_map _ _ _).trans (handled.visitors player)

/-- The events that ticks have emitted, with their types and payloads. -/
def heardFrom (past : List (Execution State)) : List (String × Json) :=
  (past.flatMap (·.outcome.serverEvents)).map (·.content)

/-- The joins and leaves that were successful in ticks. -/
def visitsIn (past : List (Execution State)) : List Visit :=
  past.flatMap fun execution =>
    visitsOf execution.outcome.tick execution.outcome.executed execution.before

/-- Recorded events have the types and payloads of the events that were emitted. -/
theorem map_content_records (tick : Tick) (first : Numbering) (events : List Event) :
    (TickRun.records tick first events).map (·.content) = events.map (·.content) := by
  have unnumbered := congrArg (List.map Event.content)
    (List.zipIdx_map_fst first.next.toNat events)
  rw [List.map_map] at unnumbered
  rw [TickRun.records, List.map_map]
  exact unnumbered

/-- Ticks that were executed one after the other keep the agreement, and the last of
them has given its number to the arena. -/
theorem agrees_of_executes
    {first numbering : Numbering}
    {past : List (Execution State)}
    (executes : rules.Executes {} first past state numbering) :
    Agrees state (heardFrom past) (visitsIn past) ∧
      ∀ last ∈ past.getLast?, state.tick = last.outcome.tick := by
  induction executes with
  | begins => exact ⟨⟨fun player => by simp [heardFrom], fun player => rfl, rfl⟩, nofun⟩
  | numbered older behind inductionHypothesis => exact inductionHypothesis
  | @executed past state numbering tick items totals outcome older ended inductionHypothesis =>
      obtain ⟨agrees, isTick⟩ := inductionHypothesis.1.executing tick items
      have completes := Rules.completes_of_result ended
      obtain rfl := Except.ok.inj (ended.symm.trans completes.result)
      rw [completes.state]
      refine ⟨?_, fun last isLast => ?_⟩
      · simpa [heardFrom, visitsIn, map_content_records] using agrees
      · rw [List.getLast?_concat, Option.mem_some_iff] at isLast
        exact isTick.trans (congrArg (·.outcome.tick) isLast)

end Following

/-- After any ticks that have come to their ends, whatever their items, the players in an
arena are those that somebody knows who has followed the events from an empty arena on.
They are the players whose last successful visit is a join.  Every chat message is
counted, and the arena has the number of the last tick. -/
theorem roster_follows_events
    {first numbering : Numbering}
    {past : List (Execution State)}
    {state : State}
    (executes : rules.Executes {} first past state numbering) :
    state.players.keys.toFinset = (heardFrom past).foldl follow ∅ ∧
      (∀ player, state.players.contains player = true ↔
        ((visitsIn past).filter (·.player = some player)).getLast? =
          some ⟨.join, some player⟩) ∧
      state.chats.toNat = (heardFrom past).countP isChat ∧
      ∀ last ∈ past.getLast?, state.tick = last.outcome.tick := by
  obtain ⟨⟨roster, visitors, chats⟩, isTick⟩ := agrees_of_executes executes
  refine ⟨?_, fun player => ?_, ?_, isTick⟩
  · ext player
    rw [roster, List.mem_toFinset, Dict.keys, List.mem_map, Dict.contains_iff]
    constructor
    · rintro ⟨entry, member, rfl⟩
      exact ⟨entry.2, member⟩
    · rintro ⟨avatar, member⟩
      exact ⟨_, member, rfl⟩
  · rw [visitors, present_iff_getLast?]
  · have fits := executes.length_serverEvents
    have bound := numbering.next.toNat_lt
    have counted : (heardFrom past).countP isChat ≤
        (past.flatMap (·.outcome.serverEvents)).length :=
      List.countP_le_length.trans (Nat.le_of_eq (List.length_map _))
    rw [chats]
    exact UInt64.toNat_ofNat_of_lt' (by rw [UInt64.size]; omega)

/-- In the first tick a player joins, walks off and speaks, and another one cannot join
for want of a spawn point.  In the second tick the other player joins, the first one
leaves twice, and somebody leaves who was never there. -/
theorem roster_follows_events_of_visits :
    let spawn : ResolverOutputs := (∅ : ResolverOutputs).insert "spawn"
      ⟨"SpawnPoint", .object [("x", .ofInt64 3), ("y", .ofInt64 4)]⟩
    let as (player : String) : Actor := { Actor.nobody with player := some player }
    let item (sequence : Sequence) (inbound : Inbound) (outputs : ResolverOutputs) : Item :=
      (inbound.submission sequence).resolve outputs 0
    let morning : List Item :=
      [item 0 (.lifecycle .join (as "ann") {}) spawn,
        item 1 (.action "MoveTo" (.object [("x", .ofInt64 9), ("y", .ofInt64 4)]) (as "ann")) ∅,
        item 2 (.clientEvent "Chat" (.object [("text", .string " hello ")]) (as "ann")) ∅,
        item 3 (.lifecycle .join (as "bob") {}) ∅]
    let evening : List Item :=
      [item 7 (.lifecycle .join (as "bob") {}) spawn,
        item 8 (.lifecycle .leave (as "ann") {}) ∅,
        item 9 (.lifecycle .leave (as "ann") {}) ∅,
        item 10 (.lifecycle .leave (as "eve") {}) ∅]
    let first := rules.execute 0 morning {} {} {}
    let second := rules.execute 1 evening first.state ⟨11⟩ first.stats
    ∃ past,
      rules.Executes {} {} past second.state second.numbering ∧
        second.state.players.keys = ["bob"] ∧
        (heardFrom past).map (·.1) =
          ["PlayerJoined", "ChatMessage", "PlayerJoined", "PlayerLeft"] ∧
        second.state.players.keys.toFinset = (heardFrom past).foldl follow ∅ ∧
        (∀ player, second.state.players.contains player = true ↔
          ((visitsIn past).filter (·.player = some player)).getLast? =
            some ⟨.join, some player⟩) ∧
        second.state.chats.toNat = (heardFrom past).countP isChat ∧
        second.state.tick = 1 := by
  intro spawn as item morning evening first second
  have morningEnds :=
    (rules.completes_of_room 0 morning {} {} {} (by decide +kernel)).result
  have eveningEnds :=
    (rules.completes_of_room 1 evening first.state ⟨11⟩ first.stats (by decide +kernel)).result
  have behind : first.numbering.Behind ⟨11⟩ :=
    of_decide_eq_true (p := first.numbering.next.toNat ≤ 11) (by decide +kernel)
  have executes : rules.Executes {} {} _ second.state second.numbering :=
    .executed (.numbered (.executed .begins morningEnds) behind) eveningEnds
  obtain ⟨roster, visitors, chats, isTick⟩ := roster_follows_events executes
  refine ⟨_, executes, ?_, ?_, roster, visitors, chats, isTick _ rfl⟩
  · decide +kernel
  · decide +kernel

end Arena
end Chronicle
