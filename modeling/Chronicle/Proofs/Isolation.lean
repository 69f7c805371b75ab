import Chronicle.Proofs.Roster

/-!
# What an item leaves alone in an arena

An item in an arena is refused and nothing has happened, or it is accepted and touches
nothing but what its kind is for: the avatar of its own player, or the number of chat
messages.  Which items are accepted can be told from the item and the players who are
there.
-/

namespace Chronicle
namespace Arena

variable {state : State} {item : Item}

/-! ## What is left alone -/

/-- Between two states of an arena nothing has changed but what an item of a kind may
change for its player. -/
structure Isolated (kind : ItemKind) (player : String) (before after : State) : Prop where
  others : ∀ other, other ≠ player → after.players.get? other = before.players.get? other
  silent : kind ≠ .clientEvent → after.chats = before.chats ∧ after.tick = before.tick
  speaks : kind = .clientEvent → after = { before with chats := before.chats + 1 }
  walks : kind = .action → ∃ avatar targetX targetY,
    before.players.get? player = some avatar ∧
      after.players.get? player = some { avatar with targetX := targetX, targetY := targetY } ∧
      ∀ other, after.players.contains other = before.players.contains other

/-- A refused item has done nothing. -/
theorem Does.of_error
    {performed : Except LandError Unit × Scene State}
    (does : Does item state performed)
    {error : LandError}
    (failed : performed.1 = .error error) :
    performed.2 = ⟨state, []⟩ := by
  cases does with
  | refused => rfl
  | joins => cases failed
  | leaves => cases failed
  | walks => cases failed
  | chats => cases failed

/-- An accepted item has a player, and leaves alone what is not for its kind. -/
theorem Does.isolated
    {performed : Except LandError Unit × Scene State}
    (does : Does item state performed)
    (done : performed.1 = .ok ()) :
    ∃ player, item.actor.player = some player ∧
      Isolated item.kind player state performed.2.state := by
  cases does with
  | refused => cases done
  | @joins player spawn isGuest isJoin known =>
      refine ⟨player, known, ⟨fun other different => ?_, fun _ => ⟨rfl, rfl⟩, ?_, ?_⟩⟩
      · exact Dict.get?_insert_of_ne _ _ different
      · simp [isJoin]
      · simp [isJoin]
  | @leaves player isLeave known there =>
      refine ⟨player, known, ⟨fun other different => ?_, fun _ => ⟨rfl, rfl⟩, ?_, ?_⟩⟩
      · exact Dict.get?_erase_of_ne _ different
      · simp [isLeave]
      · simp [isLeave]
  | @walks player avatar targetX targetY isAction known found =>
      have there : state.players.contains player = true := by simp [Dict.contains, found]
      refine ⟨player, known, ⟨fun other different => ?_, fun _ => ⟨rfl, rfl⟩, ?_, fun _ => ?_⟩⟩
      · exact Dict.get?_insert_of_ne _ _ different
      · simp [isAction]
      · exact ⟨avatar, targetX, targetY, found, Dict.get?_insert_self _ _ _,
          Dict.contains_insert_of_contains there _⟩
  | @chats player text isClientEvent known =>
      refine ⟨player, known, ⟨fun _ _ => rfl, ?_, fun _ => rfl, ?_⟩⟩
      · simp [isClientEvent]
      · simp [isClientEvent]

/-! ## What is accepted -/

/-- A chat message that is passed on: without the blanks around it, it is not empty and
not too long. -/
def Chat.Speakable (chat : Chat) : Prop :=
  let text := String.ofList (Text.trim chat.text.toList)
  text.isEmpty = false ∧ text.utf8ByteSize ≤ maxChatLength

/-- An item that the handlers of an arena accept: it has a player, what it brings can be
read, and whoever walks or leaves is there. -/
def Accepts (state : State) (item : Item) : Prop :=
  ∃ player, item.actor.player = some player ∧
    match item.kind with
    | .action =>
        item.type = Typed.name MoveTo ∧ (∃ moveTo, readAs MoveTo item.payload = .ok moveTo) ∧
          state.players.contains player = true
    | .clientEvent =>
        item.type = Typed.name Chat ∧
          ∃ chat, readAs Chat item.payload = .ok chat ∧ chat.Speakable
    | .lifecycle .join => Spawned item.outputs
    | .lifecycle .leave => state.players.contains player = true

section Accepted

variable {context : Context}

/-- What is looked up before anything happens has to be there. -/
theorem lookup_eq_ok_iff
    {α : Type}
    {result : Except LandError α}
    {next : α → Effect State Unit} :
    (((liftM result : Effect State α) >>= next) ⟨state, []⟩).1 = .ok () ↔
      ∃ value, result = .ok value ∧ (next value ⟨state, []⟩).1 = .ok () := by
  rw [Effect.bind_apply, Effect.liftM_apply]
  cases result with
  | error error => simp
  | ok value => simp

theorem player_eq_ok_iff {player : String} :
    context.player = .ok player ↔ context.actor.player = some player := by
  unfold Context.player
  cases context.actor.player <;> simp

theorem spawned_iff :
    (∃ spawn, context.resolved SpawnPoint "spawn" = .ok spawn) ↔ Spawned context.outputs := by
  unfold Context.resolved Spawned
  cases context.outputs.get? "spawn" with
  | none => simp
  | some output => simp

theorem onJoin_eq_ok_iff (details : LifecycleDetails) :
    ((onJoin context details).perform state).1 = .ok () ↔
      ∃ player, context.actor.player = some player ∧ Spawned context.outputs := by
  refine lookup_eq_ok_iff.trans (exists_congr fun player => and_congr player_eq_ok_iff ?_)
  refine lookup_eq_ok_iff.trans (Iff.trans ?_ spawned_iff)
  refine exists_congr fun spawn => and_iff_left ?_
  simp only [Effect.bind_apply, Effect.modifyState_apply,
    Effect.emit_of_encode _ (encode_joined player spawn)]

theorem onLeave_eq_ok_iff (details : LifecycleDetails) :
    ((onLeave context details).perform state).1 = .ok () ↔
      ∃ player, context.actor.player = some player ∧ state.players.contains player = true := by
  refine lookup_eq_ok_iff.trans (exists_congr fun player => and_congr player_eq_ok_iff ?_)
  rw [Effect.bind_apply, Effect.state_apply]
  dsimp only
  split
  · rename_i there
    exact iff_of_true rfl there
  · rename_i absent
    exact iff_of_false nofun absent

theorem onMoveTo_eq_ok_iff (payload : Json) :
    ((Registry.decoding MoveTo onMoveTo context payload).perform state).1 = .ok () ↔
      ∃ player, context.actor.player = some player ∧
        (∃ moveTo, readAs MoveTo payload = .ok moveTo) ∧
          state.players.contains player = true := by
  have walks (moveTo : MoveTo) :
      ((onMoveTo context moveTo) ⟨state, []⟩).1 = .ok () ↔
        ∃ player, context.actor.player = some player ∧
          state.players.contains player = true := by
    refine lookup_eq_ok_iff.trans (exists_congr fun player => and_congr player_eq_ok_iff ?_)
    rw [Effect.bind_apply, Effect.state_apply]
    cases found : state.players.get? player with
    | none => simp [found, Dict.contains]
    | some avatar => simp [found, Dict.contains]
  refine lookup_eq_ok_iff.trans ?_
  simp only [walks]
  constructor
  · rintro ⟨moveTo, read, player, known, there⟩
    exact ⟨player, known, ⟨moveTo, read⟩, there⟩
  · rintro ⟨player, known, ⟨moveTo, read⟩, there⟩
    exact ⟨moveTo, read, player, known, there⟩

theorem onChat_eq_ok_iff (payload : Json) :
    ((Registry.decoding Chat onChat context payload).perform state).1 = .ok () ↔
      ∃ player, context.actor.player = some player ∧
        ∃ chat, readAs Chat payload = .ok chat ∧ chat.Speakable := by
  have speaks (chat : Chat) :
      ((onChat context chat) ⟨state, []⟩).1 = .ok () ↔
        chat.Speakable ∧ ∃ player, context.actor.player = some player := by
    unfold onChat
    split
    · rename_i unspeakable
      refine iff_of_false nofun fun ⟨⟨notEmpty, short⟩, _⟩ => ?_
      simp [notEmpty, Nat.not_lt.2 short] at unspeakable
    · rename_i speakable
      have isSpeakable : chat.Speakable := by
        simpa [Chat.Speakable] using speakable
      rw [and_iff_right isSpeakable]
      refine lookup_eq_ok_iff.trans (exists_congr fun player => ?_)
      rw [player_eq_ok_iff]
      refine and_iff_left ?_
      simp only [Effect.bind_apply, Effect.modifyState_apply,
        Effect.emit_of_encode _ (encode_chat player _)]
  refine lookup_eq_ok_iff.trans ?_
  simp only [speaks]
  constructor
  · rintro ⟨chat, read, speakable, player, known⟩
    exact ⟨player, known, chat, read, speakable⟩
  · rintro ⟨player, known, chat, read, speakable⟩
    exact ⟨chat, read, speakable, player, known⟩

/-- An item is successful exactly if it is one that the handlers accept. -/
theorem dispatch_eq_ok_iff (tick : Tick) (state : State) (item : Item) :
    ((rules.registry.dispatch (.ofItem tick item) item).perform state).1 = .ok () ↔
      Accepts state item := by
  unfold Registry.dispatch Accepts
  cases item.kind with
  | action =>
      dsimp only
      cases found : rules.registry.actions.get? item.type with
      | none =>
          have other : item.type ≠ Typed.name MoveTo := fun isMoveTo =>
            nomatch found.symm.trans (get?_actions_eq_some_iff.2 ⟨isMoveTo, rfl⟩)
          simp [other, Effect.perform_eq]
      | some registration =>
          obtain ⟨isMoveTo, rfl⟩ := get?_actions_eq_some_iff.1 found
          simp only [isMoveTo, true_and]
          exact onMoveTo_eq_ok_iff item.payload
  | clientEvent =>
      dsimp only
      cases found : rules.registry.clientEvents.get? item.type with
      | none =>
          have other : item.type ≠ Typed.name Chat := fun isChat =>
            nomatch found.symm.trans (get?_clientEvents_eq_some_iff.2 ⟨isChat, rfl⟩)
          simp [other, Effect.perform_eq]
      | some handler =>
          obtain ⟨isChat, rfl⟩ := get?_clientEvents_eq_some_iff.1 found
          simp only [isChat, true_and]
          exact onChat_eq_ok_iff item.payload
  | lifecycle kind =>
      cases kind with
      | join => exact onJoin_eq_ok_iff (item.details.getD {})
      | leave => exact onLeave_eq_ok_iff (item.details.getD {})

end Accepted

/-- A refused item leaves the state as it was and emits nothing. An accepted one acts for a
player: it leaves the avatars of all others alone, it changes neither the tick nor the
number of chat messages unless it is a chat message, which adds one to the number and
changes nothing else, and a walk changes only the player's target. An item is accepted
exactly if it has a player, what it brings can be read, and whoever walks or leaves is
there. -/
theorem items_touch_own_avatars (tick : Tick) (state : State) (item : Item) :
    let performed := (rules.registry.dispatch (.ofItem tick item) item).perform state
    (∀ error, performed.1 = .error error →
        performed.2.state = state ∧ performed.2.emitted = []) ∧
      (performed.1 = .ok () →
        ∃ player, item.actor.player = some player ∧
          Isolated item.kind player state performed.2.state) ∧
      (performed.1 = .ok () ↔ Accepts state item) := by
  intro performed
  have does : Does item state performed := Arena.does tick state item
  refine ⟨fun error failed => ?_, does.isolated, dispatch_eq_ok_iff tick state item⟩
  rw [does.of_error failed]
  exact ⟨rfl, rfl⟩

/-- Two players are in an arena.  One of them walks off, beyond the edge of the world;
somebody leaves who is not there. -/
theorem items_touch_own_avatars_of_walk :
    let here (x y : Int) : Avatar := .standingAt (.ofInt x) (.ofInt y) false
    let state : State :=
      { tick := 7, players := .ofList [("ann", here 1 2), ("bob", here 3 4)], chats := 5 }
    let as (player : String) : Actor := { Actor.nobody with player := some player }
    let item (inbound : Inbound) : Item := (inbound.submission 0).resolve ∅ 8
    let walk := item
      (.action "MoveTo" (.object [("x", .ofInt64 900), ("y", .ofInt64 4)]) (as "ann"))
    let leave := item (.lifecycle .leave (as "eve") {})
    let walked := (rules.registry.dispatch (.ofItem 8 walk) walk).perform state
    let left := (rules.registry.dispatch (.ofItem 8 leave) leave).perform state
    (walked.1 = .ok () ∧ walked.2.state ≠ state ∧
      ∃ player, walk.actor.player = some player ∧
        Isolated .action player state walked.2.state) ∧
    left.1 = .error (.handler "player eve is not in the arena") ∧
      left.2.state = state ∧ left.2.emitted = [] := by
  intro here state as item walk leave walked left
  have accepted : walked.1 = .ok () := by decide +kernel
  have refused : left.1 = .error (.handler "player eve is not in the arena") := by
    decide +kernel
  exact ⟨⟨accepted, by decide +kernel, (items_touch_own_avatars 8 state walk).2.1 accepted⟩,
    refused, (items_touch_own_avatars 8 state leave).1 _ refused⟩

end Arena
end Chronicle
