import Chronicle.Proofs.Turnover
import Mathlib.Data.List.Dedup

/-!
# Clients over a lifetime

Clients are added, removed, heard of and dropped in any order and at any times.
At every moment each of them is found under its own address, no two of them are
one player, and no more are connected than there is room for.  The ids that are
handed out are all different, for each carries a number of its own.  So a target
reaches every client it includes once.
-/

namespace Chronicle
namespace Clients

variable {clients : Clients} {capacity : Nat} {granted : List Actor}

/-- At the beginning nobody is connected. -/
def fresh (room timeout : Nat) : Clients := { capacity := room, timeout := timeout }

/-! ## Changes -/

/-- What is done to the clients, with the time at which it is done. -/
inductive Change where
  | add (address : Address) (player : String) (clock : Clock)
  | remove (address : Address)
  | touch (address : Address) (clock : Clock)
  | dropSilent (clock : Clock)
  deriving Repr, DecidableEq

/-- The identity that a change hands out. -/
def granted? (clients : Clients) : Change → Option Actor
  | .add address player clock => (clients.add? address player clock).map (·.1)
  | _ => none

/-- The clients after a change.  An add that is refused leaves them as they are. -/
def after (clients : Clients) : Change → Clients
  | .add address player clock =>
      match clients.add? address player clock with
      | some (_, after) => after
      | none => clients
  | .remove address => clients.remove address
  | .touch address clock => clients.touch address clock
  | .dropSilent clock => (clients.dropSilent clock).2

/-- The clients after several changes. -/
def afterAll (clients : Clients) (changes : List Change) : Clients := changes.foldl after clients

/-- The identities that several changes hand out, in order. -/
def grantedBy (clients : Clients) : List Change → List Actor
  | [] => []
  | change :: rest => (clients.granted? change).toList ++ (clients.after change).grantedBy rest

/-- A client is refused when all places are taken and when the player is connected. -/
theorem add?_eq_none_iff {address : Address} {player : String} {clock : Clock} :
    clients.add? address player clock = none ↔
      clients.capacity ≤ clients.size ∨ clients.Holds player := by
  rw [← isSome_byPlayer?, add?]
  split
  · rename_i full
    exact iff_of_true rfl (.inl full)
  · rename_i room
    split
    · rename_i present
      exact iff_of_true rfl (.inr present)
    · rename_i absent
      exact iff_of_false (Option.some_ne_none _) (not_or.2 ⟨room, absent⟩)

/-- A change connects nobody but whom it hands an identity. -/
theorem identities_after (clients : Clients) (change : Change) :
    (clients.after change).identities.Subperm
      ((clients.granted? change).toList ++ clients.identities) := by
  have kept {gone : List Actor} {after : Clients}
      (parted : (gone ++ after.identities).Perm clients.identities) :
      after.identities.Subperm clients.identities :=
    (List.sublist_append_right gone _).subperm.trans parted.subperm
  cases change with
  | add address player clock =>
      rw [after, granted?]
      cases added : clients.add? address player clock with
      | none => exact List.Subperm.refl _
      | some pair =>
          obtain ⟨-, -, isAfter⟩ := add?_eq_some added
          have connected : pair.2.identities.Perm
              (pair.1 :: (clients.remove address).identities) := by
            rw [isAfter]
            exact (Dict.values_insert_perm_erase _ _ _).map Session.identity
          exact connected.subperm.trans
            ((List.subperm_cons pair.1).2 (kept (identities_remove clients address)))
  | remove address => exact kept (identities_remove clients address)
  | touch address clock => exact (identities_touch clients address clock).subperm
  | dropSilent clock => exact kept (identities_dropSilent clients clock)

/-- Every session is found under its own address. -/
def AtHome (clients : Clients) : Prop :=
  ∀ address session, clients.byAddress? address = some session → session.address = address

theorem AtHome.after (atHome : clients.AtHome) (change : Change) :
    (clients.after change).AtHome := by
  have inserted {sessions : Dict Address Session} {address : Address} {session : Session}
      (former : sessions = clients.sessions)
      (own : session.address = address)
      (other : Address) (found : Session)
      (here : (sessions.insert address session).get? other = some found) :
      found.address = other := by
    rcases Dict.mem_entries_insert.1 (Dict.get?_eq_some_iff.1 here) with same | ⟨member, -⟩
    · obtain ⟨rfl, rfl⟩ := Prod.mk.inj same
      exact own
    · exact atHome other found (Dict.get?_eq_some_iff.2 (former ▸ member))
  cases change with
  | add address player clock =>
      rw [Clients.after]
      cases added : clients.add? address player clock with
      | none => exact atHome
      | some pair =>
          obtain ⟨-, -, isAfter⟩ := add?_eq_some added
          dsimp only
          rw [isAfter]
          exact inserted rfl rfl
  | remove address =>
      intro other session found
      have member := (Dict.mem_entries_erase.1 (Dict.get?_eq_some_iff.1 found)).1
      exact atHome other session (Dict.get?_eq_some_iff.2 member)
  | touch address clock =>
      rw [Clients.after, Clients.touch]
      split
      · rename_i session found
        exact inserted rfl (atHome address session found)
      · exact atHome
  | dropSilent clock =>
      intro other session found
      have member := (Dict.mem_entries_filter.1 (Dict.get?_eq_some_iff.1 found)).1
      exact atHome other session (Dict.get?_eq_some_iff.2 member)

/-- A change leaves the room as it is, and counts the identity that it hands out. -/
theorem numbers_after (clients : Clients) (change : Change) :
    (clients.after change).capacity = clients.capacity ∧
      (clients.after change).nextNumber =
        clients.nextNumber + .ofNat (clients.granted? change).toList.length := by
  have uncounted : clients.nextNumber = clients.nextNumber + 0 := (UInt32.add_zero _).symm
  cases change with
  | add address player clock =>
      rw [after, granted?]
      cases added : clients.add? address player clock with
      | none => exact ⟨rfl, uncounted⟩
      | some pair =>
          obtain ⟨-, -, isAfter⟩ := add?_eq_some added
          dsimp only
          rw [isAfter]
          exact ⟨rfl, rfl⟩
  | remove address => exact ⟨rfl, uncounted⟩
  | touch address clock =>
      rw [after, touch]
      split <;> exact ⟨rfl, uncounted⟩
  | dropSilent clock => exact ⟨rfl, uncounted⟩

/-- The identity that a change hands out has the number that is next, and belongs
to a player who was not connected. -/
theorem granted?_eq_some
    {change : Change}
    {identity : Actor}
    (isGranted : clients.granted? change = some identity) :
    clients.size < clients.capacity ∧
      ∃ player clock, identity = identityOf player clients.nextNumber clock ∧
        ¬clients.Holds player := by
  cases change with
  | add address player clock =>
      obtain ⟨pair, added, rfl⟩ := Option.map_eq_some_iff.1 isGranted
      obtain ⟨absent, isIdentity, -⟩ := add?_eq_some added
      have room : ¬clients.capacity ≤ clients.size := fun full => by
        rw [add?_eq_none_iff.2 (.inl full)] at added
        cases added
      exact ⟨Nat.lt_of_not_le room, player, clock, isIdentity, absent⟩
  | remove address => cases isGranted
  | touch address clock => cases isGranted
  | dropSilent clock => cases isGranted

/-! ## Ids -/

/-- The id of a session that the client of a number begins at a time of day. -/
def sessionId (wall : UInt64) (number : UInt32) : String := s!"s{wall.toNat}-{number.toNat}"

/-- The dash ends the time of day and begins the number, so sessions of different
numbers have different ids, whatever their times are. -/
theorem eq_of_sessionId_eq
    {wall otherWall : UInt64}
    {number otherNumber : UInt32}
    (same : sessionId wall number = sessionId otherWall otherNumber) :
    number = otherNumber := by
  have noDash (n : Nat) : '-' ∉ Nat.toDigits 10 n := fun member =>
    absurd (Nat.isDigit_of_mem_toDigits (by decide) (by decide) member) (by decide)
  have chars : Nat.toDigits 10 wall.toNat ++ '-' :: Nat.toDigits 10 number.toNat =
      Nat.toDigits 10 otherWall.toNat ++ '-' :: Nat.toDigits 10 otherNumber.toNat := by
    have texts := congrArg String.toList same
    simpa [sessionId, toString, Nat.repr_eq_ofList_toDigits] using texts
  obtain ⟨-, -, digits⟩ := (List.append_cons_inj_of_notMem (noDash _) (noDash _)).1 chars
  have numbers := congrArg (Nat.ofDigitChars 10 · 0) digits
  rw [Nat.ofDigitChars_ten_toDigits, Nat.ofDigitChars_ten_toDigits] at numbers
  exact UInt32.toNat_inj.1 numbers

/-- Identities that are numbered from one on. -/
def Numbered (granted : List Actor) : Prop :=
  ∀ index identity, granted[index]? = some identity →
    ∃ player clock, identity = identityOf player (.ofNat (index + 1)) clock

theorem Numbered.snoc
    (numbered : Numbered granted)
    (player : String)
    (clock : Clock) :
    Numbered (granted ++ [identityOf player (.ofNat (granted.length + 1)) clock]) := by
  intro index identity found
  rw [List.getElem?_append] at found
  split at found
  · exact numbered index identity found
  · rename_i beyond
    rw [List.getElem?_singleton] at found
    split at found
    · rename_i isLast
      obtain rfl : index = granted.length := by omega
      exact ⟨player, clock, (Option.some.inj found).symm⟩
    · cases found

/-- Ids that tell the numbers apart are all different, until the numbers are used up. -/
theorem Numbered.nodup_map
    {id : Actor → Option String}
    (numbered : Numbered granted)
    (few : granted.length < UInt32.size - 1)
    (tellsApart : ∀ player number clock otherPlayer otherNumber otherClock,
      id (identityOf player number clock) = id (identityOf otherPlayer otherNumber otherClock) →
        number = otherNumber) :
    (granted.map id).Nodup := by
  refine List.pairwise_map.2 (List.pairwise_iff_getElem.2 ?_)
  intro first second isFirst isSecond before same
  obtain ⟨player, clock, isIdentity⟩ := numbered first _ (List.getElem?_eq_getElem isFirst)
  obtain ⟨other, otherClock, isOther⟩ := numbered second _ (List.getElem?_eq_getElem isSecond)
  rw [isIdentity, isOther] at same
  have numbers := congrArg UInt32.toNat (tellsApart _ _ _ _ _ _ same)
  rw [UInt32.toNat_ofNat_of_lt' (by omega), UInt32.toNat_ofNat_of_lt' (by omega)] at numbers
  omega

/-! ## Order -/

/-- Clients in order, after some identities were handed out: they have room, each is
at home, no two are one player, and each has one of the identities, which are
numbered. -/
structure Orderly (room : Nat) (clients : Clients) (granted : List Actor) : Prop where
  capacity : clients.capacity = room
  size_le : clients.size ≤ room
  atHome : clients.AtHome
  players : (clients.identities.map (·.player)).Nodup
  known : clients.identities ⊆ granted
  numbered : Numbered granted
  nextNumber : clients.nextNumber = .ofNat (granted.length + 1)

namespace Orderly

theorem fresh (room timeout : Nat) : Orderly room (fresh room timeout) [] where
  capacity := rfl
  size_le := Nat.zero_le _
  atHome _ _ found := nomatch found
  players := .nil
  known := List.nil_subset _
  numbered _ _ found := nomatch found
  nextNumber := rfl

/-- There is room for an identity that is handed out, its player is new, and it has
the next number. -/
theorem newcomer
    (orderly : Orderly room clients granted)
    (change : Change) :
    (clients.granted? change).toList.length + clients.size ≤ room ∧
      (((clients.granted? change).toList ++ clients.identities).map (·.player)).Nodup ∧
      Numbered (granted ++ (clients.granted? change).toList) := by
  cases isGranted : clients.granted? change with
  | none =>
      rw [Option.toList_none, List.append_nil, List.length_nil, Nat.zero_add]
      exact ⟨orderly.size_le, orderly.players, orderly.numbered⟩
  | some identity =>
      obtain ⟨vacancy, player, clock, rfl, absent⟩ := granted?_eq_some isGranted
      rw [orderly.capacity] at vacancy
      refine ⟨?_, List.nodup_cons.2 ⟨fun member => absent ?_, orderly.players⟩, ?_⟩
      · rw [Option.toList_some, List.length_singleton]
        omega
      · simpa [identities, Dict.values, Holds, identityOf, Actor.ofIds] using member
      · rw [orderly.nextNumber]
        exact orderly.numbered.snoc player clock

/-- Clients in order stay in order. -/
theorem after
    (orderly : Orderly room clients granted)
    (change : Change) :
    Orderly room (clients.after change) (granted ++ (clients.granted? change).toList) := by
  have connected := identities_after clients change
  obtain ⟨sameRoom, number⟩ := numbers_after clients change
  obtain ⟨fits, players, numbered⟩ := orderly.newcomer change
  have length (clients : Clients) : clients.identities.length = clients.size := by
    rw [identities, List.length_map, Dict.values, List.length_map]
    rfl
  have fewer := connected.length_le
  rw [List.length_append, length, length] at fewer
  have known := connected.subset
  obtain ⟨part, same, within⟩ := connected
  exact
    { capacity := sameRoom.trans orderly.capacity
      size_le := fewer.trans fits
      atHome := orderly.atHome.after change
      players := (same.map (·.player)).nodup_iff.1 (players.sublist (within.map (·.player)))
      known := fun identity member => by
        rcases List.mem_append.1 (known member) with new | older
        · exact List.mem_append_right _ new
        · exact List.mem_append_left _ (orderly.known older)
      numbered := numbered
      nextNumber := by
        rw [number, orderly.nextNumber, ← UInt32.ofNat_add, List.length_append,
          Nat.add_right_comm] }

/-- Clients in order stay in order, whatever happens. -/
theorem afterAll
    (orderly : Orderly room clients granted)
    (changes : List Change) :
    Orderly room (clients.afterAll changes) (granted ++ clients.grantedBy changes) := by
  induction changes generalizing clients granted with
  | nil =>
      rw [grantedBy, List.append_nil]
      exact orderly
  | cons change rest inductionHypothesis =>
      have next := inductionHypothesis (orderly.after change)
      rw [List.append_assoc] at next
      exact next

/-- One player has one session. -/
theorem eq_of_player_eq
    {entry other : Address × Session}
    (orderly : Orderly room clients granted)
    (here : entry ∈ clients.sessions.entries)
    (there : other ∈ clients.sessions.entries)
    (same : entry.2.identity.player = other.2.identity.player) :
    entry = other := by
  have players := orderly.players
  rw [identities, Dict.values, List.map_map, List.map_map] at players
  exact List.inj_on_of_nodup_map players here there same

/-- The session of a player is the one that is found at its address. -/
theorem byPlayer?_eq_some_iff
    {player : String}
    {session : Session}
    (orderly : Orderly room clients granted) :
    clients.byPlayer? player = some session ↔
      clients.byAddress? session.address = some session ∧
        session.identity.player = some player := by
  have atPlace {entry : Address × Session} (member : entry ∈ clients.sessions.entries) :
      entry.2.address = entry.1 := orderly.atHome _ _ (Dict.get?_eq_some_iff.2 member)
  constructor
  · intro found
    obtain ⟨entry, first, rfl⟩ := Option.map_eq_some_iff.1 found
    have member := List.mem_of_find?_eq_some first
    have own := List.find?_some (p := fun entry : Address × Session =>
      entry.2.identity.player == some player) first
    rw [atPlace member]
    exact ⟨Dict.get?_eq_some_iff.2 member, beq_iff_eq.1 own⟩
  · rintro ⟨here, own⟩
    have member := Dict.get?_eq_some_iff.1 here
    obtain ⟨other, found⟩ := Option.isSome_iff_exists.1
      (isSome_byPlayer?.2 ⟨_, member, own⟩ : (clients.byPlayer? player).isSome = true)
    obtain ⟨entry, first, rfl⟩ := Option.map_eq_some_iff.1 found
    have others := List.find?_some (p := fun entry : Address × Session =>
      entry.2.identity.player == some player) first
    have same := orderly.eq_of_player_eq (List.mem_of_find?_eq_some first) member
      ((beq_iff_eq.1 others).trans own.symm)
    rw [found, same]

end Orderly

/-! ## Delivery -/

section Delivery

variable {address : Address} {target : Target}

/-- The addresses for a target are those under which the sessions stand that it
includes. -/
theorem AtHome.addressesFor_eq (atHome : clients.AtHome) (target : Target) :
    clients.addressesFor target =
      (clients.sessions.filter fun entry => target.includes entry.2.identity).keys := by
  rw [addressesFor, Dict.values, List.filter_map, List.map_map]
  refine List.map_congr_left fun entry member => ?_
  exact atHome entry.1 entry.2 (Dict.get?_eq_some_iff.2 (List.mem_filter.1 member).1)

theorem AtHome.mem_addressesFor (atHome : clients.AtHome) :
    address ∈ clients.addressesFor target ↔
      ∃ session, clients.byAddress? address = some session ∧
        target.includes session.identity = true := by
  rw [atHome.addressesFor_eq, Dict.keys, List.mem_map]
  constructor
  · rintro ⟨entry, member, rfl⟩
    obtain ⟨connected, isIncluded⟩ := Dict.mem_entries_filter.1 member
    exact ⟨entry.2, Dict.get?_eq_some_iff.2 connected, isIncluded⟩
  · rintro ⟨session, found, isIncluded⟩
    exact ⟨(address, session),
      Dict.mem_entries_filter.2 ⟨Dict.get?_eq_some_iff.1 found, isIncluded⟩, rfl⟩

theorem AtHome.nodup_addressesFor (atHome : clients.AtHome) (target : Target) :
    (clients.addressesFor target).Nodup := by
  rw [atHome.addressesFor_eq]
  exact Dict.nodup_keys _

/-- Whom the targets reach: everybody whom they include, and nobody twice. -/
structure Delivers (clients : Clients) : Prop where
  once : ∀ target, (clients.addressesFor target).Nodup
  included : ∀ target address, address ∈ clients.addressesFor target ↔
    ∃ session, clients.byAddress? address = some session ∧ target.includes session.identity = true
  all : clients.addressesFor .all = clients.sessions.keys
  player : ∀ id, clients.addressesFor (.player id) =
    ((clients.byPlayer? id).map (·.address)).toList
  client : ∀ id, (clients.addressesFor (.client id)).length ≤ 1
  session : ∀ id, (clients.addressesFor (.session id)).length ≤ 1
  players : ∀ ids, (clients.addressesFor (.players ids)).Perm
    (ids.dedup.filterMap fun id => (clients.byPlayer? id).map (·.address))

namespace Orderly

/-- The address of a player's session is the one where the player is found. -/
theorem mem_place_iff
    {player : String}
    (orderly : Orderly room clients granted) :
    address ∈ (clients.byPlayer? player).map (·.address) ↔
      ∃ session, clients.byAddress? address = some session ∧
        session.identity.player = some player := by
  constructor
  · intro isPlace
    obtain ⟨session, found, rfl⟩ := Option.map_eq_some_iff.1 isPlace
    exact ⟨session, orderly.byPlayer?_eq_some_iff.1 found⟩
  · rintro ⟨session, here, own⟩
    obtain rfl := orderly.atHome address session here
    exact Option.map_eq_some_iff.2 ⟨session, orderly.byPlayer?_eq_some_iff.2 ⟨here, own⟩, rfl⟩

/-- A target that includes only the identities of one id reaches at most one client,
if the id was handed out once. -/
theorem length_addressesFor_le_one
    {id : Actor → Option String}
    {name : Option String}
    (orderly : Orderly room clients granted)
    (distinct : (granted.map id).Nodup)
    (isOne : ∀ actor, target.includes actor = true → id actor = name) :
    (clients.addressesFor target).length ≤ 1 := by
  have same {first second : Address}
      (isFirst : first ∈ clients.addressesFor target)
      (isSecond : second ∈ clients.addressesFor target) :
      first = second := by
    obtain ⟨session, here, included⟩ := orderly.atHome.mem_addressesFor.1 isFirst
    obtain ⟨other, there, includedToo⟩ := orderly.atHome.mem_addressesFor.1 isSecond
    have entry := Dict.get?_eq_some_iff.1 here
    have otherEntry := Dict.get?_eq_some_iff.1 there
    have isKnown {entry : Address × Session} (member : entry ∈ clients.sessions.entries) :
        entry.2.identity ∈ granted :=
      orderly.known (List.mem_map_of_mem (List.mem_map_of_mem member))
    have identities : session.identity = other.identity :=
      List.inj_on_of_nodup_map distinct (isKnown entry) (isKnown otherEntry)
        ((isOne _ included).trans (isOne _ includedToo).symm)
    have entries := orderly.eq_of_player_eq entry otherEntry (congrArg Actor.player identities)
    exact congrArg Prod.fst entries
  have once := orderly.atHome.nodup_addressesFor target
  match list : clients.addressesFor target with
  | [] => exact Nat.zero_le 1
  | [_] => exact Nat.le_refl 1
  | first :: second :: rest =>
      rw [list] at same once
      have equal := same List.mem_cons_self (List.mem_cons_of_mem _ List.mem_cons_self)
      exact absurd (equal ▸ List.mem_cons_self) (List.nodup_cons.1 once).1

/-- Targets reach whom they include, each of them once, if ids were handed out once. -/
theorem delivers
    (orderly : Orderly room clients granted)
    (clientIds : (granted.map (·.client)).Nodup)
    (sessionIds : (granted.map (·.session)).Nodup) :
    clients.Delivers where
  once := orderly.atHome.nodup_addressesFor
  included _ _ := orderly.atHome.mem_addressesFor
  all := by
    have everybody : (clients.sessions.filter fun entry =>
        Target.includes entry.2.identity .all) = clients.sessions :=
      Dict.ext (List.filter_eq_self.2 fun _ _ => rfl)
    rw [orderly.atHome.addressesFor_eq, everybody]
  player id := by
    have reached (address : Address) : address ∈ clients.addressesFor (.player id) ↔
        address ∈ (clients.byPlayer? id).map (·.address) := by
      rw [orderly.mem_place_iff, orderly.atHome.mem_addressesFor]
      simp only [Target.includes, beq_iff_eq]
    cases place : (clients.byPlayer? id).map (·.address) with
    | none =>
        refine List.eq_nil_iff_forall_not_mem.2 fun address member => ?_
        have found := (reached address).1 member
        rw [place] at found
        cases found
    | some address =>
        refine List.perm_singleton.1 ((List.perm_ext_iff_of_nodup
          (orderly.atHome.nodup_addressesFor _) (List.nodup_singleton _)).2 fun other => ?_)
        rw [reached, place, Option.mem_some_iff, List.mem_singleton, eq_comm]
  client id := orderly.length_addressesFor_le_one clientIds fun _ => beq_iff_eq.1
  session id := orderly.length_addressesFor_le_one sessionIds fun _ => beq_iff_eq.1
  players ids := by
    have apart (player other : String) (address : Address)
        (here : address ∈ (clients.byPlayer? player).map (·.address))
        (there : address ∈ (clients.byPlayer? other).map (·.address)) :
        player = other := by
      obtain ⟨session, found, own⟩ := orderly.mem_place_iff.1 here
      obtain ⟨former, foundToo, ownToo⟩ := orderly.mem_place_iff.1 there
      obtain rfl := Option.some.inj (found.symm.trans foundToo)
      exact Option.some.inj (own.symm.trans ownToo)
    refine (List.perm_ext_iff_of_nodup (orderly.atHome.nodup_addressesFor _)
      ((List.nodup_dedup ids).filterMap apart)).2 fun address => ?_
    rw [orderly.atHome.mem_addressesFor, List.mem_filterMap]
    constructor
    · rintro ⟨session, found, included⟩
      obtain ⟨player, own, listed⟩ := (Option.any_eq_true ..).1 included
      exact ⟨player, List.mem_dedup.2 (List.contains_iff_mem.1 listed),
        orderly.mem_place_iff.2 ⟨session, found, own⟩⟩
    · rintro ⟨player, listed, place⟩
      obtain ⟨session, found, own⟩ := orderly.mem_place_iff.1 place
      exact ⟨session, found, (Option.any_eq_true ..).2
        ⟨player, own, List.contains_iff_mem.2 (List.mem_dedup.1 listed)⟩⟩

end Orderly
end Delivery

/-- Whatever happens to the clients and whenever, there is room for all that are connected,
each of them is found under its own address, no two of them are one player, and no client id
and no session id is handed out twice, until the numbers are used up.  So every target
reaches whom it includes, and nobody twice.  A client is refused when there is no room and
when the player is connected, and then nothing has changed. -/
theorem clients_stay_apart
    (room timeout : Nat)
    (changes : List Change)
    (few : ((fresh room timeout).grantedBy changes).length < UInt32.size - 1) :
    let clients := (fresh room timeout).afterAll changes
    let granted := (fresh room timeout).grantedBy changes
    clients.size ≤ room ∧
    (∀ address session, clients.byAddress? address = some session →
      session.address = address) ∧
    (clients.identities.map (·.player)).Nodup ∧
    ((granted.map (·.client)).Nodup ∧ (granted.map (·.session)).Nodup) ∧
    clients.Delivers ∧
    ∀ address player clock,
      (clients.add? address player clock = none ↔
        clients.size = room ∨ clients.Holds player) ∧
      (clients.add? address player clock = none →
        clients.after (.add address player clock) = clients) := by
  intro clients granted
  have orderly : Orderly room clients granted := (Orderly.fresh room timeout).afterAll changes
  have clientIds : (granted.map (·.client)).Nodup :=
    orderly.numbered.nodup_map few fun _ _ _ _ _ _ same => clientId_injective (Option.some.inj same)
  have sessionIds : (granted.map (·.session)).Nodup :=
    orderly.numbered.nodup_map few fun _ _ _ _ _ _ same => eq_of_sessionId_eq (Option.some.inj same)
  refine ⟨orderly.size_le, orderly.atHome, orderly.players, ⟨clientIds, sessionIds⟩,
    orderly.delivers clientIds sessionIds, fun address player clock => ⟨?_, fun refused => ?_⟩⟩
  · rw [add?_eq_none_iff, orderly.capacity]
    have withinRoom := orderly.size_le
    exact or_congr_left ⟨fun full => by omega, fun full => by omega⟩
  · rw [after, refused]

/-- Two players take turns at two addresses, while the time of day goes back. -/
theorem clients_stay_apart_of_return :
    let home : Address := ⟨.v4 2130706433, 4000⟩
    let away : Address := ⟨.v4 2130706433, 4001⟩
    let changes : List Change :=
      [.add home "zoë" ⟨0, 1000⟩, .add away "zoë" ⟨1, 1000⟩, .add home "amy" ⟨2, 1000⟩,
        .add away "zoë" ⟨3, 900⟩, .touch home ⟨6000000000, 900⟩, .dropSilent ⟨6000000000, 900⟩,
        .add away "zoë" ⟨6000000001, 1000⟩]
    let clients := (fresh 2 5000000000).afterAll changes
    let granted := (fresh 2 5000000000).grantedBy changes
    granted.length < UInt32.size - 1 ∧
    granted.map (·.session) = [some "s1000-1", some "s1000-2", some "s900-3", some "s1000-4"] ∧
    (granted.map (·.session)).Nodup ∧
    (clients.addressesFor (.players ["zoë", "amy", "zoë", "joe"])).Perm [home, away] ∧
    clients.after (.add ⟨.v4 2130706433, 4002⟩ "joe" ⟨6000000002, 1000⟩) = clients := by
  intro home away changes clients granted
  have few : granted.length < UInt32.size - 1 := by decide +kernel
  have sessions : granted.map (·.session) =
      [some "s1000-1", some "s1000-2", some "s900-3", some "s1000-4"] := by decide +kernel
  have full : clients.size = 2 := by decide +kernel
  have places : (["zoë", "amy", "zoë", "joe"].dedup.filterMap fun id =>
      (clients.byPlayer? id).map (·.address)) = [home, away] := by decide +kernel
  obtain ⟨-, -, -, ⟨-, distinct⟩, delivers, refusal⟩ := clients_stay_apart 2 5000000000 changes few
  have reached := delivers.players ["zoë", "amy", "zoë", "joe"]
  obtain ⟨refused, unchanged⟩ := refusal ⟨.v4 2130706433, 4002⟩ "joe" ⟨6000000002, 1000⟩
  exact ⟨few, sessions, distinct, places ▸ reached, unchanged (refused.2 (.inl full))⟩

end Clients
end Chronicle
