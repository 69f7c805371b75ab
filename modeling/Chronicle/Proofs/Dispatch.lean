import Chronicle.Ledger
import Chronicle.Proofs.FinishingOrder
import Chronicle.Proofs.NextTick

/-!
# Admission and dispatch agree

A registry comes about by calls, of which some are refused.  The first call for a kind and
type stays: its resolvers are run for the items, and its handler executes them.  What is
looked up for admission is what is looked up for dispatch, so whatever a land admits has a
handler when its tick comes, or is a join or leave that nothing observes.
-/

namespace Chronicle

variable {σ : Type}

/-- A call that registers a handler. -/
inductive RegistryCall (σ : Type) : Type 1 where
  | action (α : Type) [Readable α] (resolvers : List Resolver) (handler : Handler σ α)
  | clientEvent (α : Type) [Readable α] (handler : Handler σ α)
  | lifecycle (kind : LifecycleKind) (resolvers : List Resolver)
      (handler : Handler σ LifecycleDetails)

/-- What a registry has for the items of a kind and type. -/
structure RegistryEntry (σ : Type) where
  resolvers : List Resolver
  handle : Context → Item → Effect σ Unit

/-- Joins and leaves need not be handled. -/
def ItemKind.isLifecycle : ItemKind → Bool
  | .lifecycle _ => true
  | _ => false

namespace RegistryCall

/-- The kind of the items that are handled. -/
def kind : RegistryCall σ → ItemKind
  | @action _ _ _ _ _ => .action
  | @clientEvent _ _ _ _ => .clientEvent
  | .lifecycle kind _ _ => .lifecycle kind

/-- The type of the items that are handled. -/
def type : RegistryCall σ → String
  | @action _ α _ _ _ => Typed.name α
  | @clientEvent _ α _ _ => Typed.name α
  | .lifecycle kind _ _ => kind.name

/-- What a call registers, in a message. -/
def label : RegistryCall σ → String
  | @action _ _ _ _ _ => "action"
  | @clientEvent _ _ _ _ => "client event"
  | .lifecycle _ _ _ => "lifecycle"

/-- The resolvers and the handler that are registered. -/
def entry : RegistryCall σ → RegistryEntry σ
  | @action _ α _ resolvers handler =>
      ⟨resolvers, fun context item => Registry.decoding α handler context item.payload⟩
  | @clientEvent _ α _ handler =>
      ⟨[], fun context item => Registry.decoding α handler context item.payload⟩
  | .lifecycle _ resolvers handler =>
      ⟨resolvers, fun context item => handler context (item.details.getD {})⟩

/-- Whether a call is for the items of a kind and type.  Joins and leaves are handled
whatever their type is called. -/
def isFor (kind : ItemKind) (type : String) (call : RegistryCall σ) : Bool :=
  match kind with
  | .lifecycle _ => call.kind == kind
  | _ => call.kind == kind && call.type == type

/-- The registry after a call, unless the call is refused. -/
def make (registry : Registry σ) : RegistryCall σ → Except RegistryError (Registry σ)
  | @action _ α _ resolvers handler => registry.onAction α resolvers handler
  | @clientEvent _ α _ handler => registry.onClientEvent α handler
  | .lifecycle kind resolvers handler => registry.onLifecycle kind resolvers handler

end RegistryCall

namespace Registry

/-- What a registry has for the items of a kind and type. -/
def lookup? (registry : Registry σ) (kind : ItemKind) (type : String) : Option (RegistryEntry σ) :=
  match kind with
  | .action => (registry.actions.get? type).map fun registration =>
      ⟨registration.resolvers, fun context item => registration.handler context item.payload⟩
  | .clientEvent => (registry.clientEvents.get? type).map fun handler =>
      ⟨[], fun context item => handler context item.payload⟩
  | .lifecycle kind => (registry.lifecycle kind).map fun registration =>
      ⟨registration.resolvers, fun context item =>
        registration.handler context (item.details.getD {})⟩

/-- The registry after a call.  One that is refused leaves it as it is. -/
def after (registry : Registry σ) (call : RegistryCall σ) : Registry σ :=
  match call.make registry with
  | .ok next => next
  | .error _ => registry

/-- The registry after some calls. -/
def afterAll (registry : Registry σ) (calls : List (RegistryCall σ)) : Registry σ :=
  calls.foldl after registry

/-- The calls that are not refused. -/
def accepted (registry : Registry σ) : List (RegistryCall σ) → List (RegistryCall σ)
  | [] => []
  | call :: rest =>
      match call.make registry with
      | .ok next => call :: next.accepted rest
      | .error _ => registry.accepted rest

variable {registry next : Registry σ} {call : RegistryCall σ} {kind : ItemKind} {type : String}

/-! ## Looking up -/

/-- The resolvers of an item are looked up in the entry for its kind and type.  Without one,
joins and leaves are admitted without resolvers, and nothing else is admitted. -/
theorem resolversFor_eq (registry : Registry σ) (kind : ItemKind) (type : String) :
    registry.resolversFor kind type =
      match registry.lookup? kind type with
      | some entry => .ok entry.resolvers
      | none => if kind.isLifecycle then .ok [] else .error (.unknownType type) := by
  cases kind with
  | action =>
      simp only [resolversFor, lookup?]
      cases registry.actions.get? type <;> rfl
  | clientEvent =>
      cases found : registry.clientEvents.get? type <;>
        simp [resolversFor, lookup?, Dict.contains, found, ItemKind.isLifecycle]
  | lifecycle kind =>
      simp only [resolversFor, lookup?]
      cases registry.lifecycle kind <;> rfl

/-- The handler of an item is looked up in the same entry.  Without one, joins and leaves
have no effect, and nothing else is executed. -/
theorem dispatch_eq (registry : Registry σ) (context : Context) (item : Item) :
    registry.dispatch context item =
      match registry.lookup? item.kind item.type with
      | some entry => entry.handle context item
      | none => if item.kind.isLifecycle then pure () else throw (.unknownType item.type) := by
  unfold dispatch
  cases item.kind with
  | action =>
      simp only [lookup?]
      cases registry.actions.get? item.type <;> rfl
  | clientEvent =>
      simp only [lookup?]
      cases registry.clientEvents.get? item.type <;> rfl
  | lifecycle kind =>
      simp only [lookup?]
      cases registry.lifecycle kind <;> rfl

/-- The type of a join or leave does not matter for its entry, nor for the calls that are for
it. -/
theorem lookup?_of_isFor (isFor : call.isFor kind type = true) :
    registry.lookup? kind type = registry.lookup? call.kind call.type := by
  cases kind with
  | action =>
      obtain ⟨sameKind, sameType⟩ := Bool.and_eq_true_iff.1 isFor
      rw [beq_iff_eq.1 sameKind, beq_iff_eq.1 sameType]
  | clientEvent =>
      obtain ⟨sameKind, sameType⟩ := Bool.and_eq_true_iff.1 isFor
      rw [beq_iff_eq.1 sameKind, beq_iff_eq.1 sameType]
  | lifecycle kind =>
      rw [beq_iff_eq.1 isFor]
      rfl

/-- A call is for the items of its own kind alone. -/
theorem isFor_of_kind_ne (different : kind ≠ call.kind) : call.isFor kind type = false := by
  cases kind <;> simp [RegistryCall.isFor, different.symm]

/-! ## What a call does -/

/-- What comes of a call: it is refused because its kind and type are taken, or because two
of its resolvers have one name, or its entry is added and no other one changes. -/
inductive Makes (registry : Registry σ) (call : RegistryCall σ) :
    Except RegistryError (Registry σ) → Prop where
  | duplicate {earlier : RegistryEntry σ}
      (taken : registry.lookup? call.kind call.type = some earlier) :
      Makes registry call (.error (.duplicate call.label call.type))
  | repeats (free : registry.lookup? call.kind call.type = none) {name : String}
      (repeated : Resolver.repeatedName? [] call.entry.resolvers = some name) :
      Makes registry call (.error (.duplicateResolver name))
  | adds (free : registry.lookup? call.kind call.type = none)
      (distinct : (call.entry.resolvers.map (·.name)).Nodup) {next : Registry σ}
      (entries : ∀ kind type, next.lookup? kind type =
        if call.isFor kind type then some call.entry else registry.lookup? kind type) :
      Makes registry call (.ok next)

/-- A call for what is not taken goes on if the names of its resolvers are distinct. -/
theorem Makes.of_free (free : registry.lookup? call.kind call.type = none)
    (entries : ∀ kind type, next.lookup? kind type =
      if call.isFor kind type then some call.entry else registry.lookup? kind type) :
    Makes registry call (checkNames call.entry.resolvers >>= fun _ => .ok next) := by
  cases repeated : Resolver.repeatedName? [] call.entry.resolvers with
  | some name =>
      have refused : checkNames call.entry.resolvers = .error (.duplicateResolver name) := by
        simp only [checkNames, repeated]
      rw [refused]
      exact .repeats free repeated
  | none =>
      have checked : checkNames call.entry.resolvers = .ok () := by
        simp only [checkNames, repeated]
      rw [checked]
      exact .adds free (checkNames_eq_ok_iff.1 checked) entries

/-- What is made of a table's values after an insertion. -/
theorem map_get?_insert {α β : Type} (table : Dict String α) (key other : String) (value : α)
    (f : α → β) :
    ((table.insert key value).get? other).map f =
      if key == other then some (f value) else (table.get? other).map f := by
  split
  · rename_i same
    rw [beq_iff_eq.1 same, Dict.get?_insert_self, Option.map_some]
  · rename_i different
    have other_ne : other ≠ key := fun same => different (beq_iff_eq.2 same.symm)
    rw [Dict.get?_insert_of_ne _ _ other_ne]

/-- Registering a handler of actions comes to one of these. -/
theorem makes_action (registry : Registry σ) (α : Type) [Readable α] (resolvers : List Resolver)
    (handler : Handler σ α) :
    Makes registry (.action α resolvers handler) (registry.onAction α resolvers handler) := by
  simp only [onAction]
  cases taken : registry.actions.get? (Typed.name α) with
  | some earlier =>
      rw [if_pos (by simp [Dict.contains, taken])]
      exact .duplicate (congrArg (Option.map _) taken)
  | none =>
      rw [if_neg (by simp [Dict.contains, taken])]
      refine .of_free (congrArg (Option.map _) taken) fun kind type => ?_
      cases kind with
      | action => exact map_get?_insert _ _ _ _ _
      | clientEvent => rfl
      | lifecycle kind => rfl

/-- Registering a handler of client events comes to one of these. -/
theorem makes_clientEvent (registry : Registry σ) (α : Type) [Readable α]
    (handler : Handler σ α) :
    Makes registry (.clientEvent α handler) (registry.onClientEvent α handler) := by
  simp only [onClientEvent]
  cases taken : registry.clientEvents.get? (Typed.name α) with
  | some earlier =>
      rw [if_pos (by simp [Dict.contains, taken])]
      exact .duplicate (congrArg (Option.map _) taken)
  | none =>
      rw [if_neg (by simp [Dict.contains, taken])]
      have free : registry.lookup? .clientEvent (Typed.name α) = none :=
        congrArg (Option.map _) taken
      have distinct :
          ((RegistryCall.clientEvent α handler).entry.resolvers.map (·.name)).Nodup :=
        List.nodup_nil
      refine .adds free distinct fun kind type => ?_
      cases kind with
      | clientEvent => exact map_get?_insert _ _ _ _ _
      | action => rfl
      | lifecycle kind => rfl

/-- Registering a handler of joins or leaves comes to one of these. -/
theorem makes_lifecycle (registry : Registry σ) (kind : LifecycleKind) (resolvers : List Resolver)
    (handler : Handler σ LifecycleDetails) :
    Makes registry (.lifecycle kind resolvers handler)
      (registry.onLifecycle kind resolvers handler) := by
  simp only [onLifecycle]
  cases taken : registry.lifecycle kind with
  | some earlier => exact .duplicate (congrArg (Option.map _) taken)
  | none =>
      have free : registry.lookup? (.lifecycle kind) kind.name = none :=
        congrArg (Option.map _) taken
      cases kind <;>
      · refine .of_free free fun other type => ?_
        cases other with
        | action => rfl
        | clientEvent => rfl
        | lifecycle other => cases other <;> rfl

/-- Every call comes to one of these. -/
theorem makes (registry : Registry σ) (call : RegistryCall σ) :
    Makes registry call (call.make registry) := by
  cases call with
  | @action α _ resolvers handler => exact registry.makes_action α resolvers handler
  | @clientEvent α _ handler => exact registry.makes_clientEvent α handler
  | lifecycle kind resolvers handler => exact registry.makes_lifecycle kind resolvers handler

/-- A repeated name is the name of a resolver. -/
theorem exists_of_repeatedName? {seen : List String} {resolvers : List Resolver} {name : String}
    (repeated : Resolver.repeatedName? seen resolvers = some name) :
    ∃ resolver ∈ resolvers, resolver.name = name := by
  induction resolvers generalizing seen with
  | nil => cases repeated
  | cons resolver rest inductionHypothesis =>
      rw [Resolver.repeatedName?] at repeated
      split at repeated
      · exact ⟨resolver, List.mem_cons_self, Option.some.inj repeated⟩
      · obtain ⟨other, member, named⟩ := inductionHypothesis repeated
        exact ⟨other, List.mem_cons_of_mem _ member, named⟩

/-- A call for what is taken is a duplicate. -/
theorem Makes.eq_duplicate {result : Except RegistryError (Registry σ)}
    (outcome : Makes registry call result) (taken : registry.lookup? call.kind call.type ≠ none) :
    result = .error (.duplicate call.label call.type) := by
  cases outcome with
  | duplicate => rfl
  | repeats free => exact absurd free taken
  | adds free => exact absurd free taken

/-- A call for what is free is refused if two of its resolvers have one name. -/
theorem Makes.eq_duplicateResolver {result : Except RegistryError (Registry σ)}
    (outcome : Makes registry call result) (free : registry.lookup? call.kind call.type = none)
    (same : ¬(call.entry.resolvers.map (·.name)).Nodup) :
    ∃ resolver ∈ call.entry.resolvers, result = .error (.duplicateResolver resolver.name) := by
  cases outcome with
  | duplicate taken => exact nomatch free.symm.trans taken
  | repeats _ repeated =>
      obtain ⟨resolver, member, rfl⟩ := exists_of_repeatedName? repeated
      exact ⟨resolver, member, rfl⟩
  | adds _ distinct => exact absurd distinct same

/-- A call for what is free is not refused if the names of its resolvers are distinct. -/
theorem Makes.exists_eq_ok {result : Except RegistryError (Registry σ)}
    (outcome : Makes registry call result) (free : registry.lookup? call.kind call.type = none)
    (distinct : (call.entry.resolvers.map (·.name)).Nodup) :
    ∃ next, result = .ok next := by
  cases outcome with
  | duplicate taken => exact nomatch free.symm.trans taken
  | repeats _ repeated =>
      have unrepeated : Resolver.repeatedName? [] call.entry.resolvers = none :=
        Resolver.repeatedName?_eq_none_iff.2 ⟨distinct, by simp⟩
      exact nomatch unrepeated.symm.trans repeated
  | @adds _ _ next => exact ⟨next, rfl⟩

/-! ## Histories of calls -/

/-- A registry holds what some calls have registered: for each kind and type the entry of
the first one.  Its resolvers have distinct names. -/
structure Holds (registry : Registry σ) (calls : List (RegistryCall σ)) : Prop where
  entries : ∀ kind type, registry.lookup? kind type =
    (calls.find? (·.isFor kind type)).map (·.entry)
  distinct : ∀ call ∈ calls, (call.entry.resolvers.map (·.name)).Nodup

/-- A new registry holds nothing. -/
theorem holds_nothing (landType : String) : ({ landType } : Registry σ).Holds [] where
  entries kind _ := by
    cases kind with
    | action => rfl
    | clientEvent => rfl
    | lifecycle kind => cases kind <;> rfl
  distinct := nofun

/-- What a registry has is what the first call has registered. -/
theorem Holds.lookup?_of_find? {calls : List (RegistryCall σ)} (holds : registry.Holds calls)
    (found : calls.find? (·.isFor kind type) = some call) :
    registry.lookup? kind type = some call.entry := by
  rw [holds.entries, found, Option.map_some]

/-- A registry has nothing exactly if no call is for the kind and type. -/
theorem Holds.lookup?_eq_none_iff {calls : List (RegistryCall σ)} (holds : registry.Holds calls) :
    registry.lookup? kind type = none ↔ calls.find? (·.isFor kind type) = none := by
  rw [holds.entries, Option.map_eq_none_iff]

/-- A call that is not refused comes behind those before it. -/
theorem Holds.make {calls : List (RegistryCall σ)} (holds : registry.Holds calls)
    (made : call.make registry = .ok next) :
    next.Holds (calls ++ [call]) := by
  have outcome := registry.makes call
  rw [made] at outcome
  cases outcome with
  | adds free distinct entries =>
      refine ⟨fun kind type => ?_, fun other member => ?_⟩
      · rw [entries, List.find?_append, holds.entries]
        cases isFor : call.isFor kind type with
        | false => simp [isFor]
        | true =>
            have missing := registry.lookup?_of_isFor isFor
            rw [free, holds.entries, Option.map_eq_none_iff] at missing
            simp [missing, isFor]
      · rcases List.mem_append.1 member with earlier | last
        · exact holds.distinct other earlier
        · obtain rfl := List.mem_singleton.1 last
          exact distinct

@[simp] theorem afterAll_cons (registry : Registry σ) (call : RegistryCall σ)
    (rest : List (RegistryCall σ)) :
    registry.afterAll (call :: rest) = (registry.after call).afterAll rest := rfl

/-- After some calls a registry holds those that were not refused. -/
theorem Holds.afterAll {earlier : List (RegistryCall σ)} (holds : registry.Holds earlier)
    (calls : List (RegistryCall σ)) :
    (registry.afterAll calls).Holds (earlier ++ registry.accepted calls) := by
  induction calls generalizing registry earlier with
  | nil => rwa [accepted, List.append_nil]
  | cons call rest inductionHypothesis =>
      rw [afterAll_cons, after, accepted]
      cases made : call.make registry with
      | ok next => exact List.append_cons .. ▸ inductionHypothesis (holds.make made)
      | error error => exact inductionHypothesis holds

/-- Calls that are refused leave no trace. -/
theorem afterAll_accepted (registry : Registry σ) (calls : List (RegistryCall σ)) :
    registry.afterAll (registry.accepted calls) = registry.afterAll calls := by
  induction calls generalizing registry with
  | nil => rfl
  | cons call rest inductionHypothesis =>
      rw [accepted, afterAll_cons]
      cases made : call.make registry with
      | ok next =>
          have taken : registry.after call = next := by rw [after, made]
          rw [afterAll_cons, taken]
          exact inductionHypothesis next
      | error error =>
          have refused : registry.after call = registry := by rw [after, made]
          rw [refused]
          exact inductionHypothesis registry

/-- Admission and dispatch follow the calls that were not refused. -/
structure Follows (registry : Registry σ) (calls : List (RegistryCall σ)) : Prop where
  /-- An item is executed by the handler of the first call for its kind and type. -/
  handled : ∀ item call, calls.find? (·.isFor item.kind item.type) = some call →
    ∀ context, registry.dispatch context item = call.entry.handle context item
  /-- Its resolvers are those declared with the handler, and have distinct names. -/
  resolved : ∀ kind type call, calls.find? (·.isFor kind type) = some call →
    registry.resolversFor kind type = .ok call.entry.resolvers ∧
      (call.entry.resolvers.map (·.name)).Nodup
  /-- A type is unknown exactly if nothing handles its actions or client events. -/
  unknown : ∀ kind type, registry.resolversFor kind type = .error (.unknownType type) ↔
    calls.find? (·.isFor kind type) = none ∧ kind.isLifecycle = false
  /-- Joins and leaves that nothing observes need no resolvers. -/
  unobserved : ∀ kind type, calls.find? (·.isFor (.lifecycle kind) type) = none →
    registry.resolversFor (.lifecycle kind) type = .ok []
  /-- An item that nothing handles has no effect if it is a join or leave, and fails
  otherwise. -/
  unhandled : ∀ item, calls.find? (·.isFor item.kind item.type) = none →
    ∀ context, registry.dispatch context item =
      if item.kind.isLifecycle then pure () else throw (.unknownType item.type)
  /-- A second call for a kind and type is refused. -/
  taken : ∀ call : RegistryCall σ, calls.find? (·.isFor call.kind call.type) ≠ none →
    call.make registry = .error (.duplicate call.label call.type)
  /-- A call with two resolvers of one name is refused. -/
  repeated : ∀ call : RegistryCall σ, calls.find? (·.isFor call.kind call.type) = none →
    ¬(call.entry.resolvers.map (·.name)).Nodup →
      ∃ resolver ∈ call.entry.resolvers,
        call.make registry = .error (.duplicateResolver resolver.name)
  /-- No other call is refused. -/
  made : ∀ call : RegistryCall σ, calls.find? (·.isFor call.kind call.type) = none →
    (call.entry.resolvers.map (·.name)).Nodup → ∃ next, call.make registry = .ok next
  /-- A call changes nothing for items of other kinds, whatever their type is called. -/
  apart : ∀ (call : RegistryCall σ) kind, kind ≠ call.kind →
    (∀ type, (registry.after call).resolversFor kind type = registry.resolversFor kind type) ∧
      ∀ item : Item, item.kind = kind → ∀ context,
        (registry.after call).dispatch context item = registry.dispatch context item

/-- Registries of the same entries for a kind run the same resolvers for it, and execute its
items with the same handlers. -/
theorem same_of_lookup? (same : ∀ type, next.lookup? kind type = registry.lookup? kind type) :
    (∀ type, next.resolversFor kind type = registry.resolversFor kind type) ∧
      ∀ item : Item, item.kind = kind → ∀ context,
        next.dispatch context item = registry.dispatch context item := by
  refine ⟨fun type => ?_, ?_⟩
  · rw [resolversFor_eq, resolversFor_eq, same]
  · rintro item rfl context
    rw [dispatch_eq, dispatch_eq, same]

/-- A call changes no entries of other kinds. -/
theorem lookup?_after (registry : Registry σ) (different : kind ≠ call.kind) (type : String) :
    (registry.after call).lookup? kind type = registry.lookup? kind type := by
  have outcome := registry.makes call
  rw [after]
  cases made : call.make registry with
  | error error => rfl
  | ok next =>
      rw [made] at outcome
      cases outcome with
      | adds free distinct entries => simp [entries, isFor_of_kind_ne different]

/-- A registry that holds what some calls have registered follows them. -/
theorem Holds.follows {calls : List (RegistryCall σ)} (holds : registry.Holds calls) :
    registry.Follows calls := by
  refine
    { handled := fun item call found context => ?_
      resolved := fun kind type call found => ⟨?_,
        holds.distinct call (List.mem_of_find?_eq_some found)⟩
      unknown := fun kind type => ?_
      unobserved := fun kind type missing => ?_
      unhandled := fun item missing context => ?_
      taken := fun call there => (registry.makes call).eq_duplicate fun free =>
        there (holds.lookup?_eq_none_iff.1 free)
      repeated := fun call missing =>
        (registry.makes call).eq_duplicateResolver (holds.lookup?_eq_none_iff.2 missing)
      made := fun call missing =>
        (registry.makes call).exists_eq_ok (holds.lookup?_eq_none_iff.2 missing)
      apart := fun call kind different => same_of_lookup? (registry.lookup?_after different) }
  · rw [dispatch_eq, holds.lookup?_of_find? found]
  · rw [resolversFor_eq, holds.lookup?_of_find? found]
  · rw [← holds.lookup?_eq_none_iff, resolversFor_eq]
    cases registry.lookup? kind type with
    | some entry => simp
    | none => cases kind.isLifecycle <;> simp
  · rw [resolversFor_eq, holds.lookup?_eq_none_iff.2 missing]
    rfl
  · rw [dispatch_eq, holds.lookup?_eq_none_iff.2 missing]

end Registry

/-! ## What a land admits -/

/-- What a land admits is not of an unknown type. -/
theorem Passage.exists_resolvers_of_admitted {rules : Rules σ} {passage : Passage σ}
    {submission : Submission} (admits : passage.admitted? rules = some submission) :
    ∃ resolvers, rules.registry.resolversFor submission.kind submission.type = .ok resolvers := by
  obtain ⟨land, operation⟩ := passage
  cases operation with
  | complete completion => cases admits
  | step => cases admits
  | submit inbound =>
      cases mode : land.mode with
      | replay source strict summary =>
          simp [admitted?, Land.submit, Land.accept, mode] at admits
      | live queue recorder started =>
          rcases Land.submit_live_cases rules mode inbound with
            ⟨error, refused⟩ | ⟨sequence, numbering, known, -, queued⟩ |
              ⟨resolvers, sequence, numbering, known, -, -, resolving⟩
          · simp [admitted?, refused] at admits
          · simp only [admitted?, queued, Option.some.injEq] at admits
            subst admits
            exact ⟨[], by simpa using known⟩
          · simp only [admitted?, resolving, Option.some.injEq] at admits
            subst admits
            exact ⟨resolvers, by simpa using known⟩

/-- What the lands of some rules do with their items, given the calls that were not refused:
joins and leaves that nothing observes wait for no resolvers, and every item that is
executed has a handler or is a join or leave without effect. -/
structure Rules.Follow (rules : Rules σ) (calls : List (RegistryCall σ)) : Prop where
  unobserved : ∀ (land : Land σ) queue recorder started, land.mode = .live queue recorder started →
    ∀ sequence numbering, land.numbering.issue = .ok (sequence, numbering) →
      ∀ kind actor details, calls.find? (·.isFor (.lifecycle kind) kind.name) = none →
        (land.submit rules (.lifecycle kind actor details)).1 = .ok (.queued sequence)
  executed : ∀ config created initial start, Land.live rules config created initial = .ok start →
    ∀ past land, Run rules start past land → Genuine rules past → ∀ item ∈ log past,
      (∃ call, calls.find? (·.isFor item.kind item.type) = some call ∧
        ∀ context, rules.registry.dispatch context item = call.entry.handle context item) ∨
      (item.kind.isLifecycle = true ∧
        ∀ context, rules.registry.dispatch context item = pure ())

/-- The lands of a registry follow the calls that the registry follows. -/
theorem Registry.Follows.lands {rules : Rules σ} {calls : List (RegistryCall σ)}
    (follows : rules.registry.Follows calls) :
    rules.Follow calls where
  unobserved := by
    intro land queue recorder started live sequence numbering issued kind actor details missing
    have direct := follows.unobserved kind kind.name missing
    simp [Land.submit, Land.accept, live, Inbound.kind, Inbound.type, direct, issued, bind,
      Except.bind, pure, Except.pure]
  executed := by
    intro config created initial start started past land run genuine item executed
    have entered := run.mem_entries_of_log started genuine executed
    have isAdmitted := mem_admitted_of_entries genuine entered
    obtain ⟨passage, -, admits⟩ := List.mem_filterMap.1 isAdmitted
    obtain ⟨resolvers, known⟩ := passage.exists_resolvers_of_admitted admits
    cases found : calls.find? (·.isFor item.kind item.type) with
    | some call => exact .inl ⟨call, rfl, follows.handled item call found⟩
    | none =>
        have unhandled := follows.unhandled item found
        cases observed : item.kind.isLifecycle with
        | true => exact .inr ⟨rfl, fun context => by simp [unhandled context, observed]⟩
        | false =>
            have unknown := (follows.unknown item.kind item.type).2 ⟨found, observed⟩
            cases known.symm.trans unknown

/-- Whatever calls are made to a new registry, it follows those that were not refused, and
those that were leave no trace.  So an item that a land has admitted and executes has a
handler, or is a join or leave that nothing observes. -/
theorem admission_agrees_with_dispatch (landType : String) (calls : List (RegistryCall σ)) :
    let registry := Registry.afterAll { landType } calls
    let accepted := Registry.accepted { landType } calls
    registry.Follows accepted ∧
    Registry.afterAll { landType } accepted = registry ∧
    ∀ rules : Rules σ, rules.registry = registry → rules.Follow accepted := by
  intro registry accepted
  have follows : registry.Follows accepted :=
    ((Registry.holds_nothing landType).afterAll calls).follows
  refine ⟨follows, Registry.afterAll_accepted _ calls, fun rules isRegistry => ?_⟩
  exact Registry.Follows.lands (isRegistry ▸ follows)

/-- A second handler of notes is refused, and so are joins with one stamp twice.  Notes of
both kinds are handled then, and a leave that nothing observes has no effect. -/
theorem admission_agrees_with_dispatch_of_notes :
    let stamp : Resolver :=
      { name := "stamp", resolve := fun _ _ => .error (.panicked "task 2 panicked") }
    let calls : List (RegistryCall Nat) :=
      [.action Ledger.Note [] fun _ _ => Effect.modifyState (· + 1),
        .action Ledger.Note [stamp] fun _ _ => Effect.reject "never",
        .clientEvent Ledger.Note fun _ _ => Effect.modifyState (· + 10),
        .lifecycle .join [stamp, stamp] fun _ _ => Effect.reject "never",
        .lifecycle .join [stamp] fun _ _ => Effect.modifyState (· + 100)]
    let accepted := Registry.accepted { landType := "ledger" } calls
    let rules : Rules Nat :=
      { registry := Registry.afterAll { landType := "ledger" } calls, fingerprint := fun _ => "" }
    rules.registry.Follows accepted ∧ rules.Follow accepted ∧
    (accepted.map fun call => (call.kind, call.entry.resolvers.length)) =
      [(.action, 0), (.clientEvent, 0), (.lifecycle .join, 1)] ∧
    ∃ start past land,
      Land.live rules { landId := "books", landType := "ledger" } .epoch 0 = .ok start ∧
        Run rules start past land ∧ Genuine rules past ∧ land.state = 11 ∧
        (log past).map (·.kind) = [.action, .clientEvent, .lifecycle .leave] ∧
        ∀ item ∈ log past, (∃ call, accepted.find? (·.isFor item.kind item.type) = some call) ∨
          item.kind.isLifecycle = true := by
  intro stamp calls accepted rules
  obtain ⟨follows, -, lands⟩ := admission_agrees_with_dispatch "ledger" calls
  have follow : rules.Follow accepted := lands rules rfl
  let player := Actor.ofIds "p1" "c1" "s1"
  let note : Json := .object [("text", .string "a")]
  let operations : List Operation :=
    [.submit (.action "Note" note player), .submit (.clientEvent "Note" note player),
      .submit (.lifecycle .leave player {}), .step]
  obtain ⟨start, started⟩ : ∃ start,
    Land.live rules { landId := "books", landType := "ledger" } .epoch 0 = .ok start := ⟨_, rfl⟩
  have run := Run.of_operations rules start operations (by
    obtain rfl := Except.ok.inj started
    decide +kernel)
  have genuine : Genuine rules (start.passages rules operations) := by
    obtain rfl := Except.ok.inj started
    decide +kernel
  refine ⟨follows, follow, by decide +kernel, start, _, _, started, run, genuine, ?_, ?_, ?_⟩
  · obtain rfl := Except.ok.inj started
    decide +kernel
  · obtain rfl := Except.ok.inj started
    decide +kernel
  · intro item executed
    rcases follow.executed _ _ _ _ started _ _ run genuine item executed with
      ⟨call, found, -⟩ | ⟨observed, -⟩
    · exact .inl ⟨call, found⟩
    · exact .inr observed

end Chronicle
