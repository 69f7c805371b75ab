import Chronicle.Resolver

/-!
# The registry

A registry holds the handlers of a land: of actions and client events by the
name of their payload's type, and of joins and leaves.  The first registration
under a name stays; a second one is refused and changes nothing.
-/

namespace Chronicle

/-- Why a registration is refused. -/
inductive RegistryError where
  | duplicate (kind type : String)
  | duplicateResolver (name : String)
  deriving Repr, DecidableEq

namespace RegistryError

/-- The text of the error. -/
def message : RegistryError → String
  | .duplicate kind type => s!"a {kind} handler for '{type}' is already registered"
  | .duplicateResolver name =>
      s!"resolver output name '{name}' is declared twice for one handler"

end RegistryError

/-- A handler with the resolvers that run before its items are queued. -/
structure Registration (σ α : Type) where
  handler : Handler σ α
  resolvers : List Resolver

/-- The handlers of a land. -/
structure Registry (σ : Type) where
  landType : String
  actions : Dict String (Registration σ Json) := ∅
  clientEvents : Dict String (Handler σ Json) := ∅
  join : Option (Registration σ LifecycleDetails) := none
  leave : Option (Registration σ LifecycleDetails) := none

namespace Registry

variable {σ : Type}

/-- A handler of payloads that are decoded first. -/
def decoding (α : Type) [Readable α] (handler : Handler σ α) : Handler σ Json :=
  fun context payload => do
    let value ← readAs α payload
    handler context value

/-- A handler of actions with its resolvers, under the name of its type. -/
def actionEntry (α : Type) [Readable α] (resolvers : List Resolver) (handler : Handler σ α) :
    String × Registration σ Json :=
  (Typed.name α, ⟨decoding α handler, resolvers⟩)

/-- A handler of client events, under the name of its type. -/
def clientEventEntry (α : Type) [Readable α] (handler : Handler σ α) :
    String × Handler σ Json :=
  (Typed.name α, decoding α handler)

/-- Refuses resolvers of which two have one name. -/
def checkNames (resolvers : List Resolver) : Except RegistryError Unit :=
  match Resolver.repeatedName? [] resolvers with
  | some name => .error (.duplicateResolver name)
  | none => .ok ()

/-- Registers a handler of actions. -/
def onAction (α : Type) [Readable α] (registry : Registry σ) (resolvers : List Resolver)
    (handler : Handler σ α) : Except RegistryError (Registry σ) :=
  let name := Typed.name α
  if registry.actions.contains name then .error (.duplicate "action" name)
  else do
    checkNames resolvers
    let registration := ⟨decoding α handler, resolvers⟩
    return { registry with actions := registry.actions.insert name registration }

/-- Registers a handler of client events, which never have resolvers. -/
def onClientEvent (α : Type) [Readable α] (registry : Registry σ) (handler : Handler σ α) :
    Except RegistryError (Registry σ) :=
  let name := Typed.name α
  if registry.clientEvents.contains name then .error (.duplicate "client event" name)
  else
    .ok { registry with clientEvents := registry.clientEvents.insert name (decoding α handler) }

/-- The registration for joins or for leaves. -/
def lifecycle (registry : Registry σ) : LifecycleKind → Option (Registration σ LifecycleDetails)
  | .join => registry.join
  | .leave => registry.leave

/-- Registers a handler of joins or of leaves. -/
def onLifecycle (registry : Registry σ) (kind : LifecycleKind) (resolvers : List Resolver)
    (handler : Handler σ LifecycleDetails) : Except RegistryError (Registry σ) :=
  if (registry.lifecycle kind).isSome then .error (.duplicate "lifecycle" kind.name)
  else do
    checkNames resolvers
    let registration := some ⟨handler, resolvers⟩
    match kind with
    | .join => return { registry with join := registration }
    | .leave => return { registry with leave := registration }

/-- The resolvers declared for items of a kind and type.  A join or leave that
nothing handles has none. -/
def resolversFor (registry : Registry σ) (kind : ItemKind) (type : String) :
    Except LandError (List Resolver) :=
  match kind with
  | .action =>
      match registry.actions.get? type with
      | some registration => .ok registration.resolvers
      | none => .error (.unknownType type)
  | .clientEvent =>
      if registry.clientEvents.contains type then .ok [] else .error (.unknownType type)
  | .lifecycle kind =>
      match registry.lifecycle kind with
      | some registration => .ok registration.resolvers
      | none => .ok []

/-- Executes an item with its handler.  A join or leave that nothing handles
has no effect. -/
def dispatch (registry : Registry σ) (context : Context) (item : Item) : Effect σ Unit :=
  match item.kind with
  | .action =>
      match registry.actions.get? item.type with
      | some registration => registration.handler context item.payload
      | none => throw (.unknownType item.type)
  | .clientEvent =>
      match registry.clientEvents.get? item.type with
      | some handler => handler context item.payload
      | none => throw (.unknownType item.type)
  | .lifecycle kind =>
      match registry.lifecycle kind with
      | some registration => registration.handler context (item.details.getD {})
      | none => pure ()

end Registry

/-- The rules of a kind of land: its handlers, the update at the end of every
tick, and the fingerprint of a state. -/
structure Rules (σ : Type) where
  registry : Registry σ
  update : Context → Effect σ Unit := fun _ => pure ()
  fingerprint : σ → String

namespace Rules

/-- The type of land that the rules are for. -/
def landType (rules : Rules σ) : String := rules.registry.landType

end Rules
end Chronicle
