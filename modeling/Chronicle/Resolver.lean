import Chronicle.Handler

/-!
# Resolvers

An item whose handler needs something from outside of the land is resolved
before it is queued.  Each of its resolvers runs as a task of its own, side by
side with the others.  A task that has finished is known by its number alone:
it takes the name of its resolver out of those noted at the start, and its
output is captured under that name.  The first failure, in the order in which
the tasks finish, decides.
-/

namespace Chronicle

/-- Why a resolver has no output: it has failed, its output has no JSON form, or its task has
panicked, with what is said about the panic. -/
inductive ResolverFault where
  | failed (reason : String)
  | unwritable (reason : String)
  | panicked (report : String)
  deriving Repr, DecidableEq

namespace ResolverFault

/-- The text of the fault. -/
def message : ResolverFault → String
  | .failed reason => reason
  | .unwritable reason => s!"output could not be encoded: {reason}"
  | .panicked report => report

end ResolverFault

/-- What a resolver may know of the item it works for. -/
structure ResolverContext where
  landId : String
  type : String
  payload : Json
  actor : Actor
  deriving DecidableEq, Inhabited

/-- A resolver: the name under which its output is captured, and its outcome, which
may depend on a number drawn at random. -/
structure Resolver where
  name : String
  resolve : (context : ResolverContext) → (draw : Nat) → Except ResolverFault ResolverOutput

/-- Captures a value with the name of its type. -/
def capture [Writable α] (value : α) : Except ResolverFault ResolverOutput :=
  match Writable.encode value with
  | .ok json => .ok ⟨Typed.name α, json⟩
  | .error reason => .error (.unwritable reason)

namespace Resolver

/-- A resolver that runs as a task, with the number of the task. -/
structure Task where
  id : Nat
  resolver : Resolver

/-- The outcome of a task that has finished, with its number. -/
structure Outcome where
  id : Nat
  result : Except ResolverFault ResolverOutput

/-- Runs a task to its end. -/
def Task.run (context : ResolverContext) (draw : Nat) (task : Task) : Outcome :=
  ⟨task.id, task.resolver.resolve context draw⟩

/-- The tasks of resolvers.  No two of them have one number. -/
def start (resolvers : List Resolver) : List Task := resolvers.mapIdx Task.mk

/-- The names of the resolvers under the numbers of their tasks. -/
def names (tasks : List Task) : Dict Nat String :=
  Dict.ofList (tasks.map fun task => (task.id, task.resolver.name))

/-- Collects outcomes in the order in which the tasks finished, given the names
of those that have not been collected yet. -/
def collect (names : Dict Nat String) (outputs : ResolverOutputs) :
    List Outcome → Except LandError ResolverOutputs
  | [] => .ok outputs
  | outcome :: rest =>
      let name := (names.get? outcome.id).getD ""
      match outcome.result with
      | .ok output => collect (names.erase outcome.id) (outputs.insert name output) rest
      | .error fault => .error (.resolverFailure name fault.message)

/-- Runs resolvers side by side and collects their outputs, given the order in
which their tasks finish. -/
def resolveInOrder (resolvers : List Resolver) (order : List Task) (context : ResolverContext)
    (draw : Nat) : Except LandError ResolverOutputs :=
  collect (names (start resolvers)) ∅ (order.map (Task.run context draw))

/-- Tasks in the order in which they finish, given by their numbers.  Tasks whose number
is not given finish last, in the order in which they were started. -/
def finishing : List Nat → List Task → List Task
  | [], tasks => tasks
  | id :: rest, tasks =>
      tasks.filter (·.id == id) ++ finishing rest (tasks.filter fun task => !(task.id == id))

/-- Every task finishes once. -/
theorem finishing_perm (order : List Nat) (tasks : List Task) :
    (finishing order tasks).Perm tasks := by
  induction order generalizing tasks with
  | nil => exact .refl tasks
  | cons id rest inductionHypothesis =>
      rw [finishing]
      exact ((inductionHypothesis _).append_left _).trans
        (List.filter_append_perm (·.id == id) tasks)

/-- Runs resolvers side by side and collects their outputs, given the numbers of their
tasks in the order in which they finish. -/
def resolveAll (resolvers : List Resolver) (order : List Nat) (context : ResolverContext)
    (draw : Nat) : Except LandError ResolverOutputs :=
  resolveInOrder resolvers (finishing order (start resolvers)) context draw

/-- The first name that an earlier resolver of a list has as well. -/
def repeatedName? (seen : List String) : List Resolver → Option String
  | [] => none
  | resolver :: rest =>
      if seen.contains resolver.name then some resolver.name
      else repeatedName? (resolver.name :: seen) rest

end Resolver

/-- A submission whose resolvers are running. -/
structure Resolution where
  submission : Submission
  resolvers : List Resolver

/-- A submission whose resolvers are done, with what became of them. -/
structure Completion where
  submission : Submission
  result : Except LandError ResolverOutputs

/-- What chance decides about the resolvers of a submission: the number drawn at random,
and the numbers of the tasks in the order in which they finish. -/
structure Chance where
  draw : Nat
  order : List Nat := []
  deriving Repr, DecidableEq, Inhabited

namespace Resolution

/-- Runs the resolvers of a submission to a land. -/
def run (resolution : Resolution) (landId : String) (chance : Chance) : Completion :=
  let submission := resolution.submission
  let context := ⟨landId, submission.type, submission.payload, submission.actor⟩
  ⟨submission, Resolver.resolveAll resolution.resolvers chance.order context chance.draw⟩

end Resolution
end Chronicle
