import Chronicle.Proofs.Dict
import Chronicle.Registry

/-!
# Resolvers in any order

A registry takes no handler whose resolvers do not have distinct names.  Resolvers with
distinct names give the same outputs in whatever order their tasks finish, unless one of
them fails; then the first of the order that fails is the one that is reported.
-/

namespace Chronicle
namespace Resolver

/-! ## Distinct names -/

/-- No name is repeated exactly if the names differ from each other and from those that
were seen before. -/
theorem repeatedName?_eq_none_iff {seen : List String} {resolvers : List Resolver} :
    repeatedName? seen resolvers = none ↔
      (resolvers.map (·.name)).Nodup ∧ ∀ resolver ∈ resolvers, resolver.name ∉ seen := by
  induction resolvers generalizing seen with
  | nil => simp [repeatedName?]
  | cons resolver rest inductionHypothesis =>
      rw [repeatedName?]
      split
      · rename_i repeated
        have before : resolver.name ∈ seen := by simpa using repeated
        exact iff_of_false nofun fun ⟨_, fresh⟩ => fresh resolver List.mem_cons_self before
      · rename_i new
        have fresh : resolver.name ∉ seen := by simpa using new
        simp only [inductionHypothesis, List.map_cons, List.nodup_cons, List.mem_map,
          List.mem_cons, forall_eq_or_imp, not_exists, not_and, not_or]
        constructor
        · rintro ⟨distinct, later⟩
          exact ⟨⟨fun other member => (later other member).1, distinct⟩, fresh,
            fun other member => (later other member).2⟩
        · rintro ⟨⟨own, distinct⟩, -, later⟩
          exact ⟨distinct, fun other member => ⟨own other member, later other member⟩⟩

end Resolver

namespace Registry

variable {σ : Type}

/-- Registries that come about by registrations that were not refused. -/
inductive Assembled : Registry σ → Prop where
  | nothing (landType : String) : Assembled { landType }
  | action {α : Type} [Readable α] {registry next : Registry σ} {resolvers : List Resolver}
      {handler : Handler σ α} (earlier : Assembled registry)
      (registered : registry.onAction α resolvers handler = .ok next) : Assembled next
  | clientEvent {α : Type} [Readable α] {registry next : Registry σ} {handler : Handler σ α}
      (earlier : Assembled registry)
      (registered : registry.onClientEvent α handler = .ok next) : Assembled next
  | lifecycle {kind : LifecycleKind} {registry next : Registry σ} {resolvers : List Resolver}
      {handler : Handler σ LifecycleDetails} (earlier : Assembled registry)
      (registered : registry.onLifecycle kind resolvers handler = .ok next) : Assembled next

variable {registry next : Registry σ} {resolvers : List Resolver}

/-- Resolvers are let through exactly if their names are distinct. -/
theorem checkNames_eq_ok_iff :
    checkNames resolvers = .ok () ↔ (resolvers.map (·.name)).Nodup := by
  rw [show (resolvers.map (·.name)).Nodup ↔ Resolver.repeatedName? [] resolvers = none by
    simp [Resolver.repeatedName?_eq_none_iff]]
  unfold checkNames
  cases Resolver.repeatedName? [] resolvers <;> simp

/-- A registration goes on only with resolvers of distinct names. -/
theorem of_checkNames {rest : Unit → Except RegistryError (Registry σ)}
    (registered : (checkNames resolvers >>= rest) = .ok next) :
    (resolvers.map (·.name)).Nodup ∧ rest () = .ok next := by
  cases checked : checkNames resolvers with
  | error error =>
      rw [checked] at registered
      cases registered
  | ok =>
      rw [checked] at registered
      exact ⟨checkNames_eq_ok_iff.1 checked, registered⟩

/-- The resolvers of every handler in a registry have distinct names. -/
structure Distinct (registry : Registry σ) : Prop where
  actions : ∀ type registration, registry.actions.get? type = some registration →
    (registration.resolvers.map (·.name)).Nodup
  lifecycle : ∀ kind registration, registry.lifecycle kind = some registration →
    (registration.resolvers.map (·.name)).Nodup

/-- Before anything is registered there are no resolvers. -/
theorem distinct_empty (landType : String) : ({ landType } : Registry σ).Distinct where
  actions _ _ found := nomatch found
  lifecycle kind _ found := by cases kind <;> cases found

/-- A handler of actions is only registered with resolvers of distinct names. -/
theorem Distinct.onAction {α : Type} [Readable α] {handler : Handler σ α}
    (distinct : registry.Distinct)
    (registered : registry.onAction α resolvers handler = .ok next) :
    next.Distinct := by
  unfold Registry.onAction at registered
  dsimp only at registered
  split at registered
  · cases registered
  obtain ⟨own, done⟩ := of_checkNames registered
  cases done
  refine ⟨fun type registration found => ?_, distinct.lifecycle⟩
  by_cases same : type = Typed.name α
  · rw [same, Dict.get?_insert_self] at found
    cases found
    exact own
  · rw [Dict.get?_insert_of_ne _ _ same] at found
    exact distinct.actions type registration found

/-- Handlers of client events have no resolvers. -/
theorem Distinct.onClientEvent {α : Type} [Readable α] {handler : Handler σ α}
    (distinct : registry.Distinct)
    (registered : registry.onClientEvent α handler = .ok next) :
    next.Distinct := by
  unfold Registry.onClientEvent at registered
  dsimp only at registered
  split at registered
  · cases registered
  · cases registered
    exact ⟨distinct.actions, distinct.lifecycle⟩

/-- A handler of joins or leaves is only registered with resolvers of distinct names. -/
theorem Distinct.onLifecycle {kind : LifecycleKind} {handler : Handler σ LifecycleDetails}
    (distinct : registry.Distinct)
    (registered : registry.onLifecycle kind resolvers handler = .ok next) :
    next.Distinct := by
  unfold Registry.onLifecycle at registered
  split at registered
  · cases registered
  obtain ⟨own, done⟩ := of_checkNames registered
  cases kind with
  | join =>
      cases done
      refine ⟨distinct.actions, fun kind registration found => ?_⟩
      cases kind with
      | join =>
          cases found
          exact own
      | leave => exact distinct.lifecycle .leave registration found
  | leave =>
      cases done
      refine ⟨distinct.actions, fun kind registration found => ?_⟩
      cases kind with
      | join => exact distinct.lifecycle .join registration found
      | leave =>
          cases found
          exact own

/-- However a registry is assembled, the resolvers of each handler have distinct names. -/
theorem Assembled.distinct (assembled : Assembled registry) : registry.Distinct := by
  induction assembled with
  | nothing landType => exact distinct_empty landType
  | action _ registered inductionHypothesis => exact inductionHypothesis.onAction registered
  | clientEvent _ registered inductionHypothesis =>
      exact inductionHypothesis.onClientEvent registered
  | lifecycle _ registered inductionHypothesis =>
      exact inductionHypothesis.onLifecycle registered

/-- The resolvers that are run for an item have distinct names. -/
theorem Distinct.resolversFor {kind : ItemKind} {type : String}
    (distinct : registry.Distinct)
    (declared : registry.resolversFor kind type = .ok resolvers) :
    (resolvers.map (·.name)).Nodup := by
  unfold Registry.resolversFor at declared
  cases kind with
  | action =>
      dsimp only at declared
      split at declared
      · rename_i registration found
        cases declared
        exact distinct.actions type registration found
      · cases declared
  | clientEvent =>
      dsimp only at declared
      split at declared
      · cases declared
        exact .nil
      · cases declared
  | lifecycle kind =>
      dsimp only at declared
      split at declared
      · rename_i registration found
        cases declared
        exact distinct.lifecycle kind registration found
      · cases declared
        exact .nil

end Registry

namespace Resolver

variable {resolvers : List Resolver} {order : List Task} {context : ResolverContext} {draw : Nat}

/-! ## Numbers of tasks -/

/-- Every resolver runs as one task. -/
theorem map_resolver_start (resolvers : List Resolver) :
    (start resolvers).map (·.resolver) = resolvers := by
  rw [start, List.mapIdx_eq_zipIdx_map, List.map_map]
  exact List.zipIdx_map_fst 0 resolvers

/-- Every resolver finishes once, in whatever order the tasks do. -/
theorem perm_of_finished (finished : order.Perm (start resolvers)) :
    (order.map (·.resolver)).Perm resolvers := by
  have resolved := finished.map (·.resolver)
  rwa [map_resolver_start] at resolved

/-- No two tasks have one number. -/
theorem nodup_start (resolvers : List Resolver) : ((start resolvers).map (·.id)).Nodup := by
  rw [start, List.mapIdx_eq_zipIdx_map, List.map_map]
  have numbers : resolvers.zipIdx.map (·.2) = List.range' 0 resolvers.length :=
    List.zipIdx_map_snd 0 resolvers
  exact numbers ▸ List.nodup_range'

/-- The name of a task is noted under its number. -/
theorem get?_names {task : Task} (started : task ∈ start resolvers) :
    (names (start resolvers)).get? task.id = some task.resolver.name := by
  have distinct : (((start resolvers).map fun task => (task.id, task.resolver.name)).map
      (·.1)).Nodup := by
    rw [List.map_map]
    exact nodup_start resolvers
  rw [Dict.get?_eq_some_iff, names, Dict.mem_entries_ofList distinct]
  exact List.mem_map_of_mem started

/-! ## Outcomes by name -/

/-- A resolver has an output. -/
def Delivers (context : ResolverContext) (draw : Nat) (resolver : Resolver) : Prop :=
  ∃ output, resolver.resolve context draw = .ok output

/-- Takes the outcome of a resolver to outputs that were collected before it. -/
def keep (context : ResolverContext) (draw : Nat) (outputs : ResolverOutputs)
    (resolver : Resolver) : Except LandError ResolverOutputs :=
  match resolver.resolve context draw with
  | .ok output => .ok (outputs.insert resolver.name output)
  | .error fault => .error (.resolverFailure resolver.name fault.message)

/-- Outcomes that are collected by number are collected under their own names. -/
theorem collect_eq_foldlM {noted : Dict Nat String}
    (known : ∀ task ∈ order, noted.get? task.id = some task.resolver.name)
    (distinct : (order.map (·.id)).Nodup)
    (outputs : ResolverOutputs) :
    collect noted outputs (order.map (Task.run context draw)) =
      (order.map (·.resolver)).foldlM (keep context draw) outputs := by
  induction order generalizing noted outputs with
  | nil => rfl
  | cons task rest inductionHypothesis =>
      obtain ⟨own, others⟩ := List.nodup_cons.1 distinct
      have name : noted.get? task.id = some task.resolver.name := known task List.mem_cons_self
      simp only [List.map_cons, List.foldlM_cons, collect, keep, Task.run, name,
        Option.getD_some]
      cases task.resolver.resolve context draw with
      | error fault => rfl
      | ok output =>
          refine inductionHypothesis (fun other member => ?_) others _
          have different : other.id ≠ task.id := fun same =>
            own (List.mem_map.2 ⟨other, member, same⟩)
          rw [Dict.get?_erase_of_ne _ different]
          exact known other (List.mem_cons_of_mem _ member)

/-- In whatever order the tasks finish, each outcome is that of its own resolver. -/
theorem resolveInOrder_eq_foldlM (finished : order.Perm (start resolvers)) :
    resolveInOrder resolvers order context draw =
      (order.map (·.resolver)).foldlM (keep context draw) ∅ :=
  collect_eq_foldlM (fun _ member => get?_names (finished.mem_iff.1 member))
    ((finished.map _).nodup_iff.2 (nodup_start resolvers)) ∅

/-- The output of a resolver with its name, if there is one. -/
def output? (context : ResolverContext) (draw : Nat) (resolver : Resolver) :
    Option (String × ResolverOutput) :=
  (resolver.resolve context draw).toOption.map (resolver.name, ·)

/-- Outputs are put one after the other under their names. -/
theorem foldlM_keep_of_delivers
    (delivers : ∀ resolver ∈ resolvers, resolver.Delivers context draw)
    (outputs : ResolverOutputs) :
    resolvers.foldlM (keep context draw) outputs =
      .ok ((resolvers.filterMap (output? context draw)).foldl
        (fun outputs entry => outputs.insert entry.1 entry.2) outputs) := by
  induction resolvers generalizing outputs with
  | nil => rfl
  | cons resolver rest inductionHypothesis =>
      obtain ⟨output, resolved⟩ := delivers resolver List.mem_cons_self
      have kept : keep context draw outputs resolver =
          .ok (outputs.insert resolver.name output) := by
        rw [keep, resolved]
      have shown : output? context draw resolver = some (resolver.name, output) := by
        rw [output?, resolved]
        rfl
      rw [List.foldlM_cons, kept, List.filterMap_cons_some shown, List.foldl_cons]
      exact inductionHypothesis (fun other member => delivers other (List.mem_cons_of_mem _ member))
        _

/-- The first failure is reported under the name of its resolver, whatever comes after
it. -/
theorem foldlM_keep_of_fault {before after : List Resolver} {failing : Resolver}
    {fault : ResolverFault}
    (delivers : ∀ resolver ∈ before, resolver.Delivers context draw)
    (failed : failing.resolve context draw = .error fault)
    (outputs : ResolverOutputs) :
    (before ++ failing :: after).foldlM (keep context draw) outputs =
      .error (.resolverFailure failing.name fault.message) := by
  have refused (outputs : ResolverOutputs) :
      keep context draw outputs failing =
        .error (.resolverFailure failing.name fault.message) := by
    rw [keep, failed]
  rw [List.foldlM_append, foldlM_keep_of_delivers delivers]
  change (failing :: after).foldlM (keep context draw) _ = _
  rw [List.foldlM_cons, refused]
  rfl

/-! ## What is gathered -/

/-- Outputs are those of resolvers: there are as many, each under the name of its own
resolver. -/
structure Gathered (resolvers : List Resolver) (context : ResolverContext) (draw : Nat)
    (outputs : ResolverOutputs) : Prop where
  size_eq : outputs.size = resolvers.length
  get?_eq_some_iff : ∀ name output, outputs.get? name = some output ↔
    ∃ resolver ∈ resolvers, resolver.name = name ∧ resolver.resolve context draw = .ok output

/-- A task is the first of an order to fail. -/
def FirstToFail (context : ResolverContext) (draw : Nat) (order : List Task) (task : Task)
    (fault : ResolverFault) : Prop :=
  ∃ before after, order = before ++ task :: after ∧
    (∀ earlier ∈ before, earlier.resolver.Delivers context draw) ∧
    task.resolver.resolve context draw = .error fault

/-- An output is shown with the name of its resolver. -/
theorem output?_eq_some_iff {resolver : Resolver} {name : String} {output : ResolverOutput} :
    output? context draw resolver = some (name, output) ↔
      resolver.name = name ∧ resolver.resolve context draw = .ok output := by
  rw [output?]
  cases resolver.resolve context draw with
  | error fault => simp [Except.toOption]
  | ok result => simp [Except.toOption]

/-- Resolvers that have outputs show them under their own names. -/
theorem names_of_delivers
    (delivers : ∀ resolver ∈ resolvers, resolver.Delivers context draw) :
    (resolvers.filterMap (output? context draw)).map (·.1) = resolvers.map (·.name) := by
  rw [List.map_filterMap, ← List.filterMap_eq_map]
  refine List.filterMap_congr fun resolver member => ?_
  obtain ⟨output, resolved⟩ := delivers resolver member
  rw [output?_eq_some_iff.2 ⟨rfl, resolved⟩]
  rfl

/-- The dictionary of all outputs holds each under the name of its resolver. -/
theorem gathered_of_delivers
    (distinct : (resolvers.map (·.name)).Nodup)
    (delivers : ∀ resolver ∈ resolvers, resolver.Delivers context draw) :
    Gathered resolvers context draw
      (Dict.ofList (resolvers.filterMap (output? context draw))) := by
  have names := names_of_delivers delivers
  rw [← names] at distinct
  constructor
  · rw [Dict.size_ofList distinct]
    simpa using congrArg List.length names
  · intro name output
    rw [Dict.get?_eq_some_iff, Dict.mem_entries_ofList distinct, List.mem_filterMap]
    simp only [output?_eq_some_iff]

/-- If every resolver has an output, they are collected to the same dictionary in any
order. -/
theorem resolveInOrder_of_delivers
    (distinct : (resolvers.map (·.name)).Nodup)
    (delivers : ∀ resolver ∈ resolvers, resolver.Delivers context draw)
    (finished : order.Perm (start resolvers)) :
    resolveInOrder resolvers order context draw =
      .ok (Dict.ofList (resolvers.filterMap (output? context draw))) := by
  have same := perm_of_finished finished
  have shown := same.filterMap (output? context draw)
  rw [resolveInOrder_eq_foldlM finished,
    foldlM_keep_of_delivers fun resolver member => delivers resolver (same.mem_iff.1 member)]
  rw [← names_of_delivers delivers] at distinct
  exact congrArg Except.ok (Dict.ofList_eq_of_perm distinct shown.symm).symm

/-- The first task to fail is reported. -/
theorem resolveInOrder_of_firstToFail {task : Task} {fault : ResolverFault}
    (finished : order.Perm (start resolvers))
    (first : FirstToFail context draw order task fault) :
    resolveInOrder resolvers order context draw =
      .error (.resolverFailure task.resolver.name fault.message) := by
  obtain ⟨before, after, rfl, delivers, failed⟩ := first
  rw [resolveInOrder_eq_foldlM finished, List.map_append, List.map_cons]
  refine foldlM_keep_of_fault (fun resolver member => ?_) failed _
  obtain ⟨earlier, inside, rfl⟩ := List.mem_map.1 member
  exact delivers earlier inside

/-- Unless all tasks have outputs, one is the first to fail. -/
theorem exists_firstToFail
    (failing : ¬∀ task ∈ order, task.resolver.Delivers context draw) :
    ∃ task fault, FirstToFail context draw order task fault := by
  induction order with
  | nil => exact absurd nofun failing
  | cons task rest inductionHypothesis =>
      cases ran : task.resolver.resolve context draw with
      | error fault => exact ⟨task, fault, [], rest, rfl, nofun, ran⟩
      | ok output =>
          have later : ¬∀ other ∈ rest, other.resolver.Delivers context draw := fun delivers =>
            failing (List.forall_mem_cons.2 ⟨⟨output, ran⟩, delivers⟩)
          obtain ⟨first, fault, before, after, rfl, delivers, failed⟩ := inductionHypothesis later
          exact ⟨first, fault, task :: before, after, rfl,
            List.forall_mem_cons.2 ⟨⟨output, ran⟩, delivers⟩, failed⟩

/-- The tasks of a list finish in its order, if their numbers are given. -/
theorem finishing_map_id {tasks : List Task} (finished : order.Perm tasks)
    (distinct : (tasks.map (·.id)).Nodup) :
    finishing (order.map (·.id)) tasks = order := by
  induction order generalizing tasks with
  | nil =>
      obtain rfl := finished.nil_eq
      rfl
  | cons task rest inductionHypothesis =>
      have numbers : ((task :: rest).map (·.id)).Nodup := (finished.map _).nodup_iff.2 distinct
      obtain ⟨own, others⟩ := List.nodup_cons.1 numbers
      have different : ∀ other ∈ rest, (other.id == task.id) = false := fun other member =>
        beq_eq_false_iff_ne.2 fun same => own (List.mem_map.2 ⟨other, member, same⟩)
      have noOther : rest.filter (·.id == task.id) = [] :=
        List.filter_eq_nil_iff.2 fun other member => by simp [different other member]
      have allOthers : rest.filter (fun other => !(other.id == task.id)) = rest :=
        List.filter_eq_self.2 fun other member => by simp [different other member]
      have first : tasks.filter (·.id == task.id) = [task] := by
        have parts := finished.filter (·.id == task.id)
        rw [List.filter_cons, if_pos (beq_self_eq_true _), noOther] at parts
        exact List.perm_singleton.1 parts.symm
      have left : rest.Perm (tasks.filter fun other => !(other.id == task.id)) := by
        have parts := finished.filter fun other => !(other.id == task.id)
        rwa [List.filter_cons, if_neg (by simp), allOthers] at parts
      rw [List.map_cons, finishing, first,
        inductionHypothesis left ((left.map _).nodup_iff.1 others)]
      rfl

/-- Whatever order is given, the tasks finish in one, and they finish in each that is
given. -/
theorem resolveAll_eq (resolvers : List Resolver) (context : ResolverContext) (draw : Nat) :
    (∀ numbers, ∃ order, order.Perm (start resolvers) ∧
      resolveAll resolvers numbers context draw =
        resolveInOrder resolvers order context draw) ∧
      ∀ order, order.Perm (start resolvers) →
        resolveAll resolvers (order.map (·.id)) context draw =
          resolveInOrder resolvers order context draw := by
  refine ⟨fun numbers => ⟨_, finishing_perm numbers (start resolvers), rfl⟩,
    fun order finished => ?_⟩
  rw [resolveAll, finishing_map_id finished (nodup_start resolvers)]

/-- Resolvers of distinct names succeed exactly if each of them has an output.  Then every
order in which their tasks may finish gives the same outputs, one for each resolver under
its own name.  Otherwise the failure is that of the first task in the order that fails,
under the name of its resolver and with its reason.  The orders are those that chance may
give. -/
theorem outputs_in_any_order (resolvers : List Resolver) (context : ResolverContext) (draw : Nat)
    (distinct : (resolvers.map (·.name)).Nodup) :
    ((∀ resolver ∈ resolvers, resolver.Delivers context draw) →
        ∃ outputs, Gathered resolvers context draw outputs ∧
          ∀ order, order.Perm (start resolvers) →
            resolveInOrder resolvers order context draw = .ok outputs) ∧
      (∀ order, order.Perm (start resolvers) →
        ((∃ outputs, resolveInOrder resolvers order context draw = .ok outputs) ↔
          ∀ resolver ∈ resolvers, resolver.Delivers context draw) ∧
        ∀ error, resolveInOrder resolvers order context draw = .error error ↔
          ∃ task fault, FirstToFail context draw order task fault ∧
            error = .resolverFailure task.resolver.name fault.message) ∧
      (∀ numbers, ∃ order, order.Perm (start resolvers) ∧
        resolveAll resolvers numbers context draw =
          resolveInOrder resolvers order context draw) ∧
      ∀ order, order.Perm (start resolvers) →
        resolveAll resolvers (order.map (·.id)) context draw =
          resolveInOrder resolvers order context draw := by
  refine ⟨fun delivers => ⟨_, gathered_of_delivers distinct delivers, fun order finished =>
    resolveInOrder_of_delivers distinct delivers finished⟩, fun order finished => ?_,
    resolveAll_eq resolvers context draw⟩
  have same := perm_of_finished finished
  have all_iff : (∀ task ∈ order, task.resolver.Delivers context draw) ↔
      ∀ resolver ∈ resolvers, resolver.Delivers context draw := by
    simp only [← same.mem_iff, List.forall_mem_map]
  by_cases delivers : ∀ resolver ∈ resolvers, resolver.Delivers context draw
  · have succeeds := resolveInOrder_of_delivers distinct delivers finished
    refine ⟨iff_of_true ⟨_, succeeds⟩ delivers, fun error => ?_⟩
    refine iff_of_false (fun failed => nomatch succeeds.symm.trans failed) ?_
    rintro ⟨task, fault, first, -⟩
    exact nomatch succeeds.symm.trans (resolveInOrder_of_firstToFail finished first)
  · obtain ⟨task, fault, first⟩ := exists_firstToFail (all_iff.not.2 delivers)
    have fails := resolveInOrder_of_firstToFail finished first
    refine ⟨iff_of_false (fun ⟨_, succeeded⟩ => nomatch fails.symm.trans succeeded) delivers,
      fun error => ⟨fun failed => ?_, ?_⟩⟩
    · exact ⟨task, fault, first, Except.error.inj (failed.symm.trans fails)⟩
    · rintro ⟨other, reason, earliest, rfl⟩
      exact resolveInOrder_of_firstToFail finished earliest

/-- Two dice give the same outputs whichever is rolled first.  Of a resolver that is
refused and one that panics, the first to finish is reported, also behind the output of a
third, and with what is said about the panic. -/
theorem outputs_in_any_order_of_dice :
    let dice (name : String) (face : Int64) : Resolver :=
      { name, resolve := fun _ _ => .ok ⟨"Dice", .ofInt64 face⟩ }
    let broken : Resolver :=
      { name := "broken", resolve := fun _ _ => .error (.failed "service unavailable") }
    let lost : Resolver :=
      { name := "lost", resolve := fun _ _ => .error (.panicked "task 3 panicked") }
    let both := [dice "first" 1, dice "second" 6]
    let three := [dice "roll" 3, broken, lost]
    (∃ outputs, Gathered both default 0 outputs ∧
      ∀ order, order.Perm (start both) → resolveInOrder both order default 0 = .ok outputs) ∧
    resolveAll three [0, 1, 2] default 0 =
      .error (.resolverFailure "broken" "service unavailable") ∧
    resolveAll three [2, 1, 0] default 0 =
      .error (.resolverFailure "lost" "task 3 panicked") := by
  intro dice broken lost both three
  have rolled (name : String) (face : Int64) : (dice name face).Delivers default 0 := ⟨_, rfl⟩
  have deliver : ∀ resolver ∈ both, resolver.Delivers default 0 := by
    simp [both, rolled]
  have distinct : (three.map (·.name)).Nodup := by decide
  obtain ⟨-, reported, -, given⟩ := outputs_in_any_order three default 0 distinct
  refine ⟨(outputs_in_any_order both default 0 (by decide)).1 deliver, ?_, ?_⟩
  · have inOrder : (start three).Perm (start three) := .refl _
    refine (given _ inOrder).trans (((reported _ inOrder).2 _).2 ⟨⟨1, broken⟩,
      .failed "service unavailable", ⟨[⟨0, dice "roll" 3⟩], [⟨2, lost⟩], rfl, ?_, rfl⟩, rfl⟩)
    exact List.forall_mem_singleton.2 (rolled _ _)
  · have backwards : (start three).reverse.Perm (start three) := List.reverse_perm _
    exact (given _ backwards).trans (((reported _ backwards).2 _).2 ⟨⟨2, lost⟩,
      .panicked "task 3 panicked", ⟨[], [⟨1, broken⟩, ⟨0, dice "roll" 3⟩], rfl, nofun, rfl⟩, rfl⟩)

end Resolver
end Chronicle
