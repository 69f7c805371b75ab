import Chronicle.Proofs.Queue
import Chronicle.Source
import Chronicle.Tick
import Mathlib.Data.List.Perm.Basic

/-!
# What a frame gives back

A frame has its items in three lists.  Each is recorded with all that its
handler can look at, and put in the order of execution again the items of the
three lists are those that were executed.
-/

namespace Chronicle

namespace ItemRecord

/-- The sequence number of the recorded item. -/
def sequence : ItemRecord → Sequence
  | .action input => input.sequence
  | .clientEvent input => input.sequence
  | .lifecycle event => event.sequence

/-- The tick in which the recorded item became ready. -/
def resolvedAt : ItemRecord → Tick
  | .action input => input.resolvedAt
  | .clientEvent input => input.resolvedAt
  | .lifecycle event => event.resolvedAt

end ItemRecord

namespace Item

/-- An item as its record in a tick gives it back. -/
def asRecorded (tick : Tick) (item : Item) : Item := (item.toRecord tick).toItem

variable (tick : Tick) (item : Item)

/-- The number of an item is recorded. -/
@[simp] theorem toRecord_sequence : (item.toRecord tick).sequence = item.sequence := by
  unfold toRecord
  split <;> rfl

/-- The tick in which an item became ready is recorded. -/
@[simp] theorem toRecord_resolvedAt : (item.toRecord tick).resolvedAt = item.resolvedAt := by
  unfold toRecord
  split <;> rfl

/-- A record keeps the sequence number. -/
@[simp] theorem asRecorded_sequence : (item.asRecorded tick).sequence = item.sequence := by
  unfold asRecorded toRecord
  split <;> rfl

/-- A record keeps the place in the order of execution. -/
@[simp] theorem asRecorded_orderKey : (item.asRecorded tick).orderKey = item.orderKey := by
  unfold asRecorded toRecord
  split <;> rfl

/-- A record keeps the actor and the captured outputs. -/
@[simp] theorem ofItem_asRecorded (now : Tick) :
    Context.ofItem now (item.asRecorded tick) = Context.ofItem now item := by
  unfold asRecorded toRecord
  split <;> rfl

/-- Records keep the order of execution. -/
theorem pairwise_asRecorded
    {items : List Item}
    (ordered : items.Pairwise Precedes) :
    (items.map (asRecorded tick)).Pairwise Precedes := by
  rw [List.pairwise_map]
  refine ordered.imp fun before => ?_
  rwa [Precedes, asRecorded_orderKey, asRecorded_orderKey]

/-- A handler does the same with an item that was recorded. -/
@[simp] theorem dispatch_asRecorded (registry : Registry σ) (context : Context) :
    registry.dispatch context (item.asRecorded tick) = registry.dispatch context item := by
  obtain ⟨⟨kind, sequence, type, payload, actor, details⟩, outputs, resolvedAt⟩ := item
  cases kind with
  | action => rfl
  | clientEvent => rfl
  | lifecycle kind => cases details <;> rfl

end Item

/-- The effects of a tick are those of the items as they were recorded. -/
theorem Rules.effects_asRecorded
    (rules : Rules σ)
    (tick : Tick)
    (items : List Item) :
    rules.effects tick (items.map (Item.asRecorded tick)) = rules.effects tick items := by
  simp [Rules.effects, Function.comp_def]

/-- The records of the items of a frame, list by list. -/
def Recording.Frame.records (frame : Recording.Frame) : List ItemRecord :=
  frame.actions.map .action ++ frame.clientEvents.map .clientEvent ++
    frame.lifecycleEvents.map .lifecycle

/-- The three lists of a frame record every executed item once. -/
theorem TickOutcome.records_toFrame_perm
    (outcome : TickOutcome)
    (stateHash : Option String) :
    (outcome.toFrame stateHash).records.Perm
      (outcome.executed.map (Item.toRecord outcome.tick)) := by
  obtain ⟨tick, executed, serverEvents, failures⟩ := outcome
  induction executed with
  | nil => exact List.Perm.nil
  | cons item rest inductionHypothesis =>
      simp only [Recording.Frame.records, TickOutcome.toFrame, List.map_cons]
        at inductionHypothesis ⊢
      cases record : item.toRecord tick with
      | action input => simpa using inductionHypothesis
      | clientEvent input =>
          simp only [List.filterMap_cons_none, List.append_assoc]
          refine List.perm_middle.trans (List.Perm.cons _ ?_)
          simpa using inductionHypothesis
      | lifecycle event =>
          simp only [List.filterMap_cons_none]
          refine List.perm_middle.trans (List.Perm.cons _ ?_)
          simpa using inductionHypothesis

namespace Source

/-- The items of a frame are those of its records. -/
theorem frameItems_eq (frame : Recording.Frame) :
    frameItems frame = frame.records.map ItemRecord.toItem := by
  simp [frameItems, Recording.Frame.records, ItemRecord.toItem, Function.comp_def]

/-- The three lists of a frame give back every executed item once. -/
theorem frameItems_toFrame_perm
    (outcome : TickOutcome)
    (stateHash : Option String) :
    (frameItems (outcome.toFrame stateHash)).Perm
      (outcome.executed.map (Item.asRecorded outcome.tick)) := by
  rw [frameItems_eq]
  apply ((outcome.records_toFrame_perm stateHash).map ItemRecord.toItem).trans
  rw [List.map_map]
  exact List.Perm.refl _

/-- Items that are put in order ascend by their places. -/
theorem pairwise_inOrder (items : List Item) :
    (inOrder items).Pairwise fun a b => (compare a.orderKey b.orderKey).isLE = true := by
  have total : ∀ a b : Item,
      ((compare a.orderKey b.orderKey).isLE || (compare b.orderKey a.orderKey).isLE) = true := by
    intro a b
    have opposite : compare b.orderKey a.orderKey = (compare a.orderKey b.orderKey).swap :=
      Std.OrientedCmp.eq_swap
    rw [opposite]
    cases compare a.orderKey b.orderKey <;> rfl
  have transitive : ∀ a b c : Item, (compare a.orderKey b.orderKey).isLE = true →
      (compare b.orderKey c.orderKey).isLE = true →
        (compare a.orderKey c.orderKey).isLE = true :=
    fun _ _ _ => Std.TransCmp.isLE_trans
  exact List.pairwise_mergeSort transitive total items

/-- Items are put in order, none lost and none added. -/
theorem inOrder_perm (items : List Item) : (inOrder items).Perm items := List.mergeSort_perm _ _

/-- Items in the order of execution are not moved, as no two of them have one key. -/
theorem inOrder_eq_of_perm
    {items executed : List Item}
    (same : items.Perm executed)
    (ordered : executed.Pairwise Item.Precedes) :
    inOrder items = executed := by
  have distinct : ∀ a ∈ executed, ∀ b ∈ executed, a.orderKey = b.orderKey → a = b :=
    List.Pairwise.forall_of_forall_of_flip (R := fun a b => a.orderKey = b.orderKey → a = b)
      (fun _ _ _ => rfl)
      (ordered.imp fun before same => absurd same before.orderKey_ne)
      (ordered.imp fun before same => absurd same.symm before.orderKey_ne)
  refine List.Perm.eq_of_pairwise (fun a b here there below above => ?_)
    (pairwise_inOrder items) (ordered.imp fun less => Ordering.isLE_of_eq_lt less)
    ((inOrder_perm items).trans same)
  have here : a ∈ executed := (same.mem_iff).1 ((inOrder_perm items).mem_iff.1 here)
  exact distinct a here b there
    (Std.LawfulEqOrd.eq_of_compare (Std.OrientedCmp.isLE_antisymm below above))

/-- A frame gives back the executed items in the order of their execution. -/
theorem inOrder_frameItems_toFrame
    (outcome : TickOutcome)
    (stateHash : Option String)
    (ordered : outcome.executed.Pairwise Item.Precedes) :
    inOrder (frameItems (outcome.toFrame stateHash)) =
      outcome.executed.map (Item.asRecorded outcome.tick) := by
  exact inOrder_eq_of_perm (frameItems_toFrame_perm outcome stateHash)
    (Item.pairwise_asRecorded outcome.tick ordered)

end Source
end Chronicle
