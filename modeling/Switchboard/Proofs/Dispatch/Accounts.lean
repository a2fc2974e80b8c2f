import Mathlib
import Switchboard.Proofs.Dispatch.Ledger

/-!
What the calls of one thread have in hand, and how every move accounts for it.
-/

namespace Switchboard.Dispatch

variable {β ι η : Type} [Backlog β ι] [LawfulBacklog β ι] {stamp : Nat → ι → ι} {t : ThreadId} {n : Nat}
  {d d' : Dispatcher β ι η} {fs fs' : List (Frame ι η)} {es : List (Entry ι η)}

/-! ### Accounts -/

/-- What a report accounts for: items handed out and items dropped. -/
def Report.items (r : Report) : Nat := r.delivered + r.discarded

/-- The items that a call in progress has taken out of the backlog and will report. -/
def Frame.carried (f : Frame ι η) : Nat :=
  match f.stage with
  | .at (.draining r) => r.items
  | .calling _ _ (.drained r) | .handling _ (.drained r) => r.items + 1
  | _ => 0

omit [Backlog β ι] [LawfulBacklog β ι] in
theorem carried_outside {f : Frame ι η} (outside : f.stage.drains = false) : f.carried = 0 := by
  unfold Frame.carried
  split <;> simp_all [Stage.drains]

theorem deliver_items (r : Report) (v : Except Error Unit) : (r.deliver v).items = r.items + 1 := by
  cases v <;> simp [Report.deliver, Report.items] <;> omega

theorem turn_replies (turn : Turn stamp t n d fs d' fs' es) :
    es.countP Entry.repliesQueued = (es.filterMap Entry.queued?).length := by
  cases turn with
  | discard =>
    rw [List.filterMap_append, discards_filterMap_none fun _ => rfl, List.countP_append, List.countP_map]
    simp [List.filterMap_cons, Function.comp_def]
  | settleDirect v => cases v <;> rfl
  | _ => rfl

/-- What leaves the backlog is carried by the call that took it until a report accounts for it. -/
theorem turn_carried (turn : Turn stamp t n d fs d' fs' es) :
    (es.filterMap Entry.left?).length + (fs.map Frame.carried).sum =
      ((es.filterMap Entry.report?).map Report.items).sum + (fs'.map Frame.carried).sum := by
  cases turn with
  | call op =>
    have outset : Frame.carried ⟨n, op, .at op.phase⟩ = 0 := carried_outside (phase_drains op)
    simp [List.filterMap_cons, outset]
  | discard =>
    have left : ((d.queue.map Entry.discarded : List (Entry ι η)).filterMap Entry.left?).length = d.queue.length := by
      simp [List.filterMap_map, Function.comp_def]
    rw [List.filterMap_append, List.filterMap_append, discards_filterMap_none (f := Entry.report?) fun _ => rfl,
      List.length_append, left]
    simp [Frame.carried, Report.items]
  | take =>
    simp [List.filterMap_cons, Frame.carried]
    omega
  | lose =>
    simp [List.filterMap_cons, Frame.carried, Report.items, Report.lose]
    omega
  | @enter _ _ _ _ k => cases k <;> simp [List.filterMap_cons, Frame.carried]
  | settleDrained v => simp [List.filterMap_cons, Frame.carried, deliver_items]
  | _ => simp [List.filterMap_cons, Frame.carried, Report.items]

/-- Every item that a dispatch has queued is held, carried by a drain or accounted for in a report. -/
theorem turn_accounts (turn : Turn stamp t n d fs d' fs' es) :
    d.queue.length + (fs.map Frame.carried).sum + es.countP Entry.repliesQueued =
      ((es.filterMap Entry.report?).map Report.items).sum + (fs'.map Frame.carried).sum + d'.queue.length := by
  have queue := congrArg List.length (turn_queue turn)
  have carried := turn_carried turn
  rw [List.length_append, List.length_append] at queue
  rw [turn_replies turn]
  omega

/-! ### Handovers -/

/-- The item that a call is about to enter a handler with. -/
def Frame.inHand? (f : Frame ι η) : Option ι :=
  match f.stage with
  | .calling _ x _ => some x
  | _ => none

/-- Every call but the innermost waits for a handler that it is running. -/
def Nested : List (Frame ι η) → Prop
  | [] => True
  | _ :: below => ∀ f ∈ below, f.Handling

omit [Backlog β ι] [LawfulBacklog β ι] in
theorem nested_below {f : Frame ι η} {below : List (Frame ι η)} (nested : Nested (f :: below)) : Nested below := by
  cases below with
  | nil => trivial
  | cons g rest => exact (List.forall_mem_cons.mp nested).2

omit [Backlog β ι] [LawfulBacklog β ι] in
theorem handling_of_free {fs : List (Frame ι η)} (nested : Nested fs) (ready : free fs = true) :
    ∀ f ∈ fs, f.Handling := by
  match fs, ready with
  | [], _ => nofun
  | ⟨_, _, .handling x k⟩ :: _, _ => exact List.forall_mem_cons.mpr ⟨⟨x, k, rfl⟩, nested⟩

theorem turn_nested (turn : Turn stamp t n d fs d' fs' es) (nested : Nested fs) : Nested fs' := by
  cases turn with
  | call _ ready => exact handling_of_free nested ready
  | preset => exact nested
  | queue | refuse | lack | suspend | discard | bindSuspended | reopenInside | reopenEmpty | wake | stop
    | settleDirect => exact nested_below nested
  | pass | choose | bindActive | claim | wait | take | lose | enter | settleDrained => exact nested

omit [Backlog β ι] [LawfulBacklog β ι] in
theorem inHand_of_handling {fs : List (Frame ι η)} (handling : ∀ f ∈ fs, f.Handling) :
    fs.filterMap Frame.inHand? = [] := by
  rw [List.filterMap_eq_nil_iff]
  intro f member
  obtain ⟨x, k, stage⟩ := handling f member
  simp [Frame.inHand?, stage]

/-- On one thread: the items admitted are those handed over or discarded, in the same order, then the one
in hand and then those held. An item that passes the backlog finds it empty. -/
theorem turn_handovers (turn : Turn stamp t n d fs d' fs' es) (nested : Nested fs) (settled : d.Settled) :
    fs.filterMap Frame.inHand? ++ d.queue ++ es.filterMap Entry.admitted? =
      es.filterMap Entry.gone? ++ fs'.filterMap Frame.inHand? ++ d'.queue := by
  cases turn with
  | queue =>
    have none := inHand_of_handling nested
    simp [List.filterMap_cons, Frame.inHand?, none, Dispatcher.queue, LawfulBacklog.items_push]
  | pass opened =>
    have none := inHand_of_handling nested
    obtain ⟨active, idle⟩ : d.gate.suspended = false ∧ d.gate.drainer = .none := by
      simpa [Gate.queues] using opened
    simp [List.filterMap_cons, Frame.inHand?, none, settled active idle]
  | discard =>
    have none := inHand_of_handling nested
    have empty : d.discard.2.queue = [] := LawfulBacklog.items_empty
    simp [List.filterMap_cons, List.filterMap_map, Function.comp_def, Frame.inHand?, none, empty]
  | take _ head | lose _ head =>
    have none := inHand_of_handling nested
    simp [List.filterMap_cons, Frame.inHand?, none, head]
  | _ =>
    simp [List.filterMap_cons, Frame.inHand?, Dispatcher.queue, Dispatcher.bind, Dispatcher.suspend,
      Dispatcher.reopen]

end Switchboard.Dispatch
