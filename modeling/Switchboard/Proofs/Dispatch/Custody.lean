import Mathlib.Data.List.Nodup
import Switchboard.Proofs.Dispatch.Calls

/-!
Any number of threads with one dispatcher: where every item is. An item that was queued is in the backlog,
in the hands of the one thread that drains, with a handler or discarded, and in one of these places only.
-/

namespace Switchboard.Dispatch

variable {β ι η : Type}

/-! ### What a drain has in hand -/

namespace Frame

/-- The item taken out of the backlog whose handler has not been entered. -/
def takenInHand? (f : Frame ι η) : Option ι :=
  match f.stage with
  | .calling _ x (.drained _) => some x
  | _ => none

/-- The item taken out of the backlog whose handler has not returned. -/
def inWork? (f : Frame ι η) : Option ι :=
  match f.stage with
  | .calling _ x (.drained _) | .handling x (.drained _) => some x
  | _ => none

theorem takenInHand_none {f : Frame ι η} (outside : f.stage.drains = false) : f.takenInHand? = none := by
  unfold takenInHand?
  split
  · simp_all [Stage.drains]
  · rfl

theorem inWork_none {f : Frame ι η} (outside : f.stage.drains = false) : f.inWork? = none := by
  unfold inWork?
  split <;> simp_all [Stage.drains]

end Frame

/-- What can be read off the calls that drain, and off no others. -/
def OfDrains (g : Frame ι η → Option ι) : Prop := ∀ f, f.stage.drains = false → g f = none

theorem outside_empty {g : Frame ι η → Option ι} (ofDrains : OfDrains g) {fs : List (Frame ι η)}
    (outside : drains fs = 0) : fs.filterMap g = [] := by
  apply List.filterMap_eq_nil_iff.mpr
  intro f member
  have drains : ¬ f.stage.drains = true := List.countP_eq_zero.mp outside f member
  exact ofDrains f (by simpa using drains)

section

variable [Backlog β ι] [LawfulBacklog β ι] {stamp : Nat → ι → ι} {t : ThreadId} {n : Nat}
  {d d' : Dispatcher β ι η} {fs fs' : List (Frame ι η)} {es : List (Entry ι η)}

theorem turn_taken_empty (turn : Turn stamp t n d fs d' fs' es) (outside : drains fs = 0) :
    es.filterMap Entry.taken? = [] := by
  cases turn with
  | take =>
    unfold drains at outside
    rw [List.countP_cons_of_pos (by rfl)] at outside
    omega
  | discard =>
    rw [List.filterMap_append, discards_filterMap_none fun _ => rfl]
    rfl
  | _ => rfl

/-- The items taken out of the backlog are those that a handler was entered with, and the one in hand. -/
theorem turn_taken (turn : Turn stamp t n d fs d' fs' es) (marked : Marked d t fs) :
    fs.filterMap Frame.takenInHand? ++ es.filterMap Entry.taken? =
      es.filterMap Entry.startedDrained? ++ fs'.filterMap Frame.takenInHand? := by
  cases turn with
  | take =>
    have none := outside_empty (fun _ => Frame.takenInHand_none) (drainer_of_draining marked rfl).2
    simp [List.filterMap_cons, Frame.takenInHand?, none]
  | discard =>
    rw [List.filterMap_append, discards_filterMap_none fun _ => rfl]
    rw [List.filterMap_append, discards_filterMap_none fun _ => rfl]
    simp [List.filterMap_cons, Frame.takenInHand?]
  | @enter _ _ _ _ k => cases k <;> simp [List.filterMap_cons, Frame.takenInHand?]
  | _ => simp [List.filterMap_cons, Frame.takenInHand?]

/-- The items taken out of the backlog are those whose handler has returned, and the one in work. -/
theorem turn_worked (turn : Turn stamp t n d fs d' fs' es) (marked : Marked d t fs) :
    fs.filterMap Frame.inWork? ++ es.filterMap Entry.taken? =
      es.filterMap Entry.finishedDrained? ++ fs'.filterMap Frame.inWork? := by
  cases turn with
  | take =>
    have none := outside_empty (fun _ => Frame.inWork_none) (drainer_of_draining marked rfl).2
    simp [List.filterMap_cons, Frame.inWork?, none]
  | discard =>
    rw [List.filterMap_append, discards_filterMap_none fun _ => rfl]
    rw [List.filterMap_append, discards_filterMap_none fun _ => rfl]
    simp [List.filterMap_cons, Frame.inWork?]
  | @enter _ _ _ _ k => cases k <;> simp [List.filterMap_cons, Frame.inWork?]
  | _ => simp [List.filterMap_cons, Frame.inWork?]

/-! ### All threads together -/

namespace System

/-- What is read off the calls of the thread that the gate's mark names. -/
def byDrainer (s : System β ι η) (g : Frame ι η → Option ι) : List ι :=
  match s.dispatcher.gate.drainer with
  | some u => (s.threads u).filterMap g
  | none => []

def held (s : System β ι η) : List ι := s.byDrainer Frame.takenInHand?

omit [Backlog β ι] [LawfulBacklog β ι] in
theorem byDrainer_eq {s : System β ι η} {g : Frame ι η → Option ι} (ofDrains : OfDrains g)
    (marked : Marked s.dispatcher t (s.threads t)) (alone : ∀ u, u ≠ t → s.dispatcher.gate.drainer ≠ some u) :
    s.byDrainer g = (s.threads t).filterMap g := by
  unfold byDrainer
  cases drainer : s.dispatcher.gate.drainer with
  | none =>
    unfold Marked at marked
    rw [drainer, if_neg nofun] at marked
    exact (outside_empty ofDrains marked).symm
  | some u =>
    by_cases same : u = t
    · rw [same]
    · exact absurd drainer (alone u same)

/-- A balance of the items taken holds of all threads if it holds of the one that moves. -/
theorem turn_byDrainer (s : System β ι η) (gated : s.Gated) {g : Frame ι η → Option ι} {out : Entry ι η → Option ι}
    (turn : Turn stamp t s.log.length s.dispatcher (s.threads t) d fs es) (ofDrains : OfDrains g)
    (move : (s.threads t).filterMap g ++ es.filterMap Entry.taken? = es.filterMap out ++ fs.filterMap g)
    (before : s.log.filterMap Entry.taken? = s.log.filterMap out ++ s.byDrainer g) :
    (s.after t d fs es).log.filterMap Entry.taken? =
      (s.after t d fs es).log.filterMap out ++ (s.after t d fs es).byDrainer g := by
  have marked := gated.marked t
  have after := (turn_gated s gated turn).marked t
  rw [after_log, List.filterMap_append, List.filterMap_append, before]
  by_cases other : ∃ u, u ≠ t ∧ s.dispatcher.gate.drainer = some u
  · -- Another thread drains: this one takes nothing, and has nothing that counts before or after.
    obtain ⟨u, different, drainer⟩ := other
    have drainer' : d.gate.drainer = some u := (turn_drainer_other turn marked different).mpr drainer
    have outside : drains (s.threads t) = 0 := by
      unfold Marked at marked
      rwa [drainer, if_neg fun same => different (Option.some.inj same)] at marked
    have outside' : drains fs = 0 := by
      unfold Marked at after
      rwa [after_threads_self, after_dispatcher, drainer', if_neg fun same => different (Option.some.inj same)] at after
    have taken := turn_taken_empty turn outside
    rw [outside_empty ofDrains outside, outside_empty ofDrains outside', taken, List.append_nil, List.append_nil] at move
    have same : (s.after t d fs es).byDrainer g = s.byDrainer g := by
      unfold byDrainer
      rw [after_dispatcher, drainer', drainer]
      exact congrArg _ (after_threads_other different)
    rw [taken, ← move, same, List.append_nil, List.append_nil]
  · -- Nobody else drains: what the drainer has is what this thread has, before and after.
    have alone : ∀ u, u ≠ t → s.dispatcher.gate.drainer ≠ some u :=
      fun u different drainer => other ⟨u, different, drainer⟩
    have alone' : ∀ u, u ≠ t → (s.after t d fs es).dispatcher.gate.drainer ≠ some u :=
      fun u different drainer => alone u different ((turn_drainer_other turn marked different).mp drainer)
    rw [byDrainer_eq ofDrains marked alone, byDrainer_eq ofDrains after alone', after_threads_self]
    rw [List.append_assoc, move, List.append_assoc]

/-- What the log says has become of queued items agrees with where they are. -/
structure Tracked (s : System β ι η) : Prop where
  queued : s.log.filterMap Entry.queued? = s.log.filterMap Entry.left? ++ s.dispatcher.queue
  started : s.log.filterMap Entry.taken? = s.log.filterMap Entry.startedDrained? ++ s.held
  finished : s.log.filterMap Entry.taken? = s.log.filterMap Entry.finishedDrained? ++ s.byDrainer Frame.inWork?

theorem fresh_tracked : (fresh : System β ι η).Tracked where
  queued := (LawfulBacklog.items_empty (β := β)).symm
  started := rfl
  finished := rfl

theorem turn_tracked (s : System β ι η) (gated : s.Gated) (tracked : s.Tracked)
    (turn : Turn stamp t s.log.length s.dispatcher (s.threads t) d fs es) : (s.after t d fs es).Tracked where
  queued := by
    have move := turn_queue turn
    rw [after_log, after_dispatcher, List.filterMap_append, List.filterMap_append, tracked.queued,
      List.append_assoc, move, List.append_assoc]
  started :=
    turn_byDrainer s gated turn (fun _ => Frame.takenInHand_none) (turn_taken turn (gated.marked t)) tracked.started
  finished :=
    turn_byDrainer s gated turn (fun _ => Frame.inWork_none) (turn_worked turn (gated.marked t)) tracked.finished

end System

end

/-! ### One place for each item -/

namespace System

variable [DecidableEq ι] [Backlog β (Parcel ι)] [LawfulBacklog β (Parcel ι)] {stamp : Nat → ι → ι} {t : ThreadId}
  {d : Dispatcher β (Parcel ι) η} {fs : List (Frame (Parcel ι) η)} {es : List (Entry (Parcel ι) η)}

structure Kept (s : System β (Parcel ι) η) : Prop where
  gated : s.Gated
  recorded : s.Recorded
  assigned : s.Assigned
  tracked : s.Tracked

theorem fresh_kept : (fresh : System β (Parcel ι) η).Kept :=
  ⟨fresh_gated, fresh_recorded, fresh_assigned, fresh_tracked⟩

theorem turn_kept (s : System β (Parcel ι) η) (kept : s.Kept)
    (turn : Turn Parcel.stamp t s.log.length s.dispatcher (s.threads t) d fs es) : (s.after t d fs es).Kept where
  gated := turn_gated s kept.gated turn
  recorded := turn_recorded s kept.gated kept.recorded turn
  assigned := turn_assigned s kept.assigned turn
  tracked := turn_tracked s kept.gated kept.tracked turn

theorem admitted_nodup {s : System β (Parcel ι) η} (kept : s.Kept) : s.admitted.Nodup :=
  List.Nodup.of_map Parcel.call kept.recorded.consistent.distinct

/-- How many times the item is in the backlog, in the drainer's hands, with a handler or discarded. -/
def places (s : System β (Parcel ι) η) (x : Parcel ι) : Nat :=
  s.dispatcher.queue.count x + s.held.count x + s.started.count x + s.discarded.count x

theorem places_eq {s : System β (Parcel ι) η} (kept : s.Kept) (x : Parcel ι) :
    s.places x = (s.log.filterMap Entry.queued?).count x + (s.log.filterMap Entry.startedDirect?).count x := by
  have left := (left_split s.log).count_eq x
  have started := (started_split s.log).count_eq x
  rw [List.count_append] at left started
  rw [kept.tracked.started, List.count_append] at left
  rw [kept.tracked.queued, List.count_append, left]
  unfold places System.started System.discarded
  omega

theorem directStarts_le {s : System β (Parcel ι) η} (kept : s.Kept) (x : Parcel ι) :
    (s.log.filterMap Entry.startedDirect?).count x ≤ (s.log.filterMap Entry.passed?).count x := by
  have once := List.nodup_iff_count_le_one.mp kept.recorded.consistent.startedOnce x
  by_cases member : x ∈ s.log.filterMap Entry.startedDirect?
  · have passed := kept.recorded.consistent.started x member
    have counted : 0 < (s.log.filterMap Entry.passed?).count x :=
      List.count_pos_iff.mpr (List.mem_filterMap.mpr ⟨_, passed, rfl⟩)
    omega
  · rw [List.count_eq_zero.mpr member]
    exact Nat.zero_le _

theorem admitted_count {s : System β (Parcel ι) η} (kept : s.Kept) (x : Parcel ι) :
    (s.log.filterMap Entry.queued?).count x + (s.log.filterMap Entry.passed?).count x ≤ 1 := by
  have split := (admitted_split s.log).count_eq x
  rw [List.count_append] at split
  rw [← split]
  exact List.nodup_iff_count_le_one.mp (admitted_nodup kept) x

theorem places_le {s : System β (Parcel ι) η} (kept : s.Kept) (x : Parcel ι) : s.places x ≤ 1 := by
  have admitted := admitted_count kept x
  have direct := directStarts_le kept x
  rw [places_eq kept]
  omega

theorem places_queued {s : System β (Parcel ι) η} (kept : s.Kept) {x : Parcel ι} (queued : .queued x ∈ s.log) :
    s.places x = 1 := by
  have once := places_le kept x
  have counted : 0 < (s.log.filterMap Entry.queued?).count x :=
    List.count_pos_iff.mpr (List.mem_filterMap.mpr ⟨_, queued, rfl⟩)
  rw [places_eq kept] at once ⊢
  omega

theorem places_passed {s : System β (Parcel ι) η} (kept : s.Kept) {x : Parcel ι} (passed : .passed x ∈ s.log) :
    s.places x = directStarts s.log x := by
  have admitted := admitted_count kept x
  have counted : 0 < (s.log.filterMap Entry.passed?).count x :=
    List.count_pos_iff.mpr (List.mem_filterMap.mpr ⟨_, passed, rfl⟩)
  rw [places_eq kept]
  unfold directStarts
  omega

end System

end Switchboard.Dispatch
