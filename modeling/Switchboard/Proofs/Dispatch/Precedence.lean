import Switchboard.Proofs.Dispatch.Custody

/-!
Any number of threads with one dispatcher: who comes first. When one dispatch had returned before another
was made, the handler's run for the first is over before that for the second begins.
-/

namespace Switchboard.Dispatch

variable {β ι η : Type} {log es : List (Entry (Parcel ι) η)} {x y : Parcel ι}

/-! ### The order of dispatches -/

/-- The dispatch of `x` had returned when that of `y` was made. -/
def Precedes (log : List (Entry (Parcel ι) η)) (x y : Parcel ι) : Prop :=
  ∃ r, .returned x.call (.outcome r) ∈ log.take y.call

def Ended (log : List (Entry (Parcel ι) η)) (x : Parcel ι) : Prop :=
  (∃ k v, .finished x k v ∈ log) ∨ .discarded x ∈ log

theorem precedes_append (begun : y.call ≤ log.length) : Precedes (log ++ es) x y ↔ Precedes log x y := by
  unfold Precedes
  rw [List.take_append_of_le_length begun]

theorem precedes_returned (precedes : Precedes log x y) : ∃ r, .returned x.call (.outcome r) ∈ log := by
  obtain ⟨r, early⟩ := precedes
  exact ⟨r, List.mem_of_mem_take early⟩

theorem ended_append (ended : Ended log x) : Ended (log ++ es) x := by
  rcases ended with ⟨k, v, finished⟩ | discarded
  · exact Or.inl ⟨k, v, List.mem_append_left es finished⟩
  · exact Or.inr (List.mem_append_left es discarded)

section

variable [DecidableEq ι]

theorem precedes_irrefl (consistent : Consistent log) (x : Parcel ι) : ¬ Precedes log x x := by
  rintro ⟨r, early⟩
  exact Nat.lt_irrefl _ (consistent.returned x.call x.call _ early)

theorem begun_of_admitted (consistent : Consistent log) (admitted : x ∈ log.filterMap Entry.admitted?) :
    x.call < log.length := by
  obtain ⟨t, op, begun, _⟩ := consistent.admitted x admitted
  obtain ⟨inside, _⟩ := List.getElem?_eq_some_iff.mp begun
  exact inside

/-- From the log's own words to the order of dispatches. -/
theorem precedes_of_sublist (consistent : Consistent log) {r : Except Error Outcome} {u : ThreadId}
    {op : Operation (Parcel ι) η}
    (before : [.returned x.call (.outcome r), .called y.call u op].Sublist log) : Precedes log x y := by
  obtain ⟨front, back, rfl, returned, rest⟩ := List.cons_sublist_iff.mp before
  obtain ⟨i, at_⟩ := List.mem_iff_getElem?.mp (List.singleton_sublist.mp rest)
  have placed : (front ++ back)[front.length + i]? = some (.called y.call u op) := by
    rw [List.getElem?_append_right (Nat.le_add_right _ _), Nat.add_sub_cancel_left]
    exact at_
  have position : y.call = front.length + i := consistent.called _ _ _ _ placed
  refine ⟨r, ?_⟩
  rw [position, List.take_append, List.take_of_length_le (Nat.le_add_right _ _)]
  exact List.mem_append_left _ returned

end

/-! ### What one state knows -/

section

variable [DecidableEq ι] [Backlog β (Parcel ι)] [LawfulBacklog β (Parcel ι)] {t : ThreadId}
  {d : Dispatcher β (Parcel ι) η} {fs : List (Frame (Parcel ι) η)}

namespace System

theorem queue_admitted {s : System β (Parcel ι) η} (kept : s.Kept) (waits : x ∈ s.dispatcher.queue) :
    x ∈ s.admitted := by
  have queued : x ∈ s.log.filterMap Entry.queued? := by
    rw [kept.tracked.queued]
    exact List.mem_append_right _ waits
  exact (admitted_split s.log).mem_iff.mpr (List.mem_append_left _ queued)

theorem picked_admitted {s : System β (Parcel ι) η} (kept : s.Kept) {k : Awaiting} (picked : k.picks y ∈ s.log) :
    y ∈ s.admitted := by
  cases k with
  | direct => exact List.mem_filterMap.mpr ⟨_, picked, rfl⟩
  | drained r =>
    have taken : y ∈ s.log.filterMap Entry.taken? := List.mem_filterMap.mpr ⟨_, picked, rfl⟩
    have left : y ∈ s.log.filterMap Entry.left? := (left_split s.log).mem_iff.mpr (List.mem_append_left _ taken)
    have queued : y ∈ s.log.filterMap Entry.queued? := by
      rw [kept.tracked.queued]
      exact List.mem_append_left _ left
    exact (admitted_split s.log).mem_iff.mpr (List.mem_append_left _ queued)

/-- A parcel whose dispatch has returned is queued, at work in the drain or at its end. -/
theorem place_of_returned {s : System β (Parcel ι) η} (kept : s.Kept) {r : Except Error Outcome}
    (admitted : x ∈ s.admitted) (returned : .returned x.call (.outcome r) ∈ s.log) :
    x ∈ s.dispatcher.queue ∨ x ∈ s.byDrainer Frame.inWork? ∨ Ended s.log x := by
  have same : ∀ z ∈ s.admitted, z.call = x.call → z = x := fun z member call =>
    List.inj_on_of_nodup_map kept.recorded.consistent.distinct member admitted call
  rcases kept.recorded.consistent.answered x.call r returned with ⟨_, z, queued, call⟩ |
    ⟨z, v, passed, call, _, finished, _⟩ | ⟨_, unadmitted⟩
  · have member : z ∈ s.log.filterMap Entry.queued? := List.mem_filterMap.mpr ⟨_, queued, rfl⟩
    obtain rfl := same z ((admitted_split s.log).mem_iff.mpr (List.mem_append_left _ member)) call
    rw [kept.tracked.queued, List.mem_append] at member
    rcases member with left | waits
    · rcases List.mem_append.mp ((left_split s.log).mem_iff.mp left) with taken | discarded
      · rw [kept.tracked.finished, List.mem_append] at taken
        rcases taken with finished | working
        · obtain ⟨e, present, reads⟩ := List.mem_filterMap.mp finished
          match e, reads with
          | .finished _ (.drained r) v, rfl => exact Or.inr (Or.inr (Or.inl ⟨_, v, present⟩))
        · exact Or.inr (Or.inl working)
      · obtain ⟨e, present, reads⟩ := List.mem_filterMap.mp discarded
        match e, reads with
        | .discarded _, rfl => exact Or.inr (Or.inr (Or.inr present))
    · exact Or.inl waits
  · obtain rfl := same z (List.mem_filterMap.mpr ⟨_, passed, rfl⟩) call
    exact Or.inr (Or.inr (Or.inl ⟨_, v, finished⟩))
  · exact absurd rfl (unadmitted x admitted)

/-! ### First come, first served -/

structure Ordered (s : System β (Parcel ι) η) : Prop where
  queue : s.dispatcher.queue.Pairwise fun x y => ¬ Precedes s.log y x
  /-- What is picked for a handler comes after the end of all that precedes it. -/
  picked : ∀ y (k : Awaiting), k.picks y ∈ s.log → ∀ x ∈ s.admitted, Precedes s.log x y → Ended s.log x
  started : ∀ y h k, .started y h k ∈ s.log → ∀ x ∈ s.started, Precedes s.log x y →
    ∃ k' v, [.finished x k' v, .started y h k].Sublist s.log

omit [DecidableEq ι] in
theorem fresh_ordered : (fresh : System β (Parcel ι) η).Ordered where
  queue := by
    have empty : (fresh : System β (Parcel ι) η).dispatcher.queue = [] := LawfulBacklog.items_empty
    rw [empty]
    exact List.Pairwise.nil
  picked := nofun
  started := nofun

/-- The call of a parcel admitted now has not returned. -/
theorem turn_admitted_going {s : System β (Parcel ι) η} (kept : s.Kept)
    (turn : Turn Parcel.stamp t s.log.length s.dispatcher (s.threads t) d fs es)
    (admitted : x ∈ es.filterMap Entry.admitted?) :
    x.call < s.log.length ∧ ∀ r, .returned x.call r ∉ s.log := by
  rcases turn_admits turn with none | ⟨m, op, y, below, stack, one⟩
  · rw [none] at admitted
    cases admitted
  · rw [one] at admitted
    cases List.mem_singleton.mp admitted
    have known := kept.recorded.known t ⟨m, op, .at (.admitting y)⟩ (by rw [stack]; exact List.mem_cons_self)
    obtain ⟨inside, _⟩ := List.getElem?_eq_some_iff.mp known.begun
    exact ⟨inside, known.going⟩

theorem turn_queue_ordered {s : System β (Parcel ι) η} (kept : s.Kept) (ordered : s.Ordered)
    (turn : Turn Parcel.stamp t s.log.length s.dispatcher (s.threads t) d fs es) :
    d.queue.Pairwise fun x y => ¬ Precedes (s.log ++ es) y x := by
  have consistent := kept.recorded.consistent
  have new : ∀ x ∈ es.filterMap Entry.queued?, x ∈ es.filterMap Entry.admitted? := fun x member =>
    (admitted_split es).mem_iff.mpr (List.mem_append_left _ member)
  have late : ∀ x y, x.call < s.log.length → y ∈ es.filterMap Entry.queued? → ¬ Precedes (s.log ++ es) y x := by
    intro x y begun member precedes
    obtain ⟨_, going⟩ := turn_admitted_going kept turn (new y member)
    obtain ⟨r, returned⟩ := precedes_returned ((precedes_append (Nat.le_of_lt begun)).mp precedes)
    exact going _ returned
  -- What the backlog holds after the move is a tail of what it held before with what is queued now.
  have all : (s.dispatcher.queue ++ es.filterMap Entry.queued?).Pairwise fun x y => ¬ Precedes (s.log ++ es) y x := by
    refine List.pairwise_append.mpr ⟨?_, ?_, ?_⟩
    · refine ordered.queue.imp_of_mem fun waits _ before precedes => before ?_
      have begun := begun_of_admitted consistent (queue_admitted kept waits)
      exact (precedes_append (Nat.le_of_lt begun)).mp precedes
    · refine List.pairwise_of_forall_mem_list fun x member y member' => late x y ?_ member'
      exact (turn_admitted_going kept turn (new x member)).1
    · intro x waits y member
      exact late x y (begun_of_admitted consistent (queue_admitted kept waits)) member
  rw [turn_queue turn] at all
  exact (List.pairwise_append.mp all).2.1

/-- What precedes a parcel picked now is at its end: nothing else is at work in a drain, and what still waits
came later. -/
theorem turn_picks_last {s : System β (Parcel ι) η} (kept : s.Kept) (ordered : s.Ordered)
    (turn : Turn Parcel.stamp t s.log.length s.dispatcher (s.threads t) d fs es) {k : Awaiting}
    (picks : k.picks y ∈ es) (admitted : x ∈ s.admitted) (precedes : Precedes s.log x y) : Ended s.log x := by
  obtain ⟨r, returned⟩ := precedes_returned precedes
  have place := place_of_returned kept admitted returned
  generalize stack : s.threads t = calls at turn
  cases turn with
  | pass opened =>
    -- Nothing waits and nobody drains.
    obtain ⟨active, idle⟩ : s.dispatcher.gate.suspended = false ∧ s.dispatcher.gate.drainer = none := by
      simpa [Gate.queues] using opened
    rw [kept.gated.settled active idle, byDrainer, idle] at place
    simpa using place
  | @take m op r below z rest h active head bound =>
    have same : y = z := by
      cases k with
      | direct => simp [Awaiting.picks] at picks
      | drained r => simpa [Awaiting.picks] using picks
    subst same
    have marked := kept.gated.marked t
    rw [stack] at marked
    obtain ⟨mine, outside⟩ := drainer_of_draining marked rfl
    have working : s.byDrainer Frame.inWork? = [] := by
      rw [byDrainer, mine]
      simp only [stack, List.filterMap_cons, Frame.inWork?]
      exact outside_empty (fun _ => Frame.inWork_none) outside
    rw [working, head] at place
    rcases place with waits | none | ended
    · have order := ordered.queue
      rw [head, List.pairwise_cons] at order
      rcases List.mem_cons.mp waits with rfl | waits
      · exact absurd precedes (precedes_irrefl kept.recorded.consistent x)
      · exact absurd precedes (order.1 x waits)
    · cases none
    · exact ended
  | _ => cases k <;> simp [Awaiting.picks] at picks

theorem turn_admitted_begun {s : System β (Parcel ι) η} (kept : s.Kept)
    (turn : Turn Parcel.stamp t s.log.length s.dispatcher (s.threads t) d fs es)
    (admitted : x ∈ (s.log ++ es).filterMap Entry.admitted?) : x.call ≤ s.log.length := by
  rw [List.filterMap_append, List.mem_append] at admitted
  rcases admitted with old | new
  · exact Nat.le_of_lt (begun_of_admitted kept.recorded.consistent old)
  · exact Nat.le_of_lt (turn_admitted_going kept turn new).1

/-- A handler entered now is entered with a parcel that had been picked and that none was entered with. -/
theorem turn_starts {s : System β (Parcel ι) η} (kept : s.Kept)
    (turn : Turn Parcel.stamp t s.log.length s.dispatcher (s.threads t) d fs es) {h : η} {k : Awaiting}
    (starts : .started y h k ∈ es) :
    es = [.started y h k] ∧ k.picks y ∈ s.log ∧ y ∉ s.started ∧ y ∉ s.discarded := by
  have once := places_le (turn_kept s kept turn) y
  have one : es = [.started y h k] ∧ k.picks y ∈ s.log := by
    have assigned := kept.assigned.frames t
    generalize s.threads t = calls at turn assigned
    cases turn with
    | enter =>
      cases List.mem_singleton.mp starts
      obtain ⟨before, after, log, _⟩ := assigned _ List.mem_cons_self
      refine ⟨rfl, ?_⟩
      rw [log]
      simp
    | _ => simp at starts
  obtain ⟨rfl, picked⟩ := one
  have places : (s.after t d fs [.started y h k]).started.count y + (s.after t d fs [.started y h k]).discarded.count y ≤ 1 := by
    unfold System.places at once
    omega
  have counted : s.started.count y + 1 + s.discarded.count y ≤ 1 := by
    simpa [System.started, System.discarded, List.filterMap_cons] using places
  refine ⟨rfl, picked, ?_, ?_⟩
  · exact List.count_eq_zero.mp (by omega)
  · exact List.count_eq_zero.mp (by omega)

theorem not_discarded {s : System β (Parcel ι) η} (kept : s.Kept) (started : x ∈ s.started) : x ∉ s.discarded := by
  intro discarded
  have once := places_le kept x
  have first := List.count_pos_iff.mpr started
  have second := List.count_pos_iff.mpr discarded
  unfold places at once
  omega

theorem turn_ordered (s : System β (Parcel ι) η) (kept : s.Kept) (ordered : s.Ordered)
    (turn : Turn Parcel.stamp t s.log.length s.dispatcher (s.threads t) d fs es) : (s.after t d fs es).Ordered where
  queue := turn_queue_ordered kept ordered turn
  picked := by
    intro y k picks x admitted precedes
    have kept' := turn_kept s kept turn
    rw [after_log] at picks precedes ⊢
    have begun := turn_admitted_begun kept turn (picked_admitted kept' picks)
    rw [precedes_append begun] at precedes
    apply ended_append
    have earlier : x ∈ s.admitted := by
      rw [after_admitted, List.mem_append] at admitted
      rcases admitted with old | new
      · exact old
      · obtain ⟨r, returned⟩ := precedes_returned precedes
        exact absurd returned ((turn_admitted_going kept turn new).2 _)
    rcases List.mem_append.mp picks with old | new
    · exact ordered.picked y k old x earlier precedes
    · exact turn_picks_last kept ordered turn new earlier precedes
  started := by
    intro y h k starts x started precedes
    obtain ⟨h', k', started⟩ := mem_started.mp started
    have kept' := turn_kept s kept turn
    have begun := turn_admitted_begun kept turn (picked_admitted kept' (started_picks kept'.assigned.starts starts))
    rw [after_log] at starts started precedes ⊢
    rw [precedes_append begun] at precedes
    rcases List.mem_append.mp starts with old | new
    · rcases List.mem_append.mp started with before | now
      · obtain ⟨k', v, order⟩ := ordered.started y h k old x (mem_started.mpr ⟨h', k', before⟩) precedes
        exact ⟨k', v, order.trans (List.sublist_append_left _ _)⟩
      · -- `y` was picked after the end of `x`, which begins only now.
        obtain ⟨rfl, picked, unstarted, undiscarded⟩ := turn_starts kept turn now
        rcases ordered.picked y k (started_picks kept.assigned.starts old) x (picked_admitted kept picked) precedes with
          ⟨k', v, finished⟩ | discarded
        · obtain ⟨h', begun⟩ := kept.assigned.finishes x k' v finished
          exact absurd (mem_started.mpr ⟨h', k', begun⟩) unstarted
        · exact absurd (mem_discarded.mpr discarded) undiscarded
    · obtain ⟨rfl, picked, _, _⟩ := turn_starts kept turn new
      rcases List.mem_append.mp started with before | now
      · have admitted := picked_admitted kept (started_picks kept.assigned.starts before)
        rcases ordered.picked y k picked x admitted precedes with ⟨k', v, finished⟩ | discarded
        · exact ⟨k', v, (List.singleton_sublist.mpr finished).append (List.Sublist.refl _)⟩
        · exact absurd (mem_discarded.mpr discarded) (not_discarded kept (mem_started.mpr ⟨h', k', before⟩))
      · cases List.mem_singleton.mp now
        exact absurd precedes (precedes_irrefl kept.recorded.consistent y)

theorem run_ordered {moves : List (ThreadId × Action (Parcel ι) η)} {s : System β (Parcel ι) η}
    (ran : fresh.run Parcel.stamp moves = some s) : s.Kept ∧ s.Ordered := by
  refine run_keeps (P := fun s => s.Kept ∧ s.Ordered) ?_ ⟨fresh_kept, fresh_ordered⟩ ran
  rintro s t d fs es _ ⟨kept, ordered⟩ turn
  exact ⟨turn_kept s kept turn, turn_ordered s kept ordered turn⟩

end System

/-- However many threads use a dispatcher, and whatever they and its handlers do. An item whose dispatch was
told that it is queued is, at any later moment, in exactly one place: in the backlog, in the hands of the one
drainer, handed to a handler once, or discarded once. An item whose dispatch returned a handler's verdict was
handed over once. Of two items that handlers were entered with, where the dispatch of the one had returned
before that of the other was made, the handler's run for the first is over before that for the second begins. -/
theorem delivery_discipline {moves : List (ThreadId × Action (Parcel ι) η)} {s : System β (Parcel ι) η}
    (ran : System.fresh.run Parcel.stamp moves = some s) :
    (s.admitted.map Parcel.call).Nodup ∧
    (∀ x ∈ s.admitted, ∃ t op, s.log[x.call]? = some (.called x.call t op) ∧ op.course = .delivery ∧
      ∀ z, op = .request (.dispatch z) → x.item = z.item) ∧
    (∀ n r, .returned n (.outcome r) ∈ s.log →
      (r = .ok .queued ∧ ∃ x ∈ s.admitted, x.call = n ∧
        s.dispatcher.queue.count x + s.held.count x + s.started.count x + s.discarded.count x = 1) ∨
      (∃ x ∈ s.admitted, ∃ v, x.call = n ∧ .finished x .direct v ∈ s.log ∧ r = v.map (fun _ => .delivered) ∧
        s.started.count x = 1) ∨
      (r = .error .notConfigured ∧ ∀ x ∈ s.admitted, x.call ≠ n)) ∧
    (∀ x y r u op, [.returned x.call (.outcome r), .called y.call u op].Sublist s.log → x ∈ s.started →
      y ∈ s.started → ∃ k v h k', [.finished x k v, .started y h k'].Sublist s.log) := by
  obtain ⟨kept, ordered⟩ := System.run_ordered ran
  have consistent := kept.recorded.consistent
  refine ⟨consistent.distinct, consistent.admitted, ?_, ?_⟩
  · intro n r returned
    rcases consistent.answered n r returned with ⟨rfl, x, queued, call⟩ | ⟨x, v, passed, call, once, finished, rfl⟩ |
      refused
    · exact Or.inl ⟨rfl, x, List.mem_filterMap.mpr ⟨_, queued, rfl⟩, call, System.places_queued kept queued⟩
    · refine Or.inr (Or.inl ⟨x, List.mem_filterMap.mpr ⟨_, passed, rfl⟩, v, call, finished, rfl, ?_⟩)
      have places := System.places_passed kept passed
      have split := (started_split s.log).count_eq x
      rw [List.count_append] at split
      unfold System.places System.started at places
      unfold directStarts at once places
      unfold System.started
      omega
    · exact Or.inr (Or.inr refused)
  · intro x y r u op before started began
    obtain ⟨h, k, starts⟩ := System.mem_started.mp began
    obtain ⟨k', v, order⟩ := ordered.started y h k starts x started (precedes_of_sublist consistent before)
    exact ⟨k', v, h, k, order⟩

/-- Two items wait. Thread 1 drains the first when a third one is dispatched and thread 2 closes the gate; then
thread 2 takes the drain up. -/
def handover : List (ThreadId × Action (Parcel Nat) Nat) :=
  [(1, .call (.bind 7 true)), (1, .advance),
    (1, .call (.request (.dispatch ⟨0, 10⟩))), (1, .advance),
    (2, .call (.request (.dispatch ⟨0, 11⟩))), (2, .advance),
    (1, .call (.request (.resume false))), (1, .advance), (1, .advance), (1, .enter),
    (3, .call (.request (.dispatch ⟨0, 12⟩))), (3, .advance),
    (2, .call (.request .suspend)), (2, .advance),
    (1, .settle (.ok ())), (1, .advance),
    (2, .call (.request (.resume false))), (2, .advance), (2, .advance), (2, .enter)]

theorem delivery_discipline_handover : ∃ s : System (List (Parcel Nat)) (Parcel Nat) Nat,
    System.fresh.run Parcel.stamp handover = some s ∧ s.started = [⟨3, 10⟩, ⟨6, 11⟩] ∧ s.dispatcher.queue.length = 1 ∧
    (∃ x ∈ s.admitted, x.call = 3 ∧
      s.dispatcher.queue.count x + s.held.count x + s.started.count x + s.discarded.count x = 1) ∧
    ∃ k v h k', [Entry.finished ⟨3, 10⟩ k v, .started ⟨6, 11⟩ h k'].Sublist s.log := by
  have ends : ∃ s : System (List (Parcel Nat)) (Parcel Nat) Nat,
      System.fresh.run Parcel.stamp handover = some s ∧ s.started = [⟨3, 10⟩, ⟨6, 11⟩] ∧
      s.dispatcher.queue.length = 1 ∧
      [.returned 3 (.outcome (.ok .queued)), .called 6 2 (.request (.dispatch ⟨0, 11⟩))].Sublist s.log :=
    ⟨_, rfl, rfl, rfl,
      .cons _ (.cons _ (.cons _ (.cons _ (.cons _ (.cons_cons _ (.cons_cons _ (List.nil_sublist _)))))))⟩
  obtain ⟨s, ran, started, waits, before⟩ := ends
  obtain ⟨_, _, answers, order⟩ := delivery_discipline ran
  have returned : .returned 3 (.outcome (.ok .queued)) ∈ s.log := before.subset List.mem_cons_self
  refine ⟨s, ran, started, waits, ?_, ?_⟩
  · rcases answers 3 _ returned with ⟨_, once⟩ | ⟨_, _, v, _, _, verdict, _⟩ | ⟨refused, _⟩
    · exact once
    · cases v <;> cases verdict
    · cases refused
  · exact order ⟨3, 10⟩ ⟨6, 11⟩ _ _ _ before (by rw [started]; decide) (by rw [started]; decide)

end

end Switchboard.Dispatch
