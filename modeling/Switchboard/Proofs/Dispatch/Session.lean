import Switchboard.Proofs.Dispatch.Accounts
import Switchboard.Proofs.Dispatch.Calls

/-!
One thread alone with a dispatcher. `session_fifo`: whatever its handlers do, and however deep they call
the dispatcher again, items are handed over in the order of their admission and every queued item is
accounted for.
-/

namespace Switchboard.Dispatch

variable {β ι η : Type}

/-! ### What has gone -/

theorem gone_filter {log : List (Entry ι η)} {p : ι → Bool}
    (started : ∀ x ∈ log.filterMap Entry.started?, p x = true)
    (discarded : ∀ x ∈ log.filterMap Entry.discarded?, p x = false) :
    (log.filterMap Entry.gone?).filter p = log.filterMap Entry.started? := by
  induction log with
  | nil => rfl
  | cons e rest ih =>
    cases e with
    | started x =>
      have tail := ih (fun y member => started y (List.mem_cons_of_mem x member)) discarded
      simpa [List.filterMap_cons, started x List.mem_cons_self] using tail
    | discarded x =>
      have tail := ih started (fun y member => discarded y (List.mem_cons_of_mem x member))
      simpa [List.filterMap_cons, discarded x List.mem_cons_self] using tail
    | _ => exact ih started discarded

theorem undiscarded_eq [DecidableEq ι] {log : List (Entry ι η)} {hand queue : List ι}
    (distinct : (log.filterMap Entry.gone? ++ hand ++ queue).Nodup) :
    (log.filterMap Entry.gone? ++ hand ++ queue).filter (fun x => x ∉ log.filterMap Entry.discarded?) =
      log.filterMap Entry.started? ++ hand ++ queue := by
  have perm := (gone_split log).append_right (hand ++ queue)
  rw [List.append_assoc, perm.nodup_iff, List.append_assoc, List.nodup_append] at distinct
  obtain ⟨_, nodup, started⟩ := distinct
  obtain ⟨_, _, waiting⟩ := List.nodup_append.mp nodup
  have gone : (log.filterMap Entry.gone?).filter (fun x => x ∉ log.filterMap Entry.discarded?) =
      log.filterMap Entry.started? := by
    apply gone_filter
    · intro x member
      have not : x ∉ log.filterMap Entry.discarded? :=
        fun dropped => started x member x (List.mem_append_left _ dropped) rfl
      simpa using not
    · intro x member
      simpa using member
  have rest : (hand ++ queue).filter (fun x => x ∉ log.filterMap Entry.discarded?) = hand ++ queue := by
    apply List.filter_eq_self.mpr
    intro x member
    have not : x ∉ log.filterMap Entry.discarded? := fun dropped => waiting x dropped x member rfl
    simpa using not
  rw [List.append_assoc, List.filter_append, gone, rest, List.append_assoc]

theorem filter_front [DecidableEq ι] {front hand queue : List ι} (distinct : (front ++ hand ++ queue).Nodup) :
    (front ++ hand ++ queue).filter (fun x => x ∉ hand ∧ x ∉ queue) = front := by
  rw [List.append_assoc, List.nodup_append] at distinct
  obtain ⟨_, _, apart⟩ := distinct
  rw [List.append_assoc, List.filter_append]
  have kept : front.filter (fun x => x ∉ hand ∧ x ∉ queue) = front := by
    apply List.filter_eq_self.mpr
    intro x member
    have absent : x ∉ hand ++ queue := fun other => apart x member x other rfl
    simpa using absent
  have dropped : (hand ++ queue).filter (fun x => x ∉ hand ∧ x ∉ queue) = [] := by
    apply List.filter_eq_nil_iff.mpr
    intro x member
    rw [decide_eq_true_eq]
    rintro ⟨here, there⟩
    exact (List.mem_append.mp member).elim here there
  rw [kept, dropped, List.append_nil]

/-! ### The thread's own run -/

def System.inHand (s : System β ι η) (t : ThreadId) : List ι := (s.threads t).filterMap Frame.inHand?

variable [DecidableEq ι] [Backlog β (Parcel ι)] [LawfulBacklog β (Parcel ι)] {me : ThreadId}
  {d : Dispatcher β (Parcel ι) η} {fs : List (Frame (Parcel ι) η)} {es : List (Entry (Parcel ι) η)}

/-- What holds of the dispatcher, the thread and the log as long as no other thread comes. -/
structure Alone (me : ThreadId) (s : System β (Parcel ι) η) : Prop where
  gated : s.Gated
  recorded : s.Recorded
  nested : Nested (s.threads me)
  assigned : s.Assigned
  handovers : s.admitted = s.log.filterMap Entry.gone? ++ s.inHand me ++ s.dispatcher.queue
  accounts : s.log.countP Entry.repliesQueued =
    (s.reports.map Report.items).sum + ((s.threads me).map Frame.carried).sum + s.dispatcher.queue.length

theorem fresh_alone : Alone me (System.fresh : System β (Parcel ι) η) where
  gated := System.fresh_gated
  recorded := System.fresh_recorded
  nested := trivial
  assigned := System.fresh_assigned
  handovers := by
    have empty : (System.fresh : System β (Parcel ι) η).dispatcher.queue = [] := LawfulBacklog.items_empty
    simp [System.admitted, System.inHand, System.fresh]
    exact empty
  accounts := by
    have empty : (System.fresh : System β (Parcel ι) η).dispatcher.queue = [] := LawfulBacklog.items_empty
    rw [empty]
    rfl

theorem turn_alone (s : System β (Parcel ι) η) (alone : Alone me s)
    (turn : Turn Parcel.stamp me s.log.length s.dispatcher (s.threads me) d fs es) :
    Alone me (s.after me d fs es) where
  gated := System.turn_gated s alone.gated turn
  recorded := System.turn_recorded s alone.gated alone.recorded turn
  nested := by simpa using turn_nested turn alone.nested
  assigned := System.turn_assigned s alone.assigned turn
  handovers := by
    have before := alone.handovers
    have move := turn_handovers turn alone.nested alone.gated.settled
    simp only [System.admitted, System.inHand, System.after_log, System.after_threads_self,
      System.after_dispatcher, List.filterMap_append] at before ⊢
    rw [before]
    simp only [List.append_assoc] at move ⊢
    rw [move]
  accounts := by
    have before := alone.accounts
    have move := turn_accounts turn
    simp only [System.reports, System.after_log, System.after_threads_self, System.after_dispatcher,
      List.filterMap_append, List.countP_append, List.map_append, List.sum_append] at before ⊢
    omega

theorem run_alone {moves : List (Action (Parcel ι) η)} {s : System β (Parcel ι) η}
    (ran : System.fresh.run Parcel.stamp (moves.map fun a => (me, a)) = some s) : Alone me s := by
  refine System.run_keeps (P := Alone me) ?_ fresh_alone ran
  intro s t d fs es member alone turn
  rw [List.map_map] at member
  obtain ⟨_, _, rfl⟩ := List.mem_map.mp member
  exact turn_alone s alone turn

omit [Backlog β (Parcel ι)] [LawfulBacklog β (Parcel ι)] in
theorem admitted_iff {s : System β (Parcel ι) η} (assigned : s.Assigned) {n : Nat} {r : Except Error Outcome}
    (answered : Answered s.log n r) : (∃ x ∈ s.admitted, x.call = n) ↔
      r ≠ .error .notConfigured ∨ ∃ x, x.call = n ∧ .finished x .direct (.error .notConfigured) ∈ s.log := by
  rcases answered with ⟨rfl, x, queued, call⟩ | ⟨x, v, passed, call, _, finished, rfl⟩ | ⟨rfl, unadmitted⟩
  · have admitted : x ∈ s.admitted := List.mem_filterMap.mpr ⟨_, queued, rfl⟩
    exact iff_of_true ⟨x, admitted, call⟩ (Or.inl nofun)
  · have admitted : x ∈ s.admitted := List.mem_filterMap.mpr ⟨_, passed, rfl⟩
    refine iff_of_true ⟨x, admitted, call⟩ ?_
    by_cases refused : v = .error .notConfigured
    · exact Or.inr ⟨x, call, refused ▸ finished⟩
    · refine Or.inl fun same => refused ?_
      cases v with
      | ok => cases same
      | error e => exact congrArg Except.error (Except.error.inj same)
  · refine iff_of_false ?_ ?_
    · rintro ⟨x, admitted, call⟩
      exact unadmitted x admitted call
    · rintro (other | ⟨x, call, finished⟩)
      · exact other rfl
      · obtain ⟨h, started⟩ := assigned.finishes x _ _ finished
        have passed := started_picks assigned.starts started
        exact unadmitted x (List.mem_filterMap.mpr ⟨_, passed, rfl⟩) call

/-- However a thread uses a dispatcher, from outside and from inside its handlers. Items are admitted once
each, for a dispatch that did not return that the dispatcher is not configured, unless its handler said so.
Those admitted and not discarded are, in order of admission, those handed to handlers, in the order of the
handlers' runs, the one in hand between its section and its handler, if any, and those still queued. Each goes
to the handler bound when it was picked. When the thread has no call in progress, the dispatches that were
told their item is queued are as many as the reports account for and the backlog holds. -/
theorem session_fifo {moves : List (Action (Parcel ι) η)} {s : System β (Parcel ι) η}
    (ran : System.fresh.run Parcel.stamp (moves.map fun a => (me, a)) = some s) :
    s.admitted.Nodup ∧
    (∀ x ∈ s.admitted, ∃ t op, s.log[x.call]? = some (.called x.call t op) ∧ op.course = .delivery ∧
      ∀ z, op = .request (.dispatch z) → x.item = z.item) ∧
    (∀ n r, .returned n (.outcome r) ∈ s.log → ((∃ x ∈ s.admitted, x.call = n) ↔
      r ≠ .error .notConfigured ∨ ∃ x, x.call = n ∧ .finished x .direct (.error .notConfigured) ∈ s.log)) ∧
    s.admitted.filter (fun x => x ∉ s.discarded) = s.started ++ s.inHand me ++ s.dispatcher.queue ∧
    s.started = s.admitted.filter (fun x => x ∉ s.inHand me ∧ x ∉ s.dispatcher.queue ∧ x ∉ s.discarded) ∧
    (free (s.threads me) = true → s.inHand me = []) ∧
    StartsPicked s.log ∧
    (s.threads me = [] → s.log.countP Entry.repliesQueued =
      (s.reports.map Report.delivered).sum + (s.reports.map Report.discarded).sum + s.dispatcher.pending) := by
  have alone := run_alone ran
  have consistent := alone.recorded.consistent
  have distinct : s.admitted.Nodup := List.Nodup.of_map Parcel.call consistent.distinct
  have undiscarded : s.admitted.filter (fun x => x ∉ s.discarded) = s.started ++ s.inHand me ++ s.dispatcher.queue := by
    rw [alone.handovers] at distinct ⊢
    exact undiscarded_eq distinct
  refine ⟨distinct, consistent.admitted, ?_, undiscarded, ?_, ?_, alone.assigned.starts, ?_⟩
  · intro n r returned
    exact admitted_iff alone.assigned (consistent.answered n r returned)
  · have front := filter_front (undiscarded ▸ distinct.filter _)
    rw [← undiscarded, List.filter_filter] at front
    simpa [Bool.and_assoc] using front.symm
  · intro ready
    exact inHand_of_handling (handling_of_free alone.nested ready)
  · intro quiet
    have accounts := alone.accounts
    rw [quiet, List.map_nil, List.sum_nil, Nat.add_zero] at accounts
    have split : (s.reports.map Report.items).sum =
        (s.reports.map Report.delivered).sum + (s.reports.map Report.discarded).sum := List.sum_map_add
    rw [accounts, split, pending_eq]

/-- Two items queue; the handler of the first one, while it is drained, dispatches a third and binds another
handler with the gate closed, and fails. What is left is discarded. Then an item goes straight to the new
handler, which dispatches one more. -/
def reentrant : List (Action (Parcel Nat) Nat) :=
  [.call (.bind 1 false), .advance, .advance,
    .call (.request .suspend), .advance,
    .call (.request (.dispatch ⟨0, 10⟩)), .advance,
    .call (.request (.dispatch ⟨0, 11⟩)), .advance,
    .call (.request (.resume false)), .advance, .advance, .enter,
      .call (.request (.dispatch ⟨0, 12⟩)), .advance,
      .call (.bind 2 true), .advance,
    .settle (.error .notConfigured), .advance,
    .call (.request (.resume true)), .advance,
    .call (.request (.dispatch ⟨0, 13⟩)), .advance, .enter,
      .call (.request (.dispatch ⟨0, 14⟩)), .advance, .enter, .settle (.ok ()),
    .settle (.ok ())]

theorem session_fifo_reentrant : ∃ s : System (List (Parcel Nat)) (Parcel Nat) Nat,
    System.fresh.run Parcel.stamp (reentrant.map fun a => (0, a)) = some s ∧ s.threads 0 = [] ∧
    s.started.map Parcel.item = [10, 13, 14] ∧ s.discarded.map Parcel.item = [11, 12] ∧
    s.admitted.filter (fun x => x ∉ s.discarded) = s.started ∧
    s.log.countP Entry.repliesQueued = (s.reports.map Report.delivered).sum + (s.reports.map Report.discarded).sum := by
  have ends : ∃ s : System (List (Parcel Nat)) (Parcel Nat) Nat,
      System.fresh.run Parcel.stamp (reentrant.map fun a => (0, a)) = some s ∧ s.threads 0 = [] ∧
      s.started.map Parcel.item = [10, 13, 14] ∧ s.discarded.map Parcel.item = [11, 12] ∧
      s.dispatcher.queue = [] := ⟨_, rfl, rfl, rfl, rfl, rfl⟩
  obtain ⟨s, ran, quiet, started, discarded, empty⟩ := ends
  obtain ⟨_, _, _, undiscarded, _, observed, _, accounts⟩ := session_fifo ran
  have hand : s.inHand 0 = [] := observed (by rw [quiet]; rfl)
  refine ⟨s, ran, quiet, started, discarded, ?_, ?_⟩
  · rw [undiscarded, hand, empty, List.append_nil, List.append_nil]
  · rw [accounts quiet, pending_eq, empty, List.length_nil, Nat.add_zero]

end Switchboard.Dispatch
