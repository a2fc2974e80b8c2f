import Switchboard.Proofs.Dispatch.Ledger

/-!
Every item told apart from every other: a parcel carries the number of the call that dispatched it. What
the log says of a call then depends on that call's own moves only, and the answer of a dispatch tells
what was done with its parcel.
-/

namespace Switchboard.Dispatch

/-- An item on its way, marked with the call that dispatched it. -/
structure Parcel (ι : Type) where
  call : Nat
  item : ι
deriving DecidableEq, Repr

/-- The mark that an item gets when it is admitted for call `n`. -/
def Parcel.stamp {ι : Type} (n : Nat) (x : Parcel ι) : Parcel ι := { x with call := n }

variable {β ι η : Type} [DecidableEq ι]

/-! ### What the log knows of a call -/

/-- The call whose own move an entry tells of. What a drain does is told of the parcels only. -/
def Entry.subject? : Entry (Parcel ι) η → Option Nat
  | queued x | passed x | started x _ .direct | finished x .direct _ => some x.call
  | returned n _ => some n
  | _ => none

def Unadmitted (log : List (Entry (Parcel ι) η)) (n : Nat) : Prop :=
  ∀ x ∈ log.filterMap Entry.admitted?, x.call ≠ n

def directStarts (log : List (Entry (Parcel ι) η)) (x : Parcel ι) : Nat :=
  (log.filterMap Entry.startedDirect?).count x

def Stage.Known (log : List (Entry (Parcel ι) η)) (n : Nat) (op : Operation (Parcel ι) η) :
    Stage (Parcel ι) η → Prop
  | .at (.admitting y) => Unadmitted log n ∧ ∀ z, op = .request (.dispatch z) → y = z
  | .at .presetting => Unadmitted log n ∧ op = .dispatchPreset
  | calling _ x .direct => x.call = n ∧ .passed x ∈ log ∧ directStarts log x = 0
  | handling x .direct => x.call = n ∧ .passed x ∈ log ∧ directStarts log x = 1
  | _ => True

structure Frame.Known (log : List (Entry (Parcel ι) η)) (t : ThreadId) (f : Frame (Parcel ι) η) : Prop where
  begun : log[f.call]? = some (.called f.call t f.op)
  going : ∀ r, .returned f.call r ∉ log
  stage : f.stage.Known log f.call f.op

/-- What became of the parcel of call `n`, which has returned `r`: it waits or has waited in the backlog, or
a handler was entered with it once and its verdict is the answer, or it was refused. -/
def Answered (log : List (Entry (Parcel ι) η)) (n : Nat) (r : Except Error Outcome) : Prop :=
  (r = .ok .queued ∧ ∃ x, .queued x ∈ log ∧ x.call = n) ∨
  (∃ x v, .passed x ∈ log ∧ x.call = n ∧ directStarts log x = 1 ∧ .finished x .direct v ∈ log ∧
    r = v.map fun _ => .delivered) ∨
  (r = .error .notConfigured ∧ Unadmitted log n)

/-! ### Other calls do not matter -/

section

variable {log es : List (Entry (Parcel ι) η)} {n : Nat}

omit [DecidableEq ι] in
theorem admitted_subject {x : Parcel ι} (member : x ∈ es.filterMap Entry.admitted?) :
    ∃ e ∈ es, e.subject? = some x.call := by
  obtain ⟨e, present, admitted⟩ := List.mem_filterMap.mp member
  refine ⟨e, present, ?_⟩
  cases e <;> simp_all [Entry.subject?]

omit [DecidableEq ι] in
theorem unadmitted_append (before : Unadmitted log n) (others : ∀ e ∈ es, e.subject? ≠ some n) :
    Unadmitted (log ++ es) n := by
  intro x member same
  rw [List.filterMap_append, List.mem_append] at member
  rcases member with old | new
  · exact before x old same
  · obtain ⟨e, present, subject⟩ := admitted_subject new
    exact others e present (same ▸ subject)

theorem directStarts_append {x : Parcel ι} (others : ∀ e ∈ es, e.subject? ≠ some x.call) :
    directStarts (log ++ es) x = directStarts log x := by
  unfold directStarts
  rw [List.filterMap_append, List.count_append, Nat.add_eq_left, List.count_eq_zero]
  intro member
  obtain ⟨e, present, started⟩ := List.mem_filterMap.mp member
  apply others e present
  match e, started with
  | .started _ _ .direct, rfl => rfl

theorem stage_known_append {op : Operation (Parcel ι) η} {stage : Stage (Parcel ι) η}
    (known : stage.Known log n op) (others : ∀ e ∈ es, e.subject? ≠ some n) : stage.Known (log ++ es) n op := by
  unfold Stage.Known at known ⊢
  split at known
  · exact ⟨unadmitted_append known.1 others, known.2⟩
  · exact ⟨unadmitted_append known.1 others, known.2⟩
  · obtain ⟨rfl, passed, starts⟩ := known
    exact ⟨rfl, List.mem_append_left es passed, (directStarts_append others).trans starts⟩
  · obtain ⟨rfl, passed, starts⟩ := known
    exact ⟨rfl, List.mem_append_left es passed, (directStarts_append others).trans starts⟩
  · trivial

theorem known_append {t : ThreadId} {f : Frame (Parcel ι) η} (known : f.Known log t)
    (others : ∀ e ∈ es, e.subject? ≠ some f.call) : f.Known (log ++ es) t where
  begun := by
    obtain ⟨inside, _⟩ := List.getElem?_eq_some_iff.mp known.begun
    rw [List.getElem?_append_left inside, known.begun]
  going r member := by
    rcases List.mem_append.mp member with old | new
    · exact known.going r old
    · exact others _ new rfl
  stage := stage_known_append known.stage others

theorem answered_append {r : Except Error Outcome} (answered : Answered log n r)
    (others : ∀ e ∈ es, e.subject? ≠ some n) : Answered (log ++ es) n r := by
  rcases answered with ⟨rfl, x, queued, call⟩ | ⟨x, v, passed, rfl, starts, finished, rfl⟩ | ⟨rfl, unadmitted⟩
  · exact Or.inl ⟨rfl, x, List.mem_append_left es queued, call⟩
  · exact Or.inr (Or.inl ⟨x, v, List.mem_append_left es passed, rfl, (directStarts_append others).trans starts,
      List.mem_append_left es finished, rfl⟩)
  · exact Or.inr (Or.inr ⟨rfl, unadmitted_append unadmitted others⟩)

end

/-! ### Moves -/

/-- The log agrees with itself about calls and their parcels. -/
structure Consistent (log : List (Entry (Parcel ι) η)) : Prop where
  /-- A parcel is admitted for a call that was to dispatch its item. -/
  admitted : ∀ x ∈ log.filterMap Entry.admitted?, ∃ t op, log[x.call]? = some (.called x.call t op) ∧
    op.course = .delivery ∧ ∀ z, op = .request (.dispatch z) → x.item = z.item
  distinct : ((log.filterMap Entry.admitted?).map Parcel.call).Nodup
  started : ∀ x ∈ log.filterMap Entry.startedDirect?, .passed x ∈ log
  startedOnce : (log.filterMap Entry.startedDirect?).Nodup
  called : ∀ (i n : Nat) t op, log[i]? = some (.called n t op) → n = i
  returned : ∀ (m n : Nat) r, .returned n r ∈ log.take m → n < m
  answered : ∀ n r, .returned n (.outcome r) ∈ log → Answered log n r

section

variable [Backlog β (Parcel ι)] [LawfulBacklog β (Parcel ι)] {t : ThreadId} {n : Nat}
  {d d' : Dispatcher β (Parcel ι) η} {fs fs' : List (Frame (Parcel ι) η)} {log es : List (Entry (Parcel ι) η)}

/-- A move tells only of the call that makes it. -/
theorem turn_subject (turn : Turn Parcel.stamp t n d fs d' fs' es) (known : ∀ f ∈ fs, f.Known log t) :
    ∀ e ∈ es, ∀ m, e.subject? = some m → (fs.map Frame.call).head? = some m := by
  intro e member m subject
  cases turn with
  | discard =>
    rcases List.mem_append.mp member with dropped | last
    · obtain ⟨x, _, rfl⟩ := List.mem_map.mp dropped
      cases subject
    · cases List.mem_singleton.mp last
      exact subject
  | @enter _ _ _ _ k =>
    cases List.mem_singleton.mp member
    cases k with
    | direct => exact congrArg some (((known _ List.mem_cons_self).stage).1.symm.trans (Option.some.inj subject))
    | drained r => cases subject
  | settleDirect =>
    rcases List.mem_cons.mp member with rfl | last
    · exact congrArg some (((known _ List.mem_cons_self).stage).1.symm.trans (Option.some.inj subject))
    · cases List.mem_singleton.mp last
      exact subject
  | queue | bindSuspended =>
    rcases List.mem_cons.mp member with rfl | last
    · first | exact subject | cases subject
    · cases List.mem_singleton.mp last
      exact subject
  | call | pass | refuse | lack | suspend | bindActive | reopenInside | reopenEmpty | wake | stop | take | lose
    | settleDrained =>
    cases List.mem_singleton.mp member
    first | exact subject | cases subject
  | choose | claim | wait | preset => cases member

/-- A thread's calls after a move: the innermost stays or returns, or a new one is made. -/
theorem turn_calls {ι : Type} [Backlog β ι] [LawfulBacklog β ι] {stamp : Nat → ι → ι} {d d' : Dispatcher β ι η}
    {fs fs' : List (Frame ι η)} {es : List (Entry ι η)} (turn : Turn stamp t n d fs d' fs' es) :
    fs'.map Frame.call = fs.map Frame.call ∨ fs'.map Frame.call = (fs.map Frame.call).tail ∨
      fs'.map Frame.call = n :: fs.map Frame.call := by
  cases turn with
  | call => exact Or.inr (Or.inr rfl)
  | queue | refuse | lack | suspend | discard | bindSuspended | reopenInside | reopenEmpty | wake | stop
    | settleDirect => exact Or.inr (Or.inl rfl)
  | pass | choose | bindActive | claim | wait | take | lose | enter | settleDrained | preset => exact Or.inl rfl

omit [Backlog β (Parcel ι)] [LawfulBacklog β (Parcel ι)] in
theorem known_move {f : Frame (Parcel ι) η} {stage : Stage (Parcel ι) η} (known : f.Known log t)
    (silent : ∀ r, .returned f.call r ∉ es) (next : stage.Known (log ++ es) f.call f.op) :
    Frame.Known (log ++ es) t { f with stage } where
  begun := by
    obtain ⟨inside, _⟩ := List.getElem?_eq_some_iff.mp known.begun
    rw [List.getElem?_append_left inside, known.begun]
  going r member := by
    rcases List.mem_append.mp member with old | new
    · exact known.going r old
    · exact silent r new
  stage := next

theorem unadmitted_fresh (consistent : Consistent log) : Unadmitted log log.length := by
  intro x member same
  obtain ⟨t, op, begun, _⟩ := consistent.admitted x member
  obtain ⟨inside, _⟩ := List.getElem?_eq_some_iff.mp begun
  omega

theorem unadmitted_directStarts {x : Parcel ι} (consistent : Consistent log) (unadmitted : Unadmitted log x.call) :
    directStarts log x = 0 := by
  refine List.count_eq_zero.mpr fun member => ?_
  have passed := consistent.started x member
  exact unadmitted x (List.mem_filterMap.mpr ⟨_, passed, rfl⟩) rfl

theorem phase_known (consistent : Consistent log) (op : Operation (Parcel ι) η) :
    (Stage.at op.phase).Known (log ++ [.called log.length t op]) log.length op := by
  have fresh : Unadmitted (log ++ [.called log.length t op]) log.length :=
    unadmitted_append (unadmitted_fresh consistent) (by simp [Entry.subject?])
  cases op with
  | request r =>
    cases r with
    | dispatch x => exact ⟨fresh, fun z same => by cases same; rfl⟩
    | suspend => trivial
    | resume discard => cases discard <;> trivial
  | dispatchPreset => exact ⟨fresh, rfl⟩
  | bind => trivial

theorem turn_known (turn : Turn Parcel.stamp t log.length d fs d' fs' es) (known : ∀ f ∈ fs, f.Known log t)
    (distinct : (fs.map Frame.call).Nodup) (consistent : Consistent log) : ∀ f ∈ fs', f.Known (log ++ es) t := by
  have subject := turn_subject turn known
  -- The calls below the innermost have other numbers, so the new entries do not speak of them.
  have below : ∀ f rest, fs = f :: rest → ∀ g ∈ rest, g.Known (log ++ es) t := by
    rintro f rest rfl g member
    refine known_append (known g (List.mem_cons_of_mem f member)) fun e present about => ?_
    have same : f.call = g.call := Option.some.inj (subject e present _ about)
    exact (List.nodup_cons.mp distinct).1 (same ▸ List.mem_map_of_mem member)
  cases turn with
  | call op =>
    refine List.forall_mem_cons.mpr ⟨⟨by simp, ?_, phase_known consistent op⟩, fun g member => ?_⟩
    · intro r member
      have earlier : .returned log.length r ∈ log := by simpa using member
      exact Nat.lt_irrefl _ (consistent.returned log.length _ r (by rwa [List.take_length]))
    · exact known_append (known g member) (by simp [Entry.subject?])
  | preset => simpa using known
  | queue | refuse | lack | suspend | discard | bindSuspended | reopenInside | reopenEmpty | wake | stop
    | settleDirect => exact below _ _ rfl
  | @pass m op x =>
    have top := known _ List.mem_cons_self
    obtain ⟨unadmitted, _⟩ := top.stage
    refine List.forall_mem_cons.mpr ⟨known_move top (by simp) ⟨rfl, by simp, ?_⟩, below _ _ rfl⟩
    have none := unadmitted_directStarts consistent (x := x.stamp m) unadmitted
    simpa [directStarts, List.filterMap_cons] using none
  | choose =>
    have top := known _ List.mem_cons_self
    obtain ⟨unadmitted, preset⟩ := top.stage
    refine List.forall_mem_cons.mpr ⟨known_move top (by simp) ⟨?_, ?_⟩, below _ _ rfl⟩
    · simpa using unadmitted
    · intro z dispatch
      cases preset.symm.trans dispatch
  | @enter _ _ _ _ k =>
    have top := known _ List.mem_cons_self
    refine List.forall_mem_cons.mpr ⟨known_move top (by simp) ?_, below _ _ rfl⟩
    cases k with
    | direct =>
      obtain ⟨call, passed, starts⟩ := top.stage
      refine ⟨call, List.mem_append_left _ passed, ?_⟩
      simpa [directStarts, List.filterMap_cons] using starts
    | drained r => trivial
  | bindActive | claim | wait | take | lose | settleDrained =>
    have top := known _ List.mem_cons_self
    exact List.forall_mem_cons.mpr ⟨known_move top (by simp) trivial, below _ _ rfl⟩

omit [DecidableEq ι] in
/-- A move admits nothing, or the parcel of the call that makes it. -/
theorem turn_admits (turn : Turn Parcel.stamp t n d fs d' fs' es) :
    es.filterMap Entry.admitted? = [] ∨ ∃ m op y below, fs = ⟨m, op, .at (.admitting y)⟩ :: below ∧
      es.filterMap Entry.admitted? = [y.stamp m] := by
  cases turn with
  | queue | pass => exact Or.inr ⟨_, _, _, _, rfl, rfl⟩
  | discard =>
    rw [List.filterMap_append, discards_filterMap_none fun _ => rfl]
    exact Or.inl rfl
  | _ => exact Or.inl rfl

/-- A move enters no handler past the backlog, or the one of the call that makes it, for the first time. -/
theorem turn_directStarts (turn : Turn Parcel.stamp t n d fs d' fs' es) (known : ∀ f ∈ fs, f.Known log t) :
    es.filterMap Entry.startedDirect? = [] ∨
    ∃ x, es.filterMap Entry.startedDirect? = [x] ∧ .passed x ∈ log ∧ directStarts log x = 0 := by
  cases turn with
  | @enter _ _ _ x k =>
    cases k with
    | direct => exact Or.inr ⟨x, rfl, (known _ List.mem_cons_self).stage.2⟩
    | drained r => exact Or.inl rfl
  | discard =>
    rw [List.filterMap_append, discards_filterMap_none fun _ => rfl]
    exact Or.inl rfl
  | _ => exact Or.inl rfl

omit [DecidableEq ι] in
theorem turn_called {i m : Nat} {u : ThreadId} {op : Operation (Parcel ι) η}
    (turn : Turn Parcel.stamp t n d fs d' fs' es) (called : es[i]? = some (.called m u op)) : m = n ∧ i = 0 := by
  have member := List.mem_of_getElem? called
  cases turn with
  | call =>
    obtain ⟨inside, _⟩ := List.getElem?_eq_some_iff.mp called
    cases List.mem_singleton.mp member
    exact ⟨rfl, Nat.lt_one_iff.mp inside⟩
  | _ => simp at member

theorem turn_answered {m : Nat} {r : Except Error Outcome} (turn : Turn Parcel.stamp t n d fs d' fs' es)
    (known : ∀ f ∈ fs, f.Known log t) (member : .returned m (.outcome r) ∈ es) : Answered (log ++ es) m r := by
  cases turn with
  | queue =>
    obtain ⟨rfl, rfl⟩ : m = _ ∧ r = _ := by simpa using member
    exact Or.inl ⟨rfl, _, List.mem_append_right _ List.mem_cons_self, rfl⟩
  | refuse | lack =>
    obtain ⟨rfl, rfl⟩ : m = _ ∧ r = _ := by simpa using member
    have unadmitted := (known _ List.mem_cons_self).stage.1
    exact Or.inr (Or.inr ⟨rfl, by simpa [Unadmitted, List.filterMap_cons] using unadmitted⟩)
  | settleDirect v =>
    obtain ⟨rfl, rfl⟩ : m = _ ∧ r = _ := by simpa using member
    obtain ⟨call, passed, starts⟩ := (known _ List.mem_cons_self).stage
    refine Or.inr (Or.inl ⟨_, v, List.mem_append_left _ passed, call, ?_, by simp, rfl⟩)
    simpa [directStarts, List.filterMap_cons] using starts
  | _ => simp at member

theorem turn_consistent (turn : Turn Parcel.stamp t log.length d fs d' fs' es) (known : ∀ f ∈ fs, f.Known log t)
    (onCourse : ∀ f ∈ fs, f.OnCourse) (consistent : Consistent log) : Consistent (log ++ es) where
  admitted := by
    intro x member
    rw [List.filterMap_append, List.mem_append] at member
    rcases member with old | new
    · obtain ⟨u, op, begun, facts⟩ := consistent.admitted x old
      obtain ⟨inside, _⟩ := List.getElem?_eq_some_iff.mp begun
      exact ⟨u, op, by rw [List.getElem?_append_left inside, begun], facts⟩
    · rcases turn_admits turn with none | ⟨m, op, y, below, rfl, one⟩
      · rw [none] at new
        cases new
      · rw [one] at new
        cases List.mem_singleton.mp new
        have top := known _ List.mem_cons_self
        obtain ⟨inside, _⟩ := List.getElem?_eq_some_iff.mp top.begun
        refine ⟨t, op, (List.getElem?_append_left inside).trans top.begun, ?_, ?_⟩
        · exact (onCourse _ List.mem_cons_self).symm
        · intro z dispatch
          show y.item = z.item
          rw [top.stage.2 z dispatch]
  distinct := by
    rw [List.filterMap_append, List.map_append]
    rcases turn_admits turn with none | ⟨m, op, y, below, rfl, one⟩
    · simpa [none] using consistent.distinct
    · have unadmitted := (known _ List.mem_cons_self).stage.1
      refine List.nodup_append.mpr ⟨consistent.distinct, by simp [one], ?_⟩
      intro k old k' new same
      obtain ⟨x, member, rfl⟩ := List.mem_map.mp old
      rw [one] at new
      cases List.mem_singleton.mp new
      exact unadmitted x member same
  started := by
    intro x member
    rw [List.filterMap_append, List.mem_append] at member
    rcases member with old | new
    · exact List.mem_append_left es (consistent.started x old)
    · rcases turn_directStarts turn known with none | ⟨y, one, passed, _⟩
      · rw [none] at new
        cases new
      · rw [one] at new
        cases List.mem_singleton.mp new
        exact List.mem_append_left es passed
  startedOnce := by
    rw [List.filterMap_append]
    rcases turn_directStarts turn known with none | ⟨x, one, _, first⟩
    · simpa [none] using consistent.startedOnce
    · rw [one]
      refine List.nodup_append.mpr ⟨consistent.startedOnce, by simp, ?_⟩
      intro y old z new
      cases List.mem_singleton.mp new
      exact fun same => List.count_eq_zero.mp first (same ▸ old)
  called := by
    intro i n u op called
    rcases Nat.lt_or_ge i log.length with inside | outside
    · rw [List.getElem?_append_left inside] at called
      exact consistent.called i n u op called
    · rw [List.getElem?_append_right outside] at called
      obtain ⟨rfl, zero⟩ := turn_called turn called
      omega
  returned := by
    intro m n r member
    rw [List.take_append, List.mem_append] at member
    rcases member with old | new
    · exact consistent.returned m n r old
    · have long : m - log.length ≠ 0 := fun zero => by simp [zero] at new
      have innermost := turn_subject turn known _ (List.mem_of_mem_take new) n rfl
      obtain ⟨f, present, same⟩ := List.mem_map.mp (List.mem_of_mem_head? innermost)
      obtain ⟨inside, _⟩ := List.getElem?_eq_some_iff.mp (known f present).begun
      omega
  answered := by
    intro n r member
    rcases List.mem_append.mp member with old | new
    · refine answered_append (consistent.answered n r old) fun e present about => ?_
      have innermost := turn_subject turn known e present n about
      obtain ⟨f, waiting, same⟩ := List.mem_map.mp (List.mem_of_mem_head? innermost)
      exact (known f waiting).going _ (same ▸ old)
    · exact turn_answered turn known new

end

/-! ### Whole runs -/

namespace System

variable [Backlog β (Parcel ι)] [LawfulBacklog β (Parcel ι)] {t : ThreadId}
  {d : Dispatcher β (Parcel ι) η} {fs : List (Frame (Parcel ι) η)} {es : List (Entry (Parcel ι) η)}

structure Recorded (s : System β (Parcel ι) η) : Prop where
  known : ∀ t, ∀ f ∈ s.threads t, f.Known s.log t
  distinct : ∀ t, ((s.threads t).map Frame.call).Nodup
  consistent : Consistent s.log

omit [LawfulBacklog β (Parcel ι)] in
theorem fresh_recorded : (fresh : System β (Parcel ι) η).Recorded where
  known _ _ member := by cases member
  distinct _ := List.nodup_nil
  consistent := ⟨nofun, List.nodup_nil, nofun, List.nodup_nil, nofun, by simp [fresh], nofun⟩

theorem call_thread {log : List (Entry (Parcel ι) η)} {u : ThreadId} {f g : Frame (Parcel ι) η}
    (mine : f.Known log t) (theirs : g.Known log u) (same : f.call = g.call) : t = u := by
  have begun := mine.begun
  rw [same, theirs.begun] at begun
  exact (Entry.called.inj (Option.some.inj begun)).2.1.symm

theorem turn_recorded (s : System β (Parcel ι) η) (gated : s.Gated) (recorded : s.Recorded)
    (turn : Turn Parcel.stamp t s.log.length s.dispatcher (s.threads t) d fs es) : (s.after t d fs es).Recorded where
  known := by
    refine forall_after (P := fun u fs => ∀ f ∈ fs, f.Known (s.log ++ es) u)
      (turn_known turn (recorded.known t) (recorded.distinct t) recorded.consistent) ?_
    intro u other f member
    have known := recorded.known u f member
    refine known_append known fun e present about => other ?_
    have innermost := turn_subject turn (recorded.known t) e present _ about
    obtain ⟨g, present, same⟩ := List.mem_map.mp (List.mem_of_mem_head? innermost)
    exact call_thread known (recorded.known t g present) same.symm
  distinct := by
    refine forall_after (P := fun _ fs => (fs.map Frame.call).Nodup) ?_ fun u _ => recorded.distinct u
    have distinct := recorded.distinct t
    rcases turn_calls turn with same | fewer | more
    · rwa [same]
    · rw [fewer]
      exact distinct.sublist (List.tail_sublist _)
    · rw [more]
      refine List.nodup_cons.mpr ⟨fun member => ?_, distinct⟩
      obtain ⟨f, present, same⟩ := List.mem_map.mp member
      obtain ⟨inside, _⟩ := List.getElem?_eq_some_iff.mp (recorded.known t f present).begun
      omega
  consistent := turn_consistent turn (recorded.known t) (gated.onCourse t) recorded.consistent

end System

end Switchboard.Dispatch
