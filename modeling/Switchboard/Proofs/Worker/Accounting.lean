import Switchboard.Proofs.Worker.Production

/-!
Accounts of a generator over whole runs: what its counter and its log come to, whose call sets its thread going, and that
its body is heard of no more once a call that terminates it from another thread has returned. Main statement:
`generator_accounting`.
-/

namespace Switchboard

namespace Mill

section

variable {δ ι : Type}

/-! ### Readings of the log -/

def Entry.isDrop : Entry δ ι → Bool
  | dropped _ => true
  | _ => false

def Entry.isCall : Entry δ ι → Bool
  | dispatched .. => true
  | _ => false

def Entry.isReply : Entry δ ι → Bool
  | replied .. => true
  | _ => false

def Entry.isResult : Entry δ ι → Bool
  | notified .. => true
  | _ => false

/-- What can be said of an entry when what was before it is known. -/
def Entry.Fits (log : List (Entry δ ι)) : Entry δ ι → Prop
  | dispatched n d x => (∃ t, log[n]? = some (.begun t (.notify x))) ∧ lastBound log = some d
  | started .. => (lastBound log).isSome
  | enabled _ v => lastBound log = none → v = .error .notConfigured
  | _ => True

def Chronicle (log : List (Entry δ ι)) : Prop := ∀ front e back, log = front ++ e :: back → e.Fits front

theorem chronicle_append {log es : List (Entry δ ι)} (fits : Chronicle log)
    (new : ∀ front e back, es = front ++ e :: back → e.Fits (log ++ front)) : Chronicle (log ++ es) := by
  intro front e back split
  rcases Shift.split_append split with ⟨after, old⟩ | ⟨more, rfl, rest⟩
  · exact fits front e after old
  · exact new more e back rest

def calling (s : Mill δ ι) : Nat := ∑ t ∈ Finset.range s.shift.born, (s.tasks t).countP Task.dispatches

end

variable {δ ι : Type} {s s' : Mill δ ι} {t u : ThreadId} {k k' : Task δ ι} {n : Nat} {x : ι} {d : δ}
  {log es : List (Entry δ ι)} {ks ks' below : List (Task δ ι)}

/-! ### What holds after every move -/

structure Tally (s : Mill δ ι) : Prop where
  dropped : s.gen.dropped = s.log.countP Entry.isDrop
  completed : s.log.countP Entry.isResult = s.log.countP Entry.isDrop + s.log.countP Entry.isReply
  called : s.log.countP Entry.isCall = s.log.countP Entry.isReply + s.calling

structure Kept (s : Mill δ ι) : Prop where
  tended : s.shift.Tended
  witnessed : s.shift.Witnessed
  bound : s.Bound
  booked : s.Booked
  manned : s.Manned
  unborn : ∀ t, s.shift.born ≤ t → s.tasks t = []
  /-- A notification is part of what a body does. -/
  hosted : ∀ t, ∀ k ∈ s.tasks t, k.notifies = true → ∃ u, s.shift.posts s.gen.worker u .body
  chronicle : Chronicle s.log
  tally : s.Tally

theorem notifies_iff : k.notifies = true ↔ ∃ x, k.operation = .notify x := by
  cases k <;> simp [Task.notifies, Task.operation]

/-- Only a thread that is there has operations that change. -/
theorem turn_there (tended : s.shift.Tended) (unborn : ∀ t, s.shift.born ≤ t → s.tasks t = []) (turn : Turn s t s') :
    t < s.shift.born ∨ s'.tasks t = s.tasks t := by
  have busy : ∀ {k : Task δ ι} {below : List (Task δ ι)}, s.tasks t = k :: below → t < s.shift.born := by
    intro k below tasks
    refine Nat.lt_of_not_le fun beyond => ?_
    rw [unborn t beyond] at tasks
    cases tasks
  cases turn with
  | shift | startAside | bind | disable => exact Or.inr after_self
  | begin op may =>
    have free := free_of_may may
    simp only [isFree, Bool.and_eq_true] at free
    exact Or.inl (Shift.born_of_free tended free.1)
  | started tasks | refused tasks | enabled tasks | terminated tasks | find tasks | refuse tasks | raise tasks | start tasks
  | lower tasks | stop tasks | look tasks | drop tasks | send tasks | lose tasks | reply tasks => exact Or.inl (busy tasks)

theorem turn_born (tended : s.shift.Tended) (turn : Turn s t s') : s.shift.born ≤ s'.shift.born := by
  rcases turn_base tended.staffed turn with same | moved
  · exact Nat.le_of_eq (congrArg Shift.born same).symm
  · exact Shift.born_le moved

theorem turn_unborn (tended : s.shift.Tended) (unborn : ∀ t, s.shift.born ≤ t → s.tasks t = []) (turn : Turn s t s')
    (u : ThreadId) (beyond : s.shift.born ≤ u) : s'.tasks u = [] := by
  by_cases mine : u = t
  · subst mine
    rcases turn_there tended unborn turn with there | same
    · exact absurd there (Nat.not_lt.mpr beyond)
    · rw [same, unborn u beyond]
  · rw [turn_others turn mine, unborn u beyond]

/-- A body is not over as long as somebody notifies. -/
theorem turn_body (kept : s.Kept) (turn : Turn s t s') (busy : ∃ v, ∃ k ∈ s.tasks v, k.notifies = true)
    (stands : s.shift.posts s.gen.worker u .body) : s'.shift.posts s.gen.worker u .body := by
  have tended := kept.tended
  -- A move that leaves an entry of another kind does not end a body.
  have goes : ∀ {a : Shift.Action} {shift : Shift} {e : Shift.Entry}, s.shift.act t a = some shift →
      shift.log = s.shift.log ++ [e] → (∀ v p, e ≠ .ended v p) → shift.posts s.gen.worker u .body := by
    intro a shift e acted log other
    refine Shift.body_of_act tended acted ?_ stands
    rintro p rfl
    obtain ⟨v, ended⟩ := Shift.log_of_finish acted
    exact other v p (List.cons.inj (List.append_cancel_left (log.symm.trans ended))).1
  cases turn with
  | @shift a shift _ permitted acted =>
    cases a with
    | finish p =>
      obtain ⟨v, k, member, notifies⟩ := busy
      have notifying : s.isNotifying = true := by
        have there : v < s.shift.born := by
          refine Nat.lt_of_not_le fun beyond => ?_
          rw [kept.unborn v beyond] at member
          cases member
        exact List.any_eq_true.mpr ⟨v, List.mem_range.mpr there, List.any_eq_true.mpr ⟨k, member, notifies⟩⟩
      have apart : u ≠ t := by
        rintro rfl
        rw [Shift.posts] at stands
        simp [permits, stands, notifying] at permitted
      simp only [Shift.act] at acted
      split at acted
      · cases acted
        rw [after_shift, Shift.posts, Shift.after_other apart]
        exact stands
      · cases acted
    | arrive | chore | release | lose | order | advance | proceed =>
      exact Shift.body_of_act tended acted (by simp) stands
  | startAside _ acted log | started _ acted log => exact goes acted log (by simp)
  | refused _ acted log | enabled _ acted log | terminated _ acted log => exact goes acted log (by simp)
  | start _ acted | stop _ acted => exact Shift.body_of_act tended acted (by simp) stands
  | bind | disable | begin | find | refuse | raise | lower | look | drop | send | lose | reply => exact stands

theorem may_of_begun {op : Operation ι} (turn : Turn s t s') (log : s'.log = s.log ++ [.begun u op]) :
    s.mayBegin t op = true ∧ s'.shift = s.shift := by
  cases turn with
  | begin op' may =>
    obtain ⟨_, rfl⟩ := Entry.begun.inj (List.cons.inj (List.append_cancel_left log)).1
    exact ⟨may, rfl⟩
  | shift | startAside | started | refused | enabled | terminated | bind | disable | find | refuse | raise | start | lower
  | stop | look | drop | send | lose | reply => cases List.append_cancel_left log

theorem turn_hosted (kept : s.Kept) (turn : Turn s t s') (page : Page t s.log (s.tasks t) (s'.tasks t) es)
    (log : s'.log = s.log ++ es) (member : k ∈ s'.tasks u) (notifies : k.notifies = true) :
    ∃ v, s'.shift.posts s'.gen.worker v .body := by
  rw [turn_worker turn]
  have old : ∀ {v : ThreadId} {k : Task δ ι}, k ∈ s.tasks v → k.notifies = true →
      ∃ v, s'.shift.posts s.gen.worker v .body := by
    intro v k member notifies
    obtain ⟨host, stands⟩ := kept.hosted v k member notifies
    exact ⟨host, turn_body kept turn ⟨v, k, member, notifies⟩ stands⟩
  by_cases mine : u = t
  · subst mine
    rcases page_origin page member with ⟨before, member, _, operation⟩ | ⟨op, rfl, rfl⟩
    · refine old member (notifies_iff.mpr ?_)
      rw [← operation]
      exact notifies_iff.mp notifies
    · obtain ⟨may, same⟩ := may_of_begun turn log
      obtain ⟨x, notify⟩ := notifies_iff.mp notifies
      rw [task_operation] at notify
      subst notify
      simp only [mayBegin, isProducing, Bool.and_eq_true, List.any_eq_true, beq_iff_eq] at may
      obtain ⟨_, host, _, stands⟩ := may
      exact ⟨host, same.symm ▸ stands⟩
  · rw [turn_others turn mine] at member
    exact old member notifies

/-! ### Chronicle and tally -/

theorem turn_chronicle (bound : s.Bound) (booked : s.Booked) (chronicle : Chronicle s.log) (turn : Turn s t s') :
    Chronicle s'.log := by
  have one : ∀ {e : Entry δ ι}, e.Fits s.log → Chronicle (s.log ++ [e]) := by
    intro e fits
    refine chronicle_append chronicle fun front e' back split => ?_
    cases front with
    | nil =>
      obtain ⟨rfl, _⟩ := List.cons.inj split
      exact (List.append_nil s.log).symm ▸ fits
    | cons => simp at split
  have pair : ∀ {e e' : Entry δ ι}, (∀ log, e.Fits log) → (∀ log, e'.Fits log) → Chronicle (s.log ++ [e, e']) := by
    intro e e' first second
    refine chronicle_append chronicle fun front a back split => ?_
    have member : a ∈ [e, e'] := split ▸ List.mem_append_right _ List.mem_cons_self
    rcases List.mem_pair.mp member with rfl | rfl
    · exact first _
    · exact second _
  have some : ∀ {k : Task δ ι} {below : List (Task δ ι)}, s.tasks t = k :: below → k.counts = true →
      (lastBound s.log).isSome = true :=
    fun tasks counts => bound.target ▸ bound.tasks t _ (tasks ▸ List.mem_cons_self) counts
  cases turn with
  | shift | disable | refused | find | raise | start | stop | look =>
    exact chronicle_append chronicle fun _ _ _ split => absurd split (by simp)
  | startAside | terminated | bind | begin => exact one trivial
  | started tasks => exact one (some tasks rfl)
  | enabled tasks | lower tasks =>
    refine one fun none => ?_
    have there := some tasks rfl
    simp [none] at there
  | refuse => exact one fun _ => rfl
  | drop | reply => exact pair (fun _ => trivial) fun _ => trivial
  | send tasks target =>
    have entry := booked.entry t _ (tasks ▸ List.mem_cons_self)
    exact one ⟨⟨t, entry⟩, bound.target ▸ target⟩
  | lose => exact one trivial

/-- What a move adds to the counts. -/
theorem turn_counts (bound : s.Bound) (turn : Turn s t s') : ∃ es, s'.log = s.log ++ es ∧
    s'.gen.dropped = s.gen.dropped + es.countP Entry.isDrop ∧
    es.countP Entry.isResult = es.countP Entry.isDrop + es.countP Entry.isReply ∧
    es.countP Entry.isCall + (s.tasks t).countP Task.dispatches =
      es.countP Entry.isReply + (s'.tasks t).countP Task.dispatches := by
  cases turn with
  | shift | startAside | bind | disable =>
    refine ⟨_, rfl, rfl, rfl, ?_⟩
    rw [after_self]
    simp [Entry.isCall, Entry.isReply]
  | started tasks | refused tasks | enabled tasks | terminated tasks | find tasks | refuse tasks | raise tasks | start tasks
  | lower tasks | stop tasks | look tasks | drop tasks | send tasks | reply tasks =>
    refine ⟨_, rfl, rfl, rfl, ?_⟩
    rw [after_self, tasks]
    simp [Entry.isCall, Entry.isReply, Task.dispatches, List.countP_cons, Nat.add_comm]
  | begin op =>
    refine ⟨_, rfl, rfl, rfl, ?_⟩
    rw [after_self]
    cases op <;> simp [Entry.isCall, Entry.isReply, Task.dispatches, Operation.task]
  | lose tasks unbound =>
    have there := bound.tasks t _ (tasks ▸ List.mem_cons_self) rfl
    simp [Generator.isBound, unbound] at there

theorem turn_calling (tended : s.shift.Tended) (unborn : ∀ t, s.shift.born ≤ t → s.tasks t = []) (turn : Turn s t s') :
    s'.calling + (s.tasks t).countP Task.dispatches = s.calling + (s'.tasks t).countP Task.dispatches := by
  have same : s'.calling = ∑ u ∈ Finset.range s.shift.born, (s'.tasks u).countP Task.dispatches := by
    refine Shift.sum_longer (turn_born tended turn) fun u beyond => ?_
    rw [turn_unborn tended unborn turn u beyond]
    rfl
  have others : ∀ u, u ≠ t → (s'.tasks u).countP Task.dispatches = (s.tasks u).countP Task.dispatches :=
    fun u other => by rw [turn_others turn other]
  rw [same, calling]
  rcases turn_there tended unborn turn with there | kept
  · exact Shift.sum_moved there others
  · rw [kept]
    refine congrArg (· + _) (Finset.sum_congr rfl fun u _ => ?_)
    by_cases mine : u = t
    · rw [mine, kept]
    · exact others u mine

theorem turn_tally (tended : s.shift.Tended) (bound : s.Bound) (unborn : ∀ t, s.shift.born ≤ t → s.tasks t = [])
    (tally : s.Tally) (turn : Turn s t s') : s'.Tally := by
  obtain ⟨es, log, dropped, completed, called⟩ := turn_counts bound turn
  have calling := turn_calling tended unborn turn
  obtain ⟨dropped', completed', called'⟩ := tally
  constructor
  · rw [dropped, dropped', log, List.countP_append]
  · rw [log, List.countP_append, List.countP_append, List.countP_append]
    omega
  · rw [log, List.countP_append, List.countP_append]
    omega

theorem turn_kept (kept : s.Kept) (turn : Turn s t s') : s'.Kept := by
  have ⟨tended, witnessed, bound, booked, manned, unborn, _, chronicle, tally⟩ := kept
  obtain ⟨es, log, page⟩ := turn_page tended witnessed bound booked manned turn
  constructor
  · exact turn_tended tended turn
  · exact turn_witnessed tended witnessed turn
  · exact turn_bound bound turn
  · exact page_booked booked page log fun u => turn_others turn
  · exact turn_manned tended booked manned turn page log
  · exact fun u later => turn_unborn tended unborn turn u (Nat.le_trans (turn_born tended turn) later)
  · exact fun u k member notifies => turn_hosted kept turn page log member notifies
  · exact turn_chronicle bound booked chronicle turn
  · exact turn_tally tended bound unborn tally turn

/-- A generator that a thread has just made. -/
theorem kept_create {shift : Shift} (tended : shift.Tended) (witnessed : shift.Witnessed)
    (free : (shift.threads t).isFree = true) (name : String) (o : WorkerOptions) (period : Option Nat) :
    (create shift name o period : Mill δ ι).Kept := by
  have made : shift.Turn t (create shift name o period : Mill δ ι).shift := .chore (.hire name o) free
  refine ⟨Shift.turn_tended tended made, Shift.turn_witnessed tended witnessed made, ⟨rfl, nofun, nofun⟩, ?_, ⟨nofun, nofun⟩,
    fun _ _ => rfl, nofun, fun front e back split => absurd split (by simp [create]), rfl, rfl, ?_⟩
  · exact ⟨nofun, fun _ => .nil, nofun, fun n _ => Or.inr ⟨nofun, rfl⟩⟩
  · simp [create, calling]

/-- What holds at first and is kept by every move holds in the end. -/
theorem run_keeps {P : Mill δ ι → Prop} {moves : List (ThreadId × Action δ ι)} (kept : s.Kept) (holds : P s)
    (step : ∀ s t s', s.Kept → P s → Turn s t s' → P s') (ran : s.run moves = some s') : s'.Kept ∧ P s' := by
  refine Threads.run_keeps (P := fun s => s.Kept ∧ P s) ⟨kept, holds⟩ ran ?_
  rintro s t a s' _ ⟨kept, holds⟩ acted
  have turn := turn_of_act kept.tended.staffed acted
  exact ⟨turn_kept kept turn, step s t s' kept holds turn⟩

/-! ### After a generator has been terminated -/

/-- No enabling has begun since there were `n` entries. -/
def Unenabled (n : Nat) (log : List (Entry δ ι)) : Prop := ∀ m t, n ≤ m → log[m]? ≠ some (.begun t .enable)

/-- The flag is down, and nobody will raise it or is about to call the dispatcher. -/
structure Cold (s : Mill δ ι) : Prop where
  down : s.gen.enabled = false
  calm : ∀ t, ∀ k ∈ s.tasks t, k.enables = false
  still : ∀ t, ∀ k ∈ s.tasks t, k.counts = false

theorem Unenabled.earlier {log' : List (Entry δ ι)} (unenabled : Unenabled n log') (before : log <+: log') :
    Unenabled n log := by
  obtain ⟨es, rfl⟩ := before
  intro m t later here
  refine unenabled m t later ?_
  rw [List.getElem?_append_left (List.getElem?_eq_some_iff.mp here).1, here]

theorem enables_iff : k.enables = true ↔ k.operation = .enable := by
  cases k <;> simp [Task.enables, Task.operation]

theorem turn_calm (calm : ∀ u, ∀ k ∈ s.tasks u, k.enables = false) (turn : Turn s t s') (early : n ≤ s.log.length)
    (unenabled : Unenabled n s'.log) : ∀ u, ∀ k ∈ s'.tasks u, k.enables = false := by
  have top : ∀ {k k' : Task δ ι} {below : List (Task δ ι)}, s.tasks t = k :: below → k'.operation = k.operation →
      k'.enables = false := by
    intro k k' below tasks same
    have before := calm t k (tasks ▸ List.mem_cons_self)
    cases enables : k'.enables with
    | false => rfl
    | true =>
      rw [enables_iff.mpr (same.symm.trans (enables_iff.mp enables))] at before
      cases before
  cases turn with
  | shift | startAside | bind | disable => exact tasks_same calm
  | started tasks | refused tasks | find tasks | raise tasks | start tasks | stop tasks | look tasks | send tasks =>
    exact tasks_moved calm tasks (top tasks rfl)
  | enabled tasks | terminated tasks | refuse tasks | lower tasks | drop tasks | lose tasks | reply tasks =>
    exact tasks_popped calm tasks
  | begin op =>
    refine tasks_pushed calm ?_
    cases op with
    | enable => exact absurd (by simp) (unenabled s.log.length t early)
    | terminate | notify => rfl

theorem turn_cold (cold : s.Cold) (turn : Turn s t s') (early : n ≤ s.log.length) (unenabled : Unenabled n s'.log) :
    s'.Cold ∧ ∃ es, s'.log = s.log ++ es ∧ ∀ m d x, .dispatched m d x ∉ es := by
  have ⟨down, calm, still⟩ := cold
  have calm' := turn_calm calm turn early unenabled
  have enabling : ∀ {k : Task δ ι} {below : List (Task δ ι)}, s.tasks t = k :: below → k.enables = true → False := by
    intro k below tasks enables
    rw [calm t k (tasks ▸ List.mem_cons_self)] at enables
    cases enables
  have counting : ∀ {k : Task δ ι} {below : List (Task δ ι)}, s.tasks t = k :: below → k.counts = true → False := by
    intro k below tasks counts
    rw [still t k (tasks ▸ List.mem_cons_self)] at counts
    cases counts
  cases turn with
  | shift | startAside | bind => exact ⟨⟨down, calm', tasks_same still⟩, _, rfl, by simp⟩
  | disable => exact ⟨⟨rfl, calm', tasks_same still⟩, _, rfl, by simp⟩
  | started tasks | refused tasks | enabled tasks | find tasks | refuse tasks | raise tasks | start tasks | lower tasks =>
    exact (enabling tasks rfl).elim
  | terminated tasks | drop tasks | reply tasks => exact ⟨⟨down, calm', tasks_popped still tasks⟩, _, rfl, by simp⟩
  | begin op =>
    refine ⟨⟨down, calm', tasks_pushed still ?_⟩, _, rfl, by simp⟩
    cases op <;> rfl
  | stop tasks => exact ⟨⟨rfl, calm', tasks_moved still tasks rfl⟩, _, rfl, by simp⟩
  | look tasks =>
    refine ⟨⟨down, calm', tasks_moved still tasks ?_⟩, _, rfl, by simp⟩
    simp [down, Task.counts]
  | send tasks | lose tasks => exact (counting tasks rfl).elim

/-- A call of thread `t` that terminates the generator, from its beginning on. -/
structure Waning (s : Mill δ ι) (t : ThreadId) (n : Nat) : Prop where
  calm : ∀ u, ∀ k ∈ s.tasks u, k.enables = false
  there : t < s.shift.born
  foreign : t ∉ Shift.launches s.shift.log s.gen.worker
  course : (∃ below, s.tasks t = .terminating n :: below) ∨
    (s.gen.enabled = false ∧ ∃ below e, s.tasks t = .stopping n :: below ∧ (s.shift.threads t).errand = some e ∧
      e.call.isBlind = true) ∨ s.Cold

theorem turn_down (calm : ∀ u, ∀ k ∈ s.tasks u, k.enables = false) (down : s.gen.enabled = false) (turn : Turn s t s') :
    s'.gen.enabled = false := by
  cases turn with
  | raise tasks =>
    have enables := calm t _ (tasks ▸ List.mem_cons_self)
    cases enables
  | disable | lower | stop => rfl
  | shift | startAside | started | refused | enabled | terminated | bind | begin | find | refuse | start | look | drop | send
  | lose | reply => exact down

/-- Where a terminating call sees that the worker neither runs nor is being started, nobody notifies. -/
theorem still_of_pass {y : Worker} (kept : s.Kept) (calm : ∀ u, ∀ k ∈ s.tasks u, k.enables = false)
    (there : s.shift.force.worker? s.gen.worker = some y) (unheld : y.starter = none) (rests : y.lifecycle ≠ .running) :
    ∀ u, ∀ k ∈ s.tasks u, k.counts = false := by
  have silent : ∀ u, ∀ k ∈ s.tasks u, k.notifies = false := by
    intro u k member
    cases notifies : k.notifies with
    | false => rfl
    | true =>
      obtain ⟨host, stands⟩ := kept.hosted u k member notifies
      rcases (kept.tended.sound _ y there).course.active_of_body stands with ⟨_, held⟩ | ⟨running, _⟩
      · simp [Shift.core, unheld] at held
      · exact absurd running rests
  intro u k member
  have calm := calm u k member
  have silent := silent u k member
  cases k with
  | enabling | starting => cases calm
  | notifying => cases silent
  | terminating | stopping | dispatching => rfl

theorem turn_stopping {e : Shift.Errand} (kept : s.Kept) (waning : s.Waning t n) (turn : Turn s t s')
    (calm : ∀ u, ∀ k ∈ s'.tasks u, k.enables = false) (tasks : s.tasks t = .stopping n :: below)
    (down : s.gen.enabled = false) (errand : (s.shift.threads t).errand = some e)
    (blind : e.call.isBlind = true) :
    (∃ e, s'.tasks t = .stopping n :: below ∧ (s'.shift.threads t).errand = some e ∧ e.call.isBlind = true) ∨ s'.Cold := by
  have tended := kept.tended
  obtain ⟨e', errand', _, worker⟩ := kept.manned.top t _ _ tasks
  obtain rfl := Option.some.inj (errand.symm.trans errand')
  have busy := not_free tasks rfl
  cases turn with
  | @shift a _ _ permitted acted log silent unheard =>
    have other : ∀ o w, a ≠ .order o w := by
      rintro o w rfl
      rw [permits, tasks] at permitted
      cases permitted
    rcases Shift.errand_of_act tended acted other with same | ⟨e', errand', carried⟩
    · exact Or.inl ⟨e, after_self.trans tasks, same.trans errand, blind⟩
    · obtain rfl := Option.some.inj (errand.symm.trans errand')
      cases carried with
      | goes there part next =>
        generalize e.call = call at part blind
        cases part with
        | cancel | wake | other => exact Or.inl ⟨_, after_self.trans tasks, next, rfl⟩
        | pass unheld rests =>
          rw [worker] at there
          exact Or.inr ⟨down, calm, tasks_same (still_of_pass kept waning.calm there unheld rests)⟩
        | doze resting => rcases resting with rfl | rfl <;> cases blind
        | publish | announce | collect => cases blind
      | spawns _ starts =>
        rw [starts] at blind
        cases blind
      | returns _ back => exact absurd (List.append_cancel_left (log.symm.trans back)) (unheard n below (Or.inr tasks) _ _ _ _ _)
  | startAside _ acted log =>
    obtain ⟨e', errand', _, starts, _⟩ := Shift.spawned_of_turn tended (Shift.turn_of_act tended.staffed acted) log
    obtain rfl := Option.some.inj (errand.symm.trans errand')
    rw [starts] at blind
    cases blind
  | @terminated _ _ _ _ _ w r m _ tasks' acted log =>
    obtain ⟨e', x, _, _, _, errand', _, _, worker', there, part⟩ :=
      Shift.returned_of_turn (Shift.turn_of_act tended.staffed acted) log
    obtain rfl := Option.some.inj (errand.symm.trans errand')
    generalize e.call = call at part blind
    cases part with
    | own mine =>
      have launched := (tended.sound w x there).course.launched_of_thread mine
      rw [← worker', worker] at launched
      exact absurd (launched ▸ List.mem_singleton_self t) waning.foreign
    | rise resting => rcases resting with rfl | rfl <;> cases blind
    | refuse | decline | keep | miss | join => cases blind
  | bind _ free | disable free => cases busy.symm.trans free
  | begin op may => cases busy.symm.trans (free_of_may may)
  | started tasks' | refused tasks' | enabled tasks' | find tasks' | refuse tasks' | raise tasks' | start tasks' | lower tasks'
  | stop tasks' | look tasks' | drop tasks' | send tasks' | lose tasks' | reply tasks' => cases tasks.symm.trans tasks'

theorem turn_waning (kept : s.Kept) (waning : s.Waning t n) (turn : Turn s u s') (early : n ≤ s.log.length)
    (unenabled : Unenabled n s'.log) : s'.Waning t n := by
  have ⟨calm, there, foreign, course⟩ := waning
  have calm' := turn_calm calm turn early unenabled
  refine ⟨calm', Nat.lt_of_lt_of_le there (turn_born kept.tended turn), ?_, ?_⟩
  · rw [turn_worker turn]
    rcases turn_base kept.tended.staffed turn with same | moved
    · rw [same]
      exact foreign
    · obtain ⟨es, log, new⟩ := Shift.launches_of_turn moved
      rw [log, Shift.launches_append]
      intro member
      rcases List.mem_append.mp member with old | new'
      · exact foreign old
      · exact Nat.ne_of_lt there (new _ t new')
  · rcases course with ⟨below, tasks⟩ | ⟨down, below, e, tasks, errand, blind⟩ | cold
    · by_cases mine : t = u
      · subst mine
        have busy := not_free tasks rfl
        cases turn with
        | shift | startAside => exact Or.inl ⟨below, after_self.trans tasks⟩
        | stop tasks' acted =>
          cases tasks.symm.trans tasks'
          exact Or.inr (Or.inl ⟨rfl, below, _, after_self, Shift.errand_of_order acted, rfl⟩)
        | bind _ free | disable free => cases busy.symm.trans free
        | begin op may => cases busy.symm.trans (free_of_may may)
        | started tasks' | refused tasks' | enabled tasks' | terminated tasks' | find tasks' | refuse tasks' | raise tasks'
        | start tasks' | lower tasks' | look tasks' | drop tasks' | send tasks' | lose tasks' | reply tasks' =>
          cases tasks.symm.trans tasks'
      · exact Or.inl ⟨below, (turn_others turn mine).trans tasks⟩
    · by_cases mine : t = u
      · subst mine
        refine Or.inr ((turn_stopping kept waning turn calm' tasks down errand blind).imp_left ?_)
        rintro ⟨e, tasks, errand, blind⟩
        exact ⟨turn_down calm down turn, below, e, tasks, errand, blind⟩
      · have errand' : (s'.shift.threads t).errand = (s.shift.threads t).errand := by
          rcases turn_base kept.tended.staffed turn with same | moved
          · rw [same]
          · exact Shift.errand_of_other kept.tended moved mine
        exact Or.inr (Or.inl
          ⟨turn_down calm down turn, below, e, (turn_others turn mine).trans tasks, errand'.trans errand, blind⟩)
    · exact Or.inr (Or.inr (turn_cold cold turn early unenabled).1)

theorem run_log {moves : List (ThreadId × Action δ ι)} (kept : s.Kept) (ran : s.run moves = some s') : s.log <+: s'.log :=
  (run_keeps (P := fun later => s.log <+: later.log) kept (List.prefix_refl _)
    (fun _ _ _ _ before turn => before.trans (turn_log turn)) ran).2

theorem waning_begin (kept : s.Kept) (calm : ∀ u, ∀ k ∈ s.tasks u, k.enables = false)
    (other : t ∉ Shift.launches s.shift.log s.gen.worker) (begun : s.act t (.begin .terminate) = some s') :
    s'.Waning t s.log.length := by
  simp only [act, Option.ite_none_right_eq_some, Option.some.injEq] at begun
  obtain ⟨may, rfl⟩ := begun
  have free := free_of_may may
  rw [isFree, Bool.and_eq_true] at free
  exact ⟨tasks_pushed calm rfl, Shift.born_of_free kept.tended free.1, other, Or.inl ⟨_, after_self⟩⟩

/-- When a terminating call has returned, the body calls no dispatcher any more. -/
theorem cold_of_terminated (kept : s.Kept) (waning : s.Waning t n) (returned : .terminated n ∈ s.log) : s.Cold := by
  have told : .terminated n ∈ about s.log n := List.mem_filter.mpr ⟨returned, by simp [Entry.number?]⟩
  rcases waning.course with ⟨below, tasks⟩ | ⟨_, below, e, tasks, _⟩ | cold
  · have untold : about s.log n = [] := kept.booked.current t (.terminating n) (tasks ▸ List.mem_cons_self)
    rw [untold] at told
    cases told
  · have untold : about s.log n = [] := kept.booked.current t (.stopping n) (tasks ▸ List.mem_cons_self)
    rw [untold] at told
    cases told
  · exact cold

theorem run_waning {moves : List (ThreadId × Action δ ι)} (kept : s.Kept) (early : n ≤ s.log.length)
    (waning : s.Waning t n) (ran : s.run moves = some s') (unenabled : Unenabled n s'.log) : s'.Kept ∧ s'.Waning t n := by
  have later := run_keeps (P := fun s' => n ≤ s'.log.length ∧ (Unenabled n s'.log → s'.Waning t n)) kept
    ⟨early, fun _ => waning⟩ (fun s u s' kept ⟨early, waning⟩ turn =>
      ⟨Nat.le_trans early (turn_log turn).length_le, fun unenabled =>
        turn_waning kept (waning (unenabled.earlier (turn_log turn))) turn early unenabled⟩) ran
  exact ⟨later.1, later.2.2 unenabled⟩

theorem run_cold {moves : List (ThreadId × Action δ ι)} (kept : s.Kept) (early : n ≤ s.log.length) (cold : s.Cold)
    (ran : s.run moves = some s') (unenabled : Unenabled n s'.log) :
    ∃ es, s'.log = s.log ++ es ∧ ∀ m d x, .dispatched m d x ∉ es := by
  have later := run_keeps (P := fun s' => n ≤ s'.log.length ∧ (Unenabled n s'.log →
      s'.Cold ∧ ∃ es, s'.log = s.log ++ es ∧ ∀ m d x, .dispatched m d x ∉ es)) kept
    ⟨early, fun _ => ⟨cold, [], (List.append_nil _).symm, nofun⟩⟩ ?_ ran
  · exact (later.2.2 unenabled).2
  · rintro s₁ u s₂ _ ⟨early, so_far⟩ turn
    refine ⟨Nat.le_trans early (turn_log turn).length_le, fun unenabled => ?_⟩
    obtain ⟨cold, es, log, silent⟩ := so_far (unenabled.earlier (turn_log turn))
    obtain ⟨cold', es', log', silent'⟩ := turn_cold cold turn early unenabled
    refine ⟨cold', es ++ es', by rw [log', log, List.append_assoc], fun m d x member => ?_⟩
    rcases List.mem_append.mp member with member | member
    · exact silent m d x member
    · exact silent' m d x member

theorem silent_of_terminated {s₁ s₂ s₃ : Mill δ ι} {more rest : List (ThreadId × Action δ ι)} (kept : s.Kept)
    (calm : ∀ u, ∀ k ∈ s.tasks u, k.enables = false) (other : t ∉ Shift.launches s.shift.log s.gen.worker)
    (begun : s.act t (.begin .terminate) = some s₁) (ran : s₁.run more = some s₂)
    (returned : .terminated s.log.length ∈ s₂.log) (ran' : s₂.run rest = some s₃)
    (unenabled : Unenabled s.log.length s₃.log) :
    ∃ es, s₃.log = s₂.log ++ es ∧ ∀ m d x, .dispatched m d x ∉ es := by
  have first := turn_of_act kept.tended.staffed begun
  have early := (turn_log first).length_le
  obtain ⟨kept₂, early₂⟩ := run_keeps (P := fun later => s.log.length ≤ later.log.length) (turn_kept kept first) early
    (fun _ _ _ _ early turn => Nat.le_trans early (turn_log turn).length_le) ran
  obtain ⟨_, waning⟩ := run_waning (turn_kept kept first) early (waning_begin kept calm other begun) ran
    (unenabled.earlier (run_log kept₂ ran'))
  exact run_cold kept₂ early₂ (cold_of_terminated kept₂ waning returned) ran' unenabled

/-! ### Whose call sets the worker going -/

/-- A move that starts the worker belongs to an enabling that counts on a dispatcher, or to somebody who calls the worker
past the generator. -/
theorem launches_of_turn (kept : s.Kept) (turn : Turn s t s')
    (launched : Shift.launches s'.shift.log s.gen.worker ≠ Shift.launches s.shift.log s.gen.worker) :
    (∃ n below thread, s.tasks t = .starting n :: below ∧ s.gen.isBound = true ∧ s'.log = s.log ++ [.started n thread]) ∨
      isOpen (s.tasks t) = true := by
  have tended := kept.tended
  have silent : ∀ {log es : List Shift.Entry}, log = s.shift.log ++ es → Shift.launches es s.gen.worker = [] →
      Shift.launches log s.gen.worker = Shift.launches s.shift.log s.gen.worker := by
    rintro _ es rfl none
    rw [Shift.launches_append, none, List.append_nil]
  cases turn with
  | shift _ _ log none => exact absurd (silent log none) launched
  | @startAside _ _ m thread _ acted log aside =>
    obtain ⟨e, errand, _, starts, _⟩ := Shift.spawned_of_turn tended (Shift.turn_of_act tended.staffed acted) log
    refine Or.inr ?_
    cases tasks : s.tasks t with
    | nil => rfl
    | cons k below =>
      have holds := kept.manned.top t k below tasks
      cases k with
      | dispatching => rfl
      | starting n => exact absurd tasks (aside n below)
      | enabling | terminating | notifying => cases holds.symm.trans errand
      | stopping =>
        obtain ⟨e', errand', terminates, _⟩ := holds
        obtain rfl := Option.some.inj (errand.symm.trans errand')
        have covers := (kept.witnessed.errands t e errand).covers
        rw [terminates, starts] at covers
        cases covers
  | started tasks =>
    exact Or.inl ⟨_, _, _, tasks, kept.bound.tasks t _ (tasks ▸ List.mem_cons_self) rfl, rfl⟩
  | refused _ _ log | enabled _ _ log | terminated _ _ log => exact absurd (silent log rfl) launched
  | start _ acted | stop _ acted =>
    simp only [Shift.act, Option.ite_none_right_eq_some, Option.some.injEq] at acted
    obtain ⟨_, rfl⟩ := acted
    exact absurd (silent rfl rfl) launched
  | bind | disable | begin | find | refuse | raise | lower | look | drop | send | lose | reply => exact absurd rfl launched

/-- An enabling that has started the worker succeeds. -/
theorem enabled_of_started {thread : ThreadId} {v : Except Dispatch.Error Unit} (booked : s.Booked)
    (started : .started n thread ∈ s.log) (enabled : .enabled n v ∈ s.log) : v = .ok () := by
  have first : .started n thread ∈ about s.log n := List.mem_filter.mpr ⟨started, by simp [Entry.number?]⟩
  have last : .enabled n v ∈ about s.log n := List.mem_filter.mpr ⟨enabled, by simp [Entry.number?]⟩
  by_cases held : ∃ t, ∃ k ∈ s.tasks t, k.number = n
  · obtain ⟨t, k, member, rfl⟩ := held
    have noted := booked.current t k member
    cases k with
    | starting =>
      rcases noted with noted | ⟨_, noted⟩
      · rw [noted] at last
        cases last
      · rw [noted] at last
        simp at last
    | enabling | terminating | stopping | notifying =>
      rw [show about s.log _ = [] from noted] at last
      cases last
    | dispatching =>
      rw [show about s.log _ = [_] from noted] at last
      simp at last
  · rcases booked.closed n fun t k member same => held ⟨t, k, member, same⟩ with ⟨_, _, _, closed⟩ | ⟨_, nothing⟩
    · generalize about s.log n = told at first last closed
      cases closed <;> simp_all
    · rw [nothing] at last
      cases last

/-- Whatever threads do with a generator and its worker: the flag is up only while a dispatcher is bound. A move that starts
the worker belongs to an enabling that has found a dispatcher and will succeed, unless somebody starts the worker past the
generator. An enabling that finds no dispatcher says so and changes nothing else. A notification never waits for others; it
is counted and dropped, or makes one call on the dispatcher that is bound at that moment and returns what the call does, so
the counts agree. When a call that terminates the generator from another thread has returned, and nobody has been enabling
it since it began, the body calls no dispatcher any more. -/
theorem generator_accounting {setup : List (ThreadId × Shift.Action)} {s₀ : Shift} {t₀ : ThreadId}
    (reached : ({} : Shift).run setup = some s₀) (free : (s₀.threads t₀).isFree = true) (name : String) (o : WorkerOptions)
    (period : Option Nat) {moves : List (ThreadId × Action δ ι)} {s : Mill δ ι}
    (ran : (create s₀ name o period : Mill δ ι).run moves = some s) :
    (s.gen.enabled = true → s.gen.isBound = true) ∧
    (∀ t a s', s.act t a = some s' →
      Shift.launches s'.shift.log s.gen.worker ≠ Shift.launches s.shift.log s.gen.worker →
        (∃ n below thread, s.tasks t = .starting n :: below ∧ s.gen.isBound = true ∧ s'.log = s.log ++ [.started n thread]) ∨
          isOpen (s.tasks t) = true) ∧
    (∀ n thread v, .started n thread ∈ s.log → .enabled n v ∈ s.log → v = .ok ()) ∧
    (∀ front n v back, s.log = front ++ .enabled n v :: back → lastBound front = none → v = .error .notConfigured) ∧
    (∀ t n below, s.tasks t = .enabling n .looking :: below → s.gen.isBound = false →
      s.act t .step = some (s.after t s.shift s.gen below [.enabled n (.error .notConfigured)])) ∧
    (∀ t n x p below, s.tasks t = .notifying n x p :: below → (s.act t .step).isSome = true) ∧
    (∀ n t x, s.log[n]? = some (.begun t (.notify x)) →
      about s.log n = [] ∨ (∃ d, about s.log n = [.dispatched n d x]) ∨ Closed n (.notify x) (about s.log n)) ∧
    (∀ front n d x back, s.log = front ++ .dispatched n d x :: back →
      (∃ t, front[n]? = some (.begun t (.notify x))) ∧ lastBound front = some d) ∧
    s.gen.dropped = s.log.countP Entry.isDrop ∧
    s.log.countP Entry.isResult = s.gen.dropped + s.log.countP Entry.isReply ∧
    s.log.countP Entry.isCall = s.log.countP Entry.isReply + s.calling ∧
    ∀ t s₁ more s₂ rest s₃, s.act t (.begin .terminate) = some s₁ → t ∉ Shift.launches s.shift.log s.gen.worker →
      (∀ u, ∀ k ∈ s.tasks u, k.enables = false) → s₁.run more = some s₂ → .terminated s.log.length ∈ s₂.log →
      s₂.run rest = some s₃ → Unenabled s.log.length s₃.log →
      ∃ es, s₃.log = s₂.log ++ es ∧ ∀ m d x, .dispatched m d x ∉ es := by
  obtain ⟨tended₀, witnessed₀⟩ := Shift.reached reached
  obtain ⟨kept, _⟩ := run_keeps (P := fun _ => True) (kept_create tended₀ witnessed₀ free name o period) trivial
    (fun _ _ _ _ _ _ => trivial) ran
  have bound := kept.bound
  refine ⟨bound.flag, ?_, ?_, ?_, ?_, ?_, ?_, ?_, kept.tally.dropped, ?_, kept.tally.called, ?_⟩
  · intro t a s' acted launched
    exact launches_of_turn kept (turn_of_act kept.tended.staffed acted) launched
  · intro n thread v started enabled
    exact enabled_of_started kept.booked started enabled
  · intro front n v back split
    exact kept.chronicle front _ back split
  · intro t n below tasks unbound
    simp [act, step, tasks, Generator.Enabling.advance, unbound]
  · intro t n x p below tasks
    cases p with
    | looking | dropping => simp [act, step, tasks, Generator.Production.advance]
    | aiming =>
      have there : s.gen.target.isSome = true := bound.tasks t _ (tasks ▸ List.mem_cons_self) rfl
      obtain ⟨d, target⟩ := Option.isSome_iff_exists.mp there
      simp [act, step, tasks, Generator.Production.advance, target]
  · intro n t x entry
    by_cases held : ∃ u, ∃ k ∈ s.tasks u, k.number = n
    · obtain ⟨u, k, member, rfl⟩ := held
      have begun := kept.booked.entry u k member
      rw [entry] at begun
      have operation := (Entry.begun.inj (Option.some.inj begun)).2
      have noted := kept.booked.current u k member
      cases k with
      | notifying => exact Or.inl noted
      | dispatching =>
        cases operation
        exact Or.inr (Or.inl ⟨_, noted⟩)
      | enabling | starting | terminating | stopping => cases operation
    · rcases kept.booked.closed n fun u k member same => held ⟨u, k, member, same⟩ with ⟨u, op, begun, closed⟩ | ⟨none, _⟩
      · obtain ⟨_, rfl⟩ := Entry.begun.inj (Option.some.inj (entry.symm.trans begun))
        exact Or.inr (Or.inr closed)
      · exact absurd entry (none t _)
  · intro front n d x back split
    exact kept.chronicle front _ back split
  · rw [kept.tally.dropped, kept.tally.completed]
  · intro t s₁ more s₂ rest s₃ begun other calm ran returned ran' unenabled
    exact silent_of_terminated kept calm other begun ran returned ran' unenabled

/-- Thread 0 enables a generator in vain, binds dispatcher 7 and enables it again. The body notifies before that is known.
Its next notification sees the flag up just before thread 0 lowers it, and still goes through; the third one is dropped.
Thread 0 then terminates the generator and waits for the body. -/
def workday : List (ThreadId × Action Nat Nat) :=
  let on (t : ThreadId) : ThreadId × Action Nat Nat := (t, .shift (.advance 0 none))
  let run : ThreadId × Action Nat Nat := (1, .shift .proceed)
  [(0, .begin .enable), (0, .step), (0, .bind 7), (0, .begin .enable), (0, .step), (0, .step), (0, .step), on 0, run, run,
    (1, .begin (.notify 5)), (1, .step), (1, .step), (1, .reply (.ok .delivered)), on 0, on 0, on 0, (1, .begin (.notify 6)),
    (1, .step), (0, .disable), (1, .step), (1, .reply (.ok .queued)), (1, .begin (.notify 8)), (1, .step), (1, .step),
    (0, .begin .terminate), (0, .step), on 0, on 0, on 0, (1, .shift (.finish false)), run, on 0, on 0, run, on 0]

theorem generator_accounting_workday : ∃ s : Mill Nat Nat,
    (create (({} : Shift).enter .outside) "ticker" {} none).run workday = some s ∧ s.gen.dropped = 1 ∧
    s.log.countP Entry.isReply = 2 ∧ s.log.countP Entry.isResult = 1 + 2 := by
  have ends : ∃ s : Mill Nat Nat, (create (({} : Shift).enter .outside) "ticker" {} none).run workday = some s ∧
      s.gen.dropped = 1 ∧ s.log.countP Entry.isReply = 2 := ⟨_, rfl, rfl, rfl⟩
  obtain ⟨s, ran, dropped, replies⟩ := ends
  have reached : ({} : Shift).run [(0, .arrive)] = some (({} : Shift).enter .outside) := rfl
  have free : ((({} : Shift).enter .outside).threads 0).isFree = true := rfl
  obtain ⟨_, _, _, _, _, _, _, _, _, completed, _⟩ := generator_accounting reached free "ticker" {} none ran
  rw [dropped, replies] at completed
  exact ⟨s, ran, dropped, replies, completed⟩

end Mill

end Switchboard
