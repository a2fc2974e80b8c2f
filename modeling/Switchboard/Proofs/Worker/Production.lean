import Switchboard.Proofs.Worker.Calls
import Switchboard.Proofs.Worker.Mill

/-!
Operations on a generator and what the log tells of each. The flag is up only while a dispatcher is bound, and every
notification is either counted and dropped, or makes one call on a dispatcher and returns what the call does.
-/

namespace Switchboard

namespace Mill

section

variable {δ ι : Type}

/-! ### Readings of the log -/

def Entry.bound? : Entry δ ι → Option δ
  | bound d => some d
  | _ => none

def lastBound (log : List (Entry δ ι)) : Option δ := (log.filterMap Entry.bound?).getLast?

/-- The number of the operation that an entry is about, apart from its first one. -/
def Entry.number? : Entry δ ι → Option Nat
  | started n _ | enabled n _ | terminated n | dropped n | dispatched n .. | replied n _ | notified n _ => some n
  | _ => none

def about (log : List (Entry δ ι)) (n : Nat) : List (Entry δ ι) := log.filter fun e => e.number? == some n

/-- What is told of an operation that is over. -/
inductive Closed (n : Nat) : Operation ι → List (Entry δ ι) → Prop
  | refused (v : Except Dispatch.Error Unit) : Closed n .enable [.enabled n v]
  | started (thread : ThreadId) : Closed n .enable [.started n thread, .enabled n (.ok ())]
  | terminated : Closed n .terminate [.terminated n]
  | dropped (x : ι) : Closed n (.notify x) [.dropped n, .notified n (.ok none)]
  | served (x : ι) (d : δ) (r : Except Dispatch.Error Dispatch.Outcome) :
    Closed n (.notify x) [.dispatched n d x, .replied n r, .notified n (r.map some)]

/-- What is told of an operation in progress. -/
def Task.Noted : Task δ ι → List (Entry δ ι) → Prop
  | starting n, l => l = [] ∨ ∃ thread, l = [.started n thread]
  | dispatching n x d, l => l = [.dispatched n d x]
  | _, l => l = []

/-- An operation that takes a dispatcher for granted. -/
def Task.counts : Task δ ι → Bool
  | enabling _ e => e != .looking
  | starting _ => true
  | notifying _ _ p => p == .aiming
  | _ => false

/-- The call on the worker that an operation waits for. An enabling that has not yet started the worker is about to. -/
def Task.Holds (w : WorkerId) (log : List (Entry δ ι)) (errand : Option Shift.Errand) : Task δ ι → Prop
  | starting n => ∃ e, errand = some e ∧ e.order = .start ∧ e.worker = w ∧ (e.call = .starting → about log n = [])
  | stopping _ => ∃ e, errand = some e ∧ e.order = .terminate ∧ e.worker = w
  | dispatching .. => True
  | _ => errand = none

/-- What a move does to the operations of thread `t`, and what it notes. -/
inductive Page (t : ThreadId) (log : List (Entry δ ι)) : List (Task δ ι) → List (Task δ ι) → List (Entry δ ι) → Prop
  | keep {ks es} (aside : ∀ e ∈ es, e.number? = none ∧ ∀ u op, e ≠ .begun u op) : Page t log ks ks es
  | push (op : Operation ι) {ks} : Page t log ks (op.task log.length :: ks) [.begun t op]
  | move {k k' : Task δ ι} {below es} (number : k'.number = k.number) (operation : k'.operation = k.operation)
    (own : ∀ e ∈ es, e.number? = some k.number) (noted : k'.Noted (about log k.number ++ es)) :
    Page t log (k :: below) (k' :: below) es
  | pop {k : Task δ ι} {below es} (own : ∀ e ∈ es, e.number? = some k.number)
    (closed : Closed k.number k.operation (about log k.number ++ es)) : Page t log (k :: below) below es

theorem about_append (log es : List (Entry δ ι)) (n : Nat) : about (log ++ es) n = about log n ++ about es n :=
  List.filter_append _ _

theorem about_own {es : List (Entry δ ι)} {n : Nat} (own : ∀ e ∈ es, e.number? = some n) : about es n = es :=
  List.filter_eq_self.mpr fun e member => by simp [own e member]

theorem about_other {es : List (Entry δ ι)} {n m : Nat} (own : ∀ e ∈ es, e.number? = some n) (other : m ≠ n) :
    about es m = [] :=
  List.filter_eq_nil_iff.mpr fun e member => by simp [own e member, other.symm]

theorem about_aside {es : List (Entry δ ι)} (aside : ∀ e ∈ es, e.number? = none) (n : Nat) : about es n = [] :=
  List.filter_eq_nil_iff.mpr fun e member => by simp [aside e member]

theorem lastBound_append (log es : List (Entry δ ι)) : lastBound (log ++ es) = (lastBound es).or (lastBound log) := by
  simp [lastBound, List.getLast?_append]

end

variable {δ ι : Type} {s s' : Mill δ ι} {t u : ThreadId} {k k' : Task δ ι} {n : Nat} {x : ι} {d : δ}
  {log es : List (Entry δ ι)} {ks ks' below : List (Task δ ι)}

theorem task_number (n : Nat) (op : Operation ι) : (op.task n : Task δ ι).number = n := by
  cases op <;> rfl

theorem task_operation (n : Nat) (op : Operation ι) : (op.task n : Task δ ι).operation = op := by
  cases op <;> rfl

theorem task_noted (n : Nat) (op : Operation ι) : (op.task n : Task δ ι).Noted [] := by
  cases op <;> rfl

/-- Of what threads do on workers, a generator knows nothing but what its own worker comes to. -/
theorem turn_base (staffed : s.shift.Staffed) (turn : Turn s t s') : s'.shift = s.shift ∨ s.shift.Turn t s'.shift := by
  cases turn with
  | shift _ acted | startAside _ acted | started _ acted | refused _ acted | enabled _ acted | terminated _ acted
  | start _ acted | stop _ acted => exact Or.inr (Shift.turn_of_act staffed acted)
  | _ => exact Or.inl rfl

theorem turn_tended (tended : s.shift.Tended) (turn : Turn s t s') : s'.shift.Tended := by
  rcases turn_base tended.staffed turn with same | moved
  · exact same ▸ tended
  · exact Shift.turn_tended tended moved

theorem turn_witnessed (tended : s.shift.Tended) (witnessed : s.shift.Witnessed) (turn : Turn s t s') :
    s'.shift.Witnessed := by
  rcases turn_base tended.staffed turn with same | moved
  · exact same ▸ witnessed
  · exact Shift.turn_witnessed tended witnessed moved

theorem turn_worker (turn : Turn s t s') : s'.gen.worker = s.gen.worker := by
  cases turn <;> rfl

theorem turn_log (turn : Turn s t s') : s.log <+: s'.log := by
  cases turn <;> exact List.prefix_append _ _

theorem turn_others (turn : Turn s t s') (other : u ≠ t) : s'.tasks u = s.tasks u := by
  cases turn <;> exact after_other other

theorem free_of_may {op : Operation ι} (may : s.mayBegin t op = true) : s.isFree t = true := by
  cases op with
  | enable | terminate => exact may
  | notify =>
    rw [mayBegin, Bool.and_eq_true] at may
    exact may.1

/-- A thread has nothing else to do while an operation has not yet called a dispatcher. -/
theorem not_free (tasks : s.tasks t = k :: below) (busy : k.dispatches = false) : s.isFree t = false := by
  rw [isFree, tasks]
  cases k with
  | dispatching => cases busy
  | enabling | starting | terminating | stopping | notifying => exact Bool.and_false _

/-! ### The dispatcher -/

section

variable {shift : Shift} {gen : Generator δ} {Q : Task δ ι → Prop} (all : ∀ u, ∀ k ∈ s.tasks u, Q k)
include all

/-- What holds of all operations in progress holds of them after a move if it holds of what is new. -/
theorem tasks_after (new : ∀ k ∈ ks, k ∈ s.tasks t ∨ Q k) : ∀ u, ∀ k ∈ (s.after t shift gen ks es).tasks u, Q k := by
  intro u k member
  by_cases mine : u = t
  · subst mine
    rw [after_self] at member
    exact (new k member).elim (all u k) id
  · rw [after_other mine] at member
    exact all u k member

theorem tasks_same : ∀ u, ∀ k ∈ (s.after t shift gen (s.tasks t) es).tasks u, Q k :=
  tasks_after all fun _ => Or.inl

theorem tasks_pushed (new : Q k) : ∀ u, ∀ k' ∈ (s.after t shift gen (k :: s.tasks t) es).tasks u, Q k' := by
  refine tasks_after all fun k' member => ?_
  rcases List.mem_cons.mp member with rfl | old
  · exact Or.inr new
  · exact Or.inl old

theorem tasks_popped (tasks : s.tasks t = k :: below) : ∀ u, ∀ k' ∈ (s.after t shift gen below es).tasks u, Q k' :=
  tasks_after all fun _ member => Or.inl (tasks ▸ List.mem_cons_of_mem _ member)

theorem tasks_moved (tasks : s.tasks t = k :: below) (new : Q k') :
    ∀ u, ∀ k ∈ (s.after t shift gen (k' :: below) es).tasks u, Q k := by
  refine tasks_after all fun k member => ?_
  rcases List.mem_cons.mp member with rfl | old
  · exact Or.inr new
  · exact Or.inl (tasks ▸ List.mem_cons_of_mem _ old)

end

/-- A dispatcher is there wherever one is counted on. -/
structure Bound (s : Mill δ ι) : Prop where
  target : s.gen.target = lastBound s.log
  flag : s.gen.enabled = true → s.gen.isBound = true
  tasks : ∀ t, ∀ k ∈ s.tasks t, k.counts = true → s.gen.isBound = true

theorem turn_bound (bound : s.Bound) (turn : Turn s t s') : s'.Bound := by
  have same : ∀ {es : List (Entry δ ι)}, lastBound es = none → s.gen.target = lastBound (s.log ++ es) := by
    intro es silent
    rw [bound.target, lastBound_append, silent, Option.none_or]
  have top : ∀ {k : Task δ ι} {below : List (Task δ ι)}, s.tasks t = k :: below → k.counts = true → s.gen.isBound = true :=
    fun tasks counts => bound.tasks t _ (tasks ▸ List.mem_cons_self) counts
  cases turn with
  | shift | startAside => exact ⟨same rfl, bound.flag, tasks_same bound.tasks⟩
  | started tasks | refused tasks | start tasks =>
    exact ⟨same rfl, bound.flag, tasks_moved bound.tasks tasks fun _ => top tasks rfl⟩
  | enabled tasks | terminated tasks | refuse tasks | lose tasks | reply tasks | drop tasks =>
    exact ⟨same rfl, bound.flag, tasks_popped bound.tasks tasks⟩
  | bind d => exact ⟨by simp [lastBound, Entry.bound?, Generator.bind], fun _ => rfl, fun _ _ _ _ => rfl⟩
  | disable => exact ⟨same rfl, nofun, tasks_same bound.tasks⟩
  | begin op =>
    refine ⟨same rfl, bound.flag, tasks_pushed bound.tasks fun counts => ?_⟩
    cases op <;> cases counts
  | find tasks there => exact ⟨same rfl, bound.flag, tasks_moved bound.tasks tasks fun _ => there⟩
  | raise tasks => exact ⟨same rfl, fun _ => top tasks rfl, tasks_moved bound.tasks tasks fun _ => top tasks rfl⟩
  | lower tasks => exact ⟨same rfl, nofun, tasks_popped bound.tasks tasks⟩
  | stop tasks => exact ⟨same rfl, nofun, tasks_moved bound.tasks tasks nofun⟩
  | look tasks =>
    refine ⟨same rfl, bound.flag, tasks_moved bound.tasks tasks fun counts => ?_⟩
    split at counts
    · rename_i up
      exact bound.flag up
    · cases counts
  | send tasks => exact ⟨same rfl, bound.flag, tasks_moved bound.tasks tasks nofun⟩

/-! ### Accounts -/

/-- Operations in progress are known by their first entries, inner ones have begun later, and what the log tells of each
operation is in order. -/
structure Booked (s : Mill δ ι) : Prop where
  entry : ∀ t, ∀ k ∈ s.tasks t, s.log[k.number]? = some (.begun t k.operation)
  order : ∀ t, (s.tasks t).Pairwise fun k below => below.number < k.number
  current : ∀ t, ∀ k ∈ s.tasks t, k.Noted (about s.log k.number)
  closed : ∀ n, (∀ t, ∀ k ∈ s.tasks t, k.number ≠ n) →
    (∃ t op, s.log[n]? = some (.begun t op) ∧ Closed n op (about s.log n)) ∨
      (∀ t op, s.log[n]? ≠ some (.begun t op)) ∧ about s.log n = []

/-- The operation on top waits for the call that its thread has in progress; those below have called a dispatcher. -/
structure Manned (s : Mill δ ι) : Prop where
  top : ∀ t k below, s.tasks t = k :: below → k.Holds s.gen.worker s.log (s.shift.threads t).errand
  inner : ∀ t k below, s.tasks t = k :: below → ∀ k' ∈ below, k'.dispatches = true

theorem number_lt (booked : s.Booked) (member : k ∈ s.tasks t) : k.number < s.log.length :=
  (List.getElem?_eq_some_iff.mp (booked.entry t k member)).1

/-- No two operations in progress have one number. -/
theorem number_ne (booked : s.Booked) (tasks : s.tasks t = k :: below) (member : k' ∈ s.tasks u)
    (other : u ≠ t ∨ k' ∈ below) : k'.number ≠ k.number := by
  intro same
  have mine := booked.entry t k (tasks ▸ List.mem_cons_self)
  have theirs := booked.entry u k' member
  rw [same, mine] at theirs
  obtain ⟨rfl, _⟩ := Entry.begun.inj (Option.some.inj theirs)
  rcases other with other | inner
  · exact other rfl
  · have order := booked.order t
    rw [tasks] at order
    have less := (List.pairwise_cons.mp order).1 k' inner
    rw [same] at less
    exact Nat.lt_irrefl _ less

/-- Nothing is told of what has not begun. -/
theorem about_fresh (booked : s.Booked) (beyond : s.log.length ≤ n) : about s.log n = [] := by
  have free : ∀ t, ∀ k ∈ s.tasks t, k.number ≠ n := fun t k member =>
    Nat.ne_of_lt (Nat.lt_of_lt_of_le (number_lt booked member) beyond)
  rcases booked.closed n free with ⟨t, op, entry, _⟩ | ⟨_, nothing⟩
  · rw [List.getElem?_eq_none beyond] at entry
    cases entry
  · exact nothing

theorem turn_page (tended : s.shift.Tended) (witnessed : s.shift.Witnessed) (bound : s.Bound) (booked : s.Booked)
    (manned : s.Manned) (turn : Turn s t s') : ∃ es, s'.log = s.log ++ es ∧ Page t s.log (s.tasks t) (s'.tasks t) es := by
  have current : ∀ {k : Task δ ι} {below : List (Task δ ι)}, s.tasks t = k :: below → k.Noted (about s.log k.number) :=
    fun tasks => booked.current t _ (tasks ▸ List.mem_cons_self)
  -- The operation on top goes on and has nothing to tell.
  have silent : ∀ {k k' : Task δ ι} {below : List (Task δ ι)}, k'.number = k.number → k'.operation = k.operation →
      k'.Noted (about s.log k.number) → Page t s.log (k :: below) (k' :: below) [] :=
    fun number operation noted => .move number operation nofun ((List.append_nil _).symm ▸ noted)
  cases turn with
  | shift | startAside | bind | disable =>
    refine ⟨_, rfl, ?_⟩
    rw [after_self]
    exact .keep (by simp [Entry.number?])
  | @started _ _ _ _ n below tasks acted log =>
    refine ⟨_, rfl, ?_⟩
    rw [after_self, tasks]
    obtain ⟨e, errand, _, starts, _⟩ := Shift.spawned_of_turn tended (Shift.turn_of_act tended.staffed acted) log
    obtain ⟨e', errand', _, _, untold⟩ := manned.top t _ _ tasks
    obtain rfl := Option.some.inj (errand.symm.trans errand')
    refine .move rfl rfl (by simp [Entry.number?, Task.number]) ?_
    rw [Task.number, untold starts]
    exact Or.inr ⟨_, rfl⟩
  | @refused _ _ _ _ _ _ _ n below tasks acted log =>
    refine ⟨_, rfl, ?_⟩
    rw [after_self, tasks]
    obtain ⟨e, _, _, _, _, errand, _, _, _, _, part⟩ :=
      Shift.returned_of_turn (Shift.turn_of_act tended.staffed acted) log
    obtain ⟨e', errand', order, _, untold⟩ := manned.top t _ _ tasks
    obtain rfl := Option.some.inj (errand.symm.trans errand')
    have covers := (witnessed.errands t e errand).covers
    rw [order] at covers
    generalize at_ : e.call = call at part covers
    cases part with
    | refuse => exact silent rfl rfl (untold at_)
    | rise resting => rcases resting with rfl | rfl <;> cases covers
  | enabled tasks =>
    refine ⟨_, rfl, ?_⟩
    rw [after_self, tasks]
    refine .pop (by simp [Entry.number?, Task.number]) ?_
    rcases current tasks with nothing | ⟨thread, told⟩
    · rw [nothing]
      exact .refused _
    · rw [told]
      exact .started thread
  | terminated tasks =>
    refine ⟨_, rfl, ?_⟩
    rw [after_self, tasks]
    refine .pop (by simp [Entry.number?, Task.number]) ?_
    rw [show about s.log _ = [] from current tasks]
    exact .terminated
  | refuse tasks | lower tasks =>
    refine ⟨_, rfl, ?_⟩
    rw [after_self, tasks]
    refine .pop (by simp [Entry.number?, Task.number]) ?_
    rw [show about s.log _ = [] from current tasks]
    exact .refused _
  | find tasks | raise tasks | stop tasks | look tasks =>
    refine ⟨_, rfl, ?_⟩
    rw [after_self, tasks]
    have noted := current tasks
    exact silent rfl rfl noted
  | start tasks =>
    refine ⟨_, rfl, ?_⟩
    rw [after_self, tasks]
    have noted := current tasks
    exact silent rfl rfl (Or.inl noted)
  | begin op =>
    refine ⟨_, rfl, ?_⟩
    rw [after_self]
    exact .push op
  | drop tasks =>
    refine ⟨_, rfl, ?_⟩
    rw [after_self, tasks]
    refine .pop (by simp [Entry.number?, Task.number]) ?_
    rw [show about s.log _ = [] from current tasks]
    exact .dropped _
  | send tasks =>
    refine ⟨_, rfl, ?_⟩
    rw [after_self, tasks]
    refine .move rfl rfl (by simp [Entry.number?, Task.number]) ?_
    rw [show about s.log _ = [] from current tasks]
    rfl
  | lose tasks unbound =>
    have there := bound.tasks t _ (tasks ▸ List.mem_cons_self) rfl
    simp [Generator.isBound, unbound] at there
  | reply tasks free r =>
    refine ⟨_, rfl, ?_⟩
    rw [after_self, tasks]
    refine .pop (by simp [Entry.number?, Task.number]) ?_
    rw [show about s.log _ = [_] from current tasks]
    exact .served _ _ r

/-- An operation in progress was in progress before, or is a new one. -/
theorem page_origin (page : Page t log ks ks' es) (member : k ∈ ks') :
    (∃ old ∈ ks, k.number = old.number ∧ k.operation = old.operation) ∨ ∃ op, k = op.task log.length ∧ es = [.begun t op] := by
  cases page with
  | keep => exact Or.inl ⟨k, member, rfl, rfl⟩
  | push op =>
    rcases List.mem_cons.mp member with rfl | member
    · exact Or.inr ⟨op, rfl, rfl⟩
    · exact Or.inl ⟨k, member, rfl, rfl⟩
  | move number operation =>
    rcases List.mem_cons.mp member with rfl | member
    · exact Or.inl ⟨_, List.mem_cons_self, number, operation⟩
    · exact Or.inl ⟨k, List.mem_cons_of_mem _ member, rfl, rfl⟩
  | pop => exact Or.inl ⟨k, List.mem_cons_of_mem _ member, rfl, rfl⟩

theorem page_begun {op : Operation ι} (page : Page t log ks ks' es) (member : .begun u op ∈ es) :
    ks' = op.task log.length :: ks ∧ es = [.begun t op] := by
  cases page with
  | keep aside => exact absurd rfl ((aside _ member).2 u op)
  | push op =>
    obtain ⟨_, rfl⟩ := Entry.begun.inj (List.mem_singleton.mp member)
    exact ⟨rfl, rfl⟩
  | move _ _ own | pop own => cases own _ member

/-- What a page tells is about the operation on top, if about any. -/
theorem page_about (page : Page t log ks ks' es) :
    (∀ m, about es m = []) ∨ ∃ k below, ks = k :: below ∧ ∀ m, m ≠ k.number → about es m = [] := by
  cases page with
  | keep aside => exact Or.inl (about_aside fun e member => (aside e member).1)
  | push op => exact Or.inl fun _ => rfl
  | move _ _ own | pop own => exact Or.inr ⟨_, _, rfl, fun m other => about_other own other⟩

theorem page_order (booked : s.Booked) (page : Page t s.log (s.tasks t) ks' es) :
    ks'.Pairwise fun k below => below.number < k.number := by
  have order := booked.order t
  generalize before : s.tasks t = ks at page order
  cases page with
  | keep => exact order
  | push op =>
    refine List.pairwise_cons.mpr ⟨fun k member => ?_, order⟩
    rw [task_number]
    exact number_lt booked (before ▸ member)
  | move number =>
    obtain ⟨first, rest⟩ := List.pairwise_cons.mp order
    exact List.pairwise_cons.mpr ⟨fun k member => number.symm ▸ first k member, rest⟩
  | pop => exact (List.pairwise_cons.mp order).2

/-- Of other operations in progress a page tells nothing. -/
theorem page_elsewhere (booked : s.Booked) (page : Page t s.log (s.tasks t) ks' es) (member : k ∈ s.tasks u)
    (other : u ≠ t ∨ ∀ top below, s.tasks t = top :: below → k ∈ below) : about es k.number = [] := by
  rcases page_about page with silent | ⟨top, below, tasks, silent⟩
  · exact silent _
  · exact silent _ (number_ne booked tasks member (other.imp_right fun inner => inner top below tasks))

theorem page_current (booked : s.Booked) (page : Page t s.log (s.tasks t) ks' es) (member : k ∈ ks') :
    k.Noted (about s.log k.number ++ about es k.number) := by
  -- What was in progress before and is not on top has its account.
  have inner : ∀ top below, s.tasks t = top :: below → k ∈ below → k.Noted (about s.log k.number ++ about es k.number) := by
    intro top below tasks inner
    have old : k ∈ s.tasks t := tasks ▸ List.mem_cons_of_mem _ inner
    rw [page_elsewhere booked page old (Or.inr fun _ _ same => (List.cons.inj (tasks.symm.trans same)).2 ▸ inner),
      List.append_nil]
    exact booked.current t k old
  have current := booked.current t
  have fresh := about_fresh booked (Nat.le_refl _)
  generalize s.tasks t = ks at page current inner
  cases page with
  | keep aside =>
    rw [about_aside fun e member => (aside e member).1, List.append_nil]
    exact current k member
  | push op =>
    rcases List.mem_cons.mp member with rfl | member
    · rw [task_number, fresh]
      exact task_noted _ op
    · exact (List.append_nil (about s.log k.number)).symm ▸ current k member
  | move number operation own noted =>
    rcases List.mem_cons.mp member with rfl | member
    · rw [number, about_own own]
      exact noted
    · exact inner _ _ rfl member
  | pop => exact inner _ _ rfl member

/-- An operation that a page ends is over. -/
theorem page_closed (page : Page t log ks ks' es) (there : k ∈ ks) (gone : ∀ k' ∈ ks', k'.number ≠ k.number) :
    Closed k.number k.operation (about log k.number ++ about es k.number) := by
  cases page with
  | keep => exact absurd rfl (gone k there)
  | push => exact absurd rfl (gone k (List.mem_cons_of_mem _ there))
  | move number =>
    rcases List.mem_cons.mp there with rfl | inner
    · exact absurd number (gone _ List.mem_cons_self)
    · exact absurd rfl (gone k (List.mem_cons_of_mem _ inner))
  | pop own closed =>
    rcases List.mem_cons.mp there with rfl | inner
    · rw [about_own own]
      exact closed
    · exact absurd rfl (gone k inner)

theorem page_booked (booked : s.Booked) (page : Page t s.log (s.tasks t) (s'.tasks t) es) (log : s'.log = s.log ++ es)
    (others : ∀ u, u ≠ t → s'.tasks u = s.tasks u) : s'.Booked where
  entry u k member := by
    have kept : ∀ {m : Nat} {e : Entry δ ι}, s.log[m]? = some e → s'.log[m]? = some e := by
      intro m e there
      rw [log, List.getElem?_append_left (List.getElem?_eq_some_iff.mp there).1, there]
    by_cases mine : u = t
    · subst mine
      rcases page_origin page member with ⟨old, member, number, operation⟩ | ⟨op, rfl, rfl⟩
      · rw [number, operation]
        exact kept (booked.entry u old member)
      · rw [task_number, task_operation, log]
        simp
    · rw [others u mine] at member
      exact kept (booked.entry u k member)
  order u := by
    by_cases mine : u = t
    · subst mine
      exact page_order booked page
    · rw [others u mine]
      exact booked.order u
  current u k member := by
    rw [log, about_append]
    by_cases mine : u = t
    · subst mine
      exact page_current booked page member
    · rw [others u mine] at member
      rw [page_elsewhere booked page member (Or.inl mine), List.append_nil]
      exact booked.current u k member
  closed m free := by
    have entry : ∀ u op, s'.log[m]? = some (.begun u op) ↔ s.log[m]? = some (.begun u op) := by
      intro u op
      rw [log]
      rcases Nat.lt_or_ge m s.log.length with before | beyond
      · rw [List.getElem?_append_left before]
      · rw [List.getElem?_append_right beyond, List.getElem?_eq_none beyond]
        refine iff_of_false (fun begun => ?_) nofun
        obtain ⟨tasks, rfl⟩ := page_begun page (List.mem_of_getElem? begun)
        obtain ⟨place, _⟩ := List.getElem?_eq_some_iff.mp begun
        have here : s.log.length = m := Nat.le_antisymm beyond (Nat.le_of_sub_eq_zero (Nat.lt_one_iff.mp place))
        exact free t _ (tasks ▸ List.mem_cons_self) ((task_number _ _).trans here)
    simp only [Ne, entry]
    rw [log, about_append]
    by_cases held : ∃ u, ∃ k ∈ s.tasks u, k.number = m
    · obtain ⟨u, k, member, rfl⟩ := held
      obtain rfl : u = t := by
        refine Decidable.byContradiction fun other => ?_
        rw [← others u other] at member
        exact free u k member rfl
      exact Or.inl ⟨u, k.operation, booked.entry u k member, page_closed page member (free u)⟩
    · have silent : about es m = [] := by
        rcases page_about page with silent | ⟨top, below, tasks, silent⟩
        · exact silent m
        · exact silent m fun same => held ⟨t, top, tasks ▸ List.mem_cons_self, same.symm⟩
      rw [silent, List.append_nil]
      exact booked.closed m fun u k member same => held ⟨u, k, member, same⟩

/-! ### Calls that operations wait for -/

theorem Task.Holds.later {w : WorkerId} {log' : List (Entry δ ι)} {errand : Option Shift.Errand} (holds : k.Holds w log errand)
    (same : about log' k.number = about log k.number) : k.Holds w log' errand := by
  cases k with
  | starting n =>
    obtain ⟨e, errand, order, worker, untold⟩ := holds
    exact ⟨e, errand, order, worker, fun starts => same.trans (untold starts)⟩
  | enabling | terminating | stopping | notifying | dispatching => exact holds

theorem holds_of_dispatches {w : WorkerId} {errand : Option Shift.Errand} (calls : k.dispatches = true) :
    k.Holds w log errand := by
  cases k with
  | dispatching => trivial
  | enabling | starting | terminating | stopping | notifying => cases calls

/-- Where handlers have the thread, a dispatcher has been called by every operation in progress. -/
theorem dispatches_of_open (manned : s.Manned) (opened : isOpen (s.tasks t) = true) :
    ∀ k ∈ s.tasks t, k.dispatches = true := by
  cases tasks : s.tasks t with
  | nil => exact nofun
  | cons top below =>
    intro k member
    rcases List.mem_cons.mp member with rfl | member
    · rw [tasks] at opened
      cases k with
      | dispatching => rfl
      | enabling | starting | terminating | stopping | notifying => cases opened
    · exact manned.inner t top below tasks k member

/-- A move on workers that does not end the call that is waited for. -/
theorem holds_shift {a : Shift.Action} {shift : Shift} (tended : s.shift.Tended) (acted : s.shift.act t a = some shift)
    (permitted : s.permits t a = true) (tasks : s.tasks t = k :: below)
    (holds : k.Holds s.gen.worker s.log (s.shift.threads t).errand)
    (unheard : ∀ n, k = .starting n ∨ k = .stopping n →
      ∀ m u o w r, shift.log ≠ s.shift.log ++ [.returned m u o w r]) :
    k.Holds s.gen.worker s.log (shift.threads t).errand := by
  by_cases calls : k.dispatches = true
  · exact holds_of_dispatches calls
  have other : ∀ o w, a ≠ .order o w := by
    rintro o w rfl
    rw [permits, tasks] at permitted
    cases k with
    | dispatching => exact calls rfl
    | enabling | starting | terminating | stopping | notifying => cases permitted
  have moved := Shift.errand_of_act tended acted other
  cases k with
  | dispatching => trivial
  | enabling | terminating | notifying =>
    rcases moved with same | ⟨e, errand, _⟩
    · exact same.trans holds
    · cases holds.symm.trans errand
  | starting n =>
    obtain ⟨e, errand, order, worker, untold⟩ := holds
    rcases moved with same | ⟨e', errand', carried⟩
    · exact ⟨e, same.trans errand, order, worker, untold⟩
    · obtain rfl := Option.some.inj (errand.symm.trans errand')
      cases carried with
      | goes _ part next => exact ⟨_, next, order, worker, fun starts => absurd starts (Worker.section_goes part)⟩
      | spawns _ _ next => exact ⟨_, next, order, worker, nofun⟩
      | returns _ back => exact absurd back (unheard n (Or.inl rfl) _ _ _ _ _)
  | stopping n =>
    obtain ⟨e, errand, order, worker⟩ := holds
    rcases moved with same | ⟨e', errand', carried⟩
    · exact ⟨e, same.trans errand, order, worker⟩
    · obtain rfl := Option.some.inj (errand.symm.trans errand')
      cases carried with
      | goes _ _ next | spawns _ _ next => exact ⟨_, next, order, worker⟩
      | returns _ back => exact absurd back (unheard n (Or.inr rfl) _ _ _ _ _)

/-- What the thread that moves has in progress after that. -/
theorem turn_top (tended : s.shift.Tended) (booked : s.Booked) (manned : s.Manned) (turn : Turn s t s') :
    (∀ k below, s'.tasks t = k :: below → k.Holds s.gen.worker s'.log (s'.shift.threads t).errand) ∧
      ∀ k below, s'.tasks t = k :: below → ∀ k' ∈ below, k'.dispatches = true := by
  -- An operation has ended, and those below have called a dispatcher.
  have popped : ∀ {k : Task δ ι} {below : List (Task δ ι)} {shift : Shift} {gen : Generator δ} {es : List (Entry δ ι)},
      s.tasks t = k :: below →
      (∀ k' below', (s.after t shift gen below es).tasks t = k' :: below' →
        k'.Holds s.gen.worker (s.log ++ es) (shift.threads t).errand) ∧
      ∀ k' below', (s.after t shift gen below es).tasks t = k' :: below' → ∀ k'' ∈ below', k''.dispatches = true := by
    intro k below shift gen es tasks
    have inner := manned.inner t k below tasks
    rw [after_self]
    constructor
    · rintro k' below' rfl
      exact holds_of_dispatches (inner k' List.mem_cons_self)
    · rintro k' below' rfl k'' member
      exact inner k'' (List.mem_cons_of_mem _ member)
  -- The operations below are the same.
  have moved : ∀ {k k' : Task δ ι} {below : List (Task δ ι)} {shift : Shift} {gen : Generator δ} {es : List (Entry δ ι)},
      s.tasks t = k :: below → k'.Holds s.gen.worker (s.log ++ es) (shift.threads t).errand →
      (∀ k'' below', (s.after t shift gen (k' :: below) es).tasks t = k'' :: below' →
        k''.Holds s.gen.worker (s.log ++ es) (shift.threads t).errand) ∧
      ∀ k'' below', (s.after t shift gen (k' :: below) es).tasks t = k'' :: below' → ∀ k ∈ below', k.dispatches = true := by
    intro k k' below shift gen es tasks holds
    rw [after_self]
    constructor
    · rintro k'' below' ⟨⟩
      exact holds
    · rintro k'' below' ⟨⟩
      exact manned.inner t k below tasks
  have kept : ∀ {shift : Shift} {gen : Generator δ} {es : List (Entry δ ι)}, (∀ e ∈ es, e.number? = none) →
      (∀ k below, s.tasks t = k :: below → k.Holds s.gen.worker s.log (shift.threads t).errand) →
      (∀ k below, (s.after t shift gen (s.tasks t) es).tasks t = k :: below →
        k.Holds s.gen.worker (s.log ++ es) (shift.threads t).errand) ∧
      ∀ k below, (s.after t shift gen (s.tasks t) es).tasks t = k :: below → ∀ k' ∈ below, k'.dispatches = true := by
    intro shift gen es aside holds
    rw [after_self]
    refine ⟨fun k below tasks => (holds k below tasks).later ?_, manned.inner t⟩
    rw [about_append, about_aside aside, List.append_nil]
  have top := manned.top t
  cases turn with
  | shift permitted acted log silent unheard =>
    refine kept nofun fun k below tasks => holds_shift tended acted permitted tasks (top k below tasks) ?_
    intro n waits m u o w r back
    refine unheard n below ?_ m u o w r (List.append_cancel_left (log.symm.trans back))
    rcases waits with rfl | rfl
    · exact Or.inl tasks
    · exact Or.inr tasks
  | startAside permitted acted log aside =>
    refine kept (by simp [Entry.number?]) fun k below tasks =>
      holds_shift tended acted permitted tasks (top k below tasks) fun n _ m u o w r back => ?_
    cases List.append_cancel_left (log.symm.trans back)
  | started tasks acted log =>
    obtain ⟨e, errand, _, starts, next⟩ := Shift.spawned_of_turn tended (Shift.turn_of_act tended.staffed acted) log
    obtain ⟨e', errand', order, worker, _⟩ := top _ _ tasks
    obtain rfl := Option.some.inj (errand.symm.trans errand')
    exact moved tasks ⟨_, next, order, worker, nofun⟩
  | refused tasks acted log =>
    obtain ⟨_, _, _, _, _, _, back, _⟩ := Shift.returned_of_turn (Shift.turn_of_act tended.staffed acted) log
    exact moved tasks back
  | enabled tasks | terminated tasks | refuse tasks | lower tasks | drop tasks | lose tasks | reply tasks =>
    exact popped tasks
  | bind => exact kept (by simp [Entry.number?]) top
  | disable => exact kept nofun top
  | begin op may =>
    have free := free_of_may may
    simp only [isFree, Shift.Hand.isFree, Bool.and_eq_true, Option.isNone_iff_eq_none] at free
    rw [after_self]
    constructor
    · rintro k below ⟨⟩
      cases op <;> exact free.1.2
    · rintro k below ⟨⟩
      exact dispatches_of_open manned free.2
  | find tasks | raise tasks | look tasks =>
    have idle := top _ _ tasks
    exact moved tasks idle
  | @start n below shift tasks acted =>
    have errand := Shift.errand_of_order acted
    have untold := booked.current t _ (tasks ▸ List.mem_cons_self)
    exact moved tasks ⟨_, errand, rfl, rfl, fun _ => (List.append_nil s.log).symm ▸ untold⟩
  | stop tasks acted => exact moved tasks ⟨_, Shift.errand_of_order acted, rfl, rfl⟩
  | send tasks => exact moved tasks trivial

theorem turn_manned (tended : s.shift.Tended) (booked : s.Booked) (manned : s.Manned) (turn : Turn s t s')
    (page : Page t s.log (s.tasks t) (s'.tasks t) es) (log : s'.log = s.log ++ es) : s'.Manned := by
  obtain ⟨top, inner⟩ := turn_top tended booked manned turn
  constructor
  · intro u k below tasks
    rw [turn_worker turn]
    by_cases mine : u = t
    · subst mine
      exact top k below tasks
    · rw [turn_others turn mine] at tasks
      have errand : (s'.shift.threads u).errand = (s.shift.threads u).errand := by
        rcases turn_base tended.staffed turn with same | moved
        · rw [same]
        · exact Shift.errand_of_other tended moved mine
      rw [errand]
      refine (manned.top u k below tasks).later ?_
      rw [log, about_append, page_elsewhere booked page (tasks ▸ List.mem_cons_self) (Or.inl mine), List.append_nil]
  · intro u k below tasks
    by_cases mine : u = t
    · subst mine
      exact inner k below tasks
    · exact manned.inner u k below (turn_others turn mine ▸ tasks)

end Mill

end Switchboard
