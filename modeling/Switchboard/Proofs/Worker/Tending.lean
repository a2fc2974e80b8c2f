import Switchboard.Proofs.Worker.Course

/-!
Every worker follows its course, whatever threads do. A move takes one worker further along its course or tells nothing
of it, and all others stay where they are (`turn_tended`).
-/

namespace Switchboard.Shift

/-! ### What holds of every worker -/

/-- The thread is between starting the worker and making that known. -/
def Hand.Publishes (h : Hand) (w : WorkerId) : Prop :=
  ∃ e thread, h.errand = some e ∧ e.worker = w ∧ e.call = .publishing thread

def posts (s : Shift) (w : WorkerId) (t : ThreadId) (r : Worker.Run) : Prop := (s.threads t).station = .on w r

structure Sound (s : Shift) (w : WorkerId) (x : Worker) : Prop where
  course : Course (core x) (s.posts w) (launches s.log w) (invocations s.log w) (endings s.log w)
  starter : ∀ t, x.starter = some t ↔ (s.threads t).Publishes w

/-- Nothing is known of a worker that is not there yet. -/
structure Blank (s : Shift) (w : WorkerId) : Prop where
  nobody : ∀ t r, ¬ s.posts w t r
  launches : launches s.log w = []
  invocations : invocations s.log w = []
  endings : endings s.log w = []

structure Tended (s : Shift) : Prop where
  staffed : s.Staffed
  unborn : ∀ t, s.born ≤ t → s.threads t = {}
  blank : ∀ w, s.force.worker? w = none → s.Blank w
  sound : ∀ w x, s.force.worker? w = some x → s.Sound w x

section

variable (log more : List Entry) (w : WorkerId)

theorem launches_append : launches (log ++ more) w = launches log w ++ launches more w := List.filterMap_append

theorem invocations_append : invocations (log ++ more) w = invocations log w ++ invocations more w :=
  List.filterMap_append

theorem endings_append : endings (log ++ more) w = endings log w ++ endings more w := List.filterMap_append

end

/-! ### Where nothing happens -/

/-- The entry does not tell how far the worker has come. -/
structure Entry.Silent (e : Entry) (w : WorkerId) : Prop where
  launch : e.launch? w = none
  invocation : e.invocation? w = none
  ending : e.ending? w = none

/-- Nothing has happened that tells how far the worker has come. -/
structure Quiet (s s' : Shift) (w : WorkerId) : Prop where
  posts : s'.posts w = s.posts w
  publishes : ∀ t, (s'.threads t).Publishes w ↔ (s.threads t).Publishes w
  log : ∃ es, s'.log = s.log ++ es ∧ ∀ e ∈ es, e.Silent w

variable {s s' : Shift} {t : ThreadId} {w v : WorkerId} {f : Workforce} {h : Hand} {es : List Entry} {station : Station}
  {x x' : Worker} {e : Errand}

theorem readings_silent (log : List Entry) (silent : ∀ e ∈ es, e.Silent w) :
    launches (log ++ es) w = launches log w ∧ invocations (log ++ es) w = invocations log w ∧
      endings (log ++ es) w = endings log w := by
  have launched : launches es w = [] := List.filterMap_eq_nil_iff.mpr fun e member => (silent e member).launch
  have begun : invocations es w = [] := List.filterMap_eq_nil_iff.mpr fun e member => (silent e member).invocation
  have ended : endings es w = [] := List.filterMap_eq_nil_iff.mpr fun e member => (silent e member).ending
  rw [launches_append, invocations_append, endings_append, launched, begun, ended]
  simp only [List.append_nil, and_self]

theorem Quiet.readings (quiet : Quiet s s' w) : launches s'.log w = launches s.log w ∧
    invocations s'.log w = invocations s.log w ∧ endings s'.log w = endings s.log w := by
  obtain ⟨es, log, silent⟩ := quiet.log
  rw [log]
  exact readings_silent s.log silent

theorem Sound.quiet (sound : s.Sound w x) (quiet : Quiet s s' w) (same : core x' = core x) : s'.Sound w x' where
  course := by
    obtain ⟨launched, begun, ended⟩ := quiet.readings
    rw [same, quiet.posts, launched, begun, ended]
    exact sound.course
  starter t := by
    have starter : x'.starter = x.starter := congrArg Core.starter same
    rw [starter, quiet.publishes, sound.starter]

theorem Blank.quiet (blank : s.Blank w) (quiet : Quiet s s' w) : s'.Blank w := by
  obtain ⟨launched, begun, ended⟩ := quiet.readings
  exact ⟨quiet.posts ▸ blank.nobody, launched ▸ blank.launches, begun ▸ blank.invocations, ended ▸ blank.endings⟩

theorem quiet_force (f : Workforce) : Quiet s { s with force := f } w :=
  ⟨rfl, fun _ => Iff.rfl, [], (List.append_nil _).symm, nofun⟩

theorem quiet_lost (lost : List RosterId) : Quiet s { s with lost } w :=
  ⟨rfl, fun _ => Iff.rfl, [], (List.append_nil _).symm, nofun⟩

theorem quiet_after (stands : ∀ r, h.station = .on w r ↔ (s.threads t).station = .on w r)
    (publishes : h.Publishes w ↔ (s.threads t).Publishes w) (silent : ∀ e ∈ es, e.Silent w) :
    Quiet s (s.after t f h es) w where
  posts := by
    funext u r
    by_cases mine : u = t
    · rw [mine, posts, posts, after_self, stands]
    · rw [posts, posts, after_other mine]
  publishes u := by
    by_cases mine : u = t
    · rw [mine, after_self, publishes]
    · rw [after_other mine]
  log := ⟨es, rfl, silent⟩

theorem quiet_enter (unborn : s.threads s.born = {}) (elsewhere : ∀ r, station ≠ .on w r) : Quiet s (s.enter station) w where
  posts := by
    funext u r
    by_cases new : u = s.born
    · rw [new, posts, posts, enter_new, unborn]
      simp [elsewhere r]
    · rw [posts, posts, enter_other new]
  publishes u := by
    by_cases new : u = s.born
    · rw [new, enter_new, unborn]
      simp [Hand.Publishes]
    · rw [enter_other new]
  log := ⟨[], (List.append_nil _).symm, nofun⟩

theorem Quiet.trans {s'' : Shift} (first : Quiet s s' w) (second : Quiet s' s'' w) : Quiet s s'' w where
  posts := second.posts.trans first.posts
  publishes t := (second.publishes t).trans (first.publishes t)
  log := by
    obtain ⟨es, log, silent⟩ := first.log
    obtain ⟨more, log', silent'⟩ := second.log
    refine ⟨es ++ more, by rw [log', log, List.append_assoc], fun e member => ?_⟩
    rcases List.mem_append.mp member with member | member
    · exact silent e member
    · exact silent' e member

theorem publishes_of_errand (errand : h.errand = some e) :
    h.Publishes w ↔ e.worker = w ∧ ∃ thread, e.call = .publishing thread := by
  simp [Hand.Publishes, errand]

theorem not_publishes (idle : h.errand = none) : ¬ h.Publishes w := by
  simp [Hand.Publishes, idle]

/-- A section of a call matters only to the worker that is called. -/
theorem quiet_errand (errand : (s.threads t).errand = some e) (other : e.worker ≠ w) {errand' : Option Errand}
    (follows : ∀ e', errand' = some e' → e'.worker = e.worker) (silent : ∀ e ∈ es, e.Silent w) :
    Quiet s (s.after t f { (s.threads t) with errand := errand' } es) w := by
  refine quiet_after (fun _ => Iff.rfl) ?_ silent
  rw [publishes_of_errand errand]
  refine iff_of_false ?_ (fun here => other here.1)
  rintro ⟨e', _, found, here, _⟩
  exact other ((follows e' found).symm.trans here)

theorem remembered_silent (e : Errand) (f : Workforce) (w : WorkerId) : ∀ entry ∈ e.remembered f, entry.Silent w := by
  intro entry member
  unfold Errand.remembered at member
  split at member
  · cases List.mem_singleton.mp member
    exact ⟨rfl, rfl, rfl⟩
  · cases member

theorem quiet_order {o : Order} (free : (s.threads t).isFree = true) : Quiet s (s.begin t o v) w := by
  have idle : (s.threads t).errand = none := by
    simp only [Hand.isFree, Bool.and_eq_true, Option.isNone_iff_eq_none] at free
    exact free.2
  refine quiet_after (fun _ => Iff.rfl) (iff_of_false ?_ (not_publishes idle)) ?_
  · rw [publishes_of_errand rfl]
    rintro ⟨_, _, publishing⟩
    cases o <;> cases publishing
  · exact List.forall_mem_singleton.mpr ⟨rfl, rfl, rfl⟩

/-- A section of a worker's own thread matters only to that worker. -/
theorem quiet_own {r : Worker.Run} (hand : s.threads t = ⟨.on v r, none⟩) (other : v ≠ w)
    (elsewhere : ∀ r, station ≠ .on w r) (silent : ∀ e ∈ es, e.Silent w) :
    Quiet s (s.after t f { station } es) w := by
  refine quiet_after (fun r' => ?_) ?_ silent
  · rw [hand]
    exact iff_of_false (elsewhere r') fun here => other (Station.on.inj here).1
  · rw [hand]
    exact iff_of_false (not_publishes rfl) (not_publishes rfl)

/-- A thread on which a worker is started matters only to that worker. -/
theorem quiet_spawn (tended : s.Tended) (errand : (s.threads t).errand = some e) (other : e.worker ≠ w) {c : Worker.Call}
    {thread : ThreadId} : Quiet s ((s.after t f { (s.threads t) with errand := some { e with call := c } }
      [.spawned e.number e.worker thread]).enter (.on e.worker .beginning)) w := by
  have unborn := tended.unborn s.born (Nat.le_refl _)
  have old : s.born ≠ t := by
    rintro rfl
    rw [unborn] at errand
    cases errand
  refine Quiet.trans (quiet_errand errand other ?_ ?_) (quiet_enter ?_ ?_)
  · rintro e' ⟨⟩
    rfl
  · exact List.forall_mem_singleton.mpr ⟨by simp [Entry.launch?, other], rfl, rfl⟩
  · rw [after_born, after_other old, unborn]
  · exact fun r stands => other (Station.on.inj stands).1

/-- What is done in one go changes no worker but in its sleepers and its signal, and makes new ones idle. -/
theorem worker_of_chore {f : Workforce} {c : Chore} (there : (c.perform f).worker? w = some x') :
    (∃ x, f.worker? w = some x ∧ core x' = core x ∧ x'.stop = x.stop) ∨
      f.worker? w = none ∧ core x' = ⟨.idle, none, true, none, false⟩ := by
  cases c with
  | hire name o =>
    rw [Chore.perform, Workforce.worker?_hire] at there
    split at there
    · rename_i new
      refine Or.inr ⟨?_, ?_⟩
      · simp [Workforce.worker?, Workforce.member?, new]
      · cases there
        rfl
    · exact Or.inl ⟨x', there, rfl, rfl⟩
  | signal v =>
    rw [Chore.perform, Workforce.worker?_update] at there
    split at there
    · obtain ⟨x, found, rfl⟩ := Option.map_eq_some_iff.mp there
      exact Or.inl ⟨x, found, rfl, rfl⟩
    · exact Or.inl ⟨x', there, rfl, rfl⟩
  | addRoster | derive | cancel | withdraw => exact Or.inl ⟨x', there, rfl, rfl⟩
  | announce r v thread =>
    rw [Chore.perform, Workforce.worker?_announce] at there
    exact Or.inl ⟨x', there, rfl, rfl⟩

theorem chore_keeps {f : Workforce} (c : Chore) (there : (f.worker? w).isSome) : ((c.perform f).worker? w).isSome := by
  cases c with
  | hire name o =>
    rw [Chore.perform, Workforce.worker?_hire]
    split
    · rfl
    · exact there
  | signal v =>
    rw [Chore.perform, Workforce.worker?_update]
    split
    · simpa using there
    · exact there
  | addRoster | derive | cancel | withdraw => exact there
  | announce r v thread =>
    rw [Chore.perform, Workforce.worker?_announce]
    exact there

/-! ### What a move does to one worker -/

theorem sound_hired (tended : s.Tended) (none : s.force.worker? w = none) {s' : Shift} (quiet : Quiet s s' w)
    (same : ∀ t, (s'.threads t).errand = (s.threads t).errand)
    (fresh : core x' = ⟨.idle, Option.none, true, Option.none, false⟩) : s'.Sound w x' := by
  have blank := (tended.blank w none).quiet quiet
  constructor
  · rw [blank.launches, blank.invocations, blank.endings, fresh]
    exact .idle rfl rfl rfl rfl rfl blank.nobody
  · intro t
    have unheld : x'.starter = Option.none := congrArg Core.starter fresh
    rw [unheld]
    refine iff_of_false nofun ?_
    rintro ⟨e, _, errand, rfl, _⟩
    have there := tended.staffed t e ((same t).symm.trans errand)
    rw [none] at there
    cases there

/-- Nobody else starts the worker meanwhile. -/
theorem publishes_alone (sound : s.Sound w x) (mine : (s.threads t).Publishes w) {u : ThreadId} (other : u ≠ t) :
    ¬ (s.threads u).Publishes w := by
  intro theirs
  have first := (sound.starter t).mpr mine
  rw [(sound.starter u).mpr theirs] at first
  exact other (Option.some.inj first)

theorem posts_others (f : Workforce) (h : Hand) (es : List Entry) (u : ThreadId) (r : Worker.Run) (other : u ≠ t) :
    (s.after t f h es).posts w u r ↔ s.posts w u r := by
  rw [posts, posts, after_other other]

theorem sound_launch (tended : s.Tended) (sound : s.Sound e.worker x) (errand : (s.threads t).errand = some e)
    (unheld : x.starter = none) (idle : x.lifecycle = .idle) :
    Shift.Sound ((s.after t f { (s.threads t) with errand := some { e with call := .publishing s.born } }
      [.spawned e.number e.worker s.born]).enter (.on e.worker .beginning)) e.worker { x with starter := some t } := by
  have unborn := tended.unborn s.born (Nat.le_refl _)
  have old : t ≠ s.born := by
    rintro rfl
    rw [unborn] at errand
    cases errand
  have nobody : ∀ u, ¬ (s.threads u).Publishes e.worker := by
    intro u publishes
    rw [(sound.starter u).mpr publishes] at unheld
    cases unheld
  generalize told : { (s.threads t) with errand := some { e with call := .publishing s.born } } = h
  have station : h.station = (s.threads t).station := by rw [← told]
  have publishes : h.Publishes e.worker := by
    rw [← told]
    exact ⟨_, _, rfl, rfl, rfl⟩
  generalize next : s.after t f h [.spawned e.number e.worker s.born] = s'
  have mine : s'.threads t = h := by rw [← next, after_self]
  have others : ∀ u, u ≠ t → s'.threads u = s.threads u := fun u other => by rw [← next, after_other other]
  have newcomer : (s'.enter (.on e.worker .beginning)).threads s.born = { station := .on e.worker .beginning } := by
    rw [← next]
    exact enter_new
  have rest : ∀ u, u ≠ s.born → (s'.enter (.on e.worker .beginning)).threads u = s'.threads u := by
    intro u other
    rw [enter_other (by rw [← next]; exact other)]
  constructor
  · have enters : ∀ u r, (s'.enter (.on e.worker .beginning)).posts e.worker u r ↔
        s.posts e.worker u r ∨ u = s.born ∧ r = .beginning := by
      intro u r
      by_cases new : u = s.born
      · simp [posts, new, newcomer, unborn, eq_comm]
      · rw [posts, posts, rest u new]
        by_cases same : u = t
        · simp [same, mine, station, old]
        · simp [others u same, new]
    have moved := sound.course.launch (t := t) unheld idle enters
    have log : (s'.enter (.on e.worker .beginning)).log = s.log ++ [.spawned e.number e.worker s.born] := by
      rw [← next]
      rfl
    have launched : launches [.spawned e.number e.worker s.born] e.worker = [s.born] := by
      simp [launches, Entry.launch?]
    have begun : invocations [.spawned e.number e.worker s.born] e.worker = [] := rfl
    have ended : endings [.spawned e.number e.worker s.born] e.worker = [] := rfl
    rw [log, launches_append, invocations_append, endings_append, launched, begun, ended, List.append_nil, List.append_nil]
    exact moved
  · intro u
    by_cases same : u = t
    · subst same
      simp [rest u old, mine, publishes]
    · refine iff_of_false (fun held => same (Option.some.inj held).symm) ?_
      by_cases new : u = s.born
      · rw [new, newcomer]
        exact not_publishes rfl
      · rw [rest u new, others u same]
        exact nobody u

/-- What the one who started a worker makes known. -/
theorem sound_publish (sound : s.Sound e.worker x) (errand : (s.threads t).errand = some e) {thread : ThreadId}
    (at_ : e.call = .publishing thread) (silent : ∀ entry ∈ es, entry.Silent e.worker) :
    (s.after t f { (s.threads t) with errand := some { e with call := .announcing thread } } es).Sound e.worker x.publish := by
  have publishes : (s.threads t).Publishes e.worker := ⟨e, thread, errand, rfl, at_⟩
  have starter := (sound.starter t).mpr publishes
  generalize next : s.after t f { (s.threads t) with errand := some { e with call := .announcing thread } } es = s'
  have silenced : ∀ u, ¬ (s'.threads u).Publishes e.worker := by
    intro u
    rw [← next]
    by_cases same : u = t
    · subst same
      rw [after_self, publishes_of_errand rfl]
      rintro ⟨_, _, other⟩
      cases other
    · rw [after_other same]
      exact publishes_alone sound publishes same
  constructor
  · have moved := sound.course.publish (by simp [core, starter])
    have posts : s'.posts e.worker = s.posts e.worker := by
      rw [← next]
      funext u r
      by_cases same : u = t
      · subst same
        simp only [Shift.posts, after_self]
      · rw [Shift.posts, Shift.posts, after_other same]
    have log : s'.log = s.log ++ es := by rw [← next, after_log]
    obtain ⟨launched, begun, ended⟩ := readings_silent s.log silent
    rw [posts, log, launched, begun, ended]
    exact moved
  · intro u
    exact iff_of_false nofun (silenced u)

/-- A section of the worker's own thread. -/
theorem sound_own {r : Worker.Run} {begun : List ThreadId} {ended : List Bool} (sound : s.Sound w x)
    (hand : s.threads t = ⟨.on w r, none⟩) (held : x'.starter = x.starter) (launched : launches es w = [])
    (begins : invocations es w = begun) (ends : endings es w = ended)
    (moved : Course (core x') ((s.after t f { station } es).posts w) (launches s.log w) (invocations s.log w ++ begun)
      (endings s.log w ++ ended)) :
    (s.after t f { station } es).Sound w x' where
  course := by
    rw [after_log, launches_append, invocations_append, endings_append, launched, begins, ends, List.append_nil]
    exact moved
  starter u := by
    rw [held, sound.starter]
    by_cases same : u = t
    · rw [same, after_self, hand]
      exact iff_of_false (not_publishes rfl) (not_publishes rfl)
    · rw [after_other same]

theorem sound_own_silent {r : Worker.Run} (sound : s.Sound w x) (hand : s.threads t = ⟨.on w r, none⟩)
    (held : x'.starter = x.starter)
    (moved : Course (core x') ((s.after t f { station } []).posts w) (launches s.log w) (invocations s.log w)
      (endings s.log w)) : (s.after t f { station } []).Sound w x' := by
  have begins : invocations [] w = [] := rfl
  have ends : endings [] w = [] := rfl
  refine sound_own sound hand held rfl begins ends ?_
  rw [List.append_nil, List.append_nil]
  exact moved

theorem stands_of_hand {r : Worker.Run} {errand : Option Errand} (hand : s.threads t = ⟨.on w r, errand⟩) : s.posts w t r := by
  rw [posts, hand]

theorem posts_moved (f : Workforce) (es : List Entry) (r k : Worker.Run) :
    (s.after t f { station := .on w r } es).posts w t k ↔ k = r := by
  rw [posts, after_self]
  simp [eq_comm]

/-- A section of a call that neither starts the worker nor makes it known. -/
theorem sound_errand (sound : s.Sound w x) (errand : (s.threads t).errand = some e) (same : core x' = core x)
    (apart : ∀ thread, e.call ≠ .publishing thread) {errand' : Option Errand}
    (follows : ∀ e' thread, errand' = some e' → e'.call ≠ .publishing thread) (silent : ∀ entry ∈ es, entry.Silent w) :
    (s.after t f { (s.threads t) with errand := errand' } es).Sound w x' := by
  refine sound.quiet (quiet_after (fun _ => Iff.rfl) ?_ silent) same
  refine iff_of_false ?_ ?_
  · rintro ⟨e', thread, found, _, there⟩
    exact follows e' thread found there
  · rw [publishes_of_errand errand]
    rintro ⟨_, thread, there⟩
    exact apart thread there

theorem sound_goes {grant : Except String ThreadId} {ts ts' : StopTokens} {c : Worker.Call} (sound : s.Sound e.worker x)
    (errand : (s.threads t).errand = some e) (silent : ∀ entry ∈ es, entry.Silent e.worker)
    (part : Worker.Section t grant ts x e.call (.goes c) ts' x') :
    (s.after t f { (s.threads t) with errand := some { e with call := c } } es).Sound e.worker x' := by
  generalize at_ : e.call = call at part
  cases part with
  | publish => exact sound_publish sound errand at_ silent
  | doze resting =>
    refine sound_errand sound errand ?_ ?_ ?_ silent
    · rfl
    · rcases resting with rfl | rfl <;> simp [at_]
    · rintro e' thread ⟨⟩ ⟨⟩
  | announce | cancel | wake | other | pass | collect =>
    refine sound_errand sound errand ?_ ?_ ?_ silent
    · rfl
    · simp [at_]
    · rintro e' thread ⟨⟩ ⟨⟩

theorem sound_ends {grant : Except String ThreadId} {ts ts' : StopTokens} {r : Worker.Result} (sound : s.Sound e.worker x)
    (errand : (s.threads t).errand = some e) (silent : ∀ entry ∈ es, entry.Silent e.worker)
    (part : Worker.Section t grant ts x e.call (.ends r) ts' x') :
    (s.after t f { (s.threads t) with errand := none } es).Sound e.worker x' := by
  generalize at_ : e.call = call at part
  cases part with
  | rise resting =>
    refine sound_errand sound errand ?_ ?_ nofun silent
    · rfl
    · rcases resting with rfl | rfl <;> simp [at_]
  | refuse | decline | keep | own | miss | join =>
    refine sound_errand sound errand ?_ ?_ nofun silent
    · rfl
    · simp [at_]

/-- A section of a call is about the worker that is called, and leaves all others where they are. -/
theorem sound_called (tended : s.Tended) (errand : (s.threads t).errand = some e) (there : s.force.worker? e.worker = some x)
    {errand' : Option Errand} (follows : ∀ e', errand' = some e' → e'.worker = e.worker)
    (silent : ∀ v, ∀ entry ∈ es, entry.Silent v) {ts : StopTokens} {y : Worker}
    (called : (s.after t (s.stored e ts y) { (s.threads t) with errand := errand' } es).Sound e.worker y)
    (there' : (s.stored e ts y).worker? w = some x') :
    (s.after t (s.stored e ts y) { (s.threads t) with errand := errand' } es).Sound w x' := by
  rw [worker?_stored (Option.isSome_iff_exists.mpr ⟨x, there⟩)] at there'
  by_cases here : e.worker = w
  · subst here
    rw [if_pos rfl] at there'
    exact Option.some.inj there' ▸ called
  · rw [if_neg here] at there'
    exact (tended.sound w x' there').quiet (quiet_errand errand here follows (silent w)) rfl

/-- A section of a worker's own thread is about this worker, and leaves all others where they are. -/
theorem sound_owned {r : Worker.Run} {y : Worker} (tended : s.Tended) (hand : s.threads t = ⟨.on v r, none⟩)
    (put : f.worker? w = if v = w then some y else s.force.worker? w) (elsewhere : ∀ r, station = .on w r → v = w)
    (silent : v ≠ w → ∀ entry ∈ es, entry.Silent w) (owned : (s.after t f { station } es).Sound v y)
    (there' : f.worker? w = some x') : (s.after t f { station } es).Sound w x' := by
  rw [put] at there'
  by_cases here : v = w
  · subst here
    rw [if_pos rfl] at there'
    exact Option.some.inj there' ▸ owned
  · rw [if_neg here] at there'
    exact (tended.sound w x' there').quiet
      (quiet_own hand here (fun r stands => here (elsewhere r stands)) (silent here)) rfl

theorem worker_of_posts {r : Worker.Run} (tended : s.Tended) (stands : s.posts w t r) : ∃ x, s.force.worker? w = some x := by
  cases there : s.force.worker? w with
  | some x => exact ⟨x, rfl⟩
  | none => exact absurd stands ((tended.blank w there).nobody t r)

theorem turn_sound (tended : s.Tended) (turn : Turn s t s') (there' : s'.force.worker? w = some x') : s'.Sound w x' := by
  cases turn with
  | arrive new =>
    have quiet : Quiet s (s.enter .outside) w := quiet_enter (tended.unborn _ (Nat.le_refl _)) nofun
    exact (tended.sound w x' there').quiet quiet rfl
  | chore c free =>
    rcases worker_of_chore there' with ⟨x, there, same, _⟩ | ⟨none, fresh⟩
    · exact (tended.sound w x there).quiet (quiet_force _) same
    · exact sound_hired tended none (quiet_force _) (fun _ => rfl) fresh
  | release unused =>
    rw [Workforce.worker?_release] at there'
    exact (tended.sound w x' there').quiet (quiet_force _) rfl
  | lose r => exact (tended.sound w x' there').quiet (quiet_lost _) rfl
  | order free => exact (tended.sound w x' there').quiet (quiet_order free) rfl
  | @goOn e x c ts y refusal errand there part =>
    have silent := remembered_silent e s.force
    have called := sound_goes (f := s.stored e ts y) (tended.sound _ x there) errand (silent _) part
    exact sound_called tended errand there (by rintro e' ⟨⟩; rfl) silent called there'
  | @spawn e x c ts y refusal thread errand there part =>
    rw [enter_force, after_force, worker?_stored (Option.isSome_iff_exists.mpr ⟨x, there⟩)] at there'
    by_cases here : e.worker = w
    · subst here
      rw [if_pos rfl] at there'
      obtain rfl := Option.some.inj there'
      generalize e.call = call at part
      cases part with
      | launch unheld idle granted =>
        cases refusal with
        | some reason => cases granted
        | none =>
          obtain rfl := Except.ok.inj granted
          exact sound_launch tended (tended.sound _ x there) errand unheld idle
    · rw [if_neg here] at there'
      exact (tended.sound w x' there').quiet (quiet_spawn tended errand here) rfl
  | @comeBack e x r ts y refusal errand there part =>
    have silent : ∀ v, ∀ entry ∈ [Entry.returned e.number t e.order e.worker r], entry.Silent v := fun _ =>
      List.forall_mem_singleton.mpr ⟨rfl, rfl, rfl⟩
    have called := sound_ends (f := s.stored e ts y) (tended.sound _ x there) errand (silent _) part
    exact sound_called tended errand there (by rintro _ ⟨⟩) silent called there'
  | @begin v x hand there =>
    have put := Workforce.worker?_put (x := x.begin t) (Option.isSome_iff_exists.mpr ⟨x, there⟩) w
    refine sound_owned tended hand put (fun r stands => (Station.on.inj stands).1) (fun _ => nofun) ?_ there'
    have sound := tended.sound v x there
    refine sound_own_silent sound hand rfl ?_
    exact sound.course.begin (stands_of_hand hand) (posts_moved _ _ _) (posts_others _ _ _)
  | @take v x hand there body =>
    have put := Workforce.worker?_put (x := { x with hasBody := false }) (Option.isSome_iff_exists.mpr ⟨x, there⟩) w
    refine sound_owned tended hand put (fun r stands => (Station.on.inj stands).1) ?_ ?_ there'
    · exact fun other => List.forall_mem_singleton.mpr ⟨rfl, by simp [Entry.invocation?, other], rfl⟩
    · have sound := tended.sound v x there
      have begins : invocations [.invoked v t] v = [t] := by simp [invocations, Entry.invocation?]
      have ends : endings [.invoked v t] v = [] := rfl
      refine sound_own sound hand rfl rfl begins ends ?_
      rw [List.append_nil]
      exact sound.course.take (stands_of_hand hand) (posts_moved _ _ _) (posts_others _ _ _)
  | @skip v x hand there gone =>
    have body : x.hasBody = true := (tended.sound v x there).course.hasBody (stands_of_hand hand)
    rw [gone] at body
    cases body
  | @finish v hand panicked =>
    obtain ⟨x, there⟩ := worker_of_posts tended (stands_of_hand hand)
    have put : s.force.worker? w = if v = w then some x else s.force.worker? w := by
      split
      · rename_i here
        rw [← here, there]
      · rfl
    refine sound_owned tended hand put (fun r stands => (Station.on.inj stands).1) ?_ ?_ there'
    · exact fun other => List.forall_mem_singleton.mpr ⟨rfl, rfl, by simp [Entry.ending?, other]⟩
    · have sound := tended.sound v x there
      have ends : endings [.ended v panicked] v = [panicked] := by simp [endings, Entry.ending?]
      have begins : invocations [.ended v panicked] v = [] := rfl
      refine sound_own sound hand rfl rfl begins ends ?_
      rw [List.append_nil]
      exact sound.course.finish (stands_of_hand hand) panicked (posts_moved _ _ _) (posts_others _ _ _)
  | @exit v x hand there unheld =>
    have put := Workforce.worker?_put (x := x.exit) (Option.isSome_iff_exists.mpr ⟨x, there⟩) w
    refine sound_owned tended hand put (fun r stands => (Station.on.inj stands).1) (fun _ => nofun) ?_ there'
    have sound := tended.sound v x there
    refine sound_own_silent sound hand rfl ?_
    exact sound.course.exit (stands_of_hand hand) unheld (posts_moved _ _ _) (posts_others _ _ _)
  | @close v x hand there =>
    have put := Workforce.worker?_put (x := x.close) (Option.isSome_iff_exists.mpr ⟨x, there⟩) w
    refine sound_owned tended hand put nofun (fun _ => nofun) ?_ there'
    have left : ∀ k, ¬ (s.after t (s.force.update v fun _ => x.close) {} []).posts v t k := by
      intro k stands
      rw [Shift.posts, after_self] at stands
      cases stands
    have sound := tended.sound v x there
    exact sound_own_silent sound hand rfl (sound.course.close (stands_of_hand hand) left (posts_others _ _ _))

theorem turn_blank (tended : s.Tended) (turn : Turn s t s') (none : s.force.worker? w = none) : Quiet s s' w := by
  have absent : ∀ {v : WorkerId} {x : Worker}, s.force.worker? v = some x → v ≠ w := by
    rintro v x there rfl
    rw [none] at there
    cases there
  cases turn with
  | arrive new => exact quiet_enter (tended.unborn _ (Nat.le_refl _)) nofun
  | chore | release => exact quiet_force _
  | lose => exact quiet_lost _
  | order free => exact quiet_order free
  | @goOn e x c ts x₁ refusal errand there part =>
    refine quiet_errand errand (absent there) ?_ (remembered_silent e s.force w)
    rintro e' ⟨⟩
    rfl
  | spawn errand there => exact quiet_spawn tended errand (absent there)
  | comeBack errand there part =>
    exact quiet_errand errand (absent there) nofun (List.forall_mem_singleton.mpr ⟨rfl, rfl, rfl⟩)
  | begin hand there | skip hand there | exit hand there =>
    exact quiet_own hand (absent there) (fun r stands => absent there (Station.on.inj stands).1) nofun
  | take hand there =>
    refine quiet_own hand (absent there) (fun r stands => absent there (Station.on.inj stands).1) ?_
    exact List.forall_mem_singleton.mpr ⟨rfl, by simp [Entry.invocation?, absent there], rfl⟩
  | @finish v hand panicked =>
    have here : v ≠ w := by
      rintro rfl
      exact (tended.blank v none).nobody t _ (stands_of_hand hand)
    refine quiet_own hand here (fun r stands => here (Station.on.inj stands).1) ?_
    exact List.forall_mem_singleton.mpr ⟨rfl, rfl, by simp [Entry.ending?, here]⟩
  | close hand there => exact quiet_own hand (absent there) nofun nofun

def Follows (a b : Lifecycle) : Prop := b = a ∨ a = .idle ∧ b = .running ∨ a = .running ∧ b = .exited

theorem turn_worker (tended : s.Tended) (turn : Turn s t s') (there : s.force.worker? w = some x) :
    ∃ x', s'.force.worker? w = some x' ∧ x'.stop = x.stop ∧ Follows x.lifecycle x'.lifecycle := by
  have unchanged : ∃ x', some x = some x' ∧ x'.stop = x.stop ∧ Follows x.lifecycle x'.lifecycle :=
    ⟨x, rfl, rfl, Or.inl rfl⟩
  -- The record that a section leaves, of this worker or of another one.
  have put : ∀ {v : WorkerId} {y y' : Worker}, s.force.worker? v = some y → y'.stop = y.stop →
      Follows y.lifecycle y'.lifecycle → ∃ x', (if v = w then some y' else s.force.worker? w) = some x' ∧
        x'.stop = x.stop ∧ Follows x.lifecycle x'.lifecycle := by
    intro v y y' found stop follows
    by_cases here : v = w
    · subst here
      obtain rfl := Option.some.inj (found.symm.trans there)
      exact ⟨y', if_pos rfl, stop, follows⟩
    · rw [if_neg here, there]
      exact unchanged
  have own : ∀ {v : WorkerId} {y y' : Worker}, s.force.worker? v = some y → y'.stop = y.stop →
      Follows y.lifecycle y'.lifecycle → ∃ x', (s.force.update v fun _ => y').worker? w = some x' ∧
        x'.stop = x.stop ∧ Follows x.lifecycle x'.lifecycle := by
    intro v y y' found stop follows
    rw [Workforce.worker?_put (Option.isSome_iff_exists.mpr ⟨y, found⟩)]
    exact put found stop follows
  cases turn with
  | arrive | lose => exact ⟨x, there, rfl, Or.inl rfl⟩
  | finish => exact ⟨x, there, rfl, Or.inl rfl⟩
  | order => exact ⟨x, there, rfl, Or.inl rfl⟩
  | chore c free =>
    obtain ⟨x', there'⟩ := Option.isSome_iff_exists.mp (chore_keeps c (Option.isSome_iff_exists.mpr ⟨x, there⟩))
    rcases worker_of_chore there' with ⟨y, found, same, stop⟩ | ⟨none, _⟩
    · obtain rfl := Option.some.inj (found.symm.trans there)
      exact ⟨x', there', stop, Or.inl (congrArg Core.lifecycle same)⟩
    · rw [none] at there
      cases there
  | release =>
    rw [Workforce.worker?_release, there]
    exact unchanged
  | @goOn e y c ts y' refusal errand found part =>
    rw [after_force, worker?_stored (Option.isSome_iff_exists.mpr ⟨y, found⟩)]
    generalize at_ : e.call = call at part
    cases part with
    | publish =>
      have sound := tended.sound _ y found
      have starter := (sound.starter t).mpr ⟨e, _, errand, rfl, at_⟩
      have idle : y.lifecycle = .idle := sound.course.idle_of_held (by simp [core, starter])
      exact put found rfl (Or.inr (Or.inl ⟨idle, rfl⟩))
    | announce | doze | cancel | wake | other | pass | collect => exact put found rfl (Or.inl rfl)
  | @spawn e y c ts y' refusal thread errand found part =>
    rw [enter_force, after_force, worker?_stored (Option.isSome_iff_exists.mpr ⟨y, found⟩)]
    generalize e.call = call at part
    cases part with
    | launch => exact put found rfl (Or.inl rfl)
  | @comeBack e y r ts y' refusal errand found part =>
    rw [after_force, worker?_stored (Option.isSome_iff_exists.mpr ⟨y, found⟩)]
    generalize e.call = call at part
    cases part with
    | rise | refuse | decline | keep | own | miss | join => exact put found rfl (Or.inl rfl)
  | begin hand found => exact own found rfl (Or.inl rfl)
  | take hand found => exact own found rfl (Or.inl rfl)
  | skip hand found => exact own found rfl (Or.inl rfl)
  | @exit v y hand found unheld =>
    have running : y.lifecycle = .running := (tended.sound v y found).course.running_of_on unheld (stands_of_hand hand)
    exact own found rfl (Or.inr (Or.inr ⟨running, rfl⟩))
  | close hand found => exact own found rfl (Or.inl rfl)

theorem errand_after {u : ThreadId} {errand : Option Errand} {e' : Errand} {station : Station}
    (found : ((s.after t f { station, errand } es).threads u).errand = some e') :
    (u ≠ t ∧ (s.threads u).errand = some e') ∨ u = t ∧ errand = some e' := by
  by_cases mine : u = t
  · subst mine
    rw [after_self] at found
    exact Or.inr ⟨rfl, found⟩
  · rw [after_other mine] at found
    exact Or.inl ⟨mine, found⟩

theorem errand_enter {u : ThreadId} {e' : Errand} (found : ((s.enter station).threads u).errand = some e') :
    (s.threads u).errand = some e' := by
  by_cases new : u = s.born
  · rw [new, enter_new] at found
    cases found
  · rwa [enter_other new] at found

/-- A call in progress was in progress before, or has just been made on a worker that somebody holds. -/
theorem errand_of_turn (turn : Turn s t s') {u : ThreadId} {e' : Errand} (found : (s'.threads u).errand = some e') :
    (∃ v e, (s.threads v).errand = some e ∧ e.worker = e'.worker ∧ e.order = e'.order) ∨
      s.force.isAlive e'.worker = true ∧ .called e'.number u e'.order e'.worker ∈ s'.log := by
  cases turn with
  | arrive => exact Or.inl ⟨u, e', errand_enter found, rfl, rfl⟩
  | chore | release | lose => exact Or.inl ⟨u, e', found, rfl, rfl⟩
  | @order o w free alive =>
    rcases errand_after found with ⟨_, found⟩ | ⟨mine, found⟩
    · exact Or.inl ⟨u, e', found, rfl, rfl⟩
    · cases found
      rw [mine]
      exact Or.inr ⟨alive, List.mem_append_right _ List.mem_cons_self⟩
  | @goOn e x c ts x' refusal errand there part =>
    rcases errand_after found with ⟨_, found⟩ | ⟨_, found⟩
    · exact Or.inl ⟨u, e', found, rfl, rfl⟩
    · cases found
      exact Or.inl ⟨t, e, errand, rfl, rfl⟩
  | @spawn e x c ts x' refusal thread errand there part =>
    rcases errand_after (errand_enter found) with ⟨_, found⟩ | ⟨_, found⟩
    · exact Or.inl ⟨u, e', found, rfl, rfl⟩
    · cases found
      exact Or.inl ⟨t, e, errand, rfl, rfl⟩
  | comeBack | begin | take | skip | finish | exit | close =>
    rcases errand_after found with ⟨_, found⟩ | ⟨_, none⟩
    · exact Or.inl ⟨u, e', found, rfl, rfl⟩
    · cases none

theorem turn_staffed (tended : s.Tended) (turn : Turn s t s') : s'.Staffed := by
  intro u e' found
  have there : (s.force.worker? e'.worker).isSome := by
    rcases errand_of_turn turn found with ⟨v, e, errand, same, _⟩ | ⟨alive, _⟩
    · exact same ▸ tended.staffed v e errand
    · simp only [Workforce.isAlive, Option.any_eq_true] at alive
      obtain ⟨m, member, _⟩ := alive
      exact Option.isSome_iff_exists.mpr ⟨m.worker, by rw [Workforce.worker?, member]; rfl⟩
  obtain ⟨x, there⟩ := Option.isSome_iff_exists.mp there
  obtain ⟨x', there', _⟩ := turn_worker tended turn there
  exact Option.isSome_iff_exists.mpr ⟨x', there'⟩

theorem turn_unborn (unborn : ∀ u, s.born ≤ u → s.threads u = {}) (turn : Turn s t s') (u : ThreadId) (later : s'.born ≤ u) :
    s'.threads u = {} := by
  -- A thread that moves is there.
  have moves : ∀ {h : Hand} {f : Workforce} {es : List Entry}, s.threads t ≠ {} → s.born ≤ u →
      (s.after t f h es).threads u = {} := by
    intro h f es there later
    have other : u ≠ t := by
      rintro rfl
      exact there (unborn u later)
    rw [after_other other]
    exact unborn u later
  have called : ∀ {e : Errand}, (s.threads t).errand = some e → s.threads t ≠ {} := by
    intro e errand none
    rw [none] at errand
    cases errand
  have standing : ∀ {w : WorkerId} {r : Worker.Run}, s.threads t = ⟨.on w r, none⟩ → s.threads t ≠ {} := by
    intro w r hand none
    rw [none] at hand
    cases hand
  have newer : s.born + 1 ≤ u → u ≠ s.born := fun later => (Nat.ne_of_lt later).symm
  cases turn with
  | arrive => rw [enter_other (newer later), unborn u (Nat.le_of_succ_le later)]
  | chore | release | lose => exact unborn u later
  | order free =>
    refine moves (fun none => ?_) later
    rw [none] at free
    cases free
  | goOn errand => exact moves (called errand) later
  | spawn errand =>
    refine (enter_other ?_).trans ?_
    · exact newer later
    · exact moves (called errand) (Nat.le_of_succ_le later)
  | comeBack errand => exact moves (called errand) later
  | begin hand | take hand | skip hand | finish hand | exit hand | close hand => exact moves (standing hand) later

theorem turn_tended (tended : s.Tended) (turn : Turn s t s') : s'.Tended where
  staffed := turn_staffed tended turn
  unborn := turn_unborn tended.unborn turn
  blank w none := by
    cases before : s.force.worker? w with
    | none => exact (tended.blank w before).quiet (turn_blank tended turn before)
    | some x =>
      obtain ⟨x', there, _⟩ := turn_worker tended turn before
      rw [none] at there
      cases there
  sound w x there := turn_sound tended turn there

theorem tended_fresh : Tended {} where
  staffed := nofun
  unborn _ _ := rfl
  blank _ _ := ⟨nofun, rfl, rfl, rfl⟩
  sound _ _ there := nomatch there

/-- What holds at first and is kept by every move holds in the end. -/
theorem run_keeps {P : Shift → Prop} {moves : List (ThreadId × Action)} (tended : s.Tended) (holds : P s)
    (step : ∀ s t s', s.Tended → P s → Turn s t s' → P s') (ran : s.run moves = some s') : s'.Tended ∧ P s' := by
  refine Threads.run_keeps (P := fun s => s.Tended ∧ P s) ⟨tended, holds⟩ ran ?_
  rintro s t a s' _ ⟨tended, holds⟩ acted
  have turn := turn_of_act tended.staffed acted
  exact ⟨turn_tended tended turn, step s t s' tended holds turn⟩

end Switchboard.Shift
