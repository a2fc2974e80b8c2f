import Switchboard.Proofs.Worker.Tending

/-!
Starting, terminating and the lifecycle. A worker's body is invoked once at most and its lifecycle never goes back; a call
that terminates a worker from another thread returns only after it has looked and seen that the body is over, or was not
started. Main statement: `lifecycle_discipline`.
-/

namespace Switchboard.Shift

variable {s s' : Shift} {t u : ThreadId} {w : WorkerId} {x x' : Worker} {e : Errand} {log es : List Entry} {n : Nat}

/-! ### Requests to stop are never taken back -/

@[simp] theorem cancelled_derive (ts : StopTokens) (parent : Option StopToken) :
    (ts.derive parent).2.cancelled = ts.cancelled := by
  cases parent <;> rfl

@[simp] theorem tokens_announce (f : Workforce) (r : RosterId) (w : WorkerId) (thread : ThreadId) :
    (f.announce r w thread).2.tokens = f.tokens := by
  unfold Workforce.announce
  split <;> rfl

@[simp] theorem tokens_announceAtHome (f : Workforce) (w : WorkerId) (thread : ThreadId) (homeIsThere : RosterId → Bool) :
    (f.announceAtHome w thread homeIsThere).tokens = f.tokens := by
  unfold Workforce.announceAtHome
  split
  · split
    · exact tokens_announce f _ w thread
    · rfl
  · rfl

@[simp] theorem tokens_stored (e : Errand) (ts : StopTokens) (x : Worker) : (s.stored e ts x).tokens = ts := by
  unfold stored
  split
  · exact tokens_announceAtHome _ _ _ _
  · rfl

@[simp] theorem tokens_release (f : Workforce) (w : WorkerId) (homeIsThere : RosterId → Bool) :
    (f.release w homeIsThere).tokens = f.tokens := by
  rcases Workforce.release_cases f w homeIsThere with same | ⟨r, same⟩ <;>
  · rw [same]
    rfl

/-- What is done in one go asks for at most one stop. -/
theorem cancelled_chore (f : Workforce) (c : Chore) : f.tokens.cancelled ⊆ (c.perform f).tokens.cancelled := by
  cases c with
  | hire name o => exact (cancelled_derive f.tokens o.parent).symm ▸ List.Subset.refl _
  | derive parent => exact (cancelled_derive f.tokens parent).symm ▸ List.Subset.refl _
  | cancel token => exact List.subset_cons_self _ _
  | addRoster | signal | withdraw => exact List.Subset.refl _
  | announce r v thread => exact (tokens_announce f r v thread).symm ▸ List.Subset.refl _

theorem cancelled_section {me : ThreadId} {grant : Except String ThreadId} {ts ts' : StopTokens} {c : Worker.Call}
    {move : Worker.Move} (part : Worker.Section me grant ts x c move ts' x') : ts.cancelled ⊆ ts'.cancelled := by
  cases part with
  | cancel => exact List.subset_cons_self _ _
  | _ => exact List.Subset.refl _

theorem cancelled_subset (turn : Turn s t s') : s.force.tokens.cancelled ⊆ s'.force.tokens.cancelled := by
  cases turn with
  | arrive | lose | order | begin | take | skip | finish | exit | close => exact List.Subset.refl _
  | chore c => exact cancelled_chore s.force c
  | release =>
    rw [tokens_release]
    exact List.Subset.refl _
  | goOn _ _ part | spawn _ _ part | comeBack _ _ part =>
    simp only [enter_force, after_force, tokens_stored]
    exact cancelled_section part

theorem turn_cancelled (turn : Turn s t s') {token : StopToken} (cancelled : s.force.tokens.isCancelled token = true) :
    s'.force.tokens.isCancelled token = true := by
  simp only [StopTokens.isCancelled, List.any_eq_true, List.contains_eq_mem, decide_eq_true_eq] at cancelled ⊢
  obtain ⟨k, member, present⟩ := cancelled
  exact ⟨k, member, cancelled_subset turn present⟩

theorem shouldStop_of_worker (there : s.force.worker? w = some x) :
    s.force.shouldStop w = s.force.tokens.isCancelled x.stop := by
  simp [Workforce.shouldStop, there]

theorem turn_shouldStop (tended : s.Tended) (turn : Turn s t s') (asked : s.force.shouldStop w = true) :
    s'.force.shouldStop w = true := by
  cases there : s.force.worker? w with
  | none => simp [Workforce.shouldStop, there] at asked
  | some x =>
    obtain ⟨x', there', stop, _⟩ := turn_worker tended turn there
    rw [shouldStop_of_worker there] at asked
    rw [shouldStop_of_worker there', stop]
    exact turn_cancelled turn asked

/-! ### What terminating calls have seen -/

def Order.Covers : Order → Worker.Call → Prop
  | start, .starting | start, .publishing _ | start, .announcing _ | start, .keeping _ | sleep _, .settling _
  | sleep _, .sleeping _ | terminate, .cancelling | terminate, .waking | terminate, .recognizing | terminate, .awaiting
  | terminate, .collecting | terminate, .joining => True
  | _, _ => False

/-- A call has looked at the worker and seen that its body is over, or that it was not started. -/
def Inspected (log : List Entry) (n : Nat) (w : WorkerId) : Prop :=
  ∃ front l back, log = front ++ .looked n w l :: back ∧
    (l = .idle ∧ launches front w = [] ∨ l = .exited ∧ endings front w ≠ [])

theorem Inspected.append (inspected : Inspected log n w) (es : List Entry) : Inspected (log ++ es) n w := by
  obtain ⟨front, l, back, split, seen⟩ := inspected
  exact ⟨front, l, back ++ es, by simp [split], seen⟩

structure Errand.Sound (s : Shift) (t : ThreadId) (e : Errand) : Prop where
  covers : e.order.Covers e.call
  /-- The thread is where it has made the call. -/
  free : (s.threads t).station.isFree = true
  asked : e.order = .terminate → e.call ≠ .cancelling → s.force.shouldStop e.worker = true
  foreign : e.call = .awaiting ∨ e.call = .collecting ∨ e.call = .joining → ∀ r, ¬ s.posts e.worker t r
  inspected : e.call = .collecting ∨ e.call = .joining → Inspected s.log e.number e.worker

def Settled (before : List Entry) (n : Nat) (t : ThreadId) (w : WorkerId) : Prop :=
  t ∈ launches before w ∨ Inspected before n w

structure Witnessed (s : Shift) : Prop where
  errands : ∀ t e, (s.threads t).errand = some e → e.Sound s t
  returns : ∀ before n t w r after, s.log = before ++ .returned n t .terminate w r :: after →
    Settled before n t w ∧ s.force.shouldStop w = true

theorem turn_log (turn : Turn s t s') : ∃ es, s'.log = s.log ++ es := by
  cases turn with
  | arrive | chore | release | lose => exact ⟨[], (List.append_nil _).symm⟩
  | order | goOn | spawn | comeBack | begin | take | skip | finish | exit | close => exact ⟨_, rfl⟩

theorem Errand.Sound.later (sound : e.Sound s u) (tended : s.Tended) (turn : Turn s t s')
    (same : (s'.threads u).station = (s.threads u).station) : e.Sound s' u := by
  obtain ⟨es, log⟩ := turn_log turn
  constructor
  · exact sound.covers
  · rw [same]
    exact sound.free
  · exact fun terminates past => turn_shouldStop tended turn (sound.asked terminates past)
  · intro far r
    rw [posts, same]
    exact sound.foreign far r
  · intro seen
    rw [log]
    exact (sound.inspected seen).append es

theorem section_covers {me : ThreadId} {grant : Except String ThreadId} {ts ts' : StopTokens} {o : Order}
    {c c' : Worker.Call} (part : Worker.Section me grant ts x c (.goes c') ts' x') (covers : o.Covers c) : o.Covers c' := by
  cases part with
  | doze resting =>
    cases o with
    | sleep => trivial
    | start | terminate => rcases resting with rfl | rfl <;> cases covers
  | publish | announce | cancel | wake | other | pass | collect =>
    cases o with
    | start | sleep | terminate => trivial

theorem section_spawns_covers {me : ThreadId} {grant : Except String ThreadId} {ts ts' : StopTokens} {o : Order}
    {c c' : Worker.Call} {thread : ThreadId} (part : Worker.Section me grant ts x c (.spawns thread c') ts' x')
    (covers : o.Covers c) : o.Covers c' ∧ c' = .publishing thread := by
  cases part with
  | launch =>
    cases o with
    | start | sleep | terminate => first | exact ⟨trivial, rfl⟩ | cases covers

/-- A body that has the thread is known to the worker. -/
theorem thread_of_free (tended : s.Tended) (there : s.force.worker? w = some x)
    (free : (s.threads t).station.isFree = true) {r : Worker.Run} (stands : s.posts w t r) : x.thread = some t := by
  have body : r = .body := by
    rw [posts] at stands
    rw [stands] at free
    cases r with
    | body => rfl
    | beginning | taking | exiting | closing => cases free
  exact (tended.sound w x there).course.thread_of_on (body ▸ stands)

theorem errand_sound_goOn (tended : s.Tended) (sound : e.Sound s t) (there : s.force.worker? e.worker = some x)
    {grant : Except String ThreadId} {ts : StopTokens} {c : Worker.Call}
    (part : Worker.Section t grant s.force.tokens x e.call (.goes c) ts x') (turn : Turn s t s')
    (force : s'.force = s.stored e ts x') (log : s'.log = s.log ++ e.remembered s.force)
    (same : (s'.threads t).station = (s.threads t).station) : Errand.Sound s' t { e with call := c } := by
  have later := sound.later tended turn same
  constructor
  · exact section_covers part sound.covers
  · exact later.free
  · intro terminates _
    by_cases first : e.call = .cancelling
    · rw [first] at part
      cases part with
      | cancel =>
        have there' : s'.force.worker? e.worker = some x := by
          rw [force, worker?_stored (Option.isSome_iff_exists.mpr ⟨x, there⟩), if_pos rfl]
        rw [shouldStop_of_worker there', force, tokens_stored]
        exact StopTokens.isCancelled_cancel_self _ _
      | doze resting => rcases resting with none | none <;> cases none
    · exact later.asked terminates first
  · intro far r stands
    have stood : s.posts e.worker t r := by
      rw [posts] at stands ⊢
      exact same.symm.trans stands
    generalize at_ : e.call = call at part
    cases part with
    | other foreign => exact foreign (thread_of_free tended there sound.free stood)
    | pass => exact sound.foreign (Or.inl at_) r stood
    | collect => exact sound.foreign (Or.inr (Or.inl at_)) r stood
    | publish | announce | doze | cancel | wake => simp at far
  · intro seen
    generalize at_ : e.call = call at part
    cases part with
    | pass unheld still =>
      have remembered : e.remembered s.force = [.looked e.number e.worker x.lifecycle] := by
        simp only [Errand.remembered, at_, there]
      rw [log, remembered]
      exact ⟨s.log, x.lifecycle, [], rfl, (tended.sound _ x there).course.still unheld still⟩
    | collect =>
      rw [log]
      exact (sound.inspected (Or.inl at_)).append _
    | publish | announce | doze | cancel | wake | other => simp at seen

theorem split_append {α : Type} {log es before after : List α} {a : α} (split : log ++ es = before ++ a :: after) :
    (∃ after', log = before ++ a :: after') ∨ ∃ more, before = log ++ more ∧ es = more ++ a :: after := by
  rcases List.append_eq_append_iff.mp split with ⟨more, rfl, rfl⟩ | ⟨back, rfl, rest⟩
  · exact Or.inr ⟨more, rfl, rfl⟩
  · cases back with
    | nil => exact Or.inr ⟨[], by simp, rest.symm⟩
    | cons b back =>
      obtain ⟨rfl, _⟩ := List.cons.inj rest
      exact Or.inl ⟨back, rfl⟩

/-- What a terminating call has seen when it returns. -/
theorem settled_comeBack (tended : s.Tended) (sound : e.Sound s t) (there : s.force.worker? e.worker = some x)
    (terminates : e.order = .terminate) {grant : Except String ThreadId} {ts : StopTokens} {r : Worker.Result}
    (part : Worker.Section t grant s.force.tokens x e.call (.ends r) ts x') :
    Settled s.log e.number t e.worker ∧ e.call ≠ .cancelling := by
  have covers := sound.covers
  rw [terminates] at covers
  generalize at_ : e.call = call at part covers
  cases part with
  | own mine =>
    have launched := (tended.sound _ x there).course.launched_of_thread mine
    exact ⟨Or.inl (launched ▸ List.mem_singleton_self t), nofun⟩
  | miss => exact ⟨Or.inr (sound.inspected (Or.inl at_)), nofun⟩
  | join => exact ⟨Or.inr (sound.inspected (Or.inr at_)), nofun⟩
  | rise resting => rcases resting with rfl | rfl <;> cases covers
  | refuse | decline | keep => cases covers

theorem station_after {f : Workforce} {errand : Option Errand} (u : ThreadId) :
    ((s.after t f { (s.threads t) with errand } es).threads u).station = (s.threads u).station := by
  by_cases mine : u = t
  · rw [mine, after_self]
  · rw [after_other mine]

theorem station_enter {station : Station} (old : u ≠ s.born) :
    ((s.enter station).threads u).station = (s.threads u).station := by
  rw [enter_other old]

theorem turn_witnessed (tended : s.Tended) (witnessed : s.Witnessed) (turn : Turn s t s') : s'.Witnessed := by
  have kept := turn
  have others : ∀ {u : ThreadId} {e : Errand}, (s.threads u).errand = some e →
      (s'.threads u).station = (s.threads u).station → e.Sound s' u :=
    fun errand same => (witnessed.errands _ _ errand).later tended kept same
  -- The log has grown by entries that end no terminating call.
  have returned : ∀ {es : List Entry}, s'.log = s.log ++ es → (∀ n t w r, .returned n t .terminate w r ∉ es) →
      ∀ before n t w r after, s'.log = before ++ .returned n t .terminate w r :: after →
        Settled before n t w ∧ s'.force.shouldStop w = true := by
    intro es log silent before n t w r after split
    rw [log] at split
    rcases split_append split with ⟨after', split⟩ | ⟨more, _, rfl⟩
    · obtain ⟨settled, asked⟩ := witnessed.returns before n t w r after' split
      exact ⟨settled, turn_shouldStop tended kept asked⟩
    · exact absurd (List.mem_append_right _ List.mem_cons_self) (silent n t w r)
  cases turn with
  | arrive new =>
    refine ⟨fun u e found => ?_, returned (List.append_nil _).symm nofun⟩
    have errand := errand_enter found
    refine others errand (congrArg Hand.station (enter_other ?_))
    rintro rfl
    rw [tended.unborn _ (Nat.le_refl _)] at errand
    cases errand
  | chore | release | lose =>
    exact ⟨fun u e found => others found rfl, returned (List.append_nil _).symm nofun⟩
  | @order o w free alive =>
    refine ⟨fun u e found => ?_, returned rfl (by simp)⟩
    rcases errand_after found with ⟨other, before⟩ | ⟨rfl, made⟩
    · exact others before (congrArg Hand.station (after_other other))
    · cases made
      simp only [Hand.isFree, Bool.and_eq_true] at free
      constructor
      · cases o <;> trivial
      · rw [begin, station_after u]
        exact free.1
      · intro terminates past
        cases terminates
        exact absurd rfl past
      · cases o <;> simp [Order.call]
      · cases o <;> simp [Order.call]
  | @goOn e x c ts x' refusal errand there part =>
    refine ⟨fun u e' found => ?_, returned rfl ?_⟩
    · rcases errand_after found with ⟨other, before⟩ | ⟨rfl, made⟩
      · exact others before (congrArg Hand.station (after_other other))
      · cases made
        exact errand_sound_goOn tended (witnessed.errands _ e errand) there part kept rfl rfl (station_after u)
    · intro n t w r member
      unfold Errand.remembered at member
      split at member
      · simp at member
      · cases member
  | @spawn e x c ts x' refusal thread errand there part =>
    refine ⟨fun u e' found => ?_, returned rfl (by simp)⟩
    have unborn := tended.unborn s.born (Nat.le_refl _)
    by_cases new : u = s.born
    · subst new
      cases (congrArg Hand.errand enter_new).symm.trans found
    · have station : ∀ {errand : Option Errand} {es : List Entry},
          (((s.after t (s.stored e ts x') { (s.threads t) with errand } es).enter (.on e.worker .beginning)).threads u).station =
            (s.threads u).station := by
        intro errand es
        rw [station_enter (s := s.after t (s.stored e ts x') { (s.threads t) with errand } es) new, station_after]
      rcases errand_after (errand_enter found) with ⟨other, before⟩ | ⟨rfl, made⟩
      · exact others before station
      · cases made
        have sound := witnessed.errands u e errand
        obtain ⟨covers, rfl⟩ := section_spawns_covers part sound.covers
        constructor
        · exact covers
        · rw [station]
          exact sound.free
        · intro terminates
          rw [terminates] at covers
          cases covers
        · simp
        · simp
  | @comeBack e x r ts x' refusal errand there part =>
    refine ⟨fun u e' found => ?_, ?_⟩
    · rcases errand_after found with ⟨other, before⟩ | ⟨rfl, made⟩
      · exact others before (congrArg Hand.station (after_other other))
      · cases made
    · intro before n v w result after split
      rw [after_log] at split
      rcases split_append split with ⟨after', split⟩ | ⟨more, rfl, last⟩
      · obtain ⟨settled, asked⟩ := witnessed.returns before n v w result after' split
        exact ⟨settled, turn_shouldStop tended kept asked⟩
      · cases more with
        | cons => simp at last
        | nil =>
          obtain ⟨rfl, rfl, terminates, rfl, rfl⟩ := Entry.returned.inj (List.cons.inj last).1
          have sound := witnessed.errands _ e errand
          obtain ⟨settled, past⟩ := settled_comeBack tended sound there terminates part
          rw [List.append_nil]
          exact ⟨settled, turn_shouldStop tended kept (sound.asked terminates past)⟩
  | begin hand | take hand | skip hand | finish hand | exit hand | close hand =>
    refine ⟨fun u e' found => ?_, returned rfl (by simp)⟩
    rcases errand_after found with ⟨other, before⟩ | ⟨_, made⟩
    · exact others before (congrArg Hand.station (after_other other))
    · cases made

theorem witnessed_fresh : Witnessed {} where
  errands := nofun
  returns before n t w r after split := absurd (congrArg List.length split) (by simp)

/-! ### Calls from the worker's own thread -/

theorem act_advance (errand : (s.threads t).errand = some e) (there : s.force.worker? e.worker = some x) (now : Nat)
    (refusal : Option String) :
    s.act t (.advance now refusal) =
      s.follow t e
        (s.stored e (e.call.advance t now (s.grant refusal) s.force.tokens x).2.1
          (e.call.advance t now (s.grant refusal) s.force.tokens x).2.2)
        (e.call.advance t now (s.grant refusal) s.force.tokens x).1 := by
  simp only [act, errand, advance_eq there]

/-- A worker that is not idle is not started again. -/
theorem act_start_again (tended : s.Tended) (errand : (s.threads t).errand = some e) (at_ : e.call = .starting)
    (there : s.force.worker? e.worker = some x) (begun : x.lifecycle ≠ .idle) (now : Nat) (refusal : Option String) :
    s.act t (.advance now refusal) =
      some (s.after t s.force { (s.threads t) with errand := none } [.returned e.number t e.order e.worker .done]) := by
  have unheld : x.starter = none := by
    cases held : x.starter with
    | none => rfl
    | some u => exact absurd ((tended.sound _ x there).course.idle_of_held (by simp [core, held])) begun
  have same : s.stored e s.force.tokens x = s.force := by
    rw [stored, at_]
    exact Workforce.update_same there
  rw [act_advance errand there, at_]
  simp [Worker.Call.advance, Worker.launch, unheld, begun, follow, same]

/-- How many sections a terminating call has left that finds itself on the worker's own thread. -/
def ownSections : Worker.Call → Option Nat
  | .cancelling => some 3
  | .waking => some 2
  | .recognizing => some 1
  | _ => none

theorem own_step (tended : s.Tended) (witnessed : s.Witnessed) {r : Worker.Run} (stands : s.posts e.worker t r)
    (errand : (s.threads t).errand = some e) (terminates : e.order = .terminate) (now : Nat) (refusal : Option String) :
    ∃ k, ownSections e.call = some (k + 1) ∧ ∃ s', s.act t (.advance now refusal) = some s' ∧
      (k = 0 ∧ (s'.threads t).errand = none ∨
        ∃ c, ownSections c = some k ∧ (s'.threads t).errand = some { e with call := c } ∧ s'.posts e.worker t r) := by
  obtain ⟨x, there⟩ := Option.isSome_iff_exists.mp (tended.staffed t e errand)
  have sound := witnessed.errands t e errand
  have covers := sound.covers
  have mine := thread_of_free tended there sound.free stands
  have foreign := sound.foreign
  rw [terminates] at covers
  have moved := act_advance errand there now refusal
  have goesOn : ∀ {c : Worker.Call} {f : Workforce} {es : List Entry},
      (s.after t f { (s.threads t) with errand := some { e with call := c } } es).posts e.worker t r := by
    intro c f es
    rw [posts, station_after]
    exact stands
  cases at_ : e.call with
  | cancelling =>
    rw [at_] at moved
    exact ⟨2, rfl, _, moved, Or.inr ⟨.waking, rfl, congrArg Hand.errand after_self, goesOn⟩⟩
  | waking =>
    rw [at_] at moved
    exact ⟨1, rfl, _, moved, Or.inr ⟨.recognizing, rfl, congrArg Hand.errand after_self, goesOn⟩⟩
  | recognizing =>
    rw [at_] at moved
    simp only [Worker.Call.advance, mine, if_true] at moved
    exact ⟨0, rfl, _, moved, Or.inl ⟨rfl, congrArg Hand.errand after_self⟩⟩
  | awaiting => exact absurd stands (foreign (Or.inl at_) r)
  | collecting => exact absurd stands (foreign (Or.inr (Or.inl at_)) r)
  | joining => exact absurd stands (foreign (Or.inr (Or.inr at_)) r)
  | starting | publishing | announcing | keeping | settling | sleeping =>
    rw [at_] at covers
    cases covers

/-- From the worker's own thread a terminating call returns after at most three sections, whatever else is going on. -/
theorem own_returns (tended : s.Tended) (witnessed : s.Witnessed) {r : Worker.Run} (stands : s.posts e.worker t r)
    (errand : (s.threads t).errand = some e) (terminates : e.order = .terminate) (now : Nat) (refusal : Option String) :
    ∃ k ≤ 3, ∃ s', s.run (List.replicate k (t, .advance now refusal)) = some s' ∧ (s'.threads t).errand = none := by
  have counted : ∀ k (s : Shift) (e : Errand), s.Tended → s.Witnessed → s.posts e.worker t r →
      (s.threads t).errand = some e → e.order = .terminate → ownSections e.call = some k →
      ∃ s', s.run (List.replicate k (t, .advance now refusal)) = some s' ∧ (s'.threads t).errand = none := by
    intro k
    induction k with
    | zero =>
      intro s e tended witnessed stands errand terminates left
      obtain ⟨k, left', _⟩ := own_step tended witnessed stands errand terminates now refusal
      rw [left] at left'
      cases left'
    | succ k ih =>
      intro s e tended witnessed stands errand terminates left
      obtain ⟨k', left', s₁, acted, rest⟩ := own_step tended witnessed stands errand terminates now refusal
      obtain rfl : k = k' := Nat.succ.inj (Option.some.inj (left.symm.trans left'))
      have turn := turn_of_act tended.staffed acted
      rcases rest with ⟨rfl, done⟩ | ⟨c, left, errand', stands'⟩
      · exact ⟨s₁, by simp [run, Threads.run, acted], done⟩
      · obtain ⟨s', ran, done⟩ := ih s₁ { e with call := c } (turn_tended tended turn)
          (turn_witnessed tended witnessed turn) stands' errand' terminates left
        refine ⟨s', ?_, done⟩
        rw [List.replicate_succ, run, Threads.run, acted]
        exact ran
  obtain ⟨k, left, _⟩ := own_step tended witnessed stands errand terminates now refusal
  refine ⟨k + 1, ?_, counted (k + 1) s e tended witnessed stands errand terminates left⟩
  cases at_ : e.call <;> rw [at_] at left <;> cases left <;> decide

theorem reached {moves : List (ThreadId × Action)} (ran : ({} : Shift).run moves = some s) : s.Tended ∧ s.Witnessed :=
  run_keeps tended_fresh witnessed_fresh (fun _ _ _ tended witnessed turn => turn_witnessed tended witnessed turn) ran

/-- Whatever threads do: a worker's body is invoked once at most. Its lifecycle never goes back. To start it when it is
not idle changes nothing. A request to stop stays. When a call that terminates it has returned, it has been asked to stop,
and unless the call was made on the worker's own thread it has looked and seen, when it last did, that the body was over
or that it was not started. Such a call on the worker's own thread does not wait for anybody. -/
theorem lifecycle_discipline {moves : List (ThreadId × Action)} (ran : ({} : Shift).run moves = some s) (w : WorkerId) :
    (invocations s.log w).length ≤ 1 ∧
    (∀ t a s' x x', s.act t a = some s' → s.force.worker? w = some x → s'.force.worker? w = some x' →
      Follows x.lifecycle x'.lifecycle) ∧
    (∀ t e x, (s.threads t).errand = some e → e.worker = w → e.call = .starting → s.force.worker? w = some x →
      x.lifecycle ≠ .idle → ∀ now refusal, s.act t (.advance now refusal) =
        some (s.after t s.force { (s.threads t) with errand := none } [.returned e.number t e.order w .done])) ∧
    (∀ more s', s.run more = some s' → s.force.shouldStop w = true → s'.force.shouldStop w = true) ∧
    (∀ before n t r after, s.log = before ++ .returned n t .terminate w r :: after →
      s.force.shouldStop w = true ∧ (t ∈ launches before w ∨ Inspected before n w)) ∧
    ∀ t r e, s.posts w t r → (s.threads t).errand = some e → e.worker = w → e.order = .terminate →
      ∀ now refusal, ∃ k ≤ 3, ∃ s', s.run (List.replicate k (t, .advance now refusal)) = some s' ∧
        (s'.threads t).errand = none := by
  obtain ⟨tended, witnessed⟩ := reached ran
  refine ⟨?_, ?_, ?_, ?_, ?_, ?_⟩
  · cases there : s.force.worker? w with
    | none => simp [(tended.blank w there).invocations]
    | some x => exact (tended.sound w x there).course.begun_le
  · intro t a s' x x' acted there there'
    obtain ⟨y, found, _, follows⟩ := turn_worker tended (turn_of_act tended.staffed acted) there
    obtain rfl := Option.some.inj (found.symm.trans there')
    exact follows
  · rintro t e x errand rfl at_ there begun now refusal
    exact act_start_again tended errand at_ there begun now refusal
  · intro more s' ran' asked
    exact (run_keeps tended asked (fun _ _ _ tended asked turn => turn_shouldStop tended turn asked) ran').2
  · intro before n t r after split
    obtain ⟨settled, asked⟩ := witnessed.returns before n t w r after split
    exact ⟨asked, settled⟩
  · rintro t r e stands errand rfl terminates now refusal
    exact own_returns tended witnessed stands errand terminates now refusal

/-- Thread 0 starts a worker on thread 2. Before that is known, the body terminates its own worker and thread 1 begins to;
the body panics, and thread 1 is done before there is a thread to wait for. Thread 0 then terminates the worker, too, and
waits for the thread. -/
def crossing : List (ThreadId × Action) :=
  let on (t : ThreadId) : ThreadId × Action := (t, .advance 0 none)
  [(0, .arrive), (1, .arrive), (0, .chore (.hire "w" {})), (0, .order .start 0), on 0, (2, .proceed), (2, .proceed),
    (1, .order .terminate 0), on 1, on 1, on 1, (2, .order .terminate 0), on 2, on 2, on 2, on 0, (2, .finish true),
    (2, .proceed), on 1, on 1, on 0, on 0, (0, .order .terminate 0), on 0, on 0, on 0, on 0, on 0, (2, .proceed), on 0]

theorem lifecycle_discipline_crossing : ∃ s : Shift, ({} : Shift).run crossing = some s ∧
    (invocations s.log 0).length ≤ 1 ∧ s.force.shouldStop 0 = true ∧
    ∃ before after, s.log = before ++ .returned 3 1 .terminate 0 .done :: after ∧ Inspected before 3 0 := by
  have ends : ∃ s : Shift, ({} : Shift).run crossing = some s ∧ ∃ before after,
      s.log = before ++ .returned 3 1 .terminate 0 .done :: after ∧ launches before 0 = [2] :=
    ⟨_, rfl, [.called 0 0 .start 0, .spawned 0 0 2, .invoked 0 2, .called 3 1 .terminate 0, .called 4 2 .terminate 0,
      .returned 4 2 .terminate 0 .done, .ended 0 true, .looked 3 0 .exited], _, rfl, rfl⟩
  obtain ⟨s, ran, before, after, split, launched⟩ := ends
  obtain ⟨once, _, _, _, returns, _⟩ := lifecycle_discipline ran 0
  obtain ⟨asked, own | inspected⟩ := returns before 3 1 .done after split
  · rw [launched] at own
    cases List.mem_singleton.mp own
  · exact ⟨s, ran, once, asked, before, after, split, inspected⟩

end Switchboard.Shift
