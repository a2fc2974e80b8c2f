import Switchboard.Proofs.Worker.Calls

/-!
Rest. Nothing goes on but that one thread from outside terminates workers and that bodies sleep on their own workers until
they are told to stop, and return. Nobody starts a worker then, no worker is entered in a roster, and only the one thread
asks for stops.
-/

namespace Switchboard.Shift

variable {s s' : Shift} {t u v : ThreadId} {w : WorkerId} {x x' : Worker} {e : Errand} {a : Action}

/-! ### Records, whatever threads do -/

theorem chore_record {f : Workforce} {c : Chore} (there : f.worker? w = some x) (there' : (c.perform f).worker? w = some x') :
    x'.handle = x.handle ∧ x'.sleepers ⊆ x.sleepers := by
  cases c with
  | hire name o =>
    rw [Chore.perform, Workforce.worker?_hire] at there'
    split at there'
    · rename_i new
      simp [Workforce.worker?, Workforce.member?, new] at there
    · cases there.symm.trans there'
      exact ⟨rfl, List.Subset.refl _⟩
  | signal v =>
    rw [Chore.perform, Workforce.worker?_update, there] at there'
    split at there'
    · cases there'
      exact ⟨rfl, List.drop_subset _ _⟩
    · cases there'
      exact ⟨rfl, List.Subset.refl _⟩
  | addRoster | derive | cancel | withdraw =>
    cases there.symm.trans there'
    exact ⟨rfl, List.Subset.refl _⟩
  | announce r v thread =>
    rw [Chore.perform, Workforce.worker?_announce] at there'
    cases there.symm.trans there'
    exact ⟨rfl, List.Subset.refl _⟩

/-- What a move of thread `t` may make of a worker. -/
structure Modest (s : Shift) (t : ThreadId) (w : WorkerId) (x x' : Worker) : Prop where
  /-- A handle is left by the call that has started the worker. -/
  handle : x'.handle.isSome = true → x.handle.isSome = true ∨
    ∃ e thread, (s.threads t).errand = some e ∧ e.worker = w ∧ e.call = .keeping thread
  /-- Nobody falls asleep in the waits of a worker that is told to stop. -/
  sleepers : s.force.tokens.isCancelled x.stop = true → x'.sleepers ⊆ x.sleepers

theorem modest_refl (s : Shift) (t : ThreadId) (w : WorkerId) (x : Worker) : Modest s t w x x :=
  ⟨Or.inl, fun _ => List.Subset.refl _⟩

theorem turn_modest (turn : Turn s t s') (there : s.force.worker? w = some x) (there' : s'.force.worker? w = some x') :
    Modest s t w x x' := by
  have same : s'.force.worker? w = s.force.worker? w → Modest s t w x x' := by
    intro same
    rw [same, there] at there'
    cases there'
    exact modest_refl s t w x
  have put : ∀ {v : WorkerId} {y y' : Worker}, s'.force.worker? w = (if v = w then some y' else s.force.worker? w) →
      s.force.worker? v = some y → Modest s t v y y' → Modest s t w x x' := by
    intro v y y' stored found modest
    by_cases here : v = w
    · subst here
      rw [if_pos rfl, there'] at stored
      obtain rfl := Option.some.inj stored
      obtain rfl := Option.some.inj (found.symm.trans there)
      exact modest
    · rw [if_neg here] at stored
      exact same stored
  have own : ∀ {v : WorkerId} {y y' : Worker}, s'.force = s.force.update v (fun _ => y') → s.force.worker? v = some y →
      y'.handle = y.handle → y'.sleepers = y.sleepers → Modest s t w x x' := by
    intro v y y' force found handle sleepers
    refine put ?_ found ⟨fun kept => Or.inl (handle ▸ kept), fun _ => sleepers ▸ List.Subset.refl _⟩
    rw [force, Workforce.worker?_put (Option.isSome_iff_exists.mpr ⟨y, found⟩)]
  have called : ∀ {e : Errand} {y y' : Worker} {ts : StopTokens} {move : Worker.Move} {refusal : Option String},
      (s.threads t).errand = some e → s.force.worker? e.worker = some y →
      Worker.Section t (s.grant refusal) s.force.tokens y e.call move ts y' → Modest s t e.worker y y' := by
    intro e y y' ts move refusal errand found part
    generalize at_ : e.call = call at part
    cases part with
    | keep => exact ⟨fun _ => Or.inr ⟨e, _, errand, rfl, at_⟩, fun _ => List.Subset.refl _⟩
    | collect => exact ⟨nofun, fun _ => List.Subset.refl _⟩
    | doze _ unasked => exact ⟨Or.inl, fun asked => by simp [unasked] at asked⟩
    | rise _ fewer => exact ⟨Or.inl, fun _ => fewer⟩
    | wake => exact ⟨Or.inl, fun _ => List.nil_subset _⟩
    | launch | refuse | decline | publish | announce | cancel | own | other | pass | miss | join =>
      exact ⟨Or.inl, fun _ => List.Subset.refl _⟩
  cases turn with
  | arrive | lose | order | finish => exact same rfl
  | chore c =>
    obtain ⟨handle, fewer⟩ := chore_record there there'
    exact ⟨fun kept => Or.inl (handle ▸ kept), fun _ => fewer⟩
  | release => exact same (Workforce.worker?_release _ _)
  | goOn errand found part | spawn errand found part | comeBack errand found part =>
    exact put (worker?_stored (Option.isSome_iff_exists.mpr ⟨_, found⟩) _ _ _) found (called errand found part)
  | begin _ found => exact own rfl found rfl rfl
  | take _ found => exact own rfl found rfl rfl
  | skip _ found => exact own rfl found rfl rfl
  | exit _ found => exact own rfl found rfl rfl
  | close _ found => exact own rfl found rfl rfl

/-- What a worker that has just been made looks like. -/
theorem turn_hired (tended : s.Tended) (turn : Turn s t s') (none : s.force.worker? w = none)
    (there' : s'.force.worker? w = some x') :
    ∃ (name : String) (o : WorkerOptions), x' =
      { name, threadName := Worker.threadNameOf o.threadPrefix name, stop := (s.force.tokens.derive o.parent).1 } := by
  have absent : ∀ {f : Workforce}, f.worker? w = s.force.worker? w → f.worker? w ≠ some x' := by
    intro f same there
    rw [same, none] at there
    cases there
  have called : ∀ {e : Errand} {ts : StopTokens} {y : Worker}, (s.threads t).errand = some e →
      (s.stored e ts y).worker? w = s.force.worker? w := by
    intro e ts y errand
    have found := tended.staffed t e errand
    rw [worker?_stored found, if_neg]
    rintro rfl
    rw [none] at found
    cases found
  have own : ∀ {v : WorkerId} {y y' : Worker}, s.force.worker? v = some y →
      (s.force.update v fun _ => y').worker? w = s.force.worker? w := by
    intro v y y' found
    rw [Workforce.worker?_put (Option.isSome_iff_exists.mpr ⟨y, found⟩), if_neg]
    rintro rfl
    rw [none] at found
    cases found
  cases turn with
  | arrive | lose | order | finish => exact absurd there' (absent rfl)
  | chore c =>
    cases c with
    | hire name o =>
      rw [Chore.perform, Workforce.worker?_hire] at there'
      split at there'
      · exact ⟨name, o, (Option.some.inj there').symm⟩
      · exact absurd there' (absent rfl)
    | signal v =>
      refine absurd there' (absent ?_)
      rw [Chore.perform, Workforce.worker?_update, none]
      split <;> rfl
    | addRoster | derive | cancel | withdraw => exact absurd there' (absent rfl)
    | announce => exact absurd there' (absent (Workforce.worker?_announce _ _ _))
  | release => exact absurd there' (absent (Workforce.worker?_release _ _))
  | goOn errand | spawn errand | comeBack errand => exact absurd there' (absent (called errand))
  | begin _ found | take _ found | skip _ found | exit _ found | close _ found => exact absurd there' (absent (own found))

/-! ### Handles and threads, whatever threads do -/

/-- A handle is there only when the worker has been started, and a thread that a worker was started on is nobody else's. -/
structure Grounded (s : Shift) : Prop where
  handle : ∀ w x, s.force.worker? w = some x → x.handle.isSome = true → x.lifecycle ≠ .idle
  known : ∀ t e x thread, (s.threads t).errand = some e → (e.call = .announcing thread ∨ e.call = .keeping thread) →
    s.force.worker? e.worker = some x → x.lifecycle ≠ .idle
  inside : ∀ w t, t ∈ launches s.log w → t < s.born ∧ (s.threads t).station ≠ .outside

theorem Follows.begun {a b : Lifecycle} (follows : Follows a b) (begun : a ≠ .idle) : b ≠ .idle := by
  rcases follows with same | ⟨idle, _⟩ | ⟨_, exited⟩
  · exact same ▸ begun
  · exact absurd idle begun
  · rw [exited]
    exact nofun

theorem turn_handle (tended : s.Tended) (grounded : s.Grounded) (turn : Turn s t s') (there' : s'.force.worker? w = some x')
    (kept : x'.handle.isSome = true) : x'.lifecycle ≠ .idle := by
  cases there : s.force.worker? w with
  | none =>
    obtain ⟨_, _, rfl⟩ := turn_hired tended turn there there'
    cases kept
  | some x =>
    obtain ⟨y, found, _, follows⟩ := turn_worker tended turn there
    obtain rfl := Option.some.inj (found.symm.trans there')
    refine follows.begun ?_
    rcases (turn_modest turn there there').handle kept with before | ⟨e, thread, errand, rfl, keeps⟩
    · exact grounded.handle w x there before
    · exact grounded.known t e x thread errand (Or.inr keeps) there

theorem turn_known {thread : ThreadId} (tended : s.Tended) (grounded : s.Grounded) (turn : Turn s t s')
    (errand : (s'.threads u).errand = some e) (late : e.call = .announcing thread ∨ e.call = .keeping thread)
    (there' : s'.force.worker? e.worker = some x') : x'.lifecycle ≠ .idle := by
  -- The call was known to be that far before.
  have known : ∀ {u : ThreadId} {e' : Errand}, (s.threads u).errand = some e' → e'.worker = e.worker →
      (e'.call = .announcing thread ∨ e'.call = .keeping thread) → x'.lifecycle ≠ .idle := by
    intro u e' errand same late
    obtain ⟨x, there⟩ := Option.isSome_iff_exists.mp (tended.staffed u e' errand)
    obtain ⟨y, found, _, follows⟩ := turn_worker tended turn there
    rw [same] at found
    obtain rfl := Option.some.inj (found.symm.trans there')
    exact follows.begun (grounded.known u e' x thread errand late there)
  by_cases mine : u = t
  · subst mine
    cases turn with
    | arrive new =>
      rw [new, enter_new] at errand
      cases errand
    | chore | release | lose => exact known errand rfl late
    | @order o w free =>
      rw [begin, after_self] at errand
      cases errand
      cases o <;> simp [Order.call] at late
    | @goOn e' x c ts y' refusal before there part =>
      rw [after_self] at errand
      cases errand
      generalize at_ : e'.call = call at part
      cases part with
      | publish =>
        have stored : s.force.worker? e'.worker = some x := there
        rw [after_force, worker?_stored (Option.isSome_iff_exists.mpr ⟨x, stored⟩), if_pos rfl] at there'
        obtain rfl := Option.some.inj there'
        intro idle
        cases idle
      | announce =>
        cases late with
        | inl late => cases late
        | inr late =>
          cases late
          exact known before rfl (Or.inl at_)
      | doze | cancel | wake | other | pass | collect => simp at late
    | @spawn e' x c ts y' refusal thread' before there part =>
      have old : u ≠ s.born := old_of_errand tended before
      have made : (((s.after u (s.stored e' ts y') { (s.threads u) with errand := some { e' with call := c } }
          [.spawned e'.number e'.worker thread']).enter (.on e'.worker .beginning)).threads u).errand =
            some { e' with call := c } := by
        rw [enter_other]
        · exact congrArg Hand.errand after_self
        · exact old
      rw [made] at errand
      cases errand
      obtain ⟨_, rfl⟩ := Worker.section_spawns part
      simp at late
    | comeBack | begin | take | skip | finish | exit | close =>
      rw [after_self] at errand
      cases errand
  · rw [errand_of_other tended turn mine] at errand
    exact known errand rfl late

/-- Threads that are nobody's come from outside. -/
theorem outside_of_turn (turn : Turn s t s') (outside : (s'.threads u).station = .outside) :
    (s.threads u).station = .outside ∨ u = s.born ∧ s'.log = s.log := by
  have own : ∀ {f : Workforce} {h : Hand} {es : List Entry}, h.station ≠ .outside →
      ((s.after t f h es).threads u).station = .outside → (s.threads u).station = .outside := by
    intro f h es inside outside
    by_cases mine : u = t
    · rw [mine, after_self] at outside
      exact absurd outside inside
    · rwa [after_other mine] at outside
  cases turn with
  | arrive =>
    by_cases new : u = s.born
    · exact Or.inr ⟨new, rfl⟩
    · rw [enter_other new] at outside
      exact Or.inl outside
  | chore | release | lose => exact Or.inl outside
  | order | goOn | comeBack =>
    rw [← station_after u]
    exact Or.inl outside
  | @spawn e x c ts x' refusal thread errand there part =>
    by_cases new : u = s.born
    · rw [new] at outside
      cases (congrArg Hand.station enter_new).symm.trans outside
    · rw [enter_other] at outside
      · rw [← station_after u]
        exact Or.inl outside
      · exact new
  | begin | take | skip | finish | exit | close => exact Or.inl (own (by simp) outside)

theorem turn_inside (tended : s.Tended) (grounded : s.Grounded) (turn : Turn s t s') (member : u ∈ launches s'.log w) :
    u < s'.born ∧ (s'.threads u).station ≠ .outside := by
  obtain ⟨es, log, new⟩ := launches_of_turn turn
  rw [log, launches_append] at member
  rcases List.mem_append.mp member with old | fresh
  · obtain ⟨there, inside⟩ := grounded.inside w u old
    refine ⟨Nat.lt_of_lt_of_le there (born_le turn), fun outside => ?_⟩
    rcases outside_of_turn turn outside with before | ⟨rfl, _⟩
    · exact inside before
    · exact Nat.lt_irrefl _ there
  · obtain rfl := new w u fresh
    have silent : s'.log = s.log → False := by
      intro same
      rw [log] at same
      rw [List.append_right_eq_self.mp same] at fresh
      cases fresh
    have there : s.born < s'.born := by
      cases turn with
      | spawn => exact Nat.lt_succ_self _
      | arrive | chore | release | lose => exact (silent rfl).elim
      | order | comeBack | begin | take | skip | finish | exit | close =>
        obtain rfl := List.append_cancel_left log
        cases fresh
      | goOn =>
        obtain rfl := List.append_cancel_left log
        unfold Errand.remembered at fresh
        split at fresh <;> cases fresh
    refine ⟨there, fun outside => ?_⟩
    rcases outside_of_turn turn outside with before | ⟨_, same⟩
    · rw [tended.unborn _ (Nat.le_refl _)] at before
      cases before
    · exact silent same

theorem turn_grounded (tended : s.Tended) (grounded : s.Grounded) (turn : Turn s t s') : s'.Grounded where
  handle _ _ := turn_handle tended grounded turn
  known _ _ _ _ := turn_known tended grounded turn
  inside _ _ := turn_inside tended grounded turn

theorem grounded_fresh : Grounded {} where
  handle _ _ there := nomatch there
  known _ _ _ _ errand := nomatch errand
  inside _ _ member := nomatch member

/-- Nobody can be taken for a worker's own thread who stands outside. -/
theorem foreign_of_outside (tended : s.Tended) (grounded : s.Grounded) (there : s.force.worker? w = some x)
    (outside : (s.threads t).station = .outside) : x.thread ≠ some t := by
  intro mine
  have launched := (tended.sound w x there).course.launched_of_thread mine
  exact (grounded.inside w t (launched ▸ List.mem_singleton_self t)).2 outside

/-! ### Winding down -/

/-- What may go on while thread `t` terminates workers: calls in progress, and bodies that sleep on their own workers until
they are told to stop, and return. -/
def isMild (s : Shift) (u : ThreadId) : Action → Bool
  | .advance .. | .proceed | .finish _ | .release _ => true
  | .order (.sleep _) w => (s.threads u).station == .on w .body && !s.force.shouldStop w
  | _ => false

/-- Thread `t` is no worker's and may be terminating a worker; others sleep, bodies on their own workers. -/
structure Resting (s : Shift) (t : ThreadId) : Prop where
  outside : (s.threads t).station = .outside
  mine : ∀ e, (s.threads t).errand = some e → e.order = .terminate
  others : ∀ u e, u ≠ t → (s.threads u).errand = some e →
    (∃ until?, e.order = .sleep until?) ∧ ∀ w r, s.posts w u r → e.worker = w

inductive Eased (s : Shift) (u : ThreadId) : Action → Shift → Prop
  | release {v : WorkerId} (unused : s.isUsed v = false) :
    Eased s u (.release v) { s with force := s.force.release v s.homeIsThere }
  | order {v : WorkerId} {until?} (stands : s.posts v u .body) (unasked : s.force.shouldStop v = false)
    (idle : (s.threads u).errand = none) : Eased s u (.order (.sleep until?) v) (s.begin u (.sleep until?) v)
  | advance {now refusal} {after : Shift} (advanced : Advanced s u after) : Eased s u (.advance now refusal) after
  | proceed {after : Shift} (proceeded : Proceeded s u after) : Eased s u .proceed after
  | finish {v : WorkerId} (hand : s.threads u = ⟨.on v .body, none⟩) (panicked : Bool) :
    Eased s u (.finish panicked) (s.after u s.force { station := .on v .exiting } [.ended v panicked])

theorem eased_of_act (staffed : s.Staffed) (mild : s.isMild u a = true) (acted : s.act u a = some s') : Eased s u a s' := by
  cases a with
  | arrive | chore | lose => cases mild
  | release w =>
    simp only [act, Option.ite_none_left_eq_some, Option.some.injEq, Bool.not_eq_true] at acted
    obtain ⟨unused, rfl⟩ := acted
    exact .release unused
  | order o w =>
    cases o with
    | start | terminate => cases mild
    | sleep until? =>
      simp only [isMild, Bool.and_eq_true, beq_iff_eq, Bool.not_eq_true'] at mild
      simp only [act, Hand.isFree, Option.ite_none_right_eq_some, Bool.and_eq_true, Option.isNone_iff_eq_none,
        Option.some.injEq] at acted
      obtain ⟨⟨⟨_, idle⟩, _⟩, rfl⟩ := acted
      exact .order mild.1 mild.2 idle
  | advance => exact .advance (advanced_of_act staffed acted)
  | proceed => exact .proceed (proceeded_of_act acted)
  | finish p =>
    simp only [act] at acted
    split at acted
    · rename_i w hand
      cases acted
      exact .finish hand p
    · cases acted

/-- While others rest, nobody starts a worker. -/
theorem covers_resting (witnessed : s.Witnessed) (resting : s.Resting t) (errand : (s.threads u).errand = some e) :
    u = t ∧ Order.Covers .terminate e.call ∨ u ≠ t ∧ ∃ until?, e.call = .settling until? ∨ e.call = .sleeping until? := by
  have covers := (witnessed.errands u e errand).covers
  by_cases mine : u = t
  · subst mine
    rw [resting.mine e errand] at covers
    exact Or.inl ⟨rfl, covers⟩
  · obtain ⟨⟨until?, order⟩, _⟩ := resting.others u e mine errand
    rw [order] at covers
    refine Or.inr ⟨mine, ?_⟩
    cases call : e.call with
    | settling until? => exact ⟨until?, Or.inl rfl⟩
    | sleeping until? => exact ⟨until?, Or.inr rfl⟩
    | starting | publishing | announcing | keeping | cancelling | waking | recognizing | awaiting | collecting | joining =>
      rw [call] at covers
      cases covers

theorem unstarted (witnessed : s.Witnessed) (resting : s.Resting t) (errand : (s.threads u).errand = some e) :
    e.call ≠ .starting ∧ (∀ thread, e.call ≠ .publishing thread) ∧ ∀ thread, e.call ≠ .keeping thread := by
  rcases covers_resting witnessed resting errand with ⟨_, covers⟩ | ⟨_, until?, rests⟩
  · refine ⟨?_, fun thread => ?_, fun thread => ?_⟩ <;>
    · intro call
      rw [call] at covers
      cases covers
  · rcases rests with call | call <;> simp [call]

theorem unheld_resting (tended : s.Tended) (witnessed : s.Witnessed) (resting : s.Resting t)
    (there : s.force.worker? w = some x) : x.starter = none := by
  cases held : x.starter with
  | none => rfl
  | some u =>
    obtain ⟨e, thread, errand, _, publishes⟩ := ((tended.sound w x there).starter u).mp held
    exact absurd publishes ((unstarted witnessed resting errand).2.1 thread)

theorem errand_of_proceeded (proceeded : Proceeded s u s') : (s.threads u).errand = none ∧ (s'.threads u).errand = none := by
  cases proceeded with
  | begin hand | take hand | skip hand | exit hand | close hand =>
    exact ⟨congrArg Hand.errand hand, congrArg Hand.errand after_self⟩

/-- Threads that do not move stay where they are. -/
theorem eased_others (witnessed : s.Witnessed) (resting : s.Resting t) (eased : Eased s u a s') (other : v ≠ u) :
    s'.threads v = s.threads v := by
  cases eased with
  | release => rfl
  | order | finish => exact after_other other
  | advance advanced =>
    cases advanced with
    | goOn | comeBack => exact after_other other
    | spawn errand there part => exact absurd (Worker.section_spawns part).1 (unstarted witnessed resting errand).1
  | proceed proceeded =>
    cases proceeded with
    | begin | take | skip | exit | close => exact after_other other

theorem eased_born (witnessed : s.Witnessed) (resting : s.Resting t) (eased : Eased s u a s') : s'.born = s.born := by
  cases eased with
  | release | order | finish => rfl
  | advance advanced =>
    cases advanced with
    | goOn | comeBack => rfl
    | spawn errand there part => exact absurd (Worker.section_spawns part).1 (unstarted witnessed resting errand).1
  | proceed proceeded =>
    cases proceeded with
    | begin | take | skip | exit | close => rfl

theorem eased_resting (witnessed : s.Witnessed) (resting : s.Resting t) (eased : Eased s u a s') : s'.Resting t := by
  have others : ∀ v, v ≠ u → s'.threads v = s.threads v := fun v => eased_others witnessed resting eased
  -- It is enough to look at the thread that moves.
  have enough : (u = t → (s'.threads u).station = .outside ∧ ∀ e, (s'.threads u).errand = some e → e.order = .terminate) →
      (u ≠ t → ∀ e, (s'.threads u).errand = some e →
        (∃ until?, e.order = .sleep until?) ∧ ∀ w r, s'.posts w u r → e.worker = w) →
      s'.Resting t := by
    intro mine other
    constructor
    · by_cases here : u = t
      · exact here ▸ (mine here).1
      · rw [others t fun same => here same.symm]
        exact resting.outside
    · by_cases here : u = t
      · exact here ▸ (mine here).2
      · rw [others t fun same => here same.symm]
        exact resting.mine
    · intro v e apart errand
      by_cases here : v = u
      · subst here
        exact other apart e errand
      · rw [others v here] at errand
        obtain ⟨sleeps, own⟩ := resting.others v e apart errand
        refine ⟨sleeps, fun w r stands => own w r ?_⟩
        rw [posts, others v here] at stands
        exact stands
  cases eased with
  | release => exact ⟨resting.outside, resting.mine, resting.others⟩
  | @order w until? stands =>
    have apart : u ≠ t := by
      rintro rfl
      have outside := resting.outside
      rw [show (s.threads u).station = .on w .body from stands] at outside
      cases outside
    refine enough (fun here => absurd here apart) fun _ e errand => ?_
    rw [begin, after_self] at errand
    cases errand
    refine ⟨⟨until?, rfl⟩, fun v r stands' => ?_⟩
    rw [posts, begin, station_after, show (s.threads u).station = .on w .body from stands] at stands'
    exact (Station.on.inj stands').1
  | advance advanced =>
    cases advanced with
    | @goOn e x c ts x' refusal errand there part =>
      refine enough ?_ ?_
      · rintro rfl
        rw [after_self]
        refine ⟨resting.outside, fun e' same => ?_⟩
        cases same
        exact resting.mine e errand
      · intro apart e' same
        rw [after_self] at same
        cases same
        obtain ⟨sleeps, own⟩ := resting.others u e apart errand
        refine ⟨sleeps, fun w r stands => own w r ?_⟩
        rw [posts, station_after] at stands
        exact stands
    | spawn errand there part => exact absurd (Worker.section_spawns part).1 (unstarted witnessed resting errand).1
    | comeBack =>
      refine enough ?_ ?_
      · rintro rfl
        rw [after_self]
        refine ⟨resting.outside, fun e' same => ?_⟩
        cases same
      · intro _ e' same
        rw [after_self] at same
        cases same
  | proceed proceeded =>
    have apart : u ≠ t := by
      rintro rfl
      have outside := resting.outside
      cases proceeded with
      | begin hand | take hand | skip hand | exit hand | close hand =>
        rw [hand] at outside
        cases outside
    refine enough (fun here => absurd here apart) fun _ e errand => ?_
    rw [(errand_of_proceeded proceeded).2] at errand
    cases errand
  | finish hand =>
    have apart : u ≠ t := by
      rintro rfl
      have outside := resting.outside
      rw [hand] at outside
      cases outside
    refine enough (fun here => absurd here apart) fun _ e errand => ?_
    rw [after_self] at errand
    cases errand

/-- Only the call that terminates a worker asks for a stop. -/
theorem eased_tokens (witnessed : s.Witnessed) (resting : s.Resting t) (eased : Eased s u a s') (other : u ≠ t) :
    s'.force.tokens = s.force.tokens := by
  cases eased with
  | release => exact tokens_release _ _ _
  | order | finish => rfl
  | advance advanced =>
    have sleeps : ∀ {e : Errand} {x : Worker} {move : Worker.Move} {ts : StopTokens} {x' : Worker} {refusal : Option String},
        (s.threads u).errand = some e → Worker.Section u (s.grant refusal) s.force.tokens x e.call move ts x' →
        ts = s.force.tokens := by
      intro e x move ts x' refusal errand part
      rcases covers_resting witnessed resting errand with ⟨mine, _⟩ | ⟨_, until?, rests⟩
      · exact absurd mine other
      · generalize e.call = call at part rests
        rcases rests with rfl | rfl <;> cases part <;> rfl
    cases advanced with
    | goOn errand there part | comeBack errand there part =>
      rw [after_force, tokens_stored]
      exact sleeps errand part
    | spawn errand there part => exact absurd (Worker.section_spawns part).1 (unstarted witnessed resting errand).1
  | proceed proceeded =>
    cases proceeded with
    | begin | take | skip | exit | close => rfl

/-- A worker that does not run is left as it is. -/
theorem eased_lifecycle (tended : s.Tended) (witnessed : s.Witnessed) (resting : s.Resting t) (eased : Eased s u a s')
    (there : s.force.worker? w = some x) (still : x.lifecycle ≠ .running) (there' : s'.force.worker? w = some x') :
    x'.lifecycle = x.lifecycle := by
  have same : s'.force.worker? w = s.force.worker? w → x'.lifecycle = x.lifecycle := by
    intro same
    rw [same, there] at there'
    rw [Option.some.inj there']
  have put : ∀ {v : WorkerId} {y y' : Worker}, s'.force.worker? w = (if v = w then some y' else s.force.worker? w) →
      s.force.worker? v = some y → (y.lifecycle ≠ .running → y'.lifecycle = y.lifecycle) → x'.lifecycle = x.lifecycle := by
    intro v y y' stored found kept
    by_cases here : v = w
    · subst here
      rw [if_pos rfl, there'] at stored
      obtain rfl := Option.some.inj stored
      obtain rfl := Option.some.inj (found.symm.trans there)
      exact kept still
    · rw [if_neg here] at stored
      exact same stored
  cases eased with
  | release => exact same (Workforce.worker?_release _ _)
  | order | finish => exact same rfl
  | advance advanced =>
    have section_ : ∀ {e : Errand} {y y' : Worker} {move : Worker.Move} {ts : StopTokens} {refusal : Option String},
        (s.threads u).errand = some e → Worker.Section u (s.grant refusal) s.force.tokens y e.call move ts y' →
        y'.lifecycle = y.lifecycle := by
      intro e y y' move ts refusal errand part
      have unpublished := (unstarted witnessed resting errand).2.1
      generalize e.call = call at part unpublished
      cases part with
      | publish => exact absurd rfl (unpublished _)
      | launch | refuse | decline | announce | keep | doze | rise | cancel | wake | own | other | pass | collect | miss
      | join => rfl
    cases advanced with
    | goOn errand found part | spawn errand found part | comeBack errand found part =>
      exact put (worker?_stored (Option.isSome_iff_exists.mpr ⟨_, found⟩) _ _ _) found fun _ => section_ errand part
  | proceed proceeded =>
    cases proceeded with
    | begin _ found | take _ found | skip _ found | close _ found =>
      exact put (Workforce.worker?_put (Option.isSome_iff_exists.mpr ⟨_, found⟩) _) found fun _ => rfl
    | exit hand found unheld =>
      refine put (Workforce.worker?_put (Option.isSome_iff_exists.mpr ⟨_, found⟩) _) found fun still => absurd ?_ still
      exact (tended.sound _ _ found).course.running_of_on unheld (stands_of_hand hand)

theorem resting_begin (resting : s.Resting t) : (s.begin t .terminate w).Resting t := by
  constructor
  · rw [begin, station_after]
    exact resting.outside
  · intro e errand
    rw [begin, after_self] at errand
    cases errand
    rfl
  · intro v e other errand
    rw [begin, after_other other] at errand
    obtain ⟨sleeps, own⟩ := resting.others v e other errand
    refine ⟨sleeps, fun q r stands => own q r ?_⟩
    rw [posts, begin, after_other other] at stands
    exact stands

/-! ### Rosters -/

end Switchboard.Shift

namespace Switchboard.Workforce

variable {f : Workforce} {w v : WorkerId} {r q : RosterId}

/-- The workers in a roster that somebody holds. -/
def live (f : Workforce) (r : RosterId) (order : StopOrder) : List WorkerId := (f.roster r).workers f.isAlive order

theorem isAlive_update (f : Workforce) (w : WorkerId) (change : Worker → Worker) (v : WorkerId) :
    (f.update w change).isAlive v = f.isAlive v := by
  simp only [isAlive, member?, update, List.getElem?_modify]
  cases f.members[v]? with
  | none => rfl
  | some m => by_cases same : w = v <;> simp [same]

theorem isAlive_letGo : (f.letGo w).isAlive v = (f.isAlive v && v != w) := by
  simp only [letGo, isAlive, member?, List.getElem?_modify]
  cases f.members[v]? with
  | none => rfl
  | some m =>
    by_cases same : v = w
    · simp [same]
    · simp [same, Ne.symm same]

theorem isAlive_release (homeIsThere : RosterId → Bool) :
    (f.release w homeIsThere).isAlive v = (f.isAlive v && v != w) := by
  rcases release_cases f w homeIsThere with same | ⟨r, same⟩
  · rw [same, isAlive_letGo]
  · rw [same]
    exact isAlive_letGo

theorem roster_setRoster (roster : Roster) :
    (f.setRoster q roster).roster r = f.roster r ∨ q = r ∧ (f.setRoster q roster).roster r = roster := by
  simp only [Workforce.roster, setRoster, List.getElem?_set]
  split
  · rename_i here
    subst here
    split
    · exact Or.inr ⟨rfl, rfl⟩
    · rename_i beyond
      rw [List.getElem?_eq_none (Nat.le_of_not_lt beyond)]
      exact Or.inl rfl
  · exact Or.inl rfl

/-- A roster loses no worker but the one that is let go. -/
theorem roster_release (homeIsThere : RosterId → Bool) :
    ((f.release w homeIsThere).roster r).entries = (f.roster r).entries ∨
      ((f.release w homeIsThere).roster r).entries = (f.roster r).entries.filter fun e => e.worker != w := by
  rcases release_cases f w homeIsThere with same | ⟨q, same⟩
  · rw [same]
    exact Or.inl rfl
  · rw [same]
    rcases roster_setRoster (f := f.letGo w) (q := q) (r := r) ((f.roster q).unregister w).2 with kept | ⟨rfl, new⟩
    · exact Or.inl (congrArg Roster.entries kept)
    · exact Or.inr (congrArg Roster.entries new)

theorem alive_of_live {order : StopOrder} (member : w ∈ f.live r order) : f.isAlive w = true := by
  cases order with
  | registration => exact (List.mem_filter.mp member).2
  | reverse => exact (List.mem_filter.mp (List.mem_reverse.mp member)).2

theorem live_self (f : Workforce) (r : RosterId) (order : StopOrder) : (f.live r order).filter f.isAlive = f.live r order :=
  List.filter_eq_self.mpr fun _ => alive_of_live

theorem live_release (homeIsThere : RosterId → Bool) (order : StopOrder) :
    (f.release w homeIsThere).live r order = (f.live r order).filter (f.release w homeIsThere).isAlive := by
  have members :
      (((f.release w homeIsThere).roster r).entries.map Roster.Entry.worker).filter (f.release w homeIsThere).isAlive =
      (((f.roster r).entries.map Roster.Entry.worker).filter f.isAlive).filter (f.release w homeIsThere).isAlive := by
    rw [List.filter_filter]
    have weaker : ∀ v, ((f.release w homeIsThere).isAlive v && f.isAlive v) = (f.release w homeIsThere).isAlive v := by
      intro v
      rw [isAlive_release]
      cases f.isAlive v <;> simp
    rw [funext weaker]
    rcases roster_release (f := f) (w := w) (r := r) homeIsThere with same | fewer
    · rw [same]
    · have stronger : ∀ v, ((f.release w homeIsThere).isAlive v && v != w) = (f.release w homeIsThere).isAlive v := by
        intro v
        rw [isAlive_release, Bool.and_assoc, Bool.and_self]
      have mapped : ((f.roster r).entries.filter fun e => e.worker != w).map Roster.Entry.worker =
          ((f.roster r).entries.map Roster.Entry.worker).filter fun v => v != w := by
        rw [List.filter_map]
        rfl
      rw [fewer, mapped, List.filter_filter, funext stronger]
  unfold live Roster.workers
  cases order with
  | registration => exact members
  | reverse => rw [List.filter_reverse, members]

end Switchboard.Workforce

namespace Switchboard.Shift

variable {s s' : Shift} {t u v : ThreadId} {w : WorkerId} {x x' : Worker} {e : Errand} {a : Action}

/-- A mild move lets a worker go, or nobody is let go and every roster stays as it is. -/
theorem eased_members (witnessed : s.Witnessed) (resting : s.Resting t) (eased : Eased s u a s') :
    (∃ v, a = .release v ∧ s'.force = s.force.release v s.homeIsThere) ∨
      s'.force.isAlive = s.force.isAlive ∧ s'.force.rosters = s.force.rosters := by
  have put : ∀ {f : Workforce} {v : WorkerId} {y : Worker}, f.members = s.force.members → f.rosters = s.force.rosters →
      (f.update v fun _ => y).isAlive = s.force.isAlive ∧ (f.update v fun _ => y).rosters = s.force.rosters := by
    intro f v y members rosters
    refine ⟨funext fun w => ?_, rosters⟩
    rw [Workforce.isAlive_update, Workforce.isAlive, Workforce.isAlive, Workforce.member?, Workforce.member?, members]
  have called : ∀ {e : Errand} {ts : StopTokens} {y : Worker}, (s.threads u).errand = some e →
      (s.stored e ts y).isAlive = s.force.isAlive ∧ (s.stored e ts y).rosters = s.force.rosters := by
    intro e ts y errand
    unfold stored
    split
    · rename_i thread call
      rcases covers_resting witnessed resting errand with ⟨_, covers⟩ | ⟨_, until?, rests⟩
      · rw [call] at covers
        cases covers
      · simp [call] at rests
    · exact put rfl rfl
  cases eased with
  | @release v => exact Or.inl ⟨v, rfl, rfl⟩
  | order | finish => exact Or.inr ⟨rfl, rfl⟩
  | advance advanced =>
    cases advanced with
    | goOn errand | spawn errand | comeBack errand => exact Or.inr (called errand)
  | proceed proceeded =>
    cases proceeded with
    | begin | take | skip | exit | close => exact Or.inr (put rfl rfl)

theorem eased_alive (witnessed : s.Witnessed) (resting : s.Resting t) (eased : Eased s u a s') (kept : a ≠ .release w)
    (alive : s.force.isAlive w = true) : s'.force.isAlive w = true := by
  rcases eased_members witnessed resting eased with ⟨v, rfl, force⟩ | ⟨same, _⟩
  · have other : w ≠ v := fun here => kept (here ▸ rfl)
    rw [force, Workforce.isAlive_release, alive]
    simpa using other
  · rw [same, alive]

/-- The workers in a roster that somebody holds are those of before that somebody holds still. -/
theorem eased_live (witnessed : s.Witnessed) (resting : s.Resting t) (eased : Eased s u a s') (r : RosterId)
    (order : StopOrder) : s'.force.live r order = (s.force.live r order).filter s'.force.isAlive := by
  rcases eased_members witnessed resting eased with ⟨v, _, force⟩ | ⟨alive, rosters⟩
  · rw [force]
    exact Workforce.live_release _ order
  · have same : s'.force.live r order = s.force.live r order := by
      rw [Workforce.live, Workforce.live, Workforce.roster, Workforce.roster, alive, rosters]
    rw [same, alive, Workforce.live_self]

theorem eased_gone (witnessed : s.Witnessed) (resting : s.Resting t) (eased : Eased s u a s')
    (alive : s'.force.isAlive w = true) : s.force.isAlive w = true := by
  rcases eased_members witnessed resting eased with ⟨v, _, force⟩ | ⟨same, _⟩
  · rw [force, Workforce.isAlive_release, Bool.and_eq_true] at alive
    exact alive.1
  · rwa [same] at alive

/-- A mild move is a section of thread `t`'s own call, or none of its doing. -/
theorem eased_aside (witnessed : s.Witnessed) (resting : s.Resting t) (eased : Eased s u a s') :
    ((u = t → ∃ v, a = .release v) ∧ s'.threads t = s.threads t ∧ s'.force.tokens = s.force.tokens) ∨
      u = t ∧ Advanced s t s' := by
  by_cases mine : u = t
  · subst mine
    have nowhere : ∀ {v r}, (s.threads u).station ≠ .on v r := by simp [resting.outside]
    cases eased with
    | release => exact Or.inl ⟨fun _ => ⟨_, rfl⟩, rfl, tokens_release _ _ _⟩
    | order stands => exact absurd stands nowhere
    | finish hand => exact absurd (congrArg Hand.station hand) nowhere
    | advance advanced => exact Or.inr ⟨rfl, advanced⟩
    | proceed proceeded =>
      cases proceeded with
      | begin hand | take hand | skip hand | exit hand | close hand => exact absurd (congrArg Hand.station hand) nowhere
  · exact Or.inl ⟨fun same => absurd same mine, eased_others witnessed resting eased fun same => mine same.symm,
      eased_tokens witnessed resting eased mine⟩

end Switchboard.Shift
