import Switchboard.Proofs.Context.Ownership
import Switchboard.Proofs.Worker.Enrolment

/-!
Sleepers and requests to stop. A call that terminates a worker cancels the worker's own token and then wakes all that sleep
in the worker's waits. A request that comes down from a token that the worker's was derived from wakes nobody. Main
statement: `sleepers_told`.
-/

namespace Switchboard

/-! ### Sleepers of one worker -/

namespace Worker

variable {me t : ThreadId} {now : Nat} {stopped : Bool} {until? : Option Nat} {grant : Except String ThreadId}
  {ts ts' : StopTokens} {x x' : Worker} {c : Call} {move : Move}

theorem look_spares (asleep : t ∈ x.sleepers) : t ∈ (x.look me now stopped until?).2.sleepers := by
  unfold look
  split
  · exact asleep
  · split
    · exact asleep
    · exact List.mem_append_left _ asleep

theorem advance_spares (other : t ≠ me) (deaf : c ≠ .waking) (asleep : t ∈ x.sleepers) (now : Nat)
    (grant : Except String ThreadId) (ts : StopTokens) : t ∈ (c.advance me now grant ts x).2.2.sleepers := by
  cases c with
  | waking => exact absurd rfl deaf
  | starting =>
    simp only [Call.advance, launch]
    split
    · exact asleep
    · split
      · split <;> exact asleep
      · exact asleep
  | settling => exact look_spares asleep
  | sleeping =>
    simp only [Call.advance]
    split
    · split
      · exact look_spares ((List.mem_erase_of_ne other).mpr asleep)
      · exact asleep
    · exact look_spares asleep
  | publishing | announcing | keeping | cancelling | recognizing | awaiting | collecting | joining => exact asleep

theorem section_cancelling (part : Section me grant ts x .cancelling move ts' x') :
    move = .goes .waking ∧ ts' = ts.cancel x.stop := by
  generalize at_ : Call.cancelling = c at part
  cases part with
  | cancel => exact ⟨rfl, rfl⟩
  | doze resting | rise resting => rcases resting with rfl | rfl <;> cases at_
  | launch | refuse | decline | publish | announce | keep | wake | own | other | pass | collect | miss | join => cases at_

theorem section_waking (part : Section me grant ts x .waking move ts' x') : x'.sleepers = [] := by
  generalize at_ : Call.waking = c at part
  cases part with
  | wake => rfl
  | doze resting | rise resting => rcases resting with rfl | rfl <;> cases at_
  | launch | refuse | decline | publish | announce | keep | cancel | own | other | pass | collect | miss | join => cases at_

end Worker

namespace Shift

variable {s s' : Shift} {t u : ThreadId} {w : WorkerId} {x x' : Worker} {e : Errand} {a : Action}
  {hands roots : List StopToken}

/-- Thread `t` sleeps in one of the worker's waits, without a time limit, and nobody has woken it. -/
structure Asleep (s : Shift) (t : ThreadId) (w : WorkerId) : Prop where
  rests : ∃ e, (s.threads t).errand = some e ∧ e.worker = w ∧ e.call = .sleeping none
  unwoken : ∃ x, s.force.worker? w = some x ∧ t ∈ x.sleepers

/-- A call on the worker has come this far. -/
def Reaches (s : Shift) (w : WorkerId) (c : Worker.Call) : Prop :=
  ∃ u e, (s.threads u).errand = some e ∧ e.worker = w ∧ e.call = c

/-- Somebody has called to terminate the worker. -/
def Bidden (s : Shift) (w : WorkerId) : Prop := ∃ n u, .called n u .terminate w ∈ s.log

/-- Whatever the time, the next section of thread `t` ends its call: what the sleep was waiting for has come. -/
def Rises (s : Shift) (t : ThreadId) (e : Errand) : Prop :=
  ∀ now refusal, ∃ s', s.act t (.advance now refusal) = some s' ∧ (s'.threads t).errand = none ∧
    s'.log = s.log ++ [.returned e.number t e.order e.worker .woken]

theorem asleep_blocked (asleep : s.Asleep t w) (now : Nat) (refusal : Option String) :
    s.act t (.advance now refusal) = none := by
  obtain ⟨⟨e, errand, rfl, rests⟩, x, there, unwoken⟩ := asleep
  rw [act_advance errand there, rests]
  simp [Worker.Call.advance, unwoken, follow]

/-- A sleeper that has been woken comes back when the worker is told to stop. -/
theorem rises_of_woken (errand : (s.threads t).errand = some e) (there : s.force.worker? e.worker = some x)
    (rests : e.call = .sleeping none) (told : s.force.shouldStop e.worker = true) (woken : t ∉ x.sleepers) : s.Rises t e := by
  intro now refusal
  rw [shouldStop_of_worker there] at told
  have wakes : e.call.advance t now (s.grant refusal) s.force.tokens x = (.ends .woken, s.force.tokens, x.wake) := by
    simp [rests, Worker.Call.advance, woken, Worker.look, Worker.mayWake, told]
  exact ⟨_, by rw [act_advance errand there, wakes]; rfl, congrArg Hand.errand after_self, rfl⟩

/-! ### What a move leaves of calls, tokens and the log -/

/-- A call in progress stands where it stood, or its thread has made a section of it. -/
theorem errand_kept (tended : s.Tended) (acted : s.act t a = some s') (errand : (s.threads u).errand = some e) :
    (s'.threads u).errand = some e ∨ (∃ now refusal, a = .advance now refusal) ∧ u = t ∧
      ∃ x refusal move ts x', s.force.worker? e.worker = some x ∧
        Worker.Section u (s.grant refusal) s.force.tokens x e.call move ts x' ∧ s'.force = s.stored e ts x' := by
  by_cases mine : u = t
  · subst mine
    cases a with
    | arrive =>
      simp only [act, Option.ite_none_right_eq_some, Option.some.injEq] at acted
      exact absurd acted.1 (old_of_errand tended errand)
    | order o v =>
      simp only [act, Option.ite_none_right_eq_some, Bool.and_eq_true, Hand.isFree, errand] at acted
      simp at acted
    | chore | release =>
      simp only [act, Option.ite_none_right_eq_some, Option.ite_none_left_eq_some, Option.some.injEq] at acted
      obtain ⟨_, rfl⟩ := acted
      exact Or.inl errand
    | lose r =>
      cases acted
      exact Or.inl errand
    | advance now refusal =>
      refine Or.inr ⟨⟨now, refusal, rfl⟩, rfl, ?_⟩
      cases advanced_of_act tended.staffed acted with
      | goOn errand' there part | spawn errand' there part | comeBack errand' there part =>
        obtain rfl := Option.some.inj (errand.symm.trans errand')
        exact ⟨_, _, _, _, _, there, part, rfl⟩
    | proceed =>
      cases proceeded_of_act acted with
      | begin hand | take hand | skip hand | exit hand | close hand =>
        rw [hand] at errand
        cases errand
    | finish p =>
      simp only [act] at acted
      split at acted
      · rename_i v hand
        rw [hand] at errand
        cases errand
      · cases acted
  · rw [errand_of_other tended (turn_of_act tended.staffed acted) mine]
    exact Or.inl errand

/-- A token is cancelled by whoever holds it, or it is a worker's and a call terminates the worker. -/
theorem cancelled_of_act (tended : s.Tended) (acted : s.act t a = some s') :
    s'.force.tokens.cancelled = s.force.tokens.cancelled ∨
    (∃ y, a = .chore (.cancel y) ∧ s'.force.tokens.cancelled = y.number :: s.force.tokens.cancelled) ∨
    ∃ e x, (s.threads t).errand = some e ∧ s.force.worker? e.worker = some x ∧
      s'.force.tokens.cancelled = x.stop.number :: s.force.tokens.cancelled ∧ s'.Reaches e.worker .waking := by
  cases a with
  | chore c =>
    simp only [act, Option.ite_none_right_eq_some, Option.some.injEq] at acted
    obtain ⟨_, rfl⟩ := acted
    cases c with
    | cancel y => exact Or.inr (Or.inl ⟨y, rfl, rfl⟩)
    | hire name o => exact Or.inl (cancelled_derive s.force.tokens o.parent)
    | derive parent => exact Or.inl (cancelled_derive s.force.tokens parent)
    | announce r v thread => exact Or.inl (congrArg StopTokens.cancelled (tokens_announce s.force r v thread))
    | addRoster | signal | withdraw => exact Or.inl rfl
  | release v =>
    simp only [act, Option.ite_none_left_eq_some, Option.some.injEq] at acted
    obtain ⟨_, rfl⟩ := acted
    exact Or.inl (congrArg StopTokens.cancelled (tokens_release ..))
  | arrive | order =>
    simp only [act, Option.ite_none_right_eq_some, Option.some.injEq] at acted
    obtain ⟨_, rfl⟩ := acted
    exact Or.inl rfl
  | lose r =>
    cases acted
    exact Or.inl rfl
  | proceed =>
    cases proceeded_of_act acted with
    | begin | take | skip | exit | close => exact Or.inl rfl
  | finish p =>
    simp only [act] at acted
    split at acted
    · cases acted
      exact Or.inl rfl
    · cases acted
  | advance now refusal =>
    have calm : ∀ {e : Errand} {x x' : Worker} {ts : StopTokens} {move : Worker.Move} {refusal : Option String},
        Worker.Section t (s.grant refusal) s.force.tokens x e.call move ts x' → e.call ≠ .cancelling →
        (s.stored e ts x').tokens.cancelled = s.force.tokens.cancelled := by
      intro e x x' ts move refusal part other
      rw [tokens_stored, tokens_of_section part, if_neg other]
    cases advanced_of_act tended.staffed acted with
    | spawn errand there part =>
      refine Or.inl (calm part fun cancels => ?_)
      cases (Worker.section_spawns part).1.symm.trans cancels
    | comeBack errand there part =>
      refine Or.inl (calm part fun cancels => ?_)
      rw [cancels] at part
      cases (Worker.section_cancelling part).1
    | @goOn e x c ts x' refusal errand there part =>
      by_cases cancels : e.call = .cancelling
      · rw [cancels] at part
        obtain ⟨⟨⟩, rfl⟩ := Worker.section_cancelling part
        refine Or.inr (Or.inr ⟨e, x, errand, there, ?_, t, _, congrArg Hand.errand after_self, rfl, rfl⟩)
        exact congrArg StopTokens.cancelled (tokens_stored ..)
      · exact Or.inl (calm part cancels)

theorem Bidden.later (bidden : s.Bidden w) (turn : s.Turn t s') : s'.Bidden w := by
  obtain ⟨n, u, member⟩ := bidden
  obtain ⟨es, log⟩ := turn_log turn
  exact ⟨n, u, log ▸ List.mem_append_left es member⟩

/-- A call that terminates a worker begins with the worker's own token. -/
theorem bidden_of_act (tended : s.Tended) (acted : s.act t a = some s') (bidden : s'.Bidden w) :
    s.Bidden w ∨ (s.force.worker? w).isSome = true ∧ s'.Reaches w .cancelling := by
  obtain ⟨n, u, member⟩ := bidden
  have added : ∀ {es : List Entry}, s'.log = s.log ++ es → .called n u .terminate w ∉ es → s.Bidden w := by
    intro es log new
    rw [log] at member
    exact ⟨n, u, (List.mem_append.mp member).resolve_right new⟩
  cases turn_of_act tended.staffed acted with
  | arrive | chore | release | lose => exact Or.inl ⟨n, u, member⟩
  | @order o v free alive =>
    rcases List.mem_append.mp member with old | new
    · exact Or.inl ⟨n, u, old⟩
    · cases List.mem_singleton.mp new
      obtain ⟨x, there⟩ := Workforce.worker_of_alive alive
      exact Or.inr ⟨by rw [there]; rfl, t, _, congrArg Hand.errand after_self, rfl, rfl⟩
  | goOn =>
    refine Or.inl (added rfl fun new => ?_)
    unfold Errand.remembered at new
    split at new
    · simp at new
    · cases new
  | spawn | comeBack | begin | take | skip | finish | exit | close => exact Or.inl (added rfl (by simp))

/-! ### Requests to stop that wake -/

/-- What holds of workers whose own token is cancelled, and of those that somebody has called to terminate. -/
structure Attentive (s : Shift) : Prop where
  orders : ∀ t e, (s.threads t).errand = some e → e.order = .terminate → s.Bidden e.worker
  roused : ∀ w x, s.force.worker? w = some x → x.stop.number ∈ s.force.tokens.cancelled →
    x.sleepers = [] ∨ s.Reaches w .waking
  bidden : ∀ w, s.Bidden w → ∃ x, s.force.worker? w = some x ∧
    (x.stop.number ∈ s.force.tokens.cancelled ∨ s.Reaches w .cancelling)

theorem attentive_fresh : Attentive {} where
  orders _ _ errand := nomatch errand
  roused _ _ there := nomatch there
  bidden _ bidden := nomatch bidden

/-- Nobody but a call that terminates a worker cancels the worker's own token, and it is about to wake. -/
theorem waking_of_cancelled (tended : s.Tended) (lineage : Lineage s.force.tokens.issued hands s.force.stops roots)
    (within : a.isWithin hands = true) (acted : s.act t a = some s') (there : s.force.worker? w = some x)
    (before : x.stop.number ∉ s.force.tokens.cancelled) (after : x.stop.number ∈ s'.force.tokens.cancelled) :
    s'.Reaches w .waking := by
  have stop : s.force.stops[w]? = some x.stop := by
    rw [Workforce.getElem?_stops, there]
    rfl
  obtain ⟨foreign, apart⟩ := lineage.apart w x.stop stop
  rcases cancelled_of_act tended acted with same | ⟨y, rfl, more⟩ | ⟨e, y, errand, found, more, reaches⟩
  · exact absurd (same ▸ after) before
  · rw [more] at after
    rcases List.mem_cons.mp after with number | old
    · have handed : y ∈ hands := by simpa [Action.isWithin] using within
      exact absurd (number ▸ List.mem_cons_self) (foreign y handed)
    · exact absurd old before
  · rw [more] at after
    rcases List.mem_cons.mp after with number | old
    · by_cases here : e.worker = w
      · exact here ▸ reaches
      · have stop' : s.force.stops[e.worker]? = some y.stop := by
          rw [Workforce.getElem?_stops, found]
          rfl
        exact absurd (number ▸ List.mem_cons_self) (apart e.worker y.stop stop' here)
    · exact absurd old before

theorem act_roused (tended : s.Tended) (lineage : Lineage s.force.tokens.issued hands s.force.stops roots)
    (attentive : s.Attentive) (within : a.isWithin hands = true) (acted : s.act t a = some s')
    (there' : s'.force.worker? w = some x') (cancelled : x'.stop.number ∈ s'.force.tokens.cancelled) :
    x'.sleepers = [] ∨ s'.Reaches w .waking := by
  have turn := turn_of_act tended.staffed acted
  cases there : s.force.worker? w with
  | none =>
    obtain ⟨_, _, rfl⟩ := turn_hired tended turn there there'
    exact Or.inl rfl
  | some x =>
    obtain ⟨y, found, stop, _⟩ := turn_worker tended turn there
    obtain rfl := Option.some.inj (found.symm.trans there')
    rw [stop] at cancelled
    by_cases before : x.stop.number ∈ s.force.tokens.cancelled
    · rcases attentive.roused w x there before with awake | ⟨u, e, errand, rfl, wakes⟩
      · have told : s.force.tokens.isCancelled x.stop = true :=
          StopTokens.isCancelled_iff.mpr ⟨_, List.mem_cons_self, before⟩
        exact Or.inl (List.subset_nil.mp (awake ▸ (turn_modest turn there there').sleepers told))
      · rcases errand_kept tended acted errand with kept | ⟨_, _, z, refusal, move, ts, z', _, part, force⟩
        · exact Or.inr ⟨u, e, kept, rfl, wakes⟩
        · rw [force, worker?_stored (tended.staffed u e errand), if_pos rfl] at there'
          obtain rfl := Option.some.inj there'
          exact Or.inl (Worker.section_waking (wakes ▸ part))
    · exact Or.inr (waking_of_cancelled tended lineage within acted there before cancelled)

theorem act_bidden (tended : s.Tended) (attentive : s.Attentive) (acted : s.act t a = some s') (bidden : s'.Bidden w) :
    ∃ x', s'.force.worker? w = some x' ∧ (x'.stop.number ∈ s'.force.tokens.cancelled ∨ s'.Reaches w .cancelling) := by
  have turn := turn_of_act tended.staffed acted
  rcases bidden_of_act tended acted bidden with before | ⟨there, begins⟩
  · obtain ⟨x, there, way⟩ := attentive.bidden w before
    obtain ⟨x', there', stop, _⟩ := turn_worker tended turn there
    refine ⟨x', there', ?_⟩
    rw [stop]
    rcases way with cancelled | ⟨u, e, errand, rfl, cancels⟩
    · exact Or.inl (cancelled_subset turn cancelled)
    · rcases errand_kept tended acted errand with kept | ⟨_, _, z, refusal, move, ts, z', found, part, force⟩
      · exact Or.inr ⟨u, e, kept, rfl, cancels⟩
      · obtain rfl := Option.some.inj (found.symm.trans there)
        rw [cancels] at part
        rw [force, tokens_stored, (Worker.section_cancelling part).2]
        exact Or.inl List.mem_cons_self
  · obtain ⟨x, there⟩ := Option.isSome_iff_exists.mp there
    obtain ⟨x', there', _⟩ := turn_worker tended turn there
    exact ⟨x', there', Or.inr begins⟩

theorem act_attentive (tended : s.Tended) (lineage : Lineage s.force.tokens.issued hands s.force.stops roots)
    (attentive : s.Attentive) (within : a.isWithin hands = true) (acted : s.act t a = some s') : s'.Attentive where
  orders u e errand terminates := by
    have turn := turn_of_act tended.staffed acted
    rcases errand_of_turn turn errand with ⟨v, e', before, worker, order⟩ | ⟨_, called⟩
    · exact worker ▸ (attentive.orders v e' before (order.trans terminates)).later turn
    · exact ⟨e.number, u, terminates ▸ called⟩
  roused _ _ := act_roused tended lineage attentive within acted
  bidden _ := act_bidden tended attentive acted

/-- A call that is about to wake a worker's sleepers has been made to terminate the worker. -/
theorem bidden_of_waking (witnessed : s.Witnessed) (attentive : s.Attentive) (wakes : s.Reaches w .waking) : s.Bidden w := by
  obtain ⟨u, e, errand, rfl, at_⟩ := wakes
  refine attentive.orders u e errand ?_
  have covers := (witnessed.errands u e errand).covers
  rw [at_] at covers
  cases order : e.order with
  | terminate => rfl
  | start | sleep => rw [order] at covers; exact covers.elim

/-! ### Sleepers that nobody wakes -/

theorem follow_force {f : Workforce} {move : Worker.Move} (followed : s.follow t e f move = some s') : s'.force = f := by
  cases move with
  | goes | spawns | ends => cases followed; rfl
  | blocks => cases followed

/-- A sleeper is woken by a signal to the worker, by a call that terminates it, or by its own time limit. -/
theorem unwoken_of_act (tended : s.Tended) (acted : s.act u a = some s') (quiet : ¬ s.Reaches w .waking)
    (unsignaled : a ≠ .chore (.signal w)) (foreign : ∀ now refusal, a = .advance now refusal → t ≠ u)
    (there : s.force.worker? w = some x) (unwoken : t ∈ x.sleepers) :
    ∃ x', s'.force.worker? w = some x' ∧ t ∈ x'.sleepers := by
  have put : ∀ {v : WorkerId} {y y' : Worker}, s.force.worker? v = some y → (v = w → t ∈ y'.sleepers) →
      ∃ x', (if v = w then some y' else s.force.worker? w) = some x' ∧ t ∈ x'.sleepers := by
    intro v y y' found unwoken'
    by_cases here : v = w
    · exact ⟨y', if_pos here, unwoken' here⟩
    · exact ⟨x, by rw [if_neg here, there], unwoken⟩
  have own : ∀ {v : WorkerId} {y y' : Worker}, s.force.worker? v = some y → y'.sleepers = y.sleepers →
      ∃ x', (s.force.update v fun _ => y').worker? w = some x' ∧ t ∈ x'.sleepers := by
    intro v y y' found same
    rw [Workforce.worker?_put (Option.isSome_iff_exists.mpr ⟨y, found⟩)]
    refine put found fun here => ?_
    obtain rfl := Option.some.inj ((here ▸ found).symm.trans there)
    exact same ▸ unwoken
  cases a with
  | arrive | order =>
    simp only [act, Option.ite_none_right_eq_some, Option.some.injEq] at acted
    obtain ⟨_, rfl⟩ := acted
    exact ⟨x, there, unwoken⟩
  | lose r =>
    cases acted
    exact ⟨x, there, unwoken⟩
  | release v =>
    simp only [act, Option.ite_none_left_eq_some, Option.some.injEq] at acted
    obtain ⟨_, rfl⟩ := acted
    exact ⟨x, (Workforce.worker?_release _ _).trans there, unwoken⟩
  | chore c =>
    simp only [act, Option.ite_none_right_eq_some, Option.some.injEq] at acted
    obtain ⟨_, rfl⟩ := acted
    cases c with
    | signal v =>
      have elsewhere : v ≠ w := by
        rintro rfl
        exact unsignaled rfl
      refine ⟨x, ?_, unwoken⟩
      rw [Chore.perform, Workforce.worker?_update, if_neg elsewhere, there]
    | hire name o =>
      have old : w ≠ s.force.members.length := by
        rintro rfl
        simp [Workforce.worker?, Workforce.member?] at there
      exact ⟨x, by rw [Chore.perform, Workforce.worker?_hire, if_neg old, there], unwoken⟩
    | announce => exact ⟨x, (Workforce.worker?_announce ..).trans there, unwoken⟩
    | addRoster | derive | cancel | withdraw => exact ⟨x, there, unwoken⟩
  | advance now refusal =>
    have other := foreign now refusal rfl
    cases errand : (s.threads u).errand with
    | none => simp [act, errand] at acted
    | some e =>
      obtain ⟨y, found⟩ := Option.isSome_iff_exists.mp (tended.staffed u e errand)
      rw [act_advance errand found] at acted
      rw [follow_force acted, worker?_stored (tended.staffed u e errand)]
      refine put found fun here => ?_
      obtain rfl := Option.some.inj ((here ▸ found).symm.trans there)
      exact Worker.advance_spares other (fun wakes => quiet ⟨u, e, errand, here, wakes⟩) unwoken now _ _
  | proceed =>
    cases proceeded_of_act acted with
    | begin _ found => exact own found rfl
    | take _ found => exact own found rfl
    | skip _ found => exact own found rfl
    | exit _ found => exact own found rfl
    | close _ found => exact own found rfl
  | finish p =>
    simp only [act] at acted
    split at acted
    · cases acted
      exact ⟨x, there, unwoken⟩
    · cases acted

theorem act_asleep (tended : s.Tended) (quiet : ¬ s.Reaches w .waking) (unsignaled : a ≠ .chore (.signal w))
    (acted : s.act u a = some s') (asleep : s.Asleep t w) : s'.Asleep t w := by
  have foreign : ∀ now refusal, a = .advance now refusal → t ≠ u := by
    rintro now refusal rfl rfl
    rw [asleep_blocked asleep] at acted
    cases acted
  obtain ⟨⟨e, errand, here, rests⟩, x, there, unwoken⟩ := asleep
  refine ⟨⟨e, ?_, here, rests⟩, unwoken_of_act tended acted quiet unsignaled foreign there unwoken⟩
  rcases errand_kept tended acted errand with kept | ⟨⟨now, refusal, advances⟩, mine, _⟩
  · exact kept
  · exact absurd mine (foreign now refusal advances)

end Shift

namespace Plant

variable {s s' : Plant} {t u : ThreadId} {w : WorkerId} {a : Action}

/-- A move leaves the workforce alone or is one of the workforce that uses no tokens but those in somebody's hands. -/
theorem turn_acts (kept : s.Kept) (turn : Turn s t a s') : s'.shift = s.shift ∨
    ∃ b, s.shift.act t b = some s'.shift ∧ b.isWithin s.tokens = true ∧ ∀ v, b = .chore (.signal v) → a = .shift b := by
  cases turn with
  | shift permitted acted => exact Or.inr ⟨_, acted, within_of_permits permitted, fun _ _ => rfl⟩
  | found acted => exact Or.inr ⟨_, acted, rfl, fun _ signals => by cases signals⟩
  | @make c m x shift there acted =>
    refine Or.inr ⟨_, acted, within_of_making kept there m, fun v signals => ?_⟩
    cases m <;> cases signals
  | shutdown => exact Or.inl rfl
  | @step c x after free there stepped =>
    cases stepped with
    | again | claim | list | done => exact Or.inl rfl
    | cancel =>
      have handed : x.root ∈ s.tokens := kept.lineage.handed (List.mem_map_of_mem (List.mem_of_getElem? there))
      refine Or.inr ⟨.chore (.cancel x.root), if_pos free, ?_, fun _ signals => by cases signals⟩
      simpa [Shift.Action.isWithin] using handed
    | tell _ acted => exact Or.inr ⟨_, acted, rfl, fun _ signals => by cases signals⟩

theorem turn_attentive (kept : s.Kept) (attentive : s.shift.Attentive) (turn : Turn s t a s') : s'.shift.Attentive := by
  rcases turn_acts kept turn with same | ⟨b, acted, within, _⟩
  · exact same ▸ attentive
  · exact Shift.act_attentive kept.tended kept.lineage attentive within acted

theorem turn_bidden (kept : s.Kept) (bidden : s.shift.Bidden w) (turn : Turn s t a s') : s'.shift.Bidden w := by
  rcases turn_base kept.tended.staffed turn with same | turn
  · exact same ▸ bidden
  · exact bidden.later turn

/-- A sleeper that nobody signals sleeps on until somebody calls to terminate the worker. -/
theorem run_asleep {more : List (ThreadId × Action)} (kept : s.Kept) (attentive : s.shift.Attentive)
    (ran : s.run more = some s') (unbidden : ¬ s'.shift.Bidden w)
    (unsignaled : ∀ u, (u, .shift (.chore (.signal w))) ∉ more) (asleep : s.shift.Asleep t w) : s'.shift.Asleep t w := by
  refine (Threads.run_keeps (P := fun s => s.Kept ∧ s.shift.Attentive ∧ (¬ s.shift.Bidden w → s.shift.Asleep t w))
    ⟨kept, attentive, fun _ => asleep⟩ ran ?_).2.2 unbidden
  rintro s u a s' member ⟨kept, attentive, asleep⟩ acted
  have turn := turn_of_act acted
  refine ⟨turn_kept kept turn, turn_attentive kept attentive turn, fun unbidden => ?_⟩
  have before : ¬ s.shift.Bidden w := fun bidden => unbidden (turn_bidden kept bidden turn)
  rcases turn_acts kept turn with same | ⟨b, acted, _, signals⟩
  · exact same ▸ asleep before
  · have quiet : ¬ s.shift.Reaches w .waking := fun wakes =>
      before (Shift.bidden_of_waking kept.witnessed attentive wakes)
    refine Shift.act_asleep kept.tended quiet ?_ acted (asleep before)
    rintro rfl
    exact unsignaled u (signals w rfl ▸ member)

/-- A request to stop has come down to the worker from a token that its own was derived from; the worker's own token is not
cancelled. -/
def Inherits (f : Workforce) (w : WorkerId) : Prop :=
  ∃ x, f.worker? w = some x ∧ x.stop.number ∉ f.tokens.cancelled ∧ ∃ n ∈ x.stop.ancestors, n ∈ f.tokens.cancelled

/-- Thread `t` is asleep though the worker is told to stop: the request has come down from another token, nobody has ever
called to terminate the worker, and until somebody does or signals the worker the thread sleeps on, whatever happens. -/
structure Forgotten (s : Plant) (t : ThreadId) (w : WorkerId) : Prop where
  asleep : s.shift.Asleep t w
  inherits : Inherits s.shift.force w
  unbidden : ¬ s.shift.Bidden w
  stays : ∀ more s', s.run more = some s' → (∀ u, (u, .shift (.chore (.signal w))) ∉ more) → ¬ s'.shift.Bidden w →
    s'.shift.Asleep t w ∧ ∀ now refusal, s'.act t (.shift (.advance now refusal)) = none

/-- Thread `t` rests in a worker's waits, the worker is told to stop, and no call that terminates it has yet to wake its
sleepers. Then the thread's next section ends its call, or the thread is forgotten. -/
theorem sleepers_told {moves : List (ThreadId × Action)} (ran : ({} : Plant).run moves = some s) {e : Shift.Errand}
    (errand : (s.shift.threads t).errand = some e) (rests : e.call = .sleeping none)
    (told : s.shift.force.shouldStop e.worker = true)
    (settled : ¬ s.shift.Reaches e.worker .cancelling ∧ ¬ s.shift.Reaches e.worker .waking) :
    s.shift.Rises t e ∨ s.Forgotten t e.worker := by
  obtain ⟨kept, attentive⟩ := run_keeps (P := fun s => s.shift.Attentive) kept_fresh Shift.attentive_fresh
    (fun _ _ _ _ kept attentive turn => turn_attentive kept attentive turn) ran
  obtain ⟨x, there⟩ := Option.isSome_iff_exists.mp (kept.tended.staffed t e errand)
  by_cases unwoken : t ∈ x.sleepers
  · have asleep : s.shift.Asleep t e.worker := ⟨⟨e, errand, rfl, rests⟩, x, there, unwoken⟩
    have own : x.stop.number ∉ s.shift.force.tokens.cancelled := by
      intro cancelled
      rcases attentive.roused e.worker x there cancelled with awake | wakes
      · rw [awake] at unwoken
        cases unwoken
      · exact settled.2 wakes
    have unbidden : ¬ s.shift.Bidden e.worker := by
      intro bidden
      obtain ⟨y, found, way⟩ := attentive.bidden e.worker bidden
      obtain rfl := Option.some.inj (found.symm.trans there)
      exact way.elim own settled.1
    have inherits : Inherits s.shift.force e.worker := by
      rw [Shift.shouldStop_of_worker there] at told
      obtain ⟨n, above, cancelled⟩ := StopTokens.isCancelled_iff.mp told
      rcases List.mem_cons.mp above with rfl | above
      · exact absurd cancelled own
      · exact ⟨x, there, own, n, above, cancelled⟩
    refine Or.inr ⟨asleep, inherits, unbidden, fun more s' ran' unsignaled unbidden' => ?_⟩
    have asleep' := run_asleep kept attentive ran' unbidden' unsignaled asleep
    refine ⟨asleep', fun now refusal => ?_⟩
    simp [act, Shift.asleep_blocked asleep']
  · exact Or.inl (Shift.rises_of_woken errand there rests told unwoken)

/-- Two pumps are derived from one token, and somebody sleeps in the waits of each. The token is cancelled, and one of the
pumps is terminated as far as its sleepers are woken. -/
def dormitory : List (ThreadId × Action) :=
  let on (t : ThreadId) : ThreadId × Action := (t, .shift (.advance 0 none))
  let chore (c : Shift.Chore) : ThreadId × Action := (0, .shift (.chore c))
  let pump : WorkerOptions := { parent := some ⟨0, []⟩ }
  [(0, .shift .arrive), (1, .shift .arrive), (2, .shift .arrive), chore (.derive none), chore (.hire "a" pump),
    chore (.hire "b" pump), (1, .shift (.order (.sleep none) 0)), on 1, (2, .shift (.order (.sleep none) 1)), on 2,
    chore (.cancel ⟨0, []⟩), (0, .shift (.order .terminate 1)), on 0, on 0]

theorem sleepers_told_dormitory : ∃ s e₁ e₂, ({} : Plant).run dormitory = some s ∧
    (s.shift.threads 1).errand = some e₁ ∧ (s.shift.threads 2).errand = some e₂ ∧ s.shift.Rises 2 e₂ ∧
    s.Forgotten 1 0 := by
  have ends : ∃ s : Plant, ({} : Plant).run dormitory = some s ∧ s.shift.born = 3 ∧
      (s.shift.threads 0).errand = some ⟨2, .terminate, 1, .recognizing⟩ ∧
      (s.shift.threads 1).errand = some ⟨0, .sleep none, 0, .sleeping none⟩ ∧
      (s.shift.threads 2).errand = some ⟨1, .sleep none, 1, .sleeping none⟩ ∧ s.shift.force.shouldStop 0 = true ∧
      s.shift.force.shouldStop 1 = true ∧ .called 2 0 .terminate 1 ∈ s.shift.log ∧
      (∃ x, s.shift.force.worker? 0 = some x ∧ 1 ∈ x.sleepers) :=
    ⟨_, rfl, rfl, rfl, rfl, rfl, rfl, rfl, by decide, _, rfl, by decide⟩
  obtain ⟨s, ran, born, zero, one, two, told, told', called, x, there, unwoken⟩ := ends
  obtain ⟨kept, _⟩ := run_keeps (P := fun _ => True) kept_fresh trivial (fun _ _ _ _ _ _ _ => trivial) ran
  have rest : ∀ w c, c = .cancelling ∨ c = .waking → ¬ s.shift.Reaches w c := by
    rintro w c early ⟨u, e, errand, _, rfl⟩
    have late : e.call = .recognizing ∨ e.call = .sleeping none := by
      match u with
      | 0 => exact Or.inl (congrArg Shift.Errand.call (Option.some.inj (zero.symm.trans errand)).symm)
      | 1 => exact Or.inr (congrArg Shift.Errand.call (Option.some.inj (one.symm.trans errand)).symm)
      | 2 => exact Or.inr (congrArg Shift.Errand.call (Option.some.inj (two.symm.trans errand)).symm)
      | u + 3 =>
        rw [kept.tended.unborn (u + 3) (born ▸ Nat.le_add_left 3 u)] at errand
        cases errand
    rcases early with early | early <;> rw [early] at late <;> simp at late
  refine ⟨s, _, _, ran, one, two, ?_, ?_⟩
  · rcases sleepers_told ran two rfl told' ⟨rest 1 _ (Or.inl rfl), rest 1 _ (Or.inr rfl)⟩ with rises | forgotten
    · exact rises
    · exact absurd ⟨2, 0, called⟩ forgotten.unbidden
  · rcases sleepers_told ran one rfl told ⟨rest 0 _ (Or.inl rfl), rest 0 _ (Or.inr rfl)⟩ with rises | forgotten
    · obtain ⟨_, acted, _⟩ := rises 0 none
      rw [Shift.asleep_blocked ⟨⟨_, one, rfl, rfl⟩, x, there, unwoken⟩] at acted
      cases acted
    · exact forgotten

/-- Somebody sleeps in the waits of a worker, the token that the worker's was derived from is cancelled, and nobody
terminates the worker or shuts a context down: the sleeper is not woken. -/
theorem sleeper_forgotten : ∃ s, ({} : Plant).run [(0, .shift .arrive), (1, .shift .arrive),
      (0, .shift (.chore (.derive none))), (0, .shift (.chore (.hire "a" { parent := some ⟨0, []⟩ }))),
      (1, .shift (.order (.sleep none) 0)), (1, .shift (.advance 0 none)), (0, .shift (.chore (.cancel ⟨0, []⟩)))] = some s ∧
    (∀ u, s.calls u = none) ∧ (∀ u e, (s.shift.threads u).errand = some e → e.order = .sleep none) ∧
    s.shift.force.shouldStop 0 = true ∧ s.shift.Asleep 1 0 := by
  refine ⟨_, rfl, fun _ => rfl, fun u e errand => ?_, rfl, ⟨_, rfl, rfl, rfl⟩, _, rfl, List.mem_cons_self⟩
  match u with
  | 0 => cases errand
  | 1 => cases errand; rfl
  | u + 2 => cases errand

end Plant

end Switchboard
