import Mathlib.Algebra.BigOperators.Group.Finset.Basic
import Switchboard.Proofs.Worker.Lifecycle

/-!
Calls in progress and the threads that make them: what one move does to the call of the thread that moves, to those of
others, and to where threads stand.
-/

namespace Switchboard

/-- A terminating call that has yet to look whether it has to wait. -/
def Worker.Call.isBlind : Worker.Call → Bool
  | .cancelling | .waking | .recognizing | .awaiting => true
  | _ => false

/-! ### Calls -/

namespace Worker

variable {me thread : ThreadId} {grant : Except String ThreadId} {ts ts' : StopTokens} {x x' : Worker} {c c' : Call}

/-- A call that goes on has begun. -/
theorem section_goes (part : Section me grant ts x c (.goes c') ts' x') : c' ≠ .starting := by
  cases part <;> exact nofun

theorem section_spawns (part : Section me grant ts x c (.spawns thread c') ts' x') :
    c = .starting ∧ c' = .publishing thread := by
  cases part
  exact ⟨rfl, rfl⟩

end Worker

namespace Shift

variable {s s' : Shift} {t u : ThreadId} {w : WorkerId} {m : Nat} {thread : ThreadId} {o : Order} {r : Worker.Result}

theorem old_of_errand {e : Errand} (tended : s.Tended) (errand : (s.threads t).errand = some e) : t ≠ s.born := by
  rintro rfl
  rw [tended.unborn _ (Nat.le_refl _)] at errand
  cases errand

/-- The call that thread `t` has in progress goes on or returns. -/
inductive Carried (s : Shift) (t : ThreadId) (e : Errand) (s' : Shift) : Prop
  | goes {x refusal c ts x'} (there : s.force.worker? e.worker = some x)
    (part : Worker.Section t (s.grant refusal) s.force.tokens x e.call (.goes c) ts x')
    (errand : (s'.threads t).errand = some { e with call := c })
  | spawns (thread : ThreadId) (starts : e.call = .starting)
    (errand : (s'.threads t).errand = some { e with call := .publishing thread })
  | returns (r : Worker.Result) (log : s'.log = s.log ++ [.returned e.number t e.order e.worker r])

/-- A move that makes no call leaves the call in progress alone or carries it on. -/
theorem errand_of_act {a : Action} (tended : s.Tended) (acted : s.act t a = some s') (other : ∀ o w, a ≠ .order o w) :
    (s'.threads t).errand = (s.threads t).errand ∨ ∃ e, (s.threads t).errand = some e ∧ Carried s t e s' := by
  cases a with
  | order o w => exact absurd rfl (other o w)
  | arrive =>
    simp only [act, Option.ite_none_right_eq_some, Option.some.injEq] at acted
    obtain ⟨rfl, rfl⟩ := acted
    rw [enter_new, tended.unborn _ (Nat.le_refl _)]
    exact Or.inl rfl
  | chore | release =>
    simp only [act, Option.ite_none_right_eq_some, Option.ite_none_left_eq_some, Option.some.injEq] at acted
    obtain ⟨_, rfl⟩ := acted
    exact Or.inl rfl
  | lose r =>
    cases acted
    exact Or.inl rfl
  | advance now refusal =>
    cases advanced_of_act tended.staffed acted with
    | @goOn e x c ts x' refusal errand there part =>
      exact Or.inr ⟨e, errand, .goes there part (congrArg Hand.errand after_self)⟩
    | @spawn e x c ts x' refusal thread errand there part =>
      obtain ⟨starts, rfl⟩ := Worker.section_spawns part
      have old : t ≠ s.born := old_of_errand tended errand
      refine Or.inr ⟨e, errand, .spawns thread starts ?_⟩
      rw [enter_other]
      · exact congrArg Hand.errand after_self
      · exact old
    | comeBack errand => exact Or.inr ⟨_, errand, .returns _ rfl⟩
  | proceed =>
    refine Or.inl ?_
    cases proceeded_of_act acted with
    | begin hand | take hand | skip hand | exit hand | close hand => rw [after_self, hand]
  | finish panicked =>
    simp only [act] at acted
    split at acted
    · rename_i w hand
      cases acted
      rw [after_self, hand]
      exact Or.inl rfl
    · cases acted

theorem errand_of_other (tended : s.Tended) (turn : Turn s t s') (other : u ≠ t) :
    (s'.threads u).errand = (s.threads u).errand := by
  have entered : ∀ {s₁ : Shift} {station : Station}, s₁.born = s.born → (s₁.threads u).errand = (s.threads u).errand →
      ((s₁.enter station).threads u).errand = (s.threads u).errand := by
    intro s₁ station born same
    by_cases new : u = s₁.born
    · rw [new, enter_new, born, tended.unborn _ (Nat.le_refl _)]
    · rw [enter_other new, same]
  cases turn with
  | arrive => exact entered rfl rfl
  | chore | release | lose => rfl
  | spawn => exact entered rfl (congrArg Hand.errand (after_other other))
  | order | goOn | comeBack | begin | take | skip | finish | exit | close =>
    exact congrArg Hand.errand (after_other other)

theorem errand_of_order (acted : s.act t (.order o w) = some s') :
    (s'.threads t).errand = some ⟨s.log.length, o, w, o.call⟩ := by
  simp only [act, Option.ite_none_right_eq_some, Option.some.injEq] at acted
  obtain ⟨_, rfl⟩ := acted
  exact congrArg Hand.errand after_self

theorem spawned_of_turn (tended : s.Tended) (turn : Turn s t s') (log : s'.log = s.log ++ [.spawned m w thread]) :
    ∃ e, (s.threads t).errand = some e ∧ e.worker = w ∧ e.call = .starting ∧
      (s'.threads t).errand = some { e with call := .publishing thread } := by
  cases turn with
  | @spawn e x c ts x' refusal thread' errand there part =>
    obtain ⟨_, here, same⟩ := Entry.spawned.inj (List.cons.inj (List.append_cancel_left log)).1
    subst same
    obtain ⟨starts, rfl⟩ := Worker.section_spawns part
    have old : t ≠ s.born := old_of_errand tended errand
    refine ⟨e, errand, here, starts, ?_⟩
    rw [enter_other]
    · exact congrArg Hand.errand after_self
    · exact old
  | arrive | chore | release | lose => exact absurd (congrArg List.length log) (by simp)
  | goOn =>
    have log := List.append_cancel_left log
    unfold Errand.remembered at log
    split at log <;> cases log
  | order | comeBack | begin | take | skip | finish | exit | close => cases List.append_cancel_left log

theorem returned_of_turn (turn : Turn s t s') (log : s'.log = s.log ++ [.returned m u o w r]) :
    ∃ e x refusal ts x', (s.threads t).errand = some e ∧ (s'.threads t).errand = none ∧ e.order = o ∧ e.worker = w ∧
      s.force.worker? w = some x ∧ Worker.Section t (s.grant refusal) s.force.tokens x e.call (.ends r) ts x' := by
  cases turn with
  | @comeBack e x r' ts x' refusal errand there part =>
    obtain ⟨_, _, order, worker, rfl⟩ := Entry.returned.inj (List.cons.inj (List.append_cancel_left log)).1
    exact ⟨e, x, refusal, ts, x', errand, congrArg Hand.errand after_self, order, worker, worker ▸ there, part⟩
  | arrive | chore | release | lose => exact absurd (congrArg List.length log) (by simp)
  | goOn =>
    have log := List.append_cancel_left log
    unfold Errand.remembered at log
    split at log <;> cases log
  | order | spawn | begin | take | skip | finish | exit | close => cases List.append_cancel_left log

/-! ### Threads -/

theorem born_le (turn : Turn s t s') : s.born ≤ s'.born := by
  cases turn with
  | arrive | spawn => exact Nat.le_succ _
  | chore | release | lose | order | goOn | comeBack | begin | take | skip | finish | exit | close => exact Nat.le_refl _

theorem born_of_station (tended : s.Tended) (there : (s.threads t).station ≠ .absent) : t < s.born := by
  refine Nat.lt_of_not_le fun beyond => there ?_
  rw [tended.unborn t beyond]

theorem born_of_free (tended : s.Tended) (free : (s.threads t).isFree = true) : t < s.born := by
  refine born_of_station tended fun absent => ?_
  rw [Hand.isFree, absent] at free
  cases free

/-- A worker is started on a thread that was not there before. -/
theorem launches_of_turn (turn : Turn s t s') :
    ∃ es, s'.log = s.log ++ es ∧ ∀ w, ∀ u ∈ launches es w, u = s.born := by
  have silent : ∀ {es : List Entry}, (∀ m w thread, .spawned m w thread ∉ es) → ∀ w, ∀ u ∈ launches es w, u = s.born := by
    intro es none w u member
    obtain ⟨e, there, launch⟩ := List.mem_filterMap.mp member
    cases e with
    | spawned m v thread => exact absurd there (none m v thread)
    | called | looked | invoked | ended | returned => cases launch
  cases turn with
  | arrive | chore | release | lose => exact ⟨[], (List.append_nil _).symm, nofun⟩
  | order | comeBack | begin | take | skip | finish | exit | close => exact ⟨_, rfl, silent (by simp)⟩
  | goOn =>
    refine ⟨_, rfl, silent fun m w thread member => ?_⟩
    unfold Errand.remembered at member
    split at member
    · simp at member
    · cases member
  | @spawn e x c ts x' refusal thread errand there part =>
    refine ⟨_, rfl, fun w u member => ?_⟩
    generalize e.call = call at part
    cases part with
    | launch unheld idle granted =>
      have new : thread = s.born := by
        cases refusal with
        | some => cases granted
        | none => exact (Except.ok.inj granted).symm
      simp only [launches, Entry.launch?, List.filterMap_cons, List.filterMap_nil] at member
      split at member
      · cases member
      · rename_i there
        split at there
        · cases there
          exact (List.mem_singleton.mp member).trans new
        · cases there

/-- A body keeps its thread until it is over. -/
theorem body_of_act {a : Action} (tended : s.Tended) (acted : s.act t a = some s') (other : ∀ p, a ≠ .finish p)
    (stands : s.posts w u .body) : s'.posts w u .body := by
  have old : u ≠ s.born := by
    rintro rfl
    rw [posts, tended.unborn _ (Nat.le_refl _)] at stands
    cases stands
  cases a with
  | finish p => exact absurd rfl (other p)
  | arrive =>
    simp only [act, Option.ite_none_right_eq_some, Option.some.injEq] at acted
    obtain ⟨rfl, rfl⟩ := acted
    rw [posts, enter_other old]
    exact stands
  | chore | release =>
    simp only [act, Option.ite_none_right_eq_some, Option.ite_none_left_eq_some, Option.some.injEq] at acted
    obtain ⟨_, rfl⟩ := acted
    exact stands
  | lose r =>
    cases acted
    exact stands
  | order o v =>
    simp only [act, Option.ite_none_right_eq_some, Option.some.injEq] at acted
    obtain ⟨_, rfl⟩ := acted
    rw [posts, begin, station_after]
    exact stands
  | advance now refusal =>
    cases advanced_of_act tended.staffed acted with
    | goOn | comeBack =>
      rw [posts, station_after]
      exact stands
    | spawn =>
      rw [posts, enter_other]
      · rw [station_after]
        exact stands
      · exact old
  | proceed =>
    have apart : ∀ {v : WorkerId} {r : Worker.Run}, s.threads t = ⟨.on v r, none⟩ → r ≠ .body → u ≠ t := by
      rintro v r hand other rfl
      rw [posts, hand] at stands
      exact other (Station.on.inj stands).2
    cases proceeded_of_act acted with
    | begin hand | take hand | skip hand | exit hand | close hand =>
      rw [posts, after_other (apart hand (by simp))]
      exact stands

theorem log_of_finish {p : Bool} (acted : s.act t (.finish p) = some s') : ∃ v, s'.log = s.log ++ [.ended v p] := by
  simp only [act] at acted
  split at acted
  · cases acted
    exact ⟨_, rfl⟩
  · cases acted

/-- While a body has its thread, the worker is being started or runs. -/
theorem Course.active_of_body {x : Core} {on : ThreadId → Worker.Run → Prop} {launched begun : List ThreadId}
    {ended : List Bool} (course : Course x on launched begun ended) (stands : on t .body) : x.Active := by
  cases course with
  | idle _ _ _ _ _ nobody | finished _ _ _ _ _ nobody => exact absurd stands (nobody t _)
  | beginning active | taking active | body active | exiting active => exact active
  | closing _ _ _ _ _ sole => cases ((sole t _).mp stands).2

/-! ### Sums over threads -/

theorem sum_longer {f : ThreadId → Nat} {b b' : Nat} (more : b ≤ b') (beyond : ∀ u, b ≤ u → f u = 0) :
    ∑ u ∈ Finset.range b', f u = ∑ u ∈ Finset.range b, f u := by
  refine (Finset.sum_subset (Finset.range_subset_range.mpr more) fun u _ outside => beyond u ?_).symm
  exact Nat.le_of_not_lt fun inside => outside (Finset.mem_range.mpr inside)

/-- A sum in which one summand has changed. -/
theorem sum_moved {f g : ThreadId → Nat} {b : Nat} (there : t < b) (others : ∀ u, u ≠ t → g u = f u) :
    ∑ u ∈ Finset.range b, g u + f t = ∑ u ∈ Finset.range b, f u + g t := by
  have mine : t ∈ Finset.range b := Finset.mem_range.mpr there
  have rest : ∑ u ∈ (Finset.range b).erase t, g u = ∑ u ∈ (Finset.range b).erase t, f u :=
    Finset.sum_congr rfl fun u member => others u (Finset.ne_of_mem_erase member)
  rw [← Finset.add_sum_erase _ g mine, ← Finset.add_sum_erase _ f mine, rest, Nat.add_right_comm, Nat.add_comm (g t),
    Nat.add_right_comm]

end Shift

end Switchboard
