import Switchboard.Proofs.Worker.Enrolment

/-!
Entries whose worker is gone. The last handle of a worker can be let go whenever nobody calls the worker and its thread
is over; in a second move the worker leaves its home. No other roster is told: an entry that was made there by hand
stays until somebody takes it out. Main statement: `entries_outlive`.
-/

namespace Switchboard

namespace Parting

inductive Action where
  | move (a : Shift.Action)
  /-- The last handle of a worker is let go. -/
  | part (w : WorkerId)
  /-- The worker leaves its home. -/
  | leave (w : WorkerId)

end Parting

/-- A workforce at work, and the workers that have been let go and have not left their home yet. -/
structure Parting where
  shift : Shift := {}
  leaving : List WorkerId := []

namespace Parting

/-- A worker that is announced is one that somebody holds. To release a worker takes two moves of their own. -/
def permits (f : Workforce) : Shift.Action → Bool
  | .release _ => false
  | .chore (.announce _ w _) => f.isAlive w
  | _ => true

def act (p : Parting) (t : ThreadId) : Action → Option Parting
  | .move a => if permits p.shift.force a then (p.shift.act t a).map fun shift => { p with shift } else none
  | .part w =>
    if p.shift.force.isAlive w && !p.shift.isUsed w then
      some ⟨{ p.shift with force := p.shift.force.letGo w }, w :: p.leaving⟩
    else none
  | .leave w =>
    if w ∈ p.leaving then
      some ⟨{ p.shift with force := p.shift.force.depart w p.shift.homeIsThere }, p.leaving.filter (· != w)⟩
    else none

def run (p : Parting) (moves : List (ThreadId × Action)) : Option Parting := Threads.run act p moves

variable {s s' : Shift} {p p' : Parting} {t u : ThreadId} {w v : WorkerId} {r : RosterId} {a : Shift.Action}

/-! ### What a move leaves of the rosters -/

/-- Nobody is let go; entries come from workers that are announced, and go when they are taken out. -/
structure Grown (s : Shift) (a : Shift.Action) (s' : Shift) : Prop where
  alive : ∀ w, s.force.isAlive w = true → s'.force.isAlive w = true
  home : ∀ w, s'.force.home? w = s.force.home? w ∨ s'.force.isAlive w = true ∧ s.force.home? w = none
  lost : s.lost ⊆ s'.lost
  entered : ∀ r, ∀ e ∈ s'.force.entries r, e ∈ s.force.entries r ∨ s.force.isAlive e.worker = true ∧
    (s.force.home? e.worker = some r ∨ ∃ thread, a = .chore (.announce r e.worker thread))
  kept : ∀ r, ∀ e ∈ s.force.entries r, e ∈ s'.force.entries r ∨ a = .chore (.withdraw r e.worker)

theorem grown_calm (alive : ∀ w, s'.force.isAlive w = s.force.isAlive w)
    (home : ∀ w, s'.force.home? w = s.force.home? w) (lost : s.lost ⊆ s'.lost)
    (entries : ∀ r, s'.force.entries r = s.force.entries r) : Grown s a s' where
  alive w held := (alive w).trans held
  home w := Or.inl (home w)
  lost := lost
  entered r _ member := Or.inl (entries r ▸ member)
  kept r _ member := Or.inl ((entries r).symm ▸ member)

theorem grown_same (force : s'.force = s.force) (lost : s.lost ⊆ s'.lost) : Grown s a s' :=
  grown_calm (fun _ => by rw [force]) (fun _ => by rw [force]) lost fun _ => by rw [force]

theorem grown_put {x : Worker} (ts : StopTokens) (force : s'.force = { s.force with tokens := ts }.update w fun _ => x)
    (lost : s'.lost = s.lost) : Grown s a s' :=
  grown_calm (fun v => by rw [force, Workforce.isAlive_update]; rfl)
    (fun v => by rw [force, Workforce.home?_update]; rfl) (by rw [lost]; exact List.Subset.refl _)
    fun r => by rw [force]; rfl

/-- One entry more, of a worker that somebody holds. -/
theorem grown_announced {e : Roster.Entry} (alive : ∀ w, s'.force.isAlive w = s.force.isAlive w)
    (home : ∀ w, s'.force.home? w = s.force.home? w) (lost : s'.lost = s.lost) (held : s.force.isAlive e.worker = true)
    (entries : ∀ r, s'.force.entries r = s.force.entries r ∨ s'.force.entries r = s.force.entries r ++ [e] ∧
      (s.force.home? e.worker = some r ∨ ∃ thread, a = .chore (.announce r e.worker thread))) : Grown s a s' where
  alive w held := (alive w).trans held
  home w := Or.inl (home w)
  lost := by rw [lost]; exact List.Subset.refl _
  entered r _ member := by
    rcases entries r with same | ⟨more, from_⟩
    · exact Or.inl (same ▸ member)
    · rw [more] at member
      rcases List.mem_append.mp member with old | last
      · exact Or.inl old
      · obtain rfl := List.mem_singleton.mp last
        exact Or.inr ⟨held, from_⟩
  kept r _ member := by
    rcases entries r with same | ⟨more, _⟩
    · exact Or.inl (same ▸ member)
    · exact Or.inl (more ▸ List.mem_append_left _ member)

theorem grown_stored {e : Shift.Errand} {x x' : Worker} {ts : StopTokens} (found : s.force.worker? e.worker = some x)
    (alive : s.force.isAlive e.worker = true) (force : s'.force = s.stored e ts x') (lost : s'.lost = s.lost) :
    Grown s a s' := by
  unfold Shift.stored at force
  split at force
  · rename_i thread _
    have put : ({ s.force with tokens := ts }.update e.worker fun _ => x').worker? e.worker = some x' :=
      (Workforce.worker?_put (f := { s.force with tokens := ts }) (by simp [found]) _).trans (if_pos rfl)
    refine grown_announced (e := ⟨e.worker, x'.name, thread⟩) (fun v => ?_) (fun v => ?_) lost alive fun r => ?_
    · rw [force, Workforce.isAlive_of_members (Workforce.members_announceAtHome ..), Workforce.isAlive_update]
      rfl
    · rw [force, Workforce.home?_of_members (Workforce.members_announceAtHome ..), Workforce.home?_update]
      rfl
    · rw [force, Workforce.entries_announceAtHome put, Workforce.home?_update]
      split
      · rename_i comes
        exact Or.inr ⟨rfl, Or.inl comes.1⟩
      · exact Or.inl rfl
  · exact grown_put ts force lost

theorem grown_hire {name : String} {o : WorkerOptions} (force : s'.force = (s.force.hire name o).2)
    (lost : s'.lost = s.lost) : Grown s a s' where
  alive v held := by rw [force, Workforce.isAlive_hire, held, Bool.or_true]
  home v := by
    rw [force, Workforce.home?_hire, Workforce.isAlive_hire]
    split
    · rename_i new
      have none : s.force.home? v = none := by
        rw [Workforce.home?, Workforce.member?, new, List.getElem?_eq_none (Nat.le_refl _)]
        rfl
      exact Or.inr ⟨by simp [new], none⟩
    · exact Or.inl rfl
  lost := by rw [lost]; exact List.Subset.refl _
  entered r _ member := Or.inl (by rw [force] at member; exact member)
  kept r _ member := Or.inl (by rw [force]; exact member)

theorem grown_withdraw (r : RosterId) (w : WorkerId) :
    Grown s (.chore (.withdraw r w)) { s with force := s.force.withdraw r w } where
  alive _ held := held
  home _ := Or.inl rfl
  lost := List.Subset.refl _
  entered q e member := by
    rw [Workforce.entries_withdraw] at member
    split at member
    · exact Or.inl (List.mem_filter.mp member).1
    · exact Or.inl member
  kept q e member := by
    rw [Workforce.entries_withdraw]
    split
    · rename_i here
      by_cases same : e.worker = w
      · exact Or.inr (by rw [here, same])
      · exact Or.inl (List.mem_filter.mpr ⟨member, bne_iff_ne.mpr same⟩)
    · exact Or.inl member

theorem grown_chore {c : Shift.Chore} (permitted : permits s.force (.chore c) = true) :
    Grown s (.chore c) { s with force := c.perform s.force } := by
  cases c with
  | hire name o => exact grown_hire rfl rfl
  | addRoster =>
    exact grown_calm (fun _ => rfl) (fun _ => rfl) (List.Subset.refl _) (Workforce.entries_addRoster s.force)
  | derive | cancel => exact grown_calm (fun _ => rfl) (fun _ => rfl) (List.Subset.refl _) fun _ => rfl
  | signal w =>
    exact grown_calm (Workforce.isAlive_update s.force w _) (fun _ => Workforce.home?_update _) (List.Subset.refl _)
      fun _ => rfl
  | announce q w thread =>
    obtain ⟨x, found⟩ := Workforce.worker_of_alive permitted
    have members := Workforce.members_announce s.force q w thread
    refine grown_announced (e := ⟨w, x.name, thread⟩) (fun _ => Workforce.isAlive_of_members members)
      (fun _ => Workforce.home?_of_members members) rfl permitted fun r => ?_
    show (s.force.announce q w thread).2.entries r = _ ∨ (s.force.announce q w thread).2.entries r = _ ∧ _
    rw [Workforce.entries_announce found]
    split
    · rename_i comes
      exact Or.inr ⟨rfl, Or.inr ⟨thread, by rw [comes.1]⟩⟩
    · exact Or.inl rfl
  | withdraw q w => exact grown_withdraw q w

def Called (s : Shift) : Prop := ∀ t e, (s.threads t).errand = some e → s.force.isAlive e.worker = true

theorem Called.staffed (called : Called s) : s.Staffed := fun t e errand =>
  Option.isSome_iff_exists.mpr (Workforce.worker_of_alive (called t e errand))

theorem grown_of_act (called : Called s) (permitted : permits s.force a = true) (acted : s.act t a = some s') :
    Grown s a s' := by
  cases a with
  | arrive =>
    simp only [Shift.act, Option.ite_none_right_eq_some, Option.some.injEq] at acted
    obtain ⟨_, rfl⟩ := acted
    exact grown_same rfl (List.Subset.refl _)
  | chore c =>
    simp only [Shift.act, Option.ite_none_right_eq_some, Option.some.injEq] at acted
    obtain ⟨_, rfl⟩ := acted
    exact grown_chore permitted
  | release => cases permitted
  | lose r =>
    cases acted
    exact grown_same rfl (List.subset_cons_self _ _)
  | order o w =>
    simp only [Shift.act, Option.ite_none_right_eq_some, Option.some.injEq] at acted
    obtain ⟨_, rfl⟩ := acted
    exact grown_same rfl (List.Subset.refl _)
  | advance now refusal =>
    cases Shift.advanced_of_act called.staffed acted with
    | goOn errand found | spawn errand found | comeBack errand found =>
      exact grown_stored found (called t _ errand) rfl rfl
  | proceed =>
    cases Shift.proceeded_of_act acted with
    | begin | take | skip | exit | close => exact grown_put s.force.tokens rfl rfl
  | finish panicked =>
    simp only [Shift.act] at acted
    split at acted
    · cases acted
      exact grown_same rfl (List.Subset.refl _)
    · cases acted

/-! ### Where the entries come from -/

/-- The worker has been announced to the roster by hand. -/
def Announced (moves : List (ThreadId × Action)) (r : RosterId) (w : WorkerId) : Prop :=
  ∃ t thread, (t, .move (.chore (.announce r w thread))) ∈ moves

structure Traced (moves : List (ThreadId × Action)) (p : Parting) : Prop where
  unborn : ∀ u, p.shift.born ≤ u → p.shift.threads u = {}
  called : Called p.shift
  entered : ∀ r, ∀ e ∈ p.shift.force.entries r, p.shift.force.home? e.worker = some r ∨ Announced moves r e.worker
  /-- Nobody is listed in its home for longer than it takes to leave it. -/
  present : ∀ r, p.shift.homeIsThere r = true → ∀ e ∈ p.shift.force.entries r, p.shift.force.home? e.worker = some r →
    p.shift.force.isAlive e.worker = true ∨ e.worker ∈ p.leaving

variable {moves : List (ThreadId × Action)}

theorem Announced.later (announced : Announced moves r w) (more : List (ThreadId × Action)) :
    Announced (moves ++ more) r w := by
  obtain ⟨t, thread, member⟩ := announced
  exact ⟨t, thread, List.mem_append_left _ member⟩

theorem traced_fresh : Traced [] {} where
  unborn _ _ := rfl
  called _ _ errand := nomatch errand
  entered r e member := by simp [Workforce.entries, Workforce.roster] at member
  present r _ e member := by simp [Workforce.entries, Workforce.roster] at member

theorem called_of_act (called : Called s) (grown : Grown s a s') (turn : Shift.Turn s t s') : Called s' := by
  intro u e' found
  rcases Shift.errand_of_turn turn found with ⟨v, e, errand, same, _⟩ | ⟨alive, _⟩
  · exact grown.alive _ (same ▸ called v e errand)
  · exact grown.alive _ alive

theorem traced_move (traced : Traced moves p) (permitted : permits p.shift.force a = true)
    (acted : p.shift.act t a = some s') : Traced (moves ++ [(t, .move a)]) { p with shift := s' } := by
  have grown := grown_of_act traced.called permitted acted
  have turn := Shift.turn_of_act traced.called.staffed acted
  refine ⟨Shift.turn_unborn traced.unborn turn, called_of_act traced.called grown turn, ?_, ?_⟩
  · intro r e member
    have home : p.shift.force.home? e.worker = some r → s'.force.home? e.worker = some r := by
      intro home
      rcases grown.home e.worker with same | ⟨_, none⟩
      · rw [same, home]
      · rw [home] at none
        cases none
    rcases grown.entered r e member with old | ⟨_, from_ | ⟨thread, rfl⟩⟩
    · exact (traced.entered r e old).imp home (Announced.later · _)
    · exact Or.inl (home from_)
    · exact Or.inr ⟨t, thread, List.mem_append_right _ (List.mem_singleton.mpr rfl)⟩
  · intro r there e member home
    have there' : p.shift.homeIsThere r = true := by
      simp only [Shift.homeIsThere, Bool.not_eq_true', List.contains_eq_mem, decide_eq_false_iff_not] at there ⊢
      exact fun lost => there (grown.lost lost)
    rcases grown.home e.worker with same | ⟨alive, _⟩
    · rcases grown.entered r e member with old | ⟨alive, _⟩
      · exact (traced.present r there' e old (same ▸ home)).imp_left (grown.alive _)
      · exact Or.inl (grown.alive _ alive)
    · exact Or.inl alive

theorem not_used (traced : Traced moves p) (unused : p.shift.isUsed w = false) {e : Shift.Errand}
    (errand : (p.shift.threads u).errand = some e) : e.worker ≠ w := by
  rintro rfl
  have born : u < p.shift.born := by
    by_contra beyond
    rw [traced.unborn u (Nat.le_of_not_lt beyond)] at errand
    cases errand
  have uses : (p.shift.threads u).uses e.worker = true := by
    simp [Shift.Hand.uses, errand]
  rw [Shift.isUsed, List.any_eq_false] at unused
  exact unused u (List.mem_range.mpr born) uses

theorem traced_part (traced : Traced moves p) (unused : p.shift.isUsed w = false) : Traced (moves ++ [(t, .part w)])
    ⟨{ p.shift with force := p.shift.force.letGo w }, w :: p.leaving⟩ := by
  have stays : ∀ {v}, v ≠ w → p.shift.force.isAlive v = true → (p.shift.force.letGo w).isAlive v = true := by
    intro v other alive
    rw [Workforce.isAlive_letGo, alive, bne_iff_ne.mpr other]
    rfl
  refine ⟨traced.unborn, fun u e errand => ?_, fun r e member => ?_, fun r there e member home => ?_⟩
  · exact stays (not_used traced unused errand) (traced.called u e errand)
  · rw [Workforce.home?_letGo]
    exact (traced.entered r e member).imp_right (Announced.later · _)
  · rw [Workforce.home?_letGo] at home
    by_cases same : e.worker = w
    · exact Or.inr (List.mem_cons.mpr (Or.inl same))
    · exact (traced.present r there e member home).imp (stays same) (List.mem_cons_of_mem _)

theorem traced_leave (traced : Traced moves p) : Traced (moves ++ [(t, .leave w)])
    ⟨{ p.shift with force := p.shift.force.depart w p.shift.homeIsThere }, p.leaving.filter (· != w)⟩ := by
  have members := Workforce.members_depart p.shift.force w p.shift.homeIsThere
  have alive : ∀ v, (p.shift.force.depart w p.shift.homeIsThere).isAlive v = p.shift.force.isAlive v :=
    fun _ => Workforce.isAlive_of_members members
  have home : ∀ v, (p.shift.force.depart w p.shift.homeIsThere).home? v = p.shift.force.home? v :=
    fun _ => Workforce.home?_of_members members
  refine ⟨traced.unborn, fun u e errand => ?_, fun r e member => ?_, fun r there e member homely => ?_⟩
  · rw [alive]
    exact traced.called u e errand
  · rw [home]
    rw [Workforce.entries_depart] at member
    have old : e ∈ p.shift.force.entries r := by
      split at member
      · exact (List.mem_filter.mp member).1
      · exact member
    exact (traced.entered r e old).imp_right (Announced.later · _)
  · rw [home] at homely
    rw [alive]
    rw [Workforce.entries_depart] at member
    split at member
    · obtain ⟨old, other⟩ := List.mem_filter.mp member
      refine (traced.present r there e old homely).imp_right fun leaving => ?_
      exact List.mem_filter.mpr ⟨leaving, other⟩
    · rename_i elsewhere
      refine (traced.present r there e member homely).imp_right fun leaving => ?_
      refine List.mem_filter.mpr ⟨leaving, bne_iff_ne.mpr fun same => ?_⟩
      exact elsewhere ⟨same ▸ homely, there⟩

theorem traced_act {a : Action} (traced : Traced moves p) (acted : p.act t a = some p') :
    Traced (moves ++ [(t, a)]) p' := by
  cases a with
  | move a =>
    simp only [act, Option.ite_none_right_eq_some, Option.map_eq_some_iff] at acted
    obtain ⟨permitted, s', acted, rfl⟩ := acted
    exact traced_move traced permitted acted
  | part w =>
    simp only [act, Option.ite_none_right_eq_some, Bool.and_eq_true, Bool.not_eq_true', Option.some.injEq] at acted
    obtain ⟨⟨_, unused⟩, rfl⟩ := acted
    exact traced_part traced unused
  | leave w =>
    simp only [act, Option.ite_none_right_eq_some, Option.some.injEq] at acted
    obtain ⟨_, rfl⟩ := acted
    exact traced_leave traced

theorem run_traced {more : List (ThreadId × Action)} (traced : Traced moves p) (ran : p.run more = some p') :
    Traced (moves ++ more) p' :=
  Threads.run_traces moves traced ran fun _ _ _ _ _ _ => traced_act

/-- An entry goes when it is taken out, or when its worker leaves its home. -/
theorem entry_goes {a : Action} {e : Roster.Entry} (traced : Traced moves p) (acted : p.act t a = some p')
    (listed : e ∈ p.shift.force.entries r) (gone : e ∉ p'.shift.force.entries r) :
    a = .move (.chore (.withdraw r e.worker)) ∨ a = .leave e.worker ∧ p.shift.force.home? e.worker = some r := by
  cases a with
  | move a =>
    simp only [act, Option.ite_none_right_eq_some, Option.map_eq_some_iff] at acted
    obtain ⟨permitted, s', acted, rfl⟩ := acted
    rcases (grown_of_act traced.called permitted acted).kept r e listed with kept | withdrawn
    · exact absurd kept gone
    · exact Or.inl (congrArg Action.move withdrawn)
  | part w =>
    simp only [act, Option.ite_none_right_eq_some, Option.some.injEq] at acted
    obtain ⟨_, rfl⟩ := acted
    exact absurd listed gone
  | leave w =>
    simp only [act, Option.ite_none_right_eq_some, Option.some.injEq] at acted
    obtain ⟨_, rfl⟩ := acted
    rw [Workforce.entries_depart] at gone
    split at gone
    · rename_i home
      have same : e.worker = w := by
        by_contra other
        exact gone (List.mem_filter.mpr ⟨listed, bne_iff_ne.mpr other⟩)
      exact Or.inr ⟨by rw [same], same ▸ home.1⟩
    · exact absurd listed gone

/-- A worker that is listed has a handle, or is about to leave its home, or was announced by hand to a roster that is
not its home. Entries go only by hand and from the home of a worker that leaves it, and then it is not listed there. -/
theorem entries_outlive (ran : run {} moves = some p) :
    (∀ r, p.shift.homeIsThere r = true → ∀ e ∈ p.shift.force.entries r,
      p.shift.force.isAlive e.worker = true ∨ e.worker ∈ p.leaving ∨
        p.shift.force.home? e.worker ≠ some r ∧ Announced moves r e.worker) ∧
    (∀ t a p' r e, p.act t a = some p' → e ∈ p.shift.force.entries r → e ∉ p'.shift.force.entries r →
      a = .move (.chore (.withdraw r e.worker)) ∨ a = .leave e.worker ∧ p.shift.force.home? e.worker = some r) ∧
    ∀ t, ∀ w ∈ p.leaving, ∃ p', p.act t (.leave w) = some p' ∧ w ∉ p'.leaving ∧
      ∀ r, p.shift.homeIsThere r = true → p.shift.force.home? w = some r → w ∉ p'.shift.force.listed r := by
  have traced : Traced moves p := run_traced traced_fresh ran
  refine ⟨fun r there e listed => ?_, fun t a p' r e acted => entry_goes traced acted, fun t w leaving => ?_⟩
  · by_cases home : p.shift.force.home? e.worker = some r
    · exact (traced.present r there e listed home).imp_right Or.inl
    · exact Or.inr (Or.inr ⟨home, (traced.entered r e listed).resolve_left home⟩)
  · refine ⟨_, if_pos leaving, by simp, fun r there home listed => ?_⟩
    rw [Workforce.listed, Workforce.entries_depart, if_pos ⟨home, there⟩] at listed
    obtain ⟨e, member, rfl⟩ := List.mem_map.mp listed
    exact bne_iff_ne.mp (List.mem_filter.mp member).2 rfl

/-- A pump is announced to its home and, by hand, to another roster, and is let go. -/
def leaver : List (ThreadId × Action) :=
  [(0, .move .arrive), (0, .move (.chore .addRoster)), (0, .move (.chore .addRoster)),
    (0, .move (.chore (.hire "pump" { home := some 0 }))), (0, .move (.chore (.announce 0 0 0))),
    (0, .move (.chore (.announce 1 0 0))), (0, .part 0)]

theorem entries_outlive_leaver :
    (∃ p, run {} leaver = some p ∧ p.leaving = [0] ∧ p.shift.force.listed 0 = [0] ∧
      ∃ p', p.act 0 (.leave 0) = some p' ∧ 0 ∉ p'.shift.force.listed 0) ∧
    ∃ p, run {} (leaver ++ [(0, .leave 0)]) = some p ∧ p.shift.force.isAlive 0 = false ∧ p.leaving = [] ∧
      p.shift.force.listed 0 = [] ∧ p.shift.force.listed 1 = [0] ∧ Announced (leaver ++ [(0, .leave 0)]) 1 0 := by
  constructor
  · obtain ⟨_, _, leaves⟩ := entries_outlive (show run {} leaver = some _ from rfl)
    obtain ⟨p', left, _, home⟩ := leaves 0 0 List.mem_cons_self
    exact ⟨_, rfl, rfl, rfl, p', left, home 0 rfl rfl⟩
  · obtain ⟨entries, _, _⟩ := entries_outlive (show run {} (leaver ++ [(0, .leave 0)]) = some _ from rfl)
    rcases entries 1 rfl ⟨0, "pump", 0⟩ List.mem_cons_self with alive | leaving | ⟨_, announced⟩
    · cases alive
    · cases leaving
    · exact ⟨_, rfl, rfl, rfl, rfl, rfl, announced⟩

/-- A worker that has no home is announced by hand and let go: the roster lists it still. -/
theorem stray_entry : ∃ p, run {} [(0, .move .arrive), (0, .move (.chore .addRoster)),
      (0, .move (.chore (.hire "pump" {}))), (0, .move (.chore (.announce 0 0 0))), (0, .part 0), (0, .leave 0)] = some p ∧
    p.leaving = [] ∧ p.shift.homeIsThere 0 = true ∧
    ∃ e ∈ p.shift.force.entries 0, p.shift.force.isAlive e.worker = false :=
  ⟨_, rfl, rfl, rfl, ⟨0, "pump", 0⟩, List.mem_cons_self, rfl⟩

end Parting

end Switchboard
