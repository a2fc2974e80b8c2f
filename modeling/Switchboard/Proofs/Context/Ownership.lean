import Switchboard.Proofs.Context.Plant

/-!
What belongs to a context. Everything that a context makes descends from its root and from no other context's, and so it is
cancelled with the root (`isCancelled_of_descends`).
-/

namespace Switchboard.Plant

variable {s s' : Plant} {t u : ThreadId} {a : Action} {c d : ContextId} {x y : Context}

/-! ### Invariants -/

def Product.Descends (s : Plant) (root : StopToken) : Product → Prop
  | token y => y ∈ s.tokens ∧ root.number ∈ y.line
  | worker w | generator w _ => ∃ y, s.shift.force.stops[w]? = some y ∧ root.number ∈ y.line

structure Kept (s : Plant) : Prop where
  tended : s.shift.Tended
  witnessed : s.shift.Witnessed
  grounded : s.shift.Grounded
  lineage : Lineage s.shift.force.tokens.issued s.tokens s.shift.force.stops (s.contexts.map Context.root)
  products : ∀ c p, (c, p) ∈ s.products → ∃ x, s.contexts[c]? = some x ∧ p.Descends s x.root

/-- A move is one of the workforce or leaves the workforce alone. -/
theorem turn_base (staffed : s.shift.Staffed) (turn : Turn s t a s') : s'.shift = s.shift ∨ s.shift.Turn t s'.shift := by
  cases turn with
  | shift _ acted | found acted | make _ acted => exact Or.inr (Shift.turn_of_act staffed acted)
  | shutdown => exact Or.inl rfl
  | step free _ stepped =>
    cases stepped with
    | again | claim | list | done => exact Or.inl rfl
    | cancel => exact Or.inr (.chore _ free)
    | tell _ acted => exact Or.inr (Shift.turn_of_act staffed acted)

/-- A context stays what it is, and once it is shut down it stays so. -/
theorem turn_context (turn : Turn s t a s') (there : s.contexts[c]? = some x) :
    ∃ x', s'.contexts[c]? = some x' ∧ x'.root = x.root ∧ (x.stopped = true → x'.stopped = true) := by
  have same : ∃ x', s.contexts[c]? = some x' ∧ x'.root = x.root ∧ (x.stopped = true → x'.stopped = true) :=
    ⟨x, there, rfl, id⟩
  cases turn with
  | shift | make | shutdown => exact same
  | found =>
    refine ⟨x, ?_, rfl, id⟩
    rw [List.getElem?_append_left (List.getElem?_eq_some_iff.mp there).1, there]
  | @step d y _ _ there' stepped =>
    cases stepped with
    | again | cancel | list | tell | done => exact same
    | claim =>
      by_cases here : d = c
      · subst here
        obtain rfl := Option.some.inj (there'.symm.trans there)
        refine ⟨{ y with stopped := true }, ?_, rfl, fun _ => rfl⟩
        rw [List.getElem?_set_self (List.getElem?_eq_some_iff.mp there).1]
      · refine ⟨x, ?_, rfl, id⟩
        rw [List.getElem?_set_ne here, there]

theorem within_of_permits {b : Shift.Action} (permitted : s.permits t b = true) : b.isWithin s.tokens = true := by
  cases b with
  | chore =>
    simp only [permits, Bool.and_eq_true] at permitted
    exact permitted.2
  | arrive | release | lose | order | advance | proceed | finish => rfl

theorem within_of_making (kept : s.Kept) (there : s.contexts[c]? = some x) (m : Making) :
    (Shift.Action.chore (m.chore x)).isWithin s.tokens = true := by
  have handed : x.root ∈ s.tokens :=
    kept.lineage.handed (List.mem_map_of_mem (List.mem_of_getElem? there))
  cases m <;> simp [Making.chore, Shift.Action.isWithin, Context.workerOptions, handed]

/-- What is there for good: tokens that were given out, workers that were made and requests to stop. -/
structure Extends (s s' : Plant) : Prop where
  tokens : s.tokens ⊆ s'.tokens
  stops : ∀ (w : WorkerId) (y : StopToken), s.shift.force.stops[w]? = some y → s'.shift.force.stops[w]? = some y
  cancelled : s.shift.force.tokens.cancelled ⊆ s'.shift.force.tokens.cancelled

theorem extends_refl (s : Plant) : s.Extends s := ⟨List.Subset.refl _, fun _ _ => id, List.Subset.refl _⟩

theorem Extends.trans {s₁ s₂ s₃ : Plant} (first : s₁.Extends s₂) (second : s₂.Extends s₃) : s₁.Extends s₃ where
  tokens _ member := second.tokens (first.tokens member)
  stops w y stop := second.stops w y (first.stops w y stop)
  cancelled _ member := second.cancelled (first.cancelled member)

theorem turn_extends (kept : s.Kept) (turn : Turn s t a s') : s.Extends s' := by
  have staffed := kept.tended.staffed
  have cancelled : s.shift.force.tokens.cancelled ⊆ s'.shift.force.tokens.cancelled := by
    rcases turn_base staffed turn with same | turn
    · rw [same]
      exact List.Subset.refl _
    · exact Shift.cancelled_subset turn
  have moved : ∀ {b : Shift.Action} {shift : Shift}, s.shift.act t b = some shift → ∀ (w : WorkerId) (y : StopToken),
      s.shift.force.stops[w]? = some y → shift.force.stops[w]? = some y := by
    intro b shift acted w y stop
    rw [(Shift.stops_of_act staffed acted).1, List.getElem?_append_left (List.getElem?_eq_some_iff.mp stop).1]
    exact stop
  cases turn with
  | shift _ acted | found acted | make _ acted => exact ⟨List.subset_append_left _ _, moved acted, cancelled⟩
  | shutdown => exact ⟨List.Subset.refl _, fun _ _ => id, cancelled⟩
  | step _ _ stepped =>
    cases stepped with
    | again | claim | cancel | list | done => exact ⟨List.Subset.refl _, fun _ _ => id, cancelled⟩
    | tell _ acted => exact ⟨List.Subset.refl _, moved acted, cancelled⟩

theorem turn_lineage (kept : s.Kept) (turn : Turn s t a s') :
    Lineage s'.shift.force.tokens.issued s'.tokens s'.shift.force.stops (s'.contexts.map Context.root) := by
  have lineage := kept.lineage
  cases turn with
  | shift permitted acted =>
    exact Shift.lineage_of_act kept.tended.staffed lineage (within_of_permits permitted) acted
  | found acted =>
    obtain ⟨stops, issued⟩ := Shift.stops_of_act kept.tended.staffed acted
    have more := lineage.found (y := (s.shift.force.tokens.derive none).1) rfl rfl
    simp only [based, Shift.Action.issues, List.map_append, List.map_cons, List.map_nil]
    rw [issued, stops]
    simpa [Shift.Action.issues, Shift.Action.hires] using more
  | make there acted =>
    exact Shift.lineage_of_act kept.tended.staffed lineage (within_of_making kept there _) acted
  | shutdown => exact lineage
  | @step d y _ _ there stepped =>
    cases stepped with
    | again | list | done => exact lineage
    | claim =>
      have same : (s.contexts.set d { y with stopped := true }).map Context.root = s.contexts.map Context.root := by
        rw [List.map_set]
        apply List.ext_getElem?
        intro e
        rw [List.getElem?_set]
        split
        · rename_i here
          subst here
          rw [List.getElem?_map, there, if_pos]
          · rfl
          · rw [List.length_map]
            exact (List.getElem?_eq_some_iff.mp there).1
        · rfl
      show Lineage _ _ _ ((s.contexts.set d { y with stopped := true }).map Context.root)
      rw [same]
      exact lineage
    | cancel => exact lineage
    | tell _ acted =>
      have more := Shift.lineage_of_act kept.tended.staffed lineage rfl acted
      rwa [show (Shift.Action.issues s.shift.force (.order .terminate _)) = [] from rfl, List.append_nil] at more

theorem Product.Descends.later {p : Product} {root : StopToken} (descends : p.Descends s root) (more : s.Extends s') :
    p.Descends s' root := by
  cases p with
  | token y => exact ⟨more.tokens descends.1, descends.2⟩
  | worker w | generator w period =>
    obtain ⟨y, stop, above⟩ := descends
    exact ⟨y, more.stops w y stop, above⟩

/-- What a context makes descends from it. -/
theorem descends_making (kept : s.Kept) {m : Making} {shift : Shift}
    (acted : s.shift.act t (.chore (m.chore x)) = some shift) :
    (m.product s.shift.force x).Descends (s.based t (.chore (m.chore x)) shift) x.root := by
  have above : x.root.number ∈ (s.shift.force.tokens.derive (some x.root)).1.line :=
    List.mem_cons_of_mem _ List.mem_cons_self
  have hired : ∀ {name : String}, s.shift.act t (.chore (.hire name x.workerOptions)) = some shift →
      shift.force.stops[s.shift.force.members.length]? = some (s.shift.force.tokens.derive (some x.root)).1 := by
    intro name acted
    have last : s.shift.force.stops.length = s.shift.force.members.length := List.length_map _
    rw [(Shift.stops_of_act kept.tended.staffed acted).1, ← last, Shift.Action.hires, List.getElem?_concat_length]
    rfl
  cases m with
  | token => exact ⟨List.mem_append_right _ List.mem_cons_self, above⟩
  | worker name => exact ⟨_, hired acted, above⟩
  | generator name => exact ⟨_, hired acted, above⟩

theorem turn_products (kept : s.Kept) (turn : Turn s t a s') (p : Product) (member : (c, p) ∈ s'.products) :
    ∃ x, s'.contexts[c]? = some x ∧ p.Descends s' x.root := by
  have old : (c, p) ∈ s.products → ∃ x, s'.contexts[c]? = some x ∧ p.Descends s' x.root := by
    intro member
    obtain ⟨x, there, descends⟩ := kept.products c p member
    obtain ⟨x', there', root, _⟩ := turn_context turn there
    exact ⟨x', there', root ▸ descends.later (turn_extends kept turn)⟩
  cases turn with
  | shift | found | shutdown => exact old member
  | make there acted =>
    rcases List.mem_append.mp member with before | new
    · exact old before
    · cases List.mem_singleton.mp new
      exact ⟨_, there, (descends_making kept acted).later ⟨List.Subset.refl _, fun _ _ => id, List.Subset.refl _⟩⟩
  | step _ _ stepped =>
    cases stepped with
    | again | claim | cancel | list | tell | done => exact old member

theorem turn_kept (kept : s.Kept) (turn : Turn s t a s') : s'.Kept := by
  have lineage := turn_lineage kept turn
  have products := fun c p => turn_products (c := c) kept turn p
  rcases turn_base kept.tended.staffed turn with same | turn
  · exact ⟨same ▸ kept.tended, same ▸ kept.witnessed, same ▸ kept.grounded, lineage, products⟩
  · exact ⟨Shift.turn_tended kept.tended turn, Shift.turn_witnessed kept.tended kept.witnessed turn,
      Shift.turn_grounded kept.tended kept.grounded turn, lineage, products⟩

theorem kept_fresh : Kept {} :=
  ⟨Shift.tended_fresh, Shift.witnessed_fresh, Shift.grounded_fresh, Lineage.fresh, by simp⟩

theorem run_keeps {P : Plant → Prop} {moves : List (ThreadId × Action)} (kept : s.Kept) (holds : P s)
    (step : ∀ s t a s', s.Kept → P s → Turn s t a s' → P s') (ran : s.run moves = some s') : s'.Kept ∧ P s' := by
  refine Threads.run_keeps (P := fun s => s.Kept ∧ P s) ⟨kept, holds⟩ ran ?_
  rintro s t a s' _ ⟨kept, holds⟩ acted
  have turn := turn_of_act acted
  exact ⟨turn_kept kept turn, step s t a s' kept holds turn⟩

theorem run_extends {moves : List (ThreadId × Action)} (kept : s.Kept) (ran : s.run moves = some s') : s.Extends s' :=
  (run_keeps (P := s.Extends) kept (extends_refl s) (fun _ _ _ _ kept before turn => before.trans (turn_extends kept turn))
    ran).2

/-! ### What is cancelled with a root -/

theorem isCancelled_of_descends {p : Product} {root : StopToken} (descends : p.Descends s root)
    (cancelled : root.number ∈ s.shift.force.tokens.cancelled) : p.isCancelled s.shift.force = true := by
  cases p with
  | token y => exact StopTokens.isCancelled_iff.mpr ⟨_, descends.2, cancelled⟩
  | worker w | generator w period =>
    obtain ⟨y, stop, above⟩ := descends
    rw [Workforce.getElem?_stops] at stop
    obtain ⟨z, there, rfl⟩ := Option.map_eq_some_iff.mp stop
    show s.shift.force.shouldStop w = true
    rw [Shift.shouldStop_of_worker there]
    exact StopTokens.isCancelled_iff.mpr ⟨_, above, cancelled⟩

end Switchboard.Plant
