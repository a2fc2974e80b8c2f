import Switchboard.Proofs.Worker.Resting

/-!
Where tokens come from. A token knows all those that it descends from, no number is given out twice, and nothing descends
from the token that a worker stops by.
-/

namespace Switchboard

/-- The number of a token and those of all that it descends from. -/
def StopToken.line (x : StopToken) : List Nat := x.number :: x.ancestors

def Workforce.stops (f : Workforce) : List StopToken := f.members.map fun m => m.worker.stop

theorem StopTokens.isCancelled_iff {ts : StopTokens} {x : StopToken} :
    ts.isCancelled x = true ↔ ∃ n ∈ x.line, n ∈ ts.cancelled := by
  simp only [isCancelled, StopToken.line, List.any_eq_true, List.contains_eq_mem, decide_eq_true_eq]

namespace Workforce

variable {f : Workforce} {w : WorkerId} {x x' : Worker}

theorem getElem?_stops (f : Workforce) (w : WorkerId) : f.stops[w]? = (f.worker? w).map Worker.stop := by
  simp only [stops, worker?, member?, List.getElem?_map, Option.map_map]
  rfl

theorem stops_update (change : Worker → Worker) (same : ∀ y, f.worker? w = some y → (change y).stop = y.stop) :
    (f.update w change).stops = f.stops := by
  apply List.ext_getElem?
  intro v
  rw [getElem?_stops, getElem?_stops, worker?_update]
  split
  · rename_i here
    subst here
    cases there : f.worker? w with
    | none => rfl
    | some y => exact congrArg some (same y there)
  · rfl

theorem stops_put (there : f.worker? w = some x) (same : x'.stop = x.stop) : (f.update w fun _ => x').stops = f.stops :=
  stops_update _ fun y found => by rw [same, Option.some.inj (there.symm.trans found)]

theorem stops_of_workers {f' : Workforce} (same : ∀ w, f'.worker? w = f.worker? w) : f'.stops = f.stops :=
  List.ext_getElem? fun w => by rw [getElem?_stops, getElem?_stops, same]

end Workforce

/-! ### Descent -/

/-- What stands in a list that something was put at the end of. -/
theorem getElem?_concat_cases {α : Type} {l : List α} {a b : α} {i : Nat} (there : (l ++ [a])[i]? = some b) :
    l[i]? = some b ∨ i = l.length ∧ b = a := by
  rcases Nat.lt_trichotomy i l.length with before | rfl | beyond
  · rw [List.getElem?_append_left before] at there
    exact Or.inl there
  · rw [List.getElem?_concat_length] at there
    exact Or.inr ⟨rfl, (Option.some.inj there).symm⟩
  · rw [List.getElem?_eq_none] at there
    · cases there
    · rw [List.length_append]
      exact beyond

/-- The token has just been made, from one of these or from none. -/
structure StopToken.Sprung (y : StopToken) (issued : Nat) (hands : List StopToken) : Prop where
  number : y.number = issued
  ancestors : y.ancestors = [] ∨ ∃ p ∈ hands, y.ancestors = p.line

/-- What holds of the tokens in anybody's hands, of those that workers stop by, and of some that are roots. -/
structure Lineage (issued : Nat) (hands stops roots : List StopToken) : Prop where
  issued : ∀ x, x ∈ hands ∨ x ∈ stops → ∀ n ∈ x.line, n < issued
  handed : roots ⊆ hands
  /-- A token descends from one root at most. -/
  sole : ∀ x, x ∈ hands ∨ x ∈ stops → ∀ (c d : Nat) (a b : StopToken), roots[c]? = some a → roots[d]? = some b →
    a.number ∈ x.line → b.number ∈ x.line → c = d
  /-- Nothing descends from the token that a worker stops by. -/
  apart : ∀ (w : Nat) (x : StopToken), stops[w]? = some x →
    (∀ y ∈ hands, x.number ∉ y.line) ∧ ∀ (v : Nat) (y : StopToken), stops[v]? = some y → v ≠ w → x.number ∉ y.line

namespace Lineage

variable {issued n : Nat} {hands stops roots : List StopToken} {x y : StopToken}

theorem number_lt (lineage : Lineage issued hands stops roots) (known : x ∈ hands ∨ x ∈ stops) : x.number < issued :=
  lineage.issued x known x.number List.mem_cons_self

/-- What a token that has just been made descends from was there before. -/
theorem mem_sprung (sprung : y.Sprung issued hands) (old : n ≠ issued) (member : n ∈ y.line) :
    ∃ p ∈ hands, n ∈ p.line := by
  rcases List.mem_cons.mp member with same | above
  · exact absurd (same.trans sprung.number) old
  · rcases sprung.ancestors with none | ⟨p, there, line⟩
    · rw [none] at above
      cases above
    · exact ⟨p, there, line ▸ above⟩

theorem issued_sprung (lineage : Lineage issued hands stops roots) (sprung : y.Sprung issued hands) :
    ∀ n ∈ y.line, n < issued + 1 := by
  intro n member
  by_cases new : n = issued
  · exact new ▸ Nat.lt_succ_self n
  · obtain ⟨p, there, above⟩ := mem_sprung sprung new member
    exact Nat.lt_succ_of_lt (lineage.issued p (Or.inl there) n above)

theorem sole_sprung (lineage : Lineage issued hands stops roots) (sprung : y.Sprung issued hands) {c d : Nat}
    {a b : StopToken} (root : roots[c]? = some a) (root' : roots[d]? = some b) (member : a.number ∈ y.line)
    (member' : b.number ∈ y.line) : c = d := by
  have old : ∀ {e : Nat} {a : StopToken}, roots[e]? = some a → a.number ≠ issued := fun root =>
    Nat.ne_of_lt (lineage.number_lt (Or.inl (lineage.handed (List.mem_of_getElem? root))))
  have above : ∀ {e : Nat} {a : StopToken}, roots[e]? = some a → a.number ∈ y.line → a.number ∈ y.ancestors := by
    intro e a root member
    rcases List.mem_cons.mp member with same | above
    · exact absurd (same.trans sprung.number) (old root)
    · exact above
  rcases sprung.ancestors with none | ⟨p, there, line⟩
  · have nowhere := above root member
    rw [none] at nowhere
    cases nowhere
  · exact lineage.sole p (Or.inl there) c d a b root root' (line ▸ above root member) (line ▸ above root' member')

theorem apart_sprung (lineage : Lineage issued hands stops roots) (sprung : y.Sprung issued hands) {w : Nat}
    (stop : stops[w]? = some x) : x.number ∉ y.line := by
  intro member
  have old := Nat.ne_of_lt (lineage.number_lt (Or.inr (List.mem_of_getElem? stop)))
  obtain ⟨p, there, above⟩ := mem_sprung sprung old member
  exact (lineage.apart w x stop).1 p there above

theorem new_of_sprung (lineage : Lineage issued hands stops roots) (sprung : y.Sprung issued hands)
    (known : x ∈ hands ∨ x ∈ stops) : y.number ∉ x.line := fun member =>
  Nat.lt_irrefl _ (sprung.number ▸ lineage.issued x known _ member)

/-- A token that somebody gets. -/
theorem issue (lineage : Lineage issued hands stops roots) (sprung : y.Sprung issued hands) :
    Lineage (issued + 1) (hands ++ [y]) stops roots := by
  have cases_ : ∀ {x}, x ∈ hands ++ [y] ∨ x ∈ stops → (x ∈ hands ∨ x ∈ stops) ∨ x = y := by
    intro x known
    rcases known with handed | stop
    · rcases List.mem_append.mp handed with old | new
      · exact Or.inl (Or.inl old)
      · exact Or.inr (List.mem_singleton.mp new)
    · exact Or.inl (Or.inr stop)
  constructor
  · intro x known
    rcases cases_ known with old | rfl
    · exact fun n member => Nat.lt_succ_of_lt (lineage.issued x old n member)
    · exact lineage.issued_sprung sprung
  · exact fun x member => List.mem_append_left _ (lineage.handed member)
  · intro x known c d a b
    rcases cases_ known with old | rfl
    · exact lineage.sole x old c d a b
    · exact lineage.sole_sprung sprung
  · intro w x stop
    refine ⟨fun z member => ?_, (lineage.apart w x stop).2⟩
    rcases List.mem_append.mp member with old | new
    · exact (lineage.apart w x stop).1 z old
    · rw [List.mem_singleton.mp new]
      exact lineage.apart_sprung sprung stop

/-- A token that a new worker stops by. -/
theorem hire (lineage : Lineage issued hands stops roots) (sprung : y.Sprung issued hands) :
    Lineage (issued + 1) hands (stops ++ [y]) roots := by
  have cases_ : ∀ {x}, x ∈ hands ∨ x ∈ stops ++ [y] → (x ∈ hands ∨ x ∈ stops) ∨ x = y := by
    intro x known
    rcases known with handed | stop
    · exact Or.inl (Or.inl handed)
    · rcases List.mem_append.mp stop with old | new
      · exact Or.inl (Or.inr old)
      · exact Or.inr (List.mem_singleton.mp new)
  constructor
  · intro x known
    rcases cases_ known with old | rfl
    · exact fun n member => Nat.lt_succ_of_lt (lineage.issued x old n member)
    · exact lineage.issued_sprung sprung
  · exact lineage.handed
  · intro x known c d a b
    rcases cases_ known with old | rfl
    · exact lineage.sole x old c d a b
    · exact lineage.sole_sprung sprung
  · intro w x stop
    rcases getElem?_concat_cases stop with old | ⟨last, rfl⟩
    · refine ⟨(lineage.apart w x old).1, fun v z there other => ?_⟩
      rcases getElem?_concat_cases there with there | ⟨_, rfl⟩
      · exact (lineage.apart w x old).2 v z there other
      · exact lineage.apart_sprung sprung old
    · refine ⟨fun z member => lineage.new_of_sprung sprung (Or.inl member), fun v z there other => ?_⟩
      rcases getElem?_concat_cases there with there | ⟨last', _⟩
      · exact lineage.new_of_sprung sprung (Or.inr (List.mem_of_getElem? there))
      · exact absurd (last'.trans last.symm) other

/-- A token that is a root from now on. -/
theorem found (lineage : Lineage issued hands stops roots) (number : y.number = issued) (first : y.ancestors = []) :
    Lineage (issued + 1) (hands ++ [y]) stops (roots ++ [y]) := by
  have sprung : y.Sprung issued hands := ⟨number, Or.inl first⟩
  have more := lineage.issue sprung
  -- Nothing but the new root itself descends from it, and it descends from no other.
  have own : ∀ {x : StopToken}, x ∈ hands ++ [y] ∨ x ∈ stops → y.number ∈ x.line → x = y := by
    intro x known member
    have old : x ∈ hands ∨ x ∈ stops → x = y := fun known => absurd member (lineage.new_of_sprung sprung known)
    rcases known with handed | stop
    · rcases List.mem_append.mp handed with there | new
      · exact old (Or.inl there)
      · exact List.mem_singleton.mp new
    · exact old (Or.inr stop)
  have foreign : ∀ {c : Nat} {a : StopToken}, roots[c]? = some a → a.number ∉ y.line := by
    intro c a root member
    have below := lineage.number_lt (Or.inl (lineage.handed (List.mem_of_getElem? root)))
    rw [StopToken.line, first, number, List.mem_singleton] at member
    exact Nat.ne_of_lt below member
  refine ⟨more.issued, ?_, ?_, more.apart⟩
  · intro x member
    rcases List.mem_append.mp member with old | new
    · exact List.mem_append_left _ (lineage.handed old)
    · exact List.mem_append_right _ new
  · intro x known c d a b root root' member member'
    rcases getElem?_concat_cases root with old | ⟨last, rfl⟩
    · rcases getElem?_concat_cases root' with old' | ⟨_, rfl⟩
      · exact more.sole x known c d a b old old' member member'
      · rw [own known member'] at member
        exact absurd member (foreign old)
    · rcases getElem?_concat_cases root' with old' | ⟨last', _⟩
      · rw [own known member] at member'
        exact absurd member' (foreign old')
      · exact last.trans last'.symm

theorem fresh : Lineage 0 [] [] [] :=
  ⟨by simp, List.Subset.refl _, by simp, by simp⟩

end Lineage

/-! ### Moves -/

namespace Shift

variable {s s' : Shift} {t : ThreadId} {a : Action} {hands roots : List StopToken}

/-- The tokens that a move gives to whoever makes it. -/
def Action.issues (f : Workforce) : Action → List StopToken
  | .chore (.derive parent) => [(f.tokens.derive parent).1]
  | _ => []

/-- The tokens that workers made by a move stop by. -/
def Action.hires (f : Workforce) : Action → List StopToken
  | .chore (.hire _ o) => [(f.tokens.derive o.parent).1]
  | _ => []

/-- A move uses no other tokens than these. -/
def Action.isWithin (hands : List StopToken) : Action → Bool
  | .chore (.derive parent) => parent.all fun p => hands.contains p
  | .chore (.hire _ o) => o.parent.all fun p => hands.contains p
  | .chore (.cancel x) => hands.contains x
  | _ => true

theorem sprung_of_derive (ts : StopTokens) {parent : Option StopToken}
    (within : (parent.all fun p => hands.contains p) = true) : (ts.derive parent).1.Sprung ts.issued hands := by
  cases parent with
  | none => exact ⟨rfl, Or.inl rfl⟩
  | some p => exact ⟨rfl, Or.inr ⟨p, by simpa using within, rfl⟩⟩

theorem issued_derive (ts : StopTokens) (parent : Option StopToken) : (ts.derive parent).2.issued = ts.issued + 1 := by
  cases parent <;> rfl

theorem section_stop {me : ThreadId} {grant : Except String ThreadId} {ts ts' : StopTokens} {x x' : Worker}
    {c : Worker.Call} {move : Worker.Move} (part : Worker.Section me grant ts x c move ts' x') :
    x'.stop = x.stop ∧ ts'.issued = ts.issued := by
  cases part <;> exact ⟨rfl, rfl⟩

theorem stops_stored {e : Errand} {ts : StopTokens} {x x' : Worker} (there : s.force.worker? e.worker = some x)
    (same : x'.stop = x.stop) : (s.stored e ts x').stops = s.force.stops := by
  apply List.ext_getElem?
  intro v
  rw [Workforce.getElem?_stops, Workforce.getElem?_stops, worker?_stored (Option.isSome_iff_exists.mpr ⟨x, there⟩)]
  split
  · rename_i here
    subst here
    rw [there]
    exact congrArg some same
  · rfl

theorem stops_chore (f : Workforce) (c : Chore) :
    (c.perform f).stops = f.stops ++ Action.hires f (.chore c) ∧
      (c.perform f).tokens.issued = f.tokens.issued + (Action.issues f (.chore c) ++ Action.hires f (.chore c)).length := by
  cases c with
  | hire name o =>
    refine ⟨?_, issued_derive f.tokens o.parent⟩
    simp [Chore.perform, Workforce.hire, Workforce.stops, Action.hires]
  | derive parent => exact ⟨(List.append_nil _).symm, issued_derive f.tokens parent⟩
  | addRoster | cancel | withdraw => exact ⟨(List.append_nil _).symm, rfl⟩
  | signal w => exact ⟨(Workforce.stops_update Worker.signal fun _ _ => rfl).trans (List.append_nil _).symm, rfl⟩
  | announce r w thread =>
    refine ⟨(Workforce.stops_of_workers fun v => ?_).trans (List.append_nil _).symm, ?_⟩
    · exact Workforce.worker?_announce r w thread
    · exact congrArg StopTokens.issued (tokens_announce f r w thread)

theorem stops_of_act (staffed : s.Staffed) (acted : s.act t a = some s') :
    s'.force.stops = s.force.stops ++ a.hires s.force ∧
      s'.force.tokens.issued = s.force.tokens.issued + (a.issues s.force ++ a.hires s.force).length := by
  have own : ∀ {w : WorkerId} {x x' : Worker}, s.force.worker? w = some x → x'.stop = x.stop →
      (s.force.update w fun _ => x').stops = s.force.stops ++ [] := fun there same =>
    (Workforce.stops_put there same).trans (List.append_nil _).symm
  cases a with
  | chore c =>
    simp only [act, Option.ite_none_right_eq_some, Option.some.injEq] at acted
    obtain ⟨_, rfl⟩ := acted
    exact stops_chore s.force c
  | arrive | order =>
    simp only [act, Option.ite_none_right_eq_some, Option.some.injEq] at acted
    obtain ⟨_, rfl⟩ := acted
    exact ⟨(List.append_nil _).symm, rfl⟩
  | lose =>
    cases acted
    exact ⟨(List.append_nil _).symm, rfl⟩
  | release w =>
    simp only [act, Option.ite_none_left_eq_some, Option.some.injEq] at acted
    obtain ⟨_, rfl⟩ := acted
    refine ⟨(Workforce.stops_of_workers fun v => ?_).trans (List.append_nil _).symm, ?_⟩
    · exact Workforce.worker?_release _ _
    · exact congrArg StopTokens.issued (tokens_release _ _ _)
  | advance now refusal =>
    cases advanced_of_act staffed acted with
    | goOn errand there part | spawn errand there part | comeBack errand there part =>
      obtain ⟨stop, issued⟩ := section_stop part
      refine ⟨(stops_stored there stop).trans (List.append_nil _).symm, ?_⟩
      simp only [enter_force, after_force, tokens_stored]
      exact issued
  | proceed =>
    cases proceeded_of_act acted with
    | begin hand there | take hand there | skip hand there | exit hand there | close hand there =>
      exact ⟨own there rfl, rfl⟩
  | finish p =>
    obtain ⟨w, hand⟩ : ∃ w, s' = s.after t s.force { station := .on w .exiting } [.ended w p] := by
      simp only [act] at acted
      split at acted
      · exact ⟨_, (Option.some.inj acted).symm⟩
      · cases acted
    subst hand
    exact ⟨(List.append_nil _).symm, rfl⟩

/-- What holds of tokens is kept by moves that use only those in somebody's hands. -/
theorem lineage_of_act (staffed : s.Staffed) (lineage : Lineage s.force.tokens.issued hands s.force.stops roots)
    (within : a.isWithin hands = true) (acted : s.act t a = some s') :
    Lineage s'.force.tokens.issued (hands ++ a.issues s.force) s'.force.stops roots := by
  obtain ⟨stops, issued⟩ := stops_of_act staffed acted
  rw [stops, issued]
  have same : a.issues s.force = [] → a.hires s.force = [] →
      Lineage (s.force.tokens.issued + (a.issues s.force ++ a.hires s.force).length) (hands ++ a.issues s.force)
        (s.force.stops ++ a.hires s.force) roots := by
    intro none none'
    simpa [none, none'] using lineage
  cases a with
  | chore c =>
    cases c with
    | hire name o =>
      have hired := lineage.hire (sprung_of_derive s.force.tokens within)
      simpa [Action.issues, Action.hires] using hired
    | derive parent =>
      have given := lineage.issue (sprung_of_derive s.force.tokens within)
      simpa [Action.issues, Action.hires] using given
    | addRoster | cancel | signal | announce | withdraw => exact same rfl rfl
  | arrive | release | lose | order | advance | proceed | finish => exact same rfl rfl

/-- Nobody is hired while others rest. -/
theorem eased_stops (staffed : s.Staffed) (acted : s.act t a = some s') (eased : Eased s t a s') :
    s'.force.stops = s.force.stops := by
  have nobody : a.hires s.force = [] := by
    cases eased <;> rfl
  rw [(stops_of_act staffed acted).1, nobody, List.append_nil]

end Shift

end Switchboard
