import Switchboard.Proofs.Dispatch.System

/-!
What a move can do, rule by rule. `turn_of_turn?` says that every move is one of these rules; whatever
all moves preserve is proved from them, and `run_keeps` carries it over to whole runs.
-/

namespace Switchboard.Dispatch

variable {β ι η : Type} [Backlog β ι] [LawfulBacklog β ι]

/-- What the dispatcher holds, oldest first. -/
abbrev Dispatcher.queue (d : Dispatcher β ι η) : List ι := LawfulBacklog.items d.backlog

/-- A move of thread `t`: the dispatcher and the thread's calls before it and after it, and what it
leaves in the log. -/
inductive Turn (stamp : Nat → ι → ι) (t : ThreadId) (n : Nat) (d : Dispatcher β ι η) :
    List (Frame ι η) → Dispatcher β ι η → List (Frame ι η) → List (Entry ι η) → Prop
  | call {fs} (op) (ready : free fs = true) :
    Turn stamp t n d fs d (⟨n, op, .at op.phase⟩ :: fs) [.called n t op]
  | queue {m op x below} (queues : d.gate.queues = true) :
    Turn stamp t n d (⟨m, op, .at (.admitting x)⟩ :: below)
      { d with backlog := Backlog.push d.backlog (stamp m x) } below
      [.queued (stamp m x), .returned m (.outcome (.ok .queued))]
  | pass {m op x h below} (opened : d.gate.queues = false) (bound : d.handler = some h) :
    Turn stamp t n d (⟨m, op, .at (.admitting x)⟩ :: below) d
      (⟨m, op, .calling h (stamp m x) .direct⟩ :: below) [.passed (stamp m x)]
  | refuse {m op x below} (opened : d.gate.queues = false) (unbound : d.handler = none) :
    Turn stamp t n d (⟨m, op, .at (.admitting x)⟩ :: below) d below
      [.returned m (.outcome (.error .notConfigured))]
  | choose {m op x below} (preset : d.preset = some x) :
    Turn stamp t n d (⟨m, op, .at .presetting⟩ :: below) d (⟨m, op, .at (.admitting x)⟩ :: below) []
  | lack {m op below} (preset : d.preset = none) :
    Turn stamp t n d (⟨m, op, .at .presetting⟩ :: below) d below
      [.returned m (.outcome (.error .notConfigured))]
  | suspend {m op below} :
    Turn stamp t n d (⟨m, op, .at .suspending⟩ :: below) d.suspend below [.returned m .done]
  | discard {m op below} :
    Turn stamp t n d (⟨m, op, .at .discarding⟩ :: below) d.discard.2 below
      (d.queue.map .discarded ++ [.returned m (.report { discarded := d.queue.length })])
  | bindSuspended {m op h below} :
    Turn stamp t n d (⟨m, op, .at (.binding h true)⟩ :: below) (d.bind h true) below
      [.bound h, .returned m (.report {})]
  | bindActive {m op h below} :
    Turn stamp t n d (⟨m, op, .at (.binding h false)⟩ :: below) (d.bind h false)
      (⟨m, op, .at .reopening⟩ :: below) [.bound h]
  | claim {m op below} (idle : d.gate.drainer = none) (waiting : d.queue ≠ []) :
    Turn stamp t n d (⟨m, op, .at .reopening⟩ :: below)
      { d with gate := { suspended := false, drainer := some t } } (⟨m, op, .at (.draining {})⟩ :: below) []
  | wait {m op u below} (drainer : d.gate.drainer = some u) (other : u ≠ t) :
    Turn stamp t n d (⟨m, op, .at .reopening⟩ :: below) d.reopen (⟨m, op, .at .waiting⟩ :: below) []
  | reopenInside {m op below} (drainer : d.gate.drainer = some t) :
    Turn stamp t n d (⟨m, op, .at .reopening⟩ :: below) d.reopen below [.returned m (.report {})]
  | reopenEmpty {m op below} (idle : d.gate.drainer = none) (empty : d.queue = []) :
    Turn stamp t n d (⟨m, op, .at .reopening⟩ :: below) d.reopen below [.returned m (.report {})]
  | wake {m op below} (idle : d.gate.drainer = none) :
    Turn stamp t n d (⟨m, op, .at .waiting⟩ :: below) d below [.returned m (.report {})]
  | stop {m op r below} (closed : d.gate.suspended = true ∨ d.queue = []) :
    Turn stamp t n d (⟨m, op, .at (.draining r)⟩ :: below) { d with gate := { d.gate with drainer := none } }
      below [.returned m (.report r)]
  | take {m op r below x rest h} (active : d.gate.suspended = false)
    (head : d.queue = x :: LawfulBacklog.items rest) (bound : d.handler = some h) :
    Turn stamp t n d (⟨m, op, .at (.draining r)⟩ :: below) { d with backlog := rest }
      (⟨m, op, .calling h x (.drained r)⟩ :: below) [.taken x]
  | lose {m op r below x rest} (active : d.gate.suspended = false)
    (head : d.queue = x :: LawfulBacklog.items rest) (unbound : d.handler = none) :
    Turn stamp t n d (⟨m, op, .at (.draining r)⟩ :: below) { d with backlog := rest }
      (⟨m, op, .at (.draining r.lose)⟩ :: below) [.discarded x]
  | enter {m op h x k below} :
    Turn stamp t n d (⟨m, op, .calling h x k⟩ :: below) d (⟨m, op, .handling x k⟩ :: below) [.started x h k]
  | settleDirect {m op x below} (v) :
    Turn stamp t n d (⟨m, op, .handling x .direct⟩ :: below) d below
      [.finished x .direct v, .returned m (.outcome (v.map fun _ => .delivered))]
  | settleDrained {m op x r below} (v) :
    Turn stamp t n d (⟨m, op, .handling x (.drained r)⟩ :: below) d
      (⟨m, op, .at (.draining (r.deliver v))⟩ :: below) [.finished x (.drained r) v]
  | preset {fs} (x) (ready : free fs = true) : Turn stamp t n d fs { d with preset := x } fs []

variable {stamp : Nat → ι → ι} {t : ThreadId} {n : Nat} {d d' : Dispatcher β ι η} {fs fs' : List (Frame ι η)}
  {es : List (Entry ι η)}

omit [LawfulBacklog β ι] in
theorem offer_cases (d : Dispatcher β ι η) (x : ι) :
    (d.gate.queues = true ∧ d.offer x = (.queued, { d with backlog := Backlog.push d.backlog x })) ∨
    (∃ h, d.gate.queues = false ∧ d.handler = some h ∧ d.offer x = (.handed h, d)) ∨
    (d.gate.queues = false ∧ d.handler = none ∧ d.offer x = (.refused, d)) := by
  unfold Dispatcher.offer
  cases queues : d.gate.queues with
  | true => simp
  | false => cases bound : d.handler <;> simp

theorem pending_eq (d : Dispatcher β ι η) : d.pending = d.queue.length := LawfulBacklog.size_eq _

theorem claim_cases (d : Dispatcher β ι η) (me : ThreadId) :
    (d.gate.drainer = none ∧ d.queue ≠ [] ∧
      d.claim me = (.drain, { d with gate := { suspended := false, drainer := some me } })) ∨
    (∃ u, d.gate.drainer = some u ∧ u ≠ me ∧ d.claim me = (.wait, d.reopen)) ∨
    (d.gate.drainer = some me ∧ d.claim me = (.done, d.reopen)) ∨
    (d.gate.drainer = none ∧ d.queue = [] ∧ d.claim me = (.done, d.reopen)) := by
  unfold Dispatcher.claim
  cases drainer : d.gate.drainer with
  | none => by_cases empty : d.queue = [] <;> simp [pending_eq, empty]
  | some u => by_cases same : u = me <;> simp [same]

theorem take_cases (d : Dispatcher β ι η) :
    ((d.gate.suspended = true ∨ d.queue = []) ∧
      d.take = (.stopped, { d with gate := { d.gate with drainer := none } })) ∨
    (∃ x rest h, d.gate.suspended = false ∧ d.queue = x :: LawfulBacklog.items rest ∧ d.handler = some h ∧
      d.take = (.item x (some h), { d with backlog := rest })) ∨
    (∃ x rest, d.gate.suspended = false ∧ d.queue = x :: LawfulBacklog.items rest ∧ d.handler = none ∧
      d.take = (.item x none, { d with backlog := rest })) := by
  unfold Dispatcher.take
  cases suspended : d.gate.suspended with
  | true => exact Or.inl ⟨Or.inl rfl, rfl⟩
  | false =>
    cases popped : Backlog.pop? d.backlog with
    | none => exact Or.inl ⟨Or.inr (LawfulBacklog.items_of_no_pop popped), rfl⟩
    | some next =>
      obtain ⟨x, rest⟩ := next
      have head : d.queue = x :: LawfulBacklog.items rest := LawfulBacklog.items_of_pop popped
      cases bound : d.handler with
      | some h => exact Or.inr (Or.inl ⟨x, rest, h, rfl, head, rfl, by simp⟩)
      | none => exact Or.inr (Or.inr ⟨x, rest, rfl, head, rfl, by simp⟩)

theorem turn_of_advance {f : Frame ι η} {below : List (Frame ι η)} {p : Phase ι η} (stage : f.stage = .at p)
    (h : turn? stamp t n d (f :: below) .advance = some (d', fs', es)) :
    Turn stamp t n d (f :: below) d' fs' es := by
  obtain ⟨m, op, _⟩ := f
  subst stage
  cases p with
  | admitting x =>
    rcases offer_cases d (stamp m x) with ⟨queues, offer⟩ | ⟨h', opened, bound, offer⟩ | ⟨opened, unbound, offer⟩
    all_goals
      simp only [turn?, Phase.stamped, Phase.advance, Phase.remembered, offer, Frame.land, Option.map_some,
        Option.some.injEq, Prod.mk.injEq] at h
      obtain ⟨rfl, rfl, rfl⟩ := h
    · exact .queue queues
    · exact .pass opened bound
    · exact .refuse opened unbound
  | presetting =>
    cases preset : d.preset
    all_goals
      simp only [turn?, Phase.stamped, Phase.advance, Phase.remembered, preset, Frame.land, Option.map_some,
        Option.some.injEq, Prod.mk.injEq] at h
      obtain ⟨rfl, rfl, rfl⟩ := h
    · exact .lack preset
    · exact .choose preset
  | suspending => cases h; exact .suspend
  | discarding =>
    simp only [turn?, Phase.stamped, Phase.advance, Phase.remembered, Frame.land, Option.map_some,
      Option.some.injEq, Prod.mk.injEq] at h
    obtain ⟨rfl, rfl, rfl⟩ := h
    rw [show d.discard.1 = d.queue.length from pending_eq d]
    exact .discard
  | binding h' suspended =>
    cases suspended
    all_goals cases h
    · exact .bindActive
    · exact .bindSuspended
  | reopening =>
    rcases claim_cases d t with ⟨idle, waiting, claim⟩ | ⟨u, drainer, other, claim⟩ | ⟨drainer, claim⟩ |
      ⟨idle, empty, claim⟩
    all_goals
      simp only [turn?, Phase.stamped, Phase.advance, Phase.remembered, claim, Frame.land, Option.map_some,
        Option.some.injEq, Prod.mk.injEq] at h
      obtain ⟨rfl, rfl, rfl⟩ := h
    · exact .claim idle waiting
    · exact .wait drainer other
    · exact .reopenInside drainer
    · exact .reopenEmpty idle empty
  | waiting =>
    cases drainer : d.gate.drainer with
    | some u => simp [turn?, Phase.stamped, Phase.advance, drainer, Frame.land] at h
    | none =>
      simp only [turn?, Phase.stamped, Phase.advance, Phase.remembered, drainer, Frame.land, Option.isSome_none,
        Bool.false_eq_true, if_false, Option.map_some, Option.some.injEq, Prod.mk.injEq] at h
      obtain ⟨rfl, rfl, rfl⟩ := h
      exact .wake drainer
  | draining r =>
    rcases take_cases d with ⟨closed, take⟩ | ⟨x, rest, h', active, head, bound, take⟩ |
      ⟨x, rest, active, head, unbound, take⟩
    all_goals
      simp only [turn?, Phase.stamped, Phase.advance, Phase.remembered, take, Frame.land, Option.map_some,
        Option.some.injEq, Prod.mk.injEq] at h
      obtain ⟨rfl, rfl, rfl⟩ := h
    · exact .stop closed
    · exact .take active head bound
    · exact .lose active head unbound

theorem turn_of_turn? {a : Action ι η} (h : turn? stamp t n d fs a = some (d', fs', es)) :
    Turn stamp t n d fs d' fs' es := by
  cases a with
  | call op =>
    simp only [turn?, Option.ite_none_right_eq_some, Option.some.injEq, Prod.mk.injEq] at h
    obtain ⟨ready, rfl, rfl, rfl⟩ := h
    exact .call op ready
  | preset x =>
    simp only [turn?, Option.ite_none_right_eq_some, Option.some.injEq, Prod.mk.injEq] at h
    obtain ⟨ready, rfl, rfl, rfl⟩ := h
    exact .preset x ready
  | advance =>
    match fs, h with
    | ⟨m, op, .at p⟩ :: below, h => exact turn_of_advance rfl h
  | enter =>
    match fs, h with
    | ⟨m, op, .calling h' x k⟩ :: below, h => cases h; exact .enter
  | settle v =>
    match fs, h with
    | ⟨m, op, .handling x .direct⟩ :: below, h => cases h; exact .settleDirect v
    | ⟨m, op, .handling x (.drained r)⟩ :: below, h => cases h; exact .settleDrained v

namespace System

theorem turn_of_act {s s' : System β ι η} {a : Action ι η} (h : s.act stamp t a = some s') :
    ∃ d fs es, Turn stamp t s.log.length s.dispatcher (s.threads t) d fs es ∧ s' = s.after t d fs es := by
  obtain ⟨⟨d, fs, es⟩, moved, rfl⟩ := Option.map_eq_some_iff.mp h
  exact ⟨d, fs, es, turn_of_turn? moved, rfl⟩

/-- What the moves of a run keep holds after it if it held before. -/
theorem run_keeps {P : System β ι η → Prop} {moves : List (ThreadId × Action ι η)} {s s' : System β ι η}
    (step : ∀ s t d fs es, t ∈ moves.map Prod.fst → P s →
      Turn stamp t s.log.length s.dispatcher (s.threads t) d fs es → P (s.after t d fs es))
    (holds : P s) (ran : s.run stamp moves = some s') : P s' := by
  refine Threads.run_keeps holds ran fun s t a s' member holds acted => ?_
  obtain ⟨d, fs, es, turn, rfl⟩ := turn_of_act acted
  exact step s t d fs es (List.mem_map_of_mem member) holds turn

end System

end Switchboard.Dispatch
