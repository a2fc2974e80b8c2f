import Mathlib
import Switchboard.Proofs.Dispatch.Ledger

/-!
One reopening from its call to its return, on one thread and with handlers that may call the dispatcher
again. While the drain goes on its mark is the thread's own, so whatever a handler asks is answered without
entering another handler, and the drain always stands in one of few places. `drain_report` says what it has
done when it returns.
-/

namespace Switchboard.Dispatch

variable {β ι η : Type}

/-! ### Reading a drain's log -/

/-- Whether a call leaves the gate closed, if it moves the gate. -/
def Operation.closes? : Operation ι η → Option Bool
  | request .suspend => some true
  | request (.resume _) => some false
  | bind _ suspended => some suspended
  | request (.dispatch _) | dispatchPreset => none

/-- What a call leaves in the log before it reopens the gate. -/
def Operation.bindings : Operation ι η → List (Entry ι η)
  | bind h _ => [.bound h]
  | _ => []

namespace Entry

def closes? : Entry ι η → Option Bool
  | called _ _ op => op.closes?
  | _ => none

/-- How an item handed out of the backlog has failed, if it has. -/
def failure? : Entry ι η → Option Error
  | finished _ (.drained _) (.error e) => some e
  | _ => none

end Entry

/-- Whether the calls of a log leave the gate closed: the last one that moves it decides. -/
def closing (es : List (Entry ι η)) : Option Bool := (es.filterMap Entry.closes?).getLast?

/-- Every reopening among these entries is answered at once, with an empty report. -/
def Prompt (es : List (Entry ι η)) : Prop :=
  ∀ before m t op rest, es = before ++ .called m t op :: rest → op.course = .reopening →
    ∃ later, rest = op.bindings ++ .returned m (.report {}) :: later

/-- Whether the gate is closed once the call's section has been performed, with the gate as it is now. -/
def Phase.leaves (p : Phase ι η) (now : Bool) : Bool :=
  match p with
  | suspending => true
  | discarding | reopening => false
  | binding _ suspended => suspended
  | admitting _ | presetting | waiting | draining _ => now

/-- The handler bound once the call's section has been performed. -/
def Phase.provides (p : Phase ι η) (now : Option η) : Option η :=
  match p with
  | binding h _ => some h
  | _ => now

/-- What a reopening that is answered at once has still to leave in the log. -/
def Phase.promises (m : Nat) : Phase ι η → List (Entry ι η)
  | binding h false => [.bound h, .returned m (.report {})]
  | reopening => [.returned m (.report {})]
  | _ => []

/-- The phases of a call that neither drains nor waits. -/
def Phase.Brief : Phase ι η → Prop
  | waiting | draining _ => False
  | _ => True

theorem phase_brief (op : Operation ι η) : op.phase.Brief := by
  cases op with
  | request r =>
    cases r with
    | dispatch | suspend => trivial
    | resume discard => cases discard <;> trivial
  | dispatchPreset | bind => trivial

theorem phase_leaves (op : Operation ι η) (now : Bool) : op.phase.leaves now = op.closes?.getD now := by
  cases op with
  | request r =>
    cases r with
    | dispatch | suspend => rfl
    | resume discard => cases discard <;> rfl
  | dispatchPreset | bind => rfl

theorem phase_provides_none {p : Phase ι η} {now : Option η} (none : p.provides now = none) : now = .none := by
  cases p with
  | binding => cases none
  | _ => exact none

theorem phase_promises {op : Operation ι η} (reopening : op.course = .reopening) (m : Nat) :
    op.phase.promises m = op.bindings ++ [.returned m (.report {})] := by
  cases op with
  | request r =>
    cases r with
    | dispatch | suspend => cases reopening
    | resume discard =>
      cases discard with
      | true => cases reopening
      | false => rfl
  | dispatchPreset => cases reopening
  | bind h suspended =>
    cases suspended with
    | true => cases reopening
    | false => rfl

theorem closing_append (es later : List (Entry ι η)) : closing (es ++ later) = (closing later).or (closing es) := by
  simp [closing, List.filterMap_append, List.getLast?_append]

theorem Entry.closes?_eq_none {e : Entry ι η} (quiet : ∀ m t op, e ≠ .called m t op) : e.closes? = none := by
  cases e with
  | called m t op => exact absurd rfl (quiet m t op)
  | _ => rfl

/-- Entries that no call is among leave the gate as it is. -/
theorem closing_quiet {es later : List (Entry ι η)} (quiet : ∀ m t op, .called m t op ∉ later) :
    closing (es ++ later) = closing es := by
  have none : later.filterMap Entry.closes? = [] := by
    refine List.filterMap_eq_nil_iff.mpr fun e member => Entry.closes?_eq_none ?_
    rintro m t op rfl
    exact quiet m t op member
  rw [closing_append]
  simp [closing, none]

theorem prompt_quiet {es later : List (Entry ι η)} (prompt : Prompt es) (quiet : ∀ m t op, .called m t op ∉ later) :
    Prompt (es ++ later) := by
  intro before m t op rest split reopening
  rcases List.append_eq_append_iff.mp split with ⟨middle, rfl, tail⟩ | ⟨middle, rfl, tail⟩
  · exact absurd (tail ▸ List.mem_append_right _ List.mem_cons_self) (quiet m t op)
  · cases middle with
    | nil =>
      rw [List.nil_append] at tail
      exact absurd (tail ▸ List.mem_cons_self) (quiet m t op)
    | cons e middle =>
      obtain ⟨rfl, rfl⟩ := List.cons.inj tail
      obtain ⟨later', rfl⟩ := prompt before m t op middle rfl reopening
      exact ⟨later' ++ later, by simp⟩

theorem prompt_call {es : List (Entry ι η)} (prompt : Prompt es) (m : Nat) (t : ThreadId) (op : Operation ι η) :
    Prompt (es ++ .called m t op :: op.phase.promises m) := by
  intro before m' t' op' rest split reopening
  have quiet : ∀ m' t' op', Entry.called m' t' op' ∉ op.phase.promises m := by
    intro m' t' op' member
    unfold Phase.promises at member
    split at member <;> simp at member
  rcases List.append_eq_append_iff.mp split with ⟨middle, rfl, tail⟩ | ⟨middle, rfl, tail⟩
  · cases middle with
    | nil =>
      obtain ⟨same, rfl⟩ := List.cons.inj tail
      cases same
      exact ⟨[], phase_promises reopening m⟩
    | cons e middle =>
      obtain ⟨_, rest⟩ := List.cons.inj tail
      exact absurd (rest ▸ List.mem_append_right _ List.mem_cons_self) (quiet m' t' op')
  · cases middle with
    | nil =>
      obtain ⟨same, rfl⟩ := List.cons.inj tail
      cases same
      exact ⟨[], phase_promises reopening m⟩
    | cons e middle =>
      obtain ⟨rfl, rfl⟩ := List.cons.inj tail
      obtain ⟨later, rfl⟩ := prompt before m' t' op' middle rfl reopening
      exact ⟨later ++ .called m t op :: op.phase.promises m, by simp⟩

variable [Backlog β ι] [LawfulBacklog β ι]

/-- Moves of one thread, each made while it has more than `depth` calls in progress. -/
def System.runAbove (stamp : Nat → ι → ι) (t : ThreadId) (depth : Nat) (s : System β ι η) (moves : List (Action ι η)) :
    Option (System β ι η) :=
  Threads.run (fun s u a => if depth < (s.threads u).length then s.act stamp u a else none) s (moves.map (t, ·))

/-! ### Where a drain stands -/

namespace Drain

inductive Place (ι η : Type) where
  | opening (p : Phase ι η)
  | draining (r : Report)
  | calling (h : η) (x : ι) (r : Report)
  | handling (x : ι) (r : Report)
  /-- The handler has made call `m`, which stands at `p`. -/
  | asking (m : Nat) (op : Operation ι η) (p : Phase ι η) (x : ι) (r : Report)
  | ended (r : Report)

namespace Place

/-- The thread's calls while call `n` stands there, above those that it found. -/
def frames (n : Nat) (op : Operation ι η) (below : List (Frame ι η)) : Place ι η → List (Frame ι η)
  | opening p => ⟨n, op, .at p⟩ :: below
  | draining r => ⟨n, op, .at (.draining r)⟩ :: below
  | calling h x r => ⟨n, op, .calling h x (.drained r)⟩ :: below
  | handling x r => ⟨n, op, .handling x (.drained r)⟩ :: below
  | asking m op' p x r => ⟨m, op', .at p⟩ :: ⟨n, op, .handling x (.drained r)⟩ :: below
  | ended _ => below

def report : Place ι η → Report
  | opening _ => {}
  | draining r | calling _ _ r | handling _ r | asking _ _ _ _ r | ended r => r

/-- The item taken for a handler that has not been entered with it. -/
def hand : Place ι η → List ι
  | calling _ x _ => [x]
  | _ => []

/-- The item with which a handler runs on behalf of the drain. -/
def inside : Place ι η → List ι
  | handling x _ | asking _ _ _ x _ => [x]
  | _ => []

def leaves (now : Bool) : Place ι η → Bool
  | opening p | asking _ _ p _ _ => p.leaves now
  | _ => now

def provides (now : Option η) : Place ι η → Option η
  | opening p => p.provides now
  | _ => now

def promises : Place ι η → List (Entry ι η)
  | asking m _ p _ _ => p.promises m
  | _ => []

/-- What the drain's own return leaves in the log. -/
def farewell (n : Nat) : Place ι η → List (Entry ι η)
  | ended r => [.returned n (.report r)]
  | _ => []

/-- What the dispatcher is like while thread `me` stands there. -/
def Sound (me : ThreadId) (d : Dispatcher β ι η) : Place ι η → Prop
  | opening p => d.gate.drainer = none ∧ (p = .reopening ∨ ∃ h, p = .binding h false)
  | draining _ => d.gate.drainer = some me
  | calling .. | handling .. => d.gate.drainer = some me ∧ d.handler ≠ none
  | asking _ _ p _ _ => d.gate.drainer = some me ∧ d.handler ≠ none ∧ p.Brief
  | ended _ => d.gate.drainer = none ∧ (d.queue = [] ∨ d.gate.suspended = true)

end Place

/-! ### What a drain can do -/

/-- One move of the draining thread, with what it makes of the dispatcher and what it leaves in the log. -/
inductive Step (stamp : Nat → ι → ι) (me : ThreadId) (d : Dispatcher β ι η) :
    Place ι η → Dispatcher β ι η → Place ι η → List (Entry ι η) → Prop
  | bind {h} : Step stamp me d (.opening (.binding h false)) (d.bind h false) (.opening .reopening) [.bound h]
  | claim : Step stamp me d (.opening .reopening)
      { d with gate := { suspended := false, drainer := some me } } (.draining {}) []
  | empty (empty : d.queue = []) : Step stamp me d (.opening .reopening) d.reopen (.ended {}) []
  | stop {r} (closed : d.gate.suspended = true ∨ d.queue = []) :
    Step stamp me d (.draining r) { d with gate := { d.gate with drainer := none } } (.ended r) []
  | take {r x rest h} (head : d.queue = x :: LawfulBacklog.items rest) (bound : d.handler = some h) :
    Step stamp me d (.draining r) { d with backlog := rest } (.calling h x r) [.taken x]
  | lose {r x rest} (head : d.queue = x :: LawfulBacklog.items rest) (unbound : d.handler = none) :
    Step stamp me d (.draining r) { d with backlog := rest } (.draining r.lose) [.discarded x]
  | enter {h x r} : Step stamp me d (.calling h x r) d (.handling x r) [.started x h (.drained r)]
  | settle {x r} (v) :
    Step stamp me d (.handling x r) d (.draining (r.deliver v)) [.finished x (.drained r) v]
  | preset {x r} (y) : Step stamp me d (.handling x r) { d with preset := y } (.handling x r) []
  | ask {x r} (m op) :
    Step stamp me d (.handling x r) d (.asking m op op.phase x r) [.called m me op]
  | queue {m op y x r} : Step stamp me d (.asking m op (.admitting y) x r)
      { d with backlog := Backlog.push d.backlog (stamp m y) } (.handling x r)
      [.queued (stamp m y), .returned m (.outcome (.ok .queued))]
  | choose {m op y x r} : Step stamp me d (.asking m op .presetting x r) d (.asking m op (.admitting y) x r) []
  | lack {m op x r} : Step stamp me d (.asking m op .presetting x r) d (.handling x r)
      [.returned m (.outcome (.error .notConfigured))]
  | suspend {m op x r} : Step stamp me d (.asking m op .suspending x r) d.suspend (.handling x r) [.returned m .done]
  | discard {m op x r} : Step stamp me d (.asking m op .discarding x r) d.discard.2 (.handling x r)
      (d.queue.map .discarded ++ [.returned m (.report { discarded := d.queue.length })])
  | bindSuspended {m op h x r} : Step stamp me d (.asking m op (.binding h true) x r) (d.bind h true) (.handling x r)
      [.bound h, .returned m (.report {})]
  | bindActive {m op h x r} : Step stamp me d (.asking m op (.binding h false) x r) (d.bind h false)
      (.asking m op .reopening x r) [.bound h]
  | reopen {m op x r} : Step stamp me d (.asking m op .reopening x r) d.reopen (.handling x r)
      [.returned m (.report {})]

variable {stamp : Nat → ι → ι} {me : ThreadId} {k n : Nat} {op : Operation ι η} {below : List (Frame ι η)}
  {d d' : Dispatcher β ι η} {place place' : Place ι η} {fs' : List (Frame ι η)} {es es' : List (Entry ι η)}

/-- Whatever the thread does before the drain has returned is one of these steps. -/
theorem step_of_turn (sound : place.Sound me d) (going : ∀ r, place ≠ .ended r)
    (turn : Turn stamp me k d (place.frames n op below) d' fs' es) :
    ∃ place' es', fs' = place'.frames n op below ∧ es = es' ++ place'.farewell n ∧
      Step stamp me d place d' place' es' := by
  cases place with
  | opening p =>
    obtain ⟨idle, rfl | ⟨h, rfl⟩⟩ := sound
    · cases turn with
      | call _ ready | preset _ ready => cases ready
      | claim => exact ⟨.draining {}, [], rfl, rfl, .claim⟩
      | reopenEmpty _ empty => exact ⟨.ended {}, [], rfl, rfl, .empty empty⟩
      | wait drainer | reopenInside drainer => cases idle.symm.trans drainer
    · cases turn with
      | call _ ready | preset _ ready => cases ready
      | bindActive => exact ⟨.opening .reopening, _, rfl, rfl, .bind⟩
  | draining r =>
    cases turn with
    | call _ ready | preset _ ready => cases ready
    | stop closed => exact ⟨.ended r, [], rfl, rfl, .stop closed⟩
    | take _ head bound => exact ⟨.calling _ _ r, _, rfl, rfl, .take head bound⟩
    | lose _ head unbound => exact ⟨.draining r.lose, _, rfl, rfl, .lose head unbound⟩
  | calling h x r =>
    cases turn with
    | call _ ready | preset _ ready => cases ready
    | enter => exact ⟨.handling x r, _, rfl, rfl, .enter⟩
  | handling x r =>
    cases turn with
    | call op' => exact ⟨.asking k op' op'.phase x r, _, rfl, rfl, .ask k op'⟩
    | preset y => exact ⟨.handling x r, _, rfl, rfl, .preset y⟩
    | settleDrained v => exact ⟨.draining (r.deliver v), _, rfl, rfl, .settle v⟩
  | asking m op' p x r =>
    obtain ⟨mine, _, brief⟩ := sound
    -- The gate's mark is the thread's own: items queue, and a reopening leaves the drain to go on.
    have queues : d.gate.queues = true := by simp [Gate.queues, mine]
    cases turn with
    | call _ ready | preset _ ready => cases ready
    | queue => exact ⟨.handling x r, _, rfl, rfl, .queue⟩
    | pass opened | refuse opened => cases queues.symm.trans opened
    | choose => exact ⟨.asking m op' _ x r, _, rfl, rfl, .choose⟩
    | lack => exact ⟨.handling x r, _, rfl, rfl, .lack⟩
    | suspend => exact ⟨.handling x r, _, rfl, rfl, .suspend⟩
    | discard => exact ⟨.handling x r, _, rfl, (List.append_nil _).symm, .discard⟩
    | bindSuspended => exact ⟨.handling x r, _, rfl, rfl, .bindSuspended⟩
    | bindActive => exact ⟨.asking m op' .reopening x r, _, rfl, rfl, .bindActive⟩
    | reopenInside => exact ⟨.handling x r, _, rfl, rfl, .reopen⟩
    | claim idle | reopenEmpty idle => cases mine.symm.trans idle
    | wait drainer other => exact absurd (Option.some.inj (drainer.symm.trans mine)) other
    | wake | stop | take | lose => exact brief.elim
  | ended r => exact absurd rfl (going r)

theorem step_sound (step : Step stamp me d place d' place' es) (sound : place.Sound me d) : place'.Sound me d' := by
  cases step with
  | bind => exact ⟨sound.1, Or.inl rfl⟩
  | claim => rfl
  | empty empty => exact ⟨sound.1, Or.inl empty⟩
  | stop closed => exact ⟨rfl, closed.symm⟩
  | take _ bound => exact ⟨sound, fun unbound => by cases bound.symm.trans unbound⟩
  | lose => exact sound
  | enter => exact sound
  | settle => exact sound.1
  | preset => exact sound
  | queue | lack | suspend | discard | reopen => exact ⟨sound.1, sound.2.1⟩
  | ask m op => exact ⟨sound.1, sound.2, phase_brief op⟩
  | choose => exact ⟨sound.1, sound.2.1, trivial⟩
  | bindSuspended => exact ⟨sound.1, nofun⟩
  | bindActive => exact ⟨sound.1, nofun, trivial⟩

/-- A drain under way is never stuck: some move is possible. -/
theorem turn_possible (sound : place.Sound me d) (going : ∀ r, place ≠ .ended r) :
    ∃ a, (turn? stamp me k d (place.frames n op below) a).isSome := by
  cases place with
  | opening p =>
    refine ⟨.advance, ?_⟩
    obtain ⟨idle, rfl | ⟨h, rfl⟩⟩ := sound
    · rcases claim_cases d me with ⟨_, _, claim⟩ | ⟨u, drainer, _⟩ | ⟨drainer, _⟩ | ⟨_, _, claim⟩
      · simp [Place.frames, turn?, Phase.stamped, Phase.advance, claim, Frame.land]
      · cases idle.symm.trans drainer
      · cases idle.symm.trans drainer
      · simp [Place.frames, turn?, Phase.stamped, Phase.advance, claim, Frame.land]
    · simp [Place.frames, turn?, Phase.stamped, Phase.advance, Frame.land]
  | draining r =>
    refine ⟨.advance, ?_⟩
    rcases take_cases d with ⟨_, take⟩ | ⟨_, _, _, _, _, _, take⟩ | ⟨_, _, _, _, _, take⟩
    all_goals simp [Place.frames, turn?, Phase.stamped, Phase.advance, take, Frame.land]
  | calling => exact ⟨.enter, rfl⟩
  | handling => exact ⟨.settle (.ok ()), rfl⟩
  | asking m op' p x r =>
    refine ⟨.advance, ?_⟩
    obtain ⟨mine, _, brief⟩ := sound
    cases p with
    | admitting y =>
      rcases offer_cases d (stamp m y) with ⟨_, offer⟩ | ⟨_, _, _, offer⟩ | ⟨_, _, offer⟩
      all_goals simp [Place.frames, turn?, Phase.stamped, Phase.advance, offer, Frame.land]
    | presetting =>
      cases preset : d.preset <;> simp [Place.frames, turn?, Phase.stamped, Phase.advance, preset, Frame.land]
    | suspending | discarding => rfl
    | binding h suspended => cases suspended <;> rfl
    | reopening =>
      rcases claim_cases d me with ⟨_, _, claim⟩ | ⟨_, _, _, claim⟩ | ⟨_, claim⟩ | ⟨_, _, claim⟩
      all_goals simp [Place.frames, turn?, Phase.stamped, Phase.advance, claim, Frame.land]
    | waiting | draining => exact brief.elim
  | ended r => exact absurd rfl (going r)

/-! ### What the log says of a drain -/

structure Booked (d : Dispatcher β ι η) (place : Place ι η) (es : List (Entry ι η)) : Prop where
  unpassed : es.filterMap Entry.passed? = []
  taken : es.filterMap Entry.taken? = es.filterMap Entry.started? ++ place.hand
  started : es.filterMap Entry.started? = es.filterMap Entry.finishedDrained? ++ place.inside
  delivered : (es.filterMap Entry.started?).length = place.report.delivered + place.inside.length
  failed : place.report.failed = es.filterMap Entry.failure? ++ List.replicate place.report.discarded .notConfigured
  /-- Only a drain that has never had a handler drops what it takes, and then it does nothing else. -/
  kept : d.handler ≠ none → place.report.discarded = 0
  dropped : place.provides d.handler = none →
    es = (es.filterMap Entry.left?).map .discarded ∧ place.report.discarded = (es.filterMap Entry.left?).length

omit [Backlog β ι] [LawfulBacklog β ι] in
theorem booked_empty {p : Phase ι η} : Booked d (.opening p) [] :=
  ⟨rfl, rfl, rfl, rfl, rfl, fun _ => rfl, fun _ => ⟨rfl, rfl⟩⟩

theorem step_unpassed (step : Step stamp me d place d' place' es) : es.filterMap Entry.passed? = [] := by
  cases step with
  | discard => simp [List.filterMap_cons, List.filterMap_map, Function.comp_def]
  | _ => rfl

theorem step_taken (step : Step stamp me d place d' place' es) :
    place.hand ++ es.filterMap Entry.taken? = es.filterMap Entry.started? ++ place'.hand := by
  cases step with
  | discard => simp [List.filterMap_cons, List.filterMap_map, Function.comp_def, Place.hand]
  | _ => rfl

theorem step_started (step : Step stamp me d place d' place' es) :
    place.inside ++ es.filterMap Entry.started? = es.filterMap Entry.finishedDrained? ++ place'.inside := by
  cases step with
  | discard => simp [List.filterMap_cons, List.filterMap_map, Function.comp_def, Place.inside]
  | _ => rfl

theorem step_delivered (step : Step stamp me d place d' place' es) :
    place.report.delivered + place.inside.length + (es.filterMap Entry.started?).length =
      place'.report.delivered + place'.inside.length := by
  cases step with
  | discard => simp [List.filterMap_cons, List.filterMap_map, Function.comp_def, Place.report, Place.inside]
  | settle v => cases v <;> rfl
  | _ => rfl

theorem step_kept (step : Step stamp me d place d' place' es) (sound : place.Sound me d)
    (kept : d.handler ≠ none → place.report.discarded = 0) (bound : d'.handler ≠ none) :
    place'.report.discarded = 0 := by
  cases step with
  | bind => rfl
  | lose _ unbound => exact absurd unbound bound
  | settle v => cases v <;> exact kept bound
  | bindSuspended | bindActive => exact kept sound.2.1
  | _ => exact kept bound

/-- A failure of a handler adds to those before it: nothing has been dropped when a handler runs. -/
theorem step_failed {failures : List Error} (step : Step stamp me d place d' place' es)
    (sound : place.Sound me d) (kept : d.handler ≠ none → place.report.discarded = 0)
    (failed : place.report.failed = failures ++ List.replicate place.report.discarded .notConfigured) :
    place'.report.failed =
      failures ++ es.filterMap Entry.failure? ++ List.replicate place'.report.discarded .notConfigured := by
  cases step with
  | lose =>
    simp only [Place.report] at failed
    simp [List.filterMap_cons, Place.report, Report.lose, List.replicate_succ', Entry.failure?, failed]
  | settle v =>
    have none := kept sound.2
    simp only [Place.report] at none failed
    cases v <;> simp [List.filterMap_cons, Place.report, Report.deliver, Entry.failure?, failed, none]
  | discard =>
    have ignored : (d.queue.map (Entry.discarded (η := η))).filterMap Entry.failure? = [] :=
      discards_filterMap_none (fun _ => rfl) _
    simpa [List.filterMap_cons, Place.report, ignored, Entry.failure?] using failed
  | _ => simpa [List.filterMap_cons, Place.report, Entry.failure?] using failed

theorem step_dropped (step : Step stamp me d place d' place' es') (sound : place.Sound me d)
    (dropped : place.provides d.handler = none →
      es = (es.filterMap Entry.left?).map .discarded ∧ place.report.discarded = (es.filterMap Entry.left?).length)
    (unbound : place'.provides d'.handler = none) :
    es ++ es' = ((es ++ es').filterMap Entry.left?).map .discarded ∧
      place'.report.discarded = ((es ++ es').filterMap Entry.left?).length := by
  cases step with
  | bind => cases unbound
  | claim | empty | stop => simpa [Place.report] using dropped unbound
  | take _ bound => cases bound.symm.trans unbound
  | lose =>
    obtain ⟨drops, count⟩ := dropped unbound
    rw [List.filterMap_append, List.map_append, ← drops, List.length_append]
    exact ⟨rfl, congrArg (· + 1) count⟩
  | enter | settle | preset | ask => exact absurd unbound sound.2
  | queue | choose | lack | suspend | discard | reopen => exact absurd unbound sound.2.1
  | bindSuspended | bindActive => cases unbound

theorem step_booked (step : Step stamp me d place d' place' es') (sound : place.Sound me d)
    (booked : Booked d place es) : Booked d' place' (es ++ es') where
  unpassed := by rw [List.filterMap_append, booked.unpassed, step_unpassed step, List.append_nil]
  taken := by
    rw [List.filterMap_append, List.filterMap_append, booked.taken, List.append_assoc, step_taken step,
      List.append_assoc]
  started := by
    rw [List.filterMap_append, List.filterMap_append, booked.started, List.append_assoc, step_started step,
      List.append_assoc]
  delivered := by
    rw [List.filterMap_append, List.length_append, booked.delivered, step_delivered step]
  failed := by
    rw [List.filterMap_append]
    exact step_failed step sound booked.kept booked.failed
  kept := step_kept step sound booked.kept
  dropped := step_dropped step sound booked.dropped

/-! ### What the calls of a drain make of the gate -/

/-- Only a handler's call is told of as one. -/
theorem step_called (step : Step stamp me d place d' place' es) :
    (∃ m op x r, place = .handling x r ∧ place' = .asking m op op.phase x r ∧ d' = d ∧ es = [.called m me op]) ∨
      (∀ m t op, .called m t op ∉ es) ∧ place.leaves d.gate.suspended = place'.leaves d'.gate.suspended ∧
        (place.promises = es ++ place'.promises ∨ place.promises = [] ∧ place'.promises = []) := by
  cases step with
  | ask m op => exact Or.inl ⟨m, op, _, _, rfl, rfl, rfl, rfl⟩
  | bindActive | reopen => exact Or.inr ⟨by simp, rfl, Or.inl rfl⟩
  | _ => exact Or.inr ⟨by simp, rfl, Or.inr ⟨rfl, rfl⟩⟩

/-- The last call that moves the gate says how the gate is, or how it is about to be. -/
theorem step_closing {log : List (Entry ι η)} (step : Step stamp me d place d' place' es)
    (gate : closing log = some (place.leaves d.gate.suspended)) :
    closing (log ++ es) = some (place'.leaves d'.gate.suspended) := by
  rcases step_called step with ⟨m, op, x, r, rfl, rfl, rfl, rfl⟩ | ⟨quiet, same, _⟩
  · rw [closing_append, gate]
    simp only [Place.leaves, phase_leaves]
    cases closes : op.closes? <;> simp [closing, Entry.closes?, closes]
  · rw [closing_quiet quiet, gate, same]

theorem step_prompt (step : Step stamp me d place d' place' es') (prompt : Prompt (es ++ place.promises)) :
    Prompt (es ++ es' ++ place'.promises) := by
  rcases step_called step with ⟨m, op, x, r, rfl, rfl, rfl, rfl⟩ | ⟨quiet, _, kept | ⟨none, none'⟩⟩
  · simp only [Place.promises, List.append_nil] at prompt
    simpa [Place.promises] using prompt_call prompt m me op
  · rwa [List.append_assoc, ← kept]
  · rw [none, List.append_nil] at prompt
    rw [none', List.append_nil]
    exact prompt_quiet prompt quiet

theorem step_provides (step : Step stamp me d place d' place' es) (sound : place.Sound me d) :
    place'.provides d'.handler = none ↔ place.provides d.handler = none := by
  cases step with
  | bindSuspended | bindActive => exact iff_of_false nofun sound.2.1
  | _ => exact Iff.rfl

/-! ### Whole drains -/

omit [Backlog β ι] [LawfulBacklog β ι] in
theorem frames_length (n : Nat) (op : Operation ι η) (below : List (Frame ι η)) (going : ∀ r, place ≠ .ended r) :
    below.length < (place.frames n op below).length := by
  cases place with
  | ended r => exact absurd rfl (going r)
  | _ => simp [Place.frames]

/-- Call `op` of thread `me`, made in state `s`, has come to `place`, and `es` is what the log has said since. -/
structure Stands (s s' : System β ι η) (me : ThreadId) (op : Operation ι η) (place : Place ι η)
    (es : List (Entry ι η)) : Prop where
  frames : s'.threads me = place.frames s.log.length op (s.threads me)
  log : s'.log = s.log ++ .called s.log.length me op :: (es ++ place.farewell s.log.length)
  sound : place.Sound me s'.dispatcher
  booked : Booked s'.dispatcher place es
  fifo : s.dispatcher.queue ++ es.filterMap Entry.queued? = es.filterMap Entry.left? ++ s'.dispatcher.queue
  gate : closing (.called s.log.length me op :: es) = some (place.leaves s'.dispatcher.gate.suspended)
  prompt : Prompt (es ++ place.promises)
  handler : place.provides s'.dispatcher.handler = none ↔ op.phase.provides s.dispatcher.handler = none

theorem phase_opening (reopens : op = .request (.resume false) ∨ ∃ h, op = .bind h false) :
    op.phase = .reopening ∨ ∃ h, op.phase = .binding h false := by
  rcases reopens with rfl | ⟨h, rfl⟩
  · exact Or.inl rfl
  · exact Or.inr ⟨h, rfl⟩

omit [Backlog β ι] [LawfulBacklog β ι] in
theorem closing_outset {now : Bool} (reopens : op = .request (.resume false) ∨ ∃ h, op = .bind h false) :
    closing [.called n me op] = some (op.phase.leaves now) := by
  rcases reopens with rfl | ⟨h, rfl⟩ <;> rfl

theorem stands_outset {s s₁ : System β ι η} (idle : s.dispatcher.gate.drainer = none)
    (reopens : op = .request (.resume false) ∨ ∃ h, op = .bind h false)
    (begun : s.act stamp me (.call op) = some s₁) : Stands s s₁ me op (.opening op.phase) [] := by
  obtain ⟨⟨d, fs, es⟩, moved, rfl⟩ := Option.map_eq_some_iff.mp begun
  simp only [turn?, Option.ite_none_right_eq_some, Option.some.injEq, Prod.mk.injEq] at moved
  obtain ⟨_, rfl, rfl, rfl⟩ := moved
  exact {
    frames := System.after_threads_self
    log := rfl
    sound := ⟨idle, phase_opening reopens⟩
    booked := booked_empty
    fifo := by simp
    gate := closing_outset reopens
    prompt := by intro before m t op rest split; simp [Place.promises] at split
    handler := Iff.rfl }

omit [Backlog β ι] [LawfulBacklog β ι] in
theorem farewell_filterMap {α : Type} {f : Entry ι η → Option α} (ignored : ∀ n r, f (.returned n r) = none) :
    (place.farewell n).filterMap f = [] := by
  cases place with
  | ended r => simp [Place.farewell, ignored]
  | _ => rfl

theorem act_stands {s s₁ s₂ : System β ι η} {a : Action ι η} (stands : Stands s s₁ me op place es)
    (going : ∀ r, place ≠ .ended r) (acted : s₁.act stamp me a = some s₂) :
    ∃ place' es', Stands s s₂ me op place' (es ++ es') := by
  obtain ⟨d', fs', es₂, turn, rfl⟩ := System.turn_of_act acted
  have queue := turn_queue turn
  rw [stands.frames] at turn
  obtain ⟨place', es', rfl, rfl, step⟩ := step_of_turn stands.sound going turn
  have silent : place.farewell s.log.length = [] := by
    cases place with
    | ended r => exact absurd rfl (going r)
    | _ => rfl
  rw [List.filterMap_append, List.filterMap_append, farewell_filterMap (fun _ _ => rfl),
    farewell_filterMap (fun _ _ => rfl), List.append_nil, List.append_nil] at queue
  refine ⟨place', es', ?_⟩
  exact {
    frames := System.after_threads_self
    log := by simp [stands.log, silent]
    sound := step_sound step stands.sound
    booked := step_booked step stands.sound stands.booked
    fifo := by
      rw [List.filterMap_append, List.filterMap_append, ← List.append_assoc, stands.fifo, List.append_assoc, queue,
        List.append_assoc]
      rfl
    gate := step_closing step stands.gate
    prompt := step_prompt step stands.prompt
    handler := (step_provides step stands.sound).trans stands.handler }

theorem run_stands {moves : List (Action ι η)} {s s₁ s' : System β ι η} (stands : Stands s s₁ me op place es)
    (ran : s₁.runAbove stamp me (s.threads me).length moves = some s') :
    ∃ place' es', Stands s s' me op place' es' := by
  refine Threads.run_keeps (P := fun later => ∃ place es, Stands s later me op place es) ⟨place, es, stands⟩ ran ?_
  rintro later t a s' member ⟨place, es, stands⟩ moved
  obtain ⟨_, _, ⟨⟩⟩ := List.mem_map.mp member
  obtain ⟨busy, acted⟩ := Option.ite_none_right_eq_some.mp moved
  have going : ∀ r, place ≠ .ended r := by
    rintro r rfl
    rw [stands.frames] at busy
    exact lt_irrefl _ busy
  obtain ⟨place', es', stands'⟩ := act_stands stands going acted
  exact ⟨place', es ++ es', stands'⟩

/-- What a drain has done when it returns: call `op` of thread `me`, made in state `s`, returns report `r` in
state `s'`, and `es` is what the log says in between. -/
structure Returned (s s' : System β ι η) (me : ThreadId) (op : Operation ι η) (es : List (Entry ι η))
    (r : Report) : Prop where
  log : s'.log = s.log ++ .called s.log.length me op :: (es ++ [.returned s.log.length (.report r)])
  threads : s'.threads me = s.threads me
  unmarked : s'.dispatcher.gate.drainer = none
  /-- What was held and what has been queued since is what has left, in the same order, and then what is held. -/
  fifo : s.dispatcher.queue ++ es.filterMap Entry.queued? = es.filterMap Entry.left? ++ s'.dispatcher.queue
  unpassed : es.filterMap Entry.passed? = []
  /-- Handlers are entered with the items taken for them, in the same order, and have finished in this order. -/
  started : es.filterMap Entry.started? = es.filterMap Entry.taken?
  finished : es.filterMap Entry.finishedDrained? = es.filterMap Entry.taken?
  delivered : r.delivered = (es.filterMap Entry.started?).length
  failed : r.failed = es.filterMap Entry.failure? ++ List.replicate r.discarded .notConfigured
  provided : (s.dispatcher.handler ≠ none ∨ ∃ h, op = .bind h false) → r.discarded = 0
  /-- Without a handler every item is dropped, and nothing else happens. -/
  unprovided : s.dispatcher.handler = none → op = .request (.resume false) →
    es = s.dispatcher.queue.map .discarded ∧ r.discarded = s.dispatcher.queue.length
  /-- The gate is as the last call that moves it has left it, this one included. -/
  gate : closing (.called s.log.length me op :: es) = some s'.dispatcher.gate.suspended
  emptied : s'.dispatcher.queue = [] ∨ s'.dispatcher.gate.suspended = true
  prompt : Prompt es

theorem stands_ended {s s' : System β ι η} {r : Report} (stands : Stands s s' me op (.ended r) es) :
    Returned s s' me op es r := by
  have booked := stands.booked
  have started : es.filterMap Entry.started? = es.filterMap Entry.taken? := by
    rw [booked.taken]
    exact (List.append_nil _).symm
  have finished : es.filterMap Entry.started? = es.filterMap Entry.finishedDrained? := by
    rw [booked.started]
    exact List.append_nil _
  exact {
    log := stands.log
    threads := stands.frames
    unmarked := stands.sound.1
    fifo := stands.fifo
    unpassed := booked.unpassed
    started := started
    finished := finished.symm.trans started
    delivered := booked.delivered.symm
    failed := booked.failed
    provided := by
      intro provided
      refine booked.kept fun unbound => ?_
      have none := stands.handler.mp unbound
      rcases provided with bound | ⟨h, rfl⟩
      · exact bound (phase_provides_none none)
      · cases none
    unprovided := by
      rintro unbound rfl
      obtain ⟨drops, count⟩ := booked.dropped (stands.handler.mpr unbound)
      have unqueued : es.filterMap Entry.queued? = [] := by
        rw [drops]
        exact discards_filterMap_none (fun _ => rfl) _
      have opened : s'.dispatcher.gate.suspended = false := by
        have gate := stands.gate
        rw [drops, ← List.singleton_append, closing_quiet (by simp)] at gate
        exact (Option.some.inj gate).symm
      have empty : s'.dispatcher.queue = [] := stands.sound.2.resolve_right (by simp [opened])
      have left := stands.fifo
      rw [unqueued, empty, List.append_nil, List.append_nil] at left
      rw [left]
      exact ⟨drops, count⟩
    gate := stands.gate
    emptied := stands.sound.2
    prompt := by simpa [Place.promises] using stands.prompt }

end Drain

/-- A reopening made while nobody drains, by a call that resumes the dispatcher or binds a handler with the gate
open, whatever its handlers do and however they call the dispatcher again. Until it returns it is never stuck. On
its return nobody drains, and the report counts the handlers entered and lists the failures in queue order; items
are dropped, as failures, only if there never was a handler. What was held and has been queued since has left from
the front or is still held, in order; nothing is held unless a later call has closed the gate. A reopening made
from inside is answered at once and reports nothing. -/
theorem drain_report {s s₁ s' : System β ι η} {moves : List (Action ι η)} (idle : s.dispatcher.gate.drainer = none)
    (reopens : op = .request (.resume false) ∨ ∃ h, op = .bind h false)
    (begun : s.act stamp me (.call op) = some s₁)
    (ran : s₁.runAbove stamp me (s.threads me).length moves = some s') :
    ((s.threads me).length < (s'.threads me).length ∧ ∃ a, (s'.act stamp me a).isSome) ∨
      ∃ es r, Drain.Returned s s' me op es r := by
  obtain ⟨place, es, stands⟩ := Drain.run_stands (Drain.stands_outset idle reopens begun) ran
  by_cases final : ∃ r, place = .ended r
  · obtain ⟨r, rfl⟩ := final
    exact Or.inr ⟨es, r, Drain.stands_ended stands⟩
  · have going := not_exists.mp final
    obtain ⟨a, possible⟩ := Drain.turn_possible stands.sound going
    refine Or.inl ⟨?_, a, ?_⟩
    · rw [stands.frames]
      exact Drain.frames_length _ _ _ going
    · rw [System.act, Option.isSome_map, stands.frames]
      exact possible

/-- Three items are held for handler 1 behind a closed gate. -/
def heldBack : System (List Nat) Nat Nat :=
  { dispatcher := { gate := { suspended := true }, backlog := [10, 11, 12], handler := some 1 } }

/-- While they are drained the first handler's run dispatches a fourth item, resumes and fails, the second one binds
handler 2 and the third one suspends. -/
def interruptedDrain : List (Action Nat Nat) :=
  [.advance, .advance, .enter,
      .call (.request (.dispatch 13)), .advance,
      .call (.request (.resume false)), .advance,
    .settle (.error .outOfMemory), .advance, .enter,
      .call (.bind 2 false), .advance, .advance,
    .settle (.ok ()), .advance, .enter,
      .call (.request .suspend), .advance,
    .settle (.ok ()), .advance]

theorem drain_report_interrupted : ∃ s₁ s' es r,
    heldBack.act (fun _ x => x) 0 (.call (.request (.resume false))) = some s₁ ∧
    s₁.runAbove (fun _ x => x) 0 0 interruptedDrain = some s' ∧
    s'.log.getLast? = some (.returned 0 (.report { delivered := 3, failed := [.outOfMemory] })) ∧
    s'.dispatcher.queue = [13] ∧ Drain.Returned heldBack s' 0 (.request (.resume false)) es r := by
  have ends : ∃ s₁ s', heldBack.act (fun _ x => x) 0 (.call (.request (.resume false))) = some s₁ ∧
      s₁.runAbove (fun _ x => x) 0 0 interruptedDrain = some s' ∧
      s'.log.getLast? = some (.returned 0 (.report { delivered := 3, failed := [.outOfMemory] })) ∧
      s'.dispatcher.queue = [13] ∧ s'.threads 0 = [] := ⟨_, _, rfl, rfl, rfl, rfl, rfl⟩
  obtain ⟨s₁, s', begun, ran, last, held, quiet⟩ := ends
  rcases drain_report rfl (Or.inl rfl) begun ran with ⟨busy, _⟩ | ⟨es, r, returned⟩
  · rw [quiet] at busy
    exact absurd busy (lt_irrefl 0)
  · exact ⟨s₁, s', es, r, begun, ran, last, held, returned⟩

end Switchboard.Dispatch
