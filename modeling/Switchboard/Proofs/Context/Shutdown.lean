import Switchboard.Proofs.Context.Closing

/-!
Shutting a context down. The first shutdown terminates the workers in the context's roster one after the other and comes to
its end; everything that belongs to the context is cancelled for good, and nothing that belongs to another is but the
workers that were terminated. Main statement: `context_shutdown`.
-/

namespace Switchboard.Plant

variable {s₀ s s' : Plant} {t u : ThreadId} {a : Action} {c d : ContextId} {x y : Context}
  {past more : List (ThreadId × Action)} {ws : List WorkerId} {w : WorkerId} {stage : Context.Shutdown}

/-! ### A shutdown comes to its end -/

/-- The move is one of thread `t`, or one of a worker's thread that is told to stop. -/
def drives (s : Plant) (t u : ThreadId) : Action → Bool
  | .shift (.release _) => false
  | _ => u == t || s.shift.isTold u

/-- How many moves of thread `t`, or of workers' threads that are told to stop, there are. -/
def strides (t : ThreadId) (s : Plant) : List (ThreadId × Action) → Nat
  | [] => 0
  | (u, a) :: rest =>
    (if s.drives t u a then 1 else 0) +
      match s.act u a with
      | some s => strides t s rest
      | none => 0

/-- However moves beside the shutdown are chosen, thread `t` and the workers that are told to stop make no more than so many,
and as long as the shutdown has not returned one of them can make another. -/
def Returns (s : Plant) (t : ThreadId) : Prop :=
  ∃ bound, ∀ more s', s.play more = some s' →
    s.strides t more ≤ bound ∧
    (s'.calls t ≠ none → ∃ u a, s'.isLawful u a = true ∧ s'.drives t u a = true ∧ (s'.act u a).isSome = true)

/-- How many sections of a shutdown and of its calls are ahead, when so many workers are in the roster. -/
def ahead (members : Nat) : Option (ContextId × Context.Shutdown) → Nat
  | some (_, .claiming) => 4 + 7 * members
  | some (_, .cancelling) => 3 + 7 * members
  | some (_, .listing) => 2 + 7 * members
  | some (_, .stopping rest _) => 1 + 7 * rest.length
  | none => 0

def effort (s : Plant) (t : ThreadId) (x : Context) : Nat :=
  ahead (s.shift.force.live x.roster x.config.stopOrder).length (s.calls t) + Shift.left (s.shift.threads t).errand +
    s.shift.tolls

theorem ahead_le {m n : Nat} (fewer : m ≤ n) (call : Option (ContextId × Context.Shutdown)) :
    ahead m call ≤ ahead n call := by
  unfold ahead
  split <;> omega

/-- A section of a shutdown takes it nearer to its end. -/
theorem stepped_effort (there₀ : s₀.contexts[c]? = some x) (undisturbed : Undisturbed s₀ t past s)
    (closing : Closing s₀ t c x past s) (free : (s.shift.threads t).isFree = true) (there : s.contexts[d]? = some y)
    (stepped : Stepped s t d y s') : s'.effort t x < s.effort t x := by
  have idle : (s.shift.threads t).errand = none := by
    simp only [Shift.Hand.isFree, Bool.and_eq_true, Option.isNone_iff_eq_none] at free
    exact free.2
  have before : s.effort t x =
      ahead (s.shift.force.live x.roster x.config.stopOrder).length (s.calls t) + 0 + s.shift.tolls := by
    rw [effort, idle]
    rfl
  -- The workforce is what it was.
  have still : ∀ (call : Option (ContextId × Context.Shutdown)) (es : List Entry) (contexts : List Context),
      ahead (s.shift.force.live x.roster x.config.stopOrder).length call <
        ahead (s.shift.force.live x.roster x.config.stopOrder).length (s.calls t) →
      effort { s.calling t call es with contexts } t x < s.effort t x := by
    intro call es contexts less
    have after : effort { s.calling t call es with contexts } t x =
        ahead (s.shift.force.live x.roster x.config.stopOrder).length call + 0 + s.shift.tolls := by
      rw [effort]
      simp only [calling_self, calling_shift, idle]
      rfl
    rw [after, before]
    omega
  cases stepped with
  | again call =>
    refine still none [.ended t d 0] s.contexts ?_
    simp only [call, ahead]
    omega
  | claim call =>
    refine still (some (d, .cancelling)) [] _ ?_
    simp only [call, ahead]
    omega
  | list call members =>
    have whole : (s.shift.force.roster y.roster).workers s.shift.force.isAlive y.config.stopOrder =
        s.shift.force.live x.roster x.config.stopOrder := by
      cases closing with
      | opening opening =>
        cases opening.call.symm.trans call
        have claimed := opening.contexts
        rw [if_neg (by simp)] at claimed
        rw [claimed, context_set there₀] at there
        cases there
        rfl
      | between call' | terminating call' | ended call' => cases call'.symm.trans call
    refine still (some (d, .stopping _ 0)) [.listed t _] s.contexts ?_
    simp only [call, ahead, members, whole]
    omega
  | done call =>
    refine still none [.ended t d _] s.contexts ?_
    simp only [call, ahead]
    omega
  | cancel call =>
    have tolls : Shift.tolls { s.shift with force := Shift.Chore.perform s.shift.force (.cancel y.root) } ≤ s.shift.tolls := by
      have turn : s.shift.Turn t { s.shift with force := Shift.Chore.perform s.shift.force (.cancel y.root) } := .chore _ free
      exact Shift.tolls_le rfl fun v =>
        Shift.toll_others (fun w => Shift.turn_shouldStop undisturbed.kept.tended turn) rfl
    rw [before, effort]
    simp only [calling_self, call, ahead, idle, Shift.left]
    change _ + Shift.tolls { s.shift with force := Shift.Chore.perform s.shift.force (.cancel y.root) } < _
    have same : (Shift.Chore.perform s.shift.force (.cancel y.root)).live x.roster x.config.stopOrder =
        s.shift.force.live x.roster x.config.stopOrder := rfl
    rw [same]
    omega
  | @tell w rest count shift call acted =>
    simp only [Shift.act, Option.ite_none_right_eq_some, Option.some.injEq] at acted
    obtain ⟨_, rfl⟩ := acted
    have tolls : (s.shift.begin t .terminate w).tolls ≤ s.shift.tolls := by
      refine Shift.tolls_le rfl fun v => ?_
      by_cases mine : v = t
      · subst mine
        rw [Shift.toll, Shift.begin, Shift.station_after, undisturbed.resting.outside]
        exact Nat.zero_le _
      · exact Shift.toll_others (fun _ => id) (Shift.after_other mine)
    have errand : ((s.shift.begin t .terminate w).threads t).errand =
        some ⟨s.shift.log.length, .terminate, w, .cancelling⟩ := congrArg Shift.Hand.errand Shift.after_self
    rw [before, effort]
    simp only [calling_self, call, ahead, errand, Shift.left, List.length_cons]
    omega

theorem closing_effort (there : s₀.contexts[c]? = some x) (undisturbed : Undisturbed s₀ t past s)
    (closing : Closing s₀ t c x past s) (lawful : s.isLawful u a = true) (acted : s.act u a = some s') :
    s'.effort t x + (if s.drives t u a then 1 else 0) ≤ s.effort t x := by
  have kept := undisturbed.kept
  have resting := undisturbed.resting
  have atMost : s'.effort t x < s.effort t x → s'.effort t x + (if s.drives t u a then 1 else 0) ≤ s.effort t x := by
    intro less
    split <;> omega
  cases turn_of_act acted with
  | found | make | shutdown => cases lawful
  | step free there' stepped =>
    obtain rfl := stepped_mine undisturbed stepped
    exact atMost (stepped_effort there undisturbed closing free there' stepped)
  | @shift b shift _ moved =>
    have eased := Shift.eased_of_act kept.tended.staffed lawful moved
    have turn := Shift.turn_of_act kept.tended.staffed moved
    have asked : ∀ w, s.shift.force.shouldStop w = true → shift.force.shouldStop w = true :=
      fun w => Shift.turn_shouldStop kept.tended turn
    have tolls := Shift.eased_tolls kept.witnessed resting eased asked
    have members : (shift.force.live x.roster x.config.stopOrder).length ≤
        (s.shift.force.live x.roster x.config.stopOrder).length := by
      rw [Shift.eased_live kept.witnessed resting eased]
      exact List.length_filter_le _ _
    have sections := ahead_le members (s.calls t)
    have after : (s.based u b shift).effort t x =
        ahead (shift.force.live x.roster x.config.stopOrder).length (s.calls t) + Shift.left (shift.threads t).errand +
          shift.tolls := rfl
    rcases Shift.eased_aside kept.witnessed resting eased with ⟨mine, hand, _⟩ | ⟨rfl, advanced⟩
    · rw [after, effort, hand]
      by_cases drives : s.drives t u (.shift b) = true
      · rw [if_pos drives]
        have own : ∀ w, b ≠ .release w := by
          rintro w rfl
          cases drives
        have other : u ≠ t := fun same => by
          obtain ⟨v, release⟩ := mine same
          exact own v release
        have told : s.shift.isTold u = true := by
          unfold Plant.drives at drives
          split at drives
          · cases drives
          · simpa [other] using drives
        have less := Shift.eased_tolls_lt kept.tended kept.witnessed resting eased asked told own
        omega
      · rw [if_neg drives]
        omega
    · refine atMost ?_
      have busy : ∃ e, (s.shift.threads u).errand = some e := by
        cases advanced with
        | goOn errand | spawn errand | comeBack errand => exact ⟨_, errand⟩
      obtain ⟨e, errand⟩ := busy
      have less := Shift.advanced_left kept.witnessed resting errand advanced
      rw [after, effort]
      omega

/-- What moves beside a shutdown keep, and how many of them take it nearer to its end. -/
theorem play_closing (there : s₀.contexts[c]? = some x) (first : x.stopped = false) (undisturbed : Undisturbed s₀ t past s)
    (closing : Closing s₀ t c x past s) (played : s.play more = some s') :
    Undisturbed s₀ t (past ++ more) s' ∧ Closing s₀ t c x (past ++ more) s' ∧
      s.strides t more + s'.effort t x ≤ s.effort t x := by
  induction more generalizing s past with
  | nil =>
    cases played
    rw [List.append_nil, strides, Nat.zero_add]
    exact ⟨undisturbed, closing, Nat.le_refl _⟩
  | cons move rest ih =>
    obtain ⟨u, a⟩ := move
    obtain ⟨s₁, moved, played⟩ := Option.bind_eq_some_iff.mp played
    obtain ⟨lawful, acted⟩ := Option.ite_none_right_eq_some.mp moved
    have less := closing_effort there undisturbed closing lawful acted
    obtain ⟨undisturbed', closing', bound⟩ := ih (undisturbed_step undisturbed lawful acted)
      (closing_step there first undisturbed closing lawful acted) played
    rw [List.append_assoc, List.singleton_append] at undisturbed' closing'
    refine ⟨undisturbed', closing', ?_⟩
    simp only [strides, acted]
    omega

theorem step_isSome (call : s.calls t = some (c, stage)) (there : s.contexts[c]? = some x)
    (free : (s.shift.threads t).isFree = true)
    (alive : ∀ w rest count, stage = .stopping (w :: rest) count → s.shift.force.isAlive w = true) :
    (s.act t .step).isSome = true := by
  simp only [act, call, there, free, if_true]
  cases stage with
  | claiming =>
    simp only [Context.Shutdown.advance]
    split <;> rfl
  | cancelling | listing => rfl
  | stopping rest count =>
    cases rest with
    | nil => rfl
    | cons w rest => simp [Context.Shutdown.advance, follow, Shift.act, free, alive w rest count rfl]

/-- Thread `t` itself has nothing to do but the shutdown, and nothing keeps others from moving. -/
theorem permits_of_mild {b : Shift.Action} {shift : Shift} (undisturbed : Undisturbed s₀ t past s)
    (mild : s.shift.isMild u b = true) (kept : ∀ v, b ≠ .release v) (moved : s.shift.act u b = some shift) :
    s.permits u b = true := by
  have outside := undisturbed.resting.outside
  have calls : u ≠ t → (s.calls u).isNone = true := by
    intro other
    rw [undisturbed.calls u other]
    rfl
  cases Shift.eased_of_act undisturbed.kept.tended.staffed mild moved with
  | release => exact absurd rfl (kept _)
  | advance | proceed => rfl
  | order stands =>
    refine calls ?_
    rintro rfl
    cases outside.symm.trans stands
  | finish hand =>
    refine calls ?_
    rintro rfl
    cases outside.symm.trans (congrArg Shift.Hand.station hand)

theorem drives_shift {b : Shift.Action} (kept : ∀ v, b ≠ .release v) (driven : u = t ∨ s.shift.isTold u = true) :
    s.drives t u (.shift b) = true := by
  unfold drives
  split
  · rename_i w release
    cases release
    exact absurd rfl (kept w)
  · rcases driven with rfl | told
    · simp
    · simp [told]

theorem closing_progress (there : s₀.contexts[c]? = some x) (undisturbed : Undisturbed s₀ t past s)
    (closing : Closing s₀ t c x past s) (busy : s.calls t ≠ none) :
    ∃ u a, s.isLawful u a = true ∧ s.drives t u a = true ∧ (s.act u a).isSome = true := by
  have resting := undisturbed.resting
  have free : (s.shift.threads t).errand = none → (s.shift.threads t).isFree = true := by
    intro idle
    simp [Shift.Hand.isFree, Shift.Station.isFree, idle, resting.outside]
  have own : (s.act t .step).isSome = true →
      ∃ u a, s.isLawful u a = true ∧ s.drives t u a = true ∧ (s.act u a).isSome = true :=
    fun moves => ⟨t, .step, rfl, by simp [drives], moves⟩
  cases closing with
  | @opening stage opening =>
    obtain ⟨y, found⟩ : ∃ y, s.contexts[c]? = some y := by
      rw [opening.contexts]
      split
      · exact ⟨x, there⟩
      · exact ⟨_, context_set there⟩
    refine own (step_isSome opening.call found (free opening.idle) fun w rest count same => ?_)
    exact absurd same (opening.early _ _)
  | between call idle listed alive =>
    have found : s.contexts[c]? = some { x with stopped := true } := listed.contexts ▸ context_set there
    refine own (step_isSome call found (free idle) fun w rest count same => ?_)
    cases same
    exact alive w List.mem_cons_self
  | terminating call errand phased =>
    obtain ⟨u, b, driven, mild, kept, moves⟩ :=
      Shift.terminate_progress undisturbed.kept.tended undisturbed.kept.witnessed resting errand phased
    obtain ⟨shift, moved⟩ := Option.isSome_iff_exists.mp moves
    have permitted := permits_of_mild undisturbed mild kept moved
    exact ⟨u, .shift b, mild, drives_shift kept driven, by simp [act, permitted, moved]⟩
  | ended call => exact absurd call busy

/-! ### What a shutdown leaves behind -/

def Product.worker? : Product → Option WorkerId
  | token _ => none
  | worker w | generator w _ => some w

def isShuttingDown (s : Plant) (c : ContextId) : Bool :=
  s.contexts[c]?.any fun x => s.shift.force.tokens.isCancelled x.root

/-- The shutdown of context `x`, which is `c`, by thread `t` has terminated the workers `ws` and has touched nothing else. -/
structure Cleared (s : Plant) (t : ThreadId) (c : ContextId) (x : Context) (ws : List WorkerId) (s' : Plant) : Prop where
  log : s'.log = s.log ++ .begun t c :: .listed t ws :: (tellings t ws ++ [.ended t c ws.length])
  rest : ∀ w ∈ ws, s'.shift.force.isRunning w = false ∧ s'.shift.force.shouldStop w = true
  /-- Tokens that do not descend from the context's root are left alone. -/
  tokens : ∀ y ∈ s.tokens, x.root.number ∉ y.line →
    s'.shift.force.tokens.isCancelled y = s.shift.force.tokens.isCancelled y
  workers : ∀ w y, w ∉ ws → s.shift.force.worker? w = some y → x.root.number ∉ y.stop.line →
    s'.shift.force.shouldStop w = s.shift.force.shouldStop w
  /-- Of what another context has made, only workers in `ws` are told to stop. -/
  others : ∀ d z, d ≠ c → s.contexts[d]? = some z → s'.contexts[d]? = some z ∧ s'.isShuttingDown d = s.isShuttingDown d ∧
    ∀ p, (d, p) ∈ s.products → (∀ w ∈ ws, p.worker? ≠ some w) →
      p.isCancelled s'.shift.force = p.isCancelled s.shift.force

/-- Everything that context `c` has made is cancelled, and shutting it down once more does nothing. -/
structure Finished (s : Plant) (c : ContextId) : Prop where
  shuttingDown : s.isShuttingDown c = true
  products : ∀ p, (c, p) ∈ s.products → p.isCancelled s.shift.force = true
  /-- The first section of a shutdown is its last, whatever has gone on since it began. -/
  again : ∀ u, s.calls u = some (c, .claiming) → (s.shift.threads u).isFree = true →
    s.act u .step = some (s.calling u none [.ended u c 0])
  unchanged : ∀ u, s.isFree u = true →
    s.run [(u, .shutdown c), (u, .step)] = some { s with log := s.log ++ [.begun u c, .ended u c 0] }

theorem isRunning_of_still {f : Workforce} (still : ∀ y, f.worker? w = some y → y.lifecycle ≠ .running) :
    f.isRunning w = false := by
  simp only [Workforce.isRunning, Option.any_eq_false]
  intro m member
  have rests := still m.worker (by rw [Workforce.worker?, member]; rfl)
  cases lifecycle : m.worker.lifecycle with
  | running => exact absurd lifecycle rests
  | idle | exited => simp [Worker.isRunning, lifecycle]

/-- A token that descends neither from the root nor from a worker that is listed is left alone. -/
theorem unmoved_of_apart {x : Context} {z : StopToken} (listed : Listed s₀ c x past ws ws s)
    (more : s₀.shift.force.tokens.cancelled ⊆ s.shift.force.tokens.cancelled) (foreign : x.root.number ∉ z.line)
    (apart : ∀ w ∈ ws, ∀ y, s.shift.force.stops[w]? = some y → y.number ∉ z.line) :
    s.shift.force.tokens.isCancelled z = s₀.shift.force.tokens.isCancelled z := by
  rw [Bool.eq_iff_iff, StopTokens.isCancelled_iff, StopTokens.isCancelled_iff]
  constructor
  · rintro ⟨n, above, cancelled⟩
    rcases listed.cancelled n cancelled with before | rfl | ⟨w, member, y, stop, rfl⟩
    · exact ⟨n, above, before⟩
    · exact absurd above foreign
    · exact absurd above (apart w member y stop)
  · rintro ⟨n, above, cancelled⟩
    exact ⟨n, above, more cancelled⟩

theorem act_again (there : s.contexts[c]? = some x) (stopped : x.stopped = true) (call : s.calls u = some (c, .claiming))
    (free : (s.shift.threads u).isFree = true) : s.act u .step = some (s.calling u none [.ended u c 0]) := by
  have same : { x with stopped := true } = x := by rw [← stopped]
  simp only [act, call, there, free, if_true, Context.Shutdown.advance, stopped, same, set_same there, follow]

theorem run_again (there : s.contexts[c]? = some x) (stopped : x.stopped = true) (free : s.isFree u = true) :
    s.run [(u, .shutdown c), (u, .step)] = some { s with log := s.log ++ [.begun u c, .ended u c 0] } := by
  have hands : (s.shift.threads u).isFree = true ∧ s.calls u = none := by
    simpa only [isFree, Bool.and_eq_true, Option.isNone_iff_eq_none] using free
  have begun : s.act u (.shutdown c) = some (s.calling u (some (c, .claiming)) [.begun u c]) := by
    simp [act, free, there]
  have ended := act_again (s := s.calling u (some (c, .claiming)) [.begun u c]) there stopped (calling_self _) hands.1
  have calls : (fun v => if v = u then none else if v = u then some (c, Context.Shutdown.claiming) else s.calls v) =
      s.calls := by
    funext v
    by_cases mine : v = u
    · rw [if_pos mine, mine, hands.2]
    · rw [if_neg mine, if_neg mine]
  have ran : s.run [(u, .shutdown c), (u, .step)] =
      some ((s.calling u (some (c, .claiming)) [.begun u c]).calling u none [.ended u c 0]) := by
    rw [run, Threads.run, begun, Option.bind_some, Threads.run, ended]
    rfl
  rw [ran]
  simp [calling, calls]

structure Spent (s : Plant) (c : ContextId) (root : StopToken) : Prop where
  context : ∃ x, s.contexts[c]? = some x ∧ x.root = root ∧ x.stopped = true
  cancelled : root.number ∈ s.shift.force.tokens.cancelled

theorem turn_spent {root : StopToken} (kept : s.Kept) (spent : s.Spent c root) (turn : Turn s t a s') : s'.Spent c root := by
  obtain ⟨x, there, same, stopped⟩ := spent.context
  obtain ⟨x', there', same', stopped'⟩ := turn_context turn there
  exact ⟨⟨x', there', same'.trans same, stopped' stopped⟩, (turn_extends kept turn).cancelled spent.cancelled⟩

theorem finished_of_spent {root : StopToken} (kept : s.Kept) (spent : s.Spent c root) : s.Finished c := by
  obtain ⟨x, there, rfl, stopped⟩ := spent.context
  refine ⟨?_, fun p member => ?_, fun u => act_again there stopped, fun u => run_again there stopped⟩
  · rw [isShuttingDown, there]
    exact StopTokens.isCancelled_iff.mpr ⟨_, List.mem_cons_self, spent.cancelled⟩
  · obtain ⟨y, there', descends⟩ := kept.products c p member
    cases there.symm.trans there'
    exact isCancelled_of_descends descends spent.cancelled

/-! ### What a shutdown leaves alone -/

/-- What descends from one context's root does not descend from another's. -/
theorem foreign_of_descends {z : Context} {k : StopToken} (kept : s.Kept) (there : s.contexts[c]? = some x)
    (there' : s.contexts[d]? = some z) (other : d ≠ c) (known : k ∈ s.tokens ∨ k ∈ s.shift.force.stops)
    (above : z.root.number ∈ k.line) : x.root.number ∉ k.line := by
  intro above'
  have root : ∀ {e : ContextId} {z : Context}, s.contexts[e]? = some z → (s.contexts.map Context.root)[e]? = some z.root := by
    intro e z there
    rw [List.getElem?_map, there]
    rfl
  exact other (kept.lineage.sole k known d c z.root x.root (root there') (root there) above above')

theorem cleared_of_listed (kept : s.Kept) (kept' : s'.Kept) (more : s.Extends s') (there : s.contexts[c]? = some x)
    (listed : Listed s₀ c x past ws ws s') (shift : s₀.shift = s.shift) (contexts : s₀.contexts = s.contexts)
    (log : s'.log = s.log ++ .begun t c :: .listed t ws :: (tellings t ws ++ [.ended t c ws.length])) :
    s.Cleared t c x ws s' := by
  have more' : s₀.shift.force.tokens.cancelled ⊆ s'.shift.force.tokens.cancelled := shift ▸ more.cancelled
  have tokens : ∀ y ∈ s.tokens, x.root.number ∉ y.line →
      s'.shift.force.tokens.isCancelled y = s.shift.force.tokens.isCancelled y := by
    intro y member foreign
    rw [unmoved_of_apart listed more' foreign fun w _ z stop => (kept'.lineage.apart w z stop).1 y (more.tokens member), shift]
  have workers : ∀ w y, w ∉ ws → s.shift.force.worker? w = some y → x.root.number ∉ y.stop.line →
      s'.shift.force.shouldStop w = s.shift.force.shouldStop w := by
    intro w y unlisted found foreign
    have stop : s.shift.force.stops[w]? = some y.stop := by
      rw [Workforce.getElem?_stops, found]
      rfl
    have stop' := more.stops w y.stop stop
    rw [Workforce.getElem?_stops] at stop'
    obtain ⟨y', found', same⟩ := Option.map_eq_some_iff.mp stop'
    rw [Shift.shouldStop_of_worker found', Shift.shouldStop_of_worker found, same]
    rw [unmoved_of_apart listed more' foreign, shift]
    intro v member z stopped
    refine (kept'.lineage.apart v z stopped).2 w y.stop (more.stops w y.stop stop) ?_
    rintro rfl
    exact unlisted member
  refine ⟨log, fun w member => ⟨isRunning_of_still (listed.still w member), listed.asked w member⟩, tokens, workers, ?_⟩
  intro d z other there'
  have found : s'.contexts[d]? = some z := by
    rw [listed.contexts, contexts, List.getElem?_set_ne other.symm, there']
  refine ⟨found, ?_, fun p member unlisted => ?_⟩
  · have handed : z.root ∈ s.tokens := kept.lineage.handed (List.mem_map_of_mem (List.mem_of_getElem? there'))
    have foreign := foreign_of_descends kept there there' other (Or.inl handed) List.mem_cons_self
    rw [isShuttingDown, isShuttingDown, found, there']
    exact tokens z.root handed foreign
  · obtain ⟨z', there'', descends⟩ := kept.products d p member
    cases there'.symm.trans there''
    cases p with
    | token y =>
      exact tokens y descends.1 (foreign_of_descends kept there there' other (Or.inl descends.1) descends.2)
    | worker w | generator w period =>
      obtain ⟨y, stop, above⟩ := descends
      have foreign := foreign_of_descends kept there there' other (Or.inr (List.mem_of_getElem? stop)) above
      rw [Workforce.getElem?_stops] at stop
      obtain ⟨y', found', rfl⟩ := Option.map_eq_some_iff.mp stop
      exact workers w y' (fun member => unlisted w member rfl) found' foreign

/-! ### The first shutdown -/

/-- From any state that contexts, workers and threads may have come to, thread `t`, which is no worker's, shuts context `c`
down for the first time, and nothing else goes on. The shutdown returns. It has listed the workers of the context's roster
that somebody held, in the order that the context is configured with, and has terminated these one after the other; their
number is what it returns. Then none of them runs and all are told to stop, and nothing is cancelled but what belongs to the
context and these workers. Whatever happens later, everything that the context has made or will make is cancelled, and
shutting it down again returns 0 and does nothing. -/
theorem context_shutdown {moves : List (ThreadId × Action)} (ran : ({} : Plant).run moves = some s) (alone : s.Alone t)
    (there : s.contexts[c]? = some x) (first : x.stopped = false) :
    ∃ s₀, s.act t (.shutdown c) = some s₀ ∧ s₀.Returns t ∧
      ∀ more s₁, s₀.play more = some s₁ → s₁.calls t = none →
        ∃ ws, s₀.Lists x more ws ∧ s.Cleared t c x ws s₁ ∧ ∀ later s₂, s₁.run later = some s₂ → s₂.Finished c := by
  obtain ⟨kept, _⟩ := run_keeps (P := fun _ => True) kept_fresh trivial (fun _ _ _ _ _ _ _ => trivial) ran
  have free : s.isFree t = true := by
    simp [isFree, Shift.Hand.isFree, Shift.Station.isFree, alone.idle, alone.calls]
  have begun : s.act t (.shutdown c) = some (s.calling t (some (c, .claiming)) [.begun t c]) := by
    simp [act, free, there]
  generalize at_ : s.calling t (some (c, .claiming)) [.begun t c] = s₀ at begun
  have shift : s₀.shift = s.shift := by rw [← at_, calling_shift]
  have contexts : s₀.contexts = s.contexts := by rw [← at_, calling_contexts]
  have there₀ : s₀.contexts[c]? = some x := contexts ▸ there
  have kept₀ : s₀.Kept := turn_kept kept (turn_of_act begun)
  have resting : s₀.shift.Resting t := by
    rw [shift]
    refine ⟨congrArg Shift.Hand.station alone.idle, fun e errand => ?_, alone.others⟩
    rw [alone.idle] at errand
    cases errand
  have undisturbed : Undisturbed s₀ t [] s₀ := by
    refine ⟨kept₀, resting, fun u other => ?_, rfl⟩
    rw [← at_, calling_other other, alone.calls]
  have opening : Opening s₀ t c x .claiming s₀ := by
    refine ⟨by simp, ?_, ?_, rfl, rfl, (Workforce.live_self _ _ _).symm, rfl⟩
    · rw [← at_, calling_self]
    · rw [shift, alone.idle]
  have closing : Closing s₀ t c x [] s₀ := .opening opening
  refine ⟨s₀, begun, ⟨s₀.effort t x, fun more s₁ played => ?_⟩, fun more s₁ played returned => ?_⟩
  · obtain ⟨undisturbed', closing', bound⟩ := play_closing there₀ first undisturbed closing played
    exact ⟨Nat.le_of_add_right_le bound, closing_progress there₀ undisturbed' closing'⟩
  · obtain ⟨undisturbed', closing', _⟩ := play_closing there₀ first undisturbed closing played
    rw [List.nil_append] at closing'
    cases closing' with
    | opening opening => cases returned.symm.trans opening.call
    | between call | terminating call => cases returned.symm.trans call
    | @ended ws _ _ listed log =>
      have more : s.Extends s₁ := by
        have extends₀ := run_extends kept₀ (run_of_play played)
        have tokens : s₀.tokens = s.tokens := by
          rw [← at_]
          rfl
        exact ⟨tokens ▸ extends₀.tokens, shift ▸ extends₀.stops, shift ▸ extends₀.cancelled⟩
      have whole : s₁.log = s.log ++ .begun t c :: .listed t ws :: (tellings t ws ++ [.ended t c ws.length]) := by
        rw [log, ← at_, calling_log, List.append_assoc, List.singleton_append]
      refine ⟨ws, listed.origin, cleared_of_listed kept undisturbed'.kept more there listed shift contexts whole, ?_⟩
      intro later s₂ ran'
      have spent : s₁.Spent c x.root :=
        ⟨⟨{ x with stopped := true }, listed.contexts ▸ context_set there₀, rfl, rfl⟩, listed.root⟩
      obtain ⟨kept₂, spent₂⟩ := run_keeps undisturbed'.kept spent (fun _ _ _ _ kept spent => turn_spent kept spent) ran'
      exact finished_of_spent kept₂ spent₂

/-- Two contexts share a roster. A worker of each is started: the one of context 0 falls asleep, the one of context 1 has not
begun yet. A generator of context 0 stays idle, and context 1 gives out a token. -/
def evening : List (ThreadId × Action) :=
  let on (t : ThreadId) : ThreadId × Action := (t, .shift (.advance 0 none))
  let run (t : ThreadId) : ThreadId × Action := (t, .shift .proceed)
  [(0, .shift .arrive), (0, .shift (.chore .addRoster)), (0, .found {} 0 0 0), (0, .found {} 0 0 0),
    (0, .make 0 (.worker "a")), (0, .make 1 (.worker "b")), (0, .make 0 (.generator "g")), (0, .make 1 .token),
    (0, .shift (.order .start 0)), on 0, on 0, on 0, on 0, run 1, run 1, (1, .shift (.order (.sleep none) 0)), on 1,
    (0, .shift (.order .start 1)), on 0, on 0, on 0, on 0]

/-- Thread 0 shuts context 0 down, the worker that was started last first. -/
def night : List (ThreadId × Action) :=
  let on (t : ThreadId) : ThreadId × Action := (t, .shift (.advance 0 none))
  let run (t : ThreadId) : ThreadId × Action := (t, .shift .proceed)
  let finish (t : ThreadId) : ThreadId × Action := (t, .shift (.finish false))
  [(0, .step), (0, .step), (0, .step), (0, .step), on 0, on 0, on 0, run 2, run 2, finish 2, run 2, on 0, on 0, run 2, on 0,
    (0, .step), on 0, on 0, on 1, on 0, finish 1, run 1, on 0, on 0, run 1, on 0, (0, .step)]

theorem context_shutdown_night : ∃ s s₀ s₁ : Plant, ({} : Plant).run evening = some s ∧
    s.act 0 (.shutdown 0) = some s₀ ∧ s₀.play night = some s₁ ∧
    s₁.log = s.log ++ [.begun 0 0, .listed 0 [1, 0], .told 0 1, .stopped 0 1, .told 0 0, .stopped 0 0, .ended 0 0 2] ∧
    s₁.shift.force.isRunning 0 = false ∧ s₁.shift.force.isRunning 1 = false ∧ s₁.isShuttingDown 1 = false ∧ s₁.Finished 0 := by
  have ends : ∃ s s₀ s₁ : Plant, ({} : Plant).run evening = some s ∧ s.act 0 (.shutdown 0) = some s₀ ∧
      s₀.play night = some s₁ ∧ s₁.calls 0 = none ∧ s.shift.born = 3 ∧ s.shift.threads 0 = ⟨.outside, none⟩ ∧
      s.shift.threads 1 = ⟨.on 0 .body, some ⟨4, .sleep none, 0, .sleeping none⟩⟩ ∧
      s.shift.threads 2 = ⟨.on 1 .beginning, none⟩ ∧ s.calls = (fun _ => none) ∧
      (∃ x, s.contexts[0]? = some x ∧ x.stopped = false) ∧ (∃ z, s.contexts[1]? = some z) ∧ s.isShuttingDown 1 = false ∧
      s₁.log = s.log ++ [.begun 0 0, .listed 0 [1, 0], .told 0 1, .stopped 0 1, .told 0 0, .stopped 0 0, .ended 0 0 2] :=
    ⟨_, _, _, rfl, rfl, rfl, rfl, rfl, rfl, rfl, rfl, rfl, ⟨_, rfl, rfl⟩, ⟨_, rfl⟩, rfl, rfl⟩
  obtain ⟨s, s₀, s₁, ran, begun, played, returned, born, zero, one, two, calls, ⟨x, there, first⟩, ⟨z, other⟩, spared, log⟩ :=
    ends
  obtain ⟨kept, _⟩ := run_keeps (P := fun _ => True) kept_fresh trivial (fun _ _ _ _ _ _ _ => trivial) ran
  have alone : s.Alone 0 := by
    refine ⟨zero, fun u => congrFun calls u, fun u e apart errand => ?_⟩
    match u with
    | 0 => exact absurd rfl apart
    | 1 =>
      rw [one] at errand
      cases errand
      refine ⟨⟨none, rfl⟩, fun w r stands => ?_⟩
      rw [Shift.posts, one] at stands
      exact (Shift.Station.on.inj stands).1
    | 2 =>
      rw [two] at errand
      cases errand
    | u + 3 =>
      rw [kept.tended.unborn (u + 3) (born ▸ Nat.le_add_left 3 u)] at errand
      cases errand
  obtain ⟨s₀', begun', _, closes⟩ := context_shutdown ran alone there first
  obtain rfl := Option.some.inj (begun.symm.trans begun')
  obtain ⟨ws, _, cleared, finished⟩ := closes night s₁ played returned
  -- The workers that the log names are those that the shutdown has listed.
  have listed : ws = [1, 0] := by
    have entries := List.append_cancel_left (log.symm.trans cleared.log)
    exact (Entry.listed.inj (List.cons.inj (List.cons.inj entries).2).1).2.symm
  have rest := cleared.rest
  rw [listed] at rest
  have unmoved := (cleared.others 1 z (by decide) other).2.1
  exact ⟨s, s₀, s₁, ran, begun, played, log, (rest 0 (by decide)).1, (rest 1 (by decide)).1, unmoved.trans spared,
    finished [] s₁ rfl⟩

end Switchboard.Plant
