import Switchboard.Proofs.Context.Ownership

/-!
The course of a shutdown that nothing else goes on beside. What thread `t` has come to tells which workers were listed,
which of them have been terminated and which tokens have been cancelled (`Closing`), and every move that may go on keeps
that (`closing_step`).
-/

namespace Switchboard.Plant

/-- Thread `t` comes from outside and does nothing, nobody shuts a context down, and all that other threads are in the middle
of is a sleep, bodies on their own workers. -/
structure Alone (s : Plant) (t : ThreadId) : Prop where
  idle : s.shift.threads t = ⟨.outside, none⟩
  calls : ∀ u, s.calls u = none
  others : ∀ u e, u ≠ t → (s.shift.threads u).errand = some e →
    (∃ until?, e.order = .sleep until?) ∧ ∀ w r, s.shift.posts w u r → e.worker = w

/-- What may go on beside a shutdown: bodies do no more than sleep and return, and return once they are told to stop. -/
def isLawful (s : Plant) (u : ThreadId) : Action → Bool
  | .shift a => s.shift.isMild u a
  | .step => true
  | _ => false

/-- Performs moves of which each may go on beside a shutdown. -/
def play (s : Plant) (moves : List (ThreadId × Action)) : Option Plant :=
  Threads.run (fun s u a => if s.isLawful u a then s.act u a else none) s moves

/-- The worker list of a shutdown is taken at one moment: it is the context's roster as it stands, and of the roster as it
stood at first it lacks only who has been let go since. -/
def Lists (s : Plant) (x : Context) (more : List (ThreadId × Action)) (ws : List WorkerId) : Prop :=
  ∃ front s', front <+: more ∧ s.play front = some s' ∧
    ws = s'.shift.force.live x.roster x.config.stopOrder ∧
    ws = (s.shift.force.live x.roster x.config.stopOrder).filter s'.shift.force.isAlive

def tellings (t : ThreadId) (ws : List WorkerId) : List Entry := ws.flatMap fun w => [.told t w, .stopped t w]

variable {s₀ s s' : Plant} {t u : ThreadId} {a : Action} {c : ContextId} {x : Context} {past more : List (ThreadId × Action)}
  {ws done rest : List WorkerId} {w : WorkerId} {stage : Context.Shutdown} {b : Shift.Action} {shift : Shift}

theorem run_of_play (played : s.play more = some s') : s.run more = some s' := by
  refine Threads.run_traces (P := fun past later => s.run past = some later) [] rfl played ?_
  intro past later u a s' _ before acted
  rw [Option.ite_none_right_eq_some] at acted
  rw [run, Threads.run_append]
  exact Option.bind_eq_some_iff.mpr ⟨later, before, by rw [Threads.run, acted.2]; rfl⟩

theorem play_one (lawful : s.isLawful u a = true) (acted : s.act u a = some s') : s.play [(u, a)] = some s' := by
  simp [play, Threads.run, lawful, acted]

/-! ### What a shutdown has come to -/

/-- Nothing but thread `t`'s shutdown has gone on since. -/
structure Undisturbed (s₀ : Plant) (t : ThreadId) (past : List (ThreadId × Action)) (s : Plant) : Prop where
  kept : s.Kept
  resting : s.shift.Resting t
  calls : ∀ u, u ≠ t → s.calls u = none
  played : s₀.play past = some s

/-- No worker has been listed yet. -/
structure Opening (s₀ : Plant) (t : ThreadId) (c : ContextId) (x : Context) (stage : Context.Shutdown) (s : Plant) : Prop where
  early : ∀ rest count, stage ≠ .stopping rest count
  call : s.calls t = some (c, stage)
  idle : (s.shift.threads t).errand = none
  contexts : s.contexts = if stage = .claiming then s₀.contexts else s₀.contexts.set c { x with stopped := true }
  cancelled : s.shift.force.tokens.cancelled =
    if stage = .listing then x.root.number :: s₀.shift.force.tokens.cancelled else s₀.shift.force.tokens.cancelled
  live : s.shift.force.live x.roster x.config.stopOrder =
    (s₀.shift.force.live x.roster x.config.stopOrder).filter s.shift.force.isAlive
  log : s.log = s₀.log

/-- The workers `ws` have been listed and those in `done` have been terminated. -/
structure Listed (s₀ : Plant) (c : ContextId) (x : Context) (past : List (ThreadId × Action)) (ws done : List WorkerId)
    (s : Plant) : Prop where
  origin : s₀.Lists x past ws
  contexts : s.contexts = s₀.contexts.set c { x with stopped := true }
  root : x.root.number ∈ s.shift.force.tokens.cancelled
  cancelled : ∀ n ∈ s.shift.force.tokens.cancelled, n ∈ s₀.shift.force.tokens.cancelled ∨ n = x.root.number ∨
    ∃ w ∈ ws, ∃ y, s.shift.force.stops[w]? = some y ∧ y.number = n
  asked : ∀ w ∈ done, s.shift.force.shouldStop w = true
  still : ∀ w ∈ done, ∀ y, s.shift.force.worker? w = some y → y.lifecycle ≠ .running

inductive Closing (s₀ : Plant) (t : ThreadId) (c : ContextId) (x : Context) (past : List (ThreadId × Action)) (s : Plant) : Prop
  | opening {stage : Context.Shutdown} (opening : Opening s₀ t c x stage s)
  | between {done rest : List WorkerId} (call : s.calls t = some (c, .stopping rest done.length))
    (idle : (s.shift.threads t).errand = none) (listed : Listed s₀ c x past (done ++ rest) done s)
    (alive : ∀ w ∈ rest, s.shift.force.isAlive w = true)
    (log : s.log = s₀.log ++ .listed t (done ++ rest) :: tellings t done)
  | terminating {done rest : List WorkerId} {e : Shift.Errand} (call : s.calls t = some (c, .stopping rest (done.length + 1)))
    (errand : (s.shift.threads t).errand = some e) (phased : s.shift.Phased e)
    (listed : Listed s₀ c x past (done ++ e.worker :: rest) done s) (alive : ∀ w ∈ rest, s.shift.force.isAlive w = true)
    (log : s.log = s₀.log ++ .listed t (done ++ e.worker :: rest) :: (tellings t done ++ [.told t e.worker]))
  | ended {ws : List WorkerId} (call : s.calls t = none) (idle : (s.shift.threads t).errand = none)
    (listed : Listed s₀ c x past ws ws s)
    (log : s.log = s₀.log ++ .listed t ws :: (tellings t ws ++ [.ended t c ws.length]))

theorem Lists.later (lists : s₀.Lists x past ws) (more : List (ThreadId × Action)) : s₀.Lists x (past ++ more) ws := by
  obtain ⟨front, s', before, played, live, kept⟩ := lists
  exact ⟨front, s', before.trans (List.prefix_append _ _), played, live, kept⟩

/-- There is no other shutdown. -/
theorem stepped_mine {y : Context} (undisturbed : Undisturbed s₀ t past s) (stepped : Stepped s u c y s') : u = t := by
  by_contra other
  have none := undisturbed.calls u other
  cases stepped with
  | again call | claim call | cancel call | list call | tell call | done call =>
    rw [none] at call
    cases call

theorem undisturbed_step (undisturbed : Undisturbed s₀ t past s) (lawful : s.isLawful u a = true)
    (acted : s.act u a = some s') : Undisturbed s₀ t (past ++ [(u, a)]) s' := by
  have resting := undisturbed.resting
  have turn := turn_of_act acted
  have moved : s'.shift.Resting t ∧ ∀ v, v ≠ t → s'.calls v = none := by
    cases turn with
    | found | make | shutdown => cases lawful
    | shift _ moved =>
      have eased := Shift.eased_of_act undisturbed.kept.tended.staffed lawful moved
      exact ⟨Shift.eased_resting undisturbed.kept.witnessed resting eased, undisturbed.calls⟩
    | step _ _ stepped =>
      obtain rfl := stepped_mine undisturbed stepped
      have silent : ∀ {call : Option (ContextId × Context.Shutdown)} (es : List Entry), ∀ v, v ≠ u →
          (s.calling u call es).calls v = none := by
        intro call es v other
        rw [calling_other other]
        exact undisturbed.calls v other
      cases stepped with
      | again | list | done => exact ⟨resting, silent _⟩
      | claim => exact ⟨resting, silent []⟩
      | cancel => exact ⟨⟨resting.outside, resting.mine, resting.others⟩, silent []⟩
      | @tell w _ _ shift call ordered =>
        simp only [Shift.act, Option.ite_none_right_eq_some, Option.some.injEq] at ordered
        obtain ⟨_, rfl⟩ := ordered
        exact ⟨Shift.resting_begin resting, silent [.told u w]⟩
  refine ⟨turn_kept undisturbed.kept turn, moved.1, moved.2, ?_⟩
  rw [play, Threads.run_append]
  exact Option.bind_eq_some_iff.mpr ⟨s, undisturbed.played, play_one lawful acted⟩

/-! ### Moves beside the shutdown -/

theorem heard_aside (calls : ∀ u, u ≠ t → s.calls u = none) (hand : shift.threads t = s.shift.threads t) :
    s.heard u shift = [] := by
  unfold heard
  split
  · rename_i call e there errand returned
    by_cases mine : u = t
    · rw [mine, ← hand] at errand
      rw [mine, errand] at returned
      cases returned
    · rw [calls u mine] at there
      cases there
  · rfl

theorem listed_later (kept : s.Kept) (listed : Listed s₀ c x past ws done s) (turn : Shift.Turn s.shift u shift)
    (eased : Shift.Eased s.shift u b shift) (resting : s.shift.Resting t)
    (cancelled : ∀ n ∈ shift.force.tokens.cancelled, n ∈ s.shift.force.tokens.cancelled ∨
      ∃ w ∈ ws, ∃ y, s.shift.force.stops[w]? = some y ∧ y.number = n)
    (stops : shift.force.stops = s.shift.force.stops) :
    Listed s₀ c x (past ++ more) ws done (s.based u b shift) where
  origin := listed.origin.later more
  contexts := listed.contexts
  root := Shift.cancelled_subset turn listed.root
  cancelled n member := by
    rw [based_shift, stops]
    rcases cancelled n member with before | new
    · exact listed.cancelled n before
    · exact Or.inr (Or.inr new)
  asked w member := Shift.turn_shouldStop kept.tended turn (listed.asked w member)
  still w member y there := by
    have before := listed.asked w member
    cases found : s.shift.force.worker? w with
    | none => simp [Workforce.shouldStop, found] at before
    | some z =>
      have still := listed.still w member z found
      rw [Shift.eased_lifecycle kept.tended kept.witnessed resting eased found still there]
      exact still

/-- The workers that are still to be terminated are not let go. -/
theorem alive_later (undisturbed : Undisturbed s₀ t past s) {count : Nat}
    (call : s.calls t = some (c, .stopping rest count)) (alive : ∀ w ∈ rest, s.shift.force.isAlive w = true)
    (permitted : s.permits u b = true) (eased : Shift.Eased s.shift u b shift) :
    ∀ w ∈ rest, shift.force.isAlive w = true := by
  intro w member
  refine Shift.eased_alive undisturbed.kept.witnessed undisturbed.resting eased ?_ (alive w member)
  rintro rfl
  have there : t < s.shift.born := by
    refine Shift.born_of_station undisturbed.kept.tended ?_
    rw [undisturbed.resting.outside]
    exact nofun
  have held : s.holds w = true := by
    refine List.any_eq_true.mpr ⟨t, List.mem_range.mpr there, ?_⟩
    rw [call]
    simpa using member
  simp [permits, held] at permitted

theorem closing_aside (undisturbed : Undisturbed s₀ t past s) (closing : Closing s₀ t c x past s)
    (permitted : s.permits u b = true) (acted : s.shift.act u b = some shift) (eased : Shift.Eased s.shift u b shift)
    (hand : shift.threads t = s.shift.threads t) (tokens : shift.force.tokens = s.shift.force.tokens) :
    Closing s₀ t c x (past ++ more) (s.based u b shift) := by
  have kept := undisturbed.kept
  have resting := undisturbed.resting
  have turn := Shift.turn_of_act kept.tended.staffed acted
  have silent : s.heard u shift = [] := heard_aside undisturbed.calls hand
  have log : (s.based u b shift).log = s.log := by rw [based_log, silent, List.append_nil]
  have stops := Shift.eased_stops kept.tended.staffed acted eased
  have listed_ : ∀ {ws done}, Listed s₀ c x past ws done s → Listed s₀ c x (past ++ more) ws done (s.based u b shift) :=
    fun listed => listed_later kept listed turn eased resting (fun n member => Or.inl (tokens ▸ member)) stops
  have idle_ : (s.shift.threads t).errand = none → (shift.threads t).errand = none := by
    intro idle
    rw [hand, idle]
  cases closing with
  | opening opening =>
    refine .opening ⟨opening.early, opening.call, idle_ opening.idle, opening.contexts, ?_, ?_, log.trans opening.log⟩
    · rw [based_shift, tokens]
      exact opening.cancelled
    · rw [based_shift, Shift.eased_live kept.witnessed resting eased, opening.live, List.filter_filter]
      refine List.filter_congr fun w _ => ?_
      cases alive : shift.force.isAlive w with
      | false => rfl
      | true => rw [Shift.eased_gone kept.witnessed resting eased alive, Bool.and_self]
  | between call idle listed alive entries =>
    exact .between call (idle_ idle) (listed_ listed) (alive_later undisturbed call alive permitted eased) (log.trans entries)
  | @terminating done rest e call errand phased listed alive entries =>
    have errand' : (shift.threads t).errand = some e := by rw [hand, errand]
    have phased' := Shift.phased_later kept.tended kept.witnessed resting errand phased turn eased
    exact .terminating call errand' phased' (listed_ listed) (alive_later undisturbed call alive permitted eased)
      (log.trans entries)
  | ended call idle listed entries => exact .ended call (idle_ idle) (listed_ listed) (log.trans entries)

/-! ### Moves of the shutdown -/

theorem tellings_append (t : ThreadId) (ws : List WorkerId) (w : WorkerId) :
    tellings t (ws ++ [w]) = tellings t ws ++ [.told t w, .stopped t w] := by
  simp [tellings]

/-- A section of the call that terminates a worker. -/
theorem closing_own (undisturbed : Undisturbed s₀ t past s) (closing : Closing s₀ t c x past s)
    (permitted : s.permits t b = true) (acted : s.shift.act t b = some shift) (eased : Shift.Eased s.shift t b shift)
    (advanced : Shift.Advanced s.shift t shift) : Closing s₀ t c x (past ++ more) (s.based t b shift) := by
  have kept := undisturbed.kept
  have resting := undisturbed.resting
  have turn := Shift.turn_of_act kept.tended.staffed acted
  -- Without a call in progress there is no section of it.
  have busy : (s.shift.threads t).errand ≠ none := by
    intro idle
    cases advanced with
    | goOn errand | spawn errand | comeBack errand =>
      rw [idle] at errand
      cases errand
  have stops := Shift.eased_stops kept.tended.staffed acted eased
  cases closing with
  | opening opening => exact absurd opening.idle busy
  | between _ idle => exact absurd idle busy
  | ended _ idle => exact absurd idle busy
  | @terminating done rest e call errand phased listed alive log =>
    obtain ⟨y, there⟩ := Option.isSome_iff_exists.mp (kept.tended.staffed t e errand)
    have cancelled : ∀ n ∈ shift.force.tokens.cancelled, n ∈ s.shift.force.tokens.cancelled ∨
        ∃ w ∈ done ++ e.worker :: rest, ∃ z, s.shift.force.stops[w]? = some z ∧ z.number = n := by
      intro n member
      rw [Shift.advanced_tokens kept.witnessed resting errand there advanced] at member
      split at member
      · rcases List.mem_cons.mp member with rfl | before
        · refine Or.inr ⟨e.worker, List.mem_append_right _ List.mem_cons_self, y.stop, ?_, rfl⟩
          rw [Workforce.getElem?_stops, there]
          rfl
        · exact Or.inl before
      · exact Or.inl member
    have listed' : Listed s₀ c x (past ++ more) (done ++ e.worker :: rest) done (s.based t b shift) :=
      listed_later kept listed turn eased resting cancelled stops
    have alive' := alive_later undisturbed call alive permitted eased
    rcases Shift.advanced_phased kept.tended kept.witnessed kept.grounded resting errand phased advanced with
      ⟨call', errand', phased'⟩ | ⟨returned, past, still⟩
    · refine .terminating call errand' phased' listed' alive' ?_
      rw [based_log, log, heard, call, errand, errand', List.append_nil]
    · have asked := (kept.witnessed.errands t e errand).asked (resting.mine e errand) past
      have split : done ++ e.worker :: rest = (done ++ [e.worker]) ++ rest := by simp
      have count : done.length + 1 = (done ++ [e.worker]).length := by simp
      rw [count] at call
      refine .between call returned ?_ alive' ?_
      · rw [← split]
        refine { listed' with asked := ?_, still := ?_ }
        · intro w member
          rcases List.mem_append.mp member with before | last
          · exact listed'.asked w before
          · rw [List.mem_singleton.mp last]
            exact Shift.turn_shouldStop kept.tended turn asked
        · intro w member
          rcases List.mem_append.mp member with before | last
          · exact listed'.still w before
          · rw [List.mem_singleton.mp last]
            exact still
      · rw [based_log, log, heard, call, errand, returned, tellings_append, split]
        simp

theorem context_set (there : s₀.contexts[c]? = some x) :
    (s₀.contexts.set c { x with stopped := true })[c]? = some { x with stopped := true } :=
  List.getElem?_set_self (List.getElem?_eq_some_iff.mp there).1

/-- A section of the shutdown itself. -/
theorem closing_stepped {y : Context} {d : ContextId} (there₀ : s₀.contexts[c]? = some x) (first : x.stopped = false)
    (undisturbed : Undisturbed s₀ t past s) (closing : Closing s₀ t c x past s)
    (free : (s.shift.threads t).isFree = true) (there : s.contexts[d]? = some y) (stepped : Stepped s t d y s') :
    Closing s₀ t c x (past ++ more) s' := by
  cases closing with
  | @opening stage opening =>
    have claimed : stage ≠ .claiming → s.contexts[c]? = some { x with stopped := true } := by
      intro later
      rw [opening.contexts, if_neg later]
      exact context_set there₀
    cases stepped with
    | again call before =>
      cases opening.call.symm.trans call
      rw [opening.contexts, if_pos rfl, there₀] at there
      cases there
      rw [first] at before
      cases before
    | claim call =>
      cases opening.call.symm.trans call
      have same : s.contexts = s₀.contexts := opening.contexts
      rw [same, there₀] at there
      cases there
      refine .opening ⟨by simp, calling_self [], opening.idle, ?_, opening.cancelled, opening.live, ?_⟩
      · show s.contexts.set c _ = _
        rw [same]
        rfl
      · exact (List.append_nil _).trans opening.log
    | cancel call =>
      cases opening.call.symm.trans call
      cases there.symm.trans (claimed nofun)
      refine .opening ⟨by simp, calling_self [], opening.idle, opening.contexts, ?_, opening.live, ?_⟩
      · exact congrArg (x.root.number :: ·) opening.cancelled
      · exact (List.append_nil _).trans opening.log
    | @list ws call members =>
      cases opening.call.symm.trans call
      cases there.symm.trans (claimed nofun)
      have live : ws = s.shift.force.live x.roster x.config.stopOrder := members
      have cancelled : s.shift.force.tokens.cancelled = x.root.number :: s₀.shift.force.tokens.cancelled := opening.cancelled
      have alive : ∀ w ∈ ws, s.shift.force.isAlive w = true := by
        intro w member
        rw [live, opening.live] at member
        exact (List.mem_filter.mp member).2
      have listed : Listed s₀ c x (past ++ more) ([] ++ ws) [] (s.calling t (some (c, .stopping ws 0)) [.listed t ws]) := by
        refine ⟨⟨past, s, List.prefix_append _ _, undisturbed.played, live, live.trans opening.live⟩, opening.contexts, ?_, ?_,
          nofun, nofun⟩
        · show x.root.number ∈ s.shift.force.tokens.cancelled
          rw [cancelled]
          exact List.mem_cons_self
        · intro n member
          change n ∈ s.shift.force.tokens.cancelled at member
          rw [cancelled] at member
          rcases List.mem_cons.mp member with root | before
          · exact Or.inr (Or.inl root)
          · exact Or.inl before
      refine .between (calling_self _) opening.idle listed alive ?_
      rw [calling_log, opening.log]
      rfl
    | tell call | done call =>
      rw [opening.call] at call
      exact absurd (Prod.mk.inj (Option.some.inj call)).2 (opening.early _ _)
  | @between done rest call idle listed alive log =>
    cases stepped with
    | again call' | claim call' | cancel call' | list call' => cases call.symm.trans call'
    | @tell w rest' count shift call' acted =>
      cases call.symm.trans call'
      simp only [Shift.act, Option.ite_none_right_eq_some, Option.some.injEq] at acted
      obtain ⟨_, rfl⟩ := acted
      have errand : ((s.shift.begin t .terminate w).threads t).errand =
          some ⟨s.shift.log.length, .terminate, w, .cancelling⟩ := congrArg Shift.Hand.errand Shift.after_self
      have listed' : Listed s₀ c x (past ++ more) (done ++ w :: rest') done
          { s.calling t (some (c, .stopping rest' (done.length + 1))) [.told t w] with
            shift := s.shift.begin t .terminate w } :=
        ⟨listed.origin.later more, listed.contexts, listed.root, listed.cancelled, listed.asked, listed.still⟩
      refine .terminating (calling_self [.told t w]) errand (Shift.phased_first rfl) listed' ?_ ?_
      · exact fun v member => alive v (List.mem_cons_of_mem _ member)
      · show s.log ++ [.told t w] = _
        rw [log]
        simp
    | done call' =>
      cases call.symm.trans call'
      rw [List.append_nil] at listed log
      have listed' : Listed s₀ c x (past ++ more) done done (s.calling t none [.ended t c done.length]) :=
        ⟨listed.origin.later more, listed.contexts, listed.root, listed.cancelled, listed.asked, listed.still⟩
      refine .ended (calling_self _) idle listed' ?_
      rw [calling_log, log]
      simp
  | terminating call errand =>
    simp [Shift.Hand.isFree, errand] at free
  | ended call =>
    cases stepped with
    | again call' | claim call' | cancel call' | list call' | tell call' | done call' => cases call.symm.trans call'

theorem closing_step (there : s₀.contexts[c]? = some x) (first : x.stopped = false) (undisturbed : Undisturbed s₀ t past s)
    (closing : Closing s₀ t c x past s) (lawful : s.isLawful u a = true) (acted : s.act u a = some s') :
    Closing s₀ t c x (past ++ [(u, a)]) s' := by
  cases turn_of_act acted with
  | found | make | shutdown => cases lawful
  | shift permitted moved =>
    have eased := Shift.eased_of_act undisturbed.kept.tended.staffed lawful moved
    rcases Shift.eased_aside undisturbed.kept.witnessed undisturbed.resting eased with ⟨_, hand, tokens⟩ | ⟨rfl, advanced⟩
    · exact closing_aside undisturbed closing permitted moved eased hand tokens
    · exact closing_own undisturbed closing permitted moved eased advanced
  | step free there' stepped =>
    obtain rfl := stepped_mine undisturbed stepped
    exact closing_stepped there first undisturbed closing free there' stepped

end Switchboard.Plant
