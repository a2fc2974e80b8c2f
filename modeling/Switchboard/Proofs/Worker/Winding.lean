import Mathlib.Algebra.Order.BigOperators.Group.Finset
import Switchboard.Proofs.Worker.Resting

/-!
Winding down. While nothing else goes on, a call that terminates a worker comes to its end: either it or the worker's own
thread can move, and neither does so forever.
-/

namespace Switchboard.Shift

variable {s s' : Shift} {t u v : ThreadId} {w : WorkerId} {x x' : Worker} {e : Errand} {a : Action}

/-! ### What is left to do -/

/-- How many sections a thread has left that will not sleep again. -/
def Hand.rank (h : Hand) : Nat :=
  match h.station with
  | .on _ .beginning => 6
  | .on _ .taking => 5
  | .on _ .body => if h.errand.isSome then 4 else 3
  | .on _ .exiting => 2
  | .on _ .closing => 1
  | _ => 0

def isTold (s : Shift) (u : ThreadId) : Bool :=
  match (s.threads u).station with
  | .on w _ => s.force.shouldStop w
  | _ => false

/-- What a thread still has to do once it is told to stop. -/
def toll (s : Shift) (u : ThreadId) : Nat :=
  match (s.threads u).station with
  | .on w _ => if s.force.shouldStop w then (s.threads u).rank else 7
  | _ => 0

theorem rank_le (h : Hand) : h.rank ≤ 6 := by
  unfold Hand.rank
  split
  · decide
  · decide
  · split <;> decide
  · decide
  · decide
  · decide

theorem toll_le (s : Shift) (u : ThreadId) : s.toll u ≤ 7 := by
  unfold toll
  split
  · split
    · exact Nat.le_succ_of_le (rank_le _)
    · exact Nat.le_refl 7
  · exact Nat.zero_le 7

/-- A thread that stays where it is has no more to do than before. -/
theorem toll_others (asked : ∀ w, s.force.shouldStop w = true → s'.force.shouldStop w = true)
    (same : s'.threads v = s.threads v) : s'.toll v ≤ s.toll v := by
  unfold toll
  rw [same]
  split
  · rename_i w r station
    cases told : s.force.shouldStop w with
    | true =>
      rw [asked w told]
    | false =>
      have bound := rank_le (s.threads v)
      simp only [Bool.false_eq_true, if_false]
      split
      · exact Nat.le_succ_of_le bound
      · exact Nat.le_refl _
  · exact Nat.le_refl _

/-- A move of a thread that is told to stop takes it nearer to its end. -/
theorem toll_mover (witnessed : s.Witnessed) (resting : s.Resting t) (eased : Eased s u a s')
    (asked : ∀ w, s.force.shouldStop w = true → s'.force.shouldStop w = true) (told : s.isTold u = true)
    (own : ∀ w, a ≠ .release w) : s'.toll u < s.toll u := by
  -- Before and after the move the thread belongs to one worker.
  have counts : ∀ {w : WorkerId} {r r' : Worker.Run}, (s.threads u).station = .on w r → (s'.threads u).station = .on w r' →
      (s'.threads u).rank < (s.threads u).rank → s'.toll u < s.toll u := by
    intro w r r' station station' less
    rw [isTold, station] at told
    unfold toll
    rw [station, station']
    simp only [told, asked w told, if_true]
    exact less
  have apart : u ≠ t := by
    rintro rfl
    rw [isTold, resting.outside] at told
    cases told
  have moved : ∀ {w : WorkerId} {r r' : Worker.Run} {f : Workforce} {es : List Entry}, s.threads u = ⟨.on w r, none⟩ →
      s' = s.after u f { station := .on w r' } es → Hand.rank ⟨.on w r', none⟩ < Hand.rank ⟨.on w r, none⟩ →
      s'.toll u < s.toll u := by
    rintro w r r' f es hand rfl less
    refine counts (congrArg Hand.station hand) (congrArg Hand.station after_self) ?_
    rw [after_self, hand]
    exact less
  cases eased with
  | @release w => exact absurd rfl (own w)
  | order stands unasked =>
    rw [isTold, show (s.threads u).station = _ from stands] at told
    cases unasked.symm.trans told
  | finish hand => exact moved hand rfl (by simp [Hand.rank])
  | proceed proceeded =>
    cases proceeded with
    | begin hand | take hand | skip hand | exit hand => exact moved hand rfl (by simp [Hand.rank])
    | @close w x hand =>
      have gone : (s.after u (s.force.update w fun _ => x.close) {} []).toll u = 0 := by
        rw [toll, after_self]
      rw [gone, toll, hand]
      rw [isTold, hand] at told
      change s.force.shouldStop w = true at told
      simp [told, Hand.rank]
  | advance advanced =>
    have body : ∀ {e : Errand}, (s.threads u).errand = some e →
        (s.threads u).station = .on e.worker .body ∧ s.force.shouldStop e.worker = true := by
      intro e errand
      have free := (witnessed.errands u e errand).free
      obtain ⟨_, mine⟩ := resting.others u e apart errand
      cases station : (s.threads u).station with
      | absent | outside =>
        rw [isTold, station] at told
        cases told
      | on w r =>
        obtain rfl := mine w r station
        rw [isTold, station] at told
        rw [station] at free
        cases r with
        | body => exact ⟨rfl, told⟩
        | beginning | taking | exiting | closing => cases free
    cases advanced with
    | @goOn e x c ts x' refusal errand there part =>
      -- Who is told to stop does not sleep on.
      obtain ⟨_, told⟩ := body errand
      rcases covers_resting witnessed resting errand with ⟨mine, _⟩ | ⟨_, until?, rests⟩
      · exact absurd mine apart
      · rw [shouldStop_of_worker there] at told
        generalize e.call = call at part rests
        rcases rests with rfl | rfl <;>
        · cases part with
          | doze _ unasked => cases unasked.symm.trans told
    | spawn errand there part => exact absurd (Worker.section_spawns part).1 (unstarted witnessed resting errand).1
    | @comeBack e x r ts x' refusal errand there part =>
      obtain ⟨station, _⟩ := body errand
      refine counts station ((station_after u).trans station) ?_
      rw [after_self]
      simp [Hand.rank, station, errand]

theorem toll_mover_le (witnessed : s.Witnessed) (resting : s.Resting t) (eased : Eased s u a s')
    (asked : ∀ w, s.force.shouldStop w = true → s'.force.shouldStop w = true) : s'.toll u ≤ s.toll u := by
  have away : (∀ w r, (s.threads u).station ≠ .on w r) → (s'.threads u).station = (s.threads u).station →
      s'.toll u ≤ s.toll u := by
    intro nowhere same
    unfold toll
    rw [same]
    cases station : (s.threads u).station with
    | absent | outside => exact Nat.le_refl _
    | on w r => exact absurd station (nowhere w r)
  cases station : (s.threads u).station with
  | on w r =>
    cases told : s.force.shouldStop w with
    | true =>
      have told : s.isTold u = true := by
        rw [isTold, station]
        exact told
      by_cases own : ∃ v, a = .release v
      · obtain ⟨v, rfl⟩ := own
        cases eased with
        | release => exact toll_others asked rfl
      · exact Nat.le_of_lt (toll_mover witnessed resting eased asked told fun v same => own ⟨v, same⟩)
    | false =>
      have most : s.toll u = 7 := by
        rw [toll, station]
        simp [told]
      exact most ▸ toll_le s' u
  | absent | outside =>
    have nowhere : ∀ w r, (s.threads u).station ≠ .on w r := by simp [station]
    cases eased with
    | release => exact toll_others asked rfl
    | order stands => exact absurd stands (nowhere _ _)
    | finish hand => exact absurd (congrArg Hand.station hand) (nowhere _ _)
    | proceed proceeded =>
      cases proceeded with
      | begin hand | take hand | skip hand | exit hand | close hand =>
        exact absurd (congrArg Hand.station hand) (nowhere _ _)
    | advance advanced =>
      cases advanced with
      | goOn | comeBack => exact away nowhere (station_after u)
      | spawn errand there part => exact absurd (Worker.section_spawns part).1 (unstarted witnessed resting errand).1

def tolls (s : Shift) : Nat := ∑ u ∈ Finset.range s.born, s.toll u

theorem tolls_le (born : s'.born = s.born) (fewer : ∀ v, s'.toll v ≤ s.toll v) : s'.tolls ≤ s.tolls := by
  rw [tolls, tolls, born]
  exact Finset.sum_le_sum fun v _ => fewer v

theorem eased_toll (witnessed : s.Witnessed) (resting : s.Resting t) (eased : Eased s u a s')
    (asked : ∀ w, s.force.shouldStop w = true → s'.force.shouldStop w = true) (v : ThreadId) : s'.toll v ≤ s.toll v := by
  by_cases mine : v = u
  · exact mine ▸ toll_mover_le witnessed resting eased asked
  · exact toll_others asked (eased_others witnessed resting eased mine)

theorem eased_tolls (witnessed : s.Witnessed) (resting : s.Resting t) (eased : Eased s u a s')
    (asked : ∀ w, s.force.shouldStop w = true → s'.force.shouldStop w = true) : s'.tolls ≤ s.tolls :=
  tolls_le (eased_born witnessed resting eased) (eased_toll witnessed resting eased asked)

theorem eased_tolls_lt (tended : s.Tended) (witnessed : s.Witnessed) (resting : s.Resting t) (eased : Eased s u a s')
    (asked : ∀ w, s.force.shouldStop w = true → s'.force.shouldStop w = true) (told : s.isTold u = true)
    (own : ∀ w, a ≠ .release w) : s'.tolls < s.tolls := by
  have there : u < s.born := by
    refine born_of_station tended fun absent => ?_
    rw [isTold, absent] at told
    cases told
  rw [tolls, tolls, eased_born witnessed resting eased]
  exact Finset.sum_lt_sum (fun v _ => eased_toll witnessed resting eased asked v)
    ⟨u, Finset.mem_range.mpr there, toll_mover witnessed resting eased asked told own⟩

/-! ### A call that terminates a worker -/

/-- How far the worker has come when the call that terminates it has. -/
structure Phased (s : Shift) (e : Errand) : Prop where
  awake : ∀ x, s.force.worker? e.worker = some x → e.call ≠ .cancelling → e.call ≠ .waking → x.sleepers = []
  still : ∀ x, s.force.worker? e.worker = some x → e.call = .collecting ∨ e.call = .joining → x.lifecycle ≠ .running
  exited : ∀ x, s.force.worker? e.worker = some x → e.call = .joining → x.lifecycle = .exited

theorem phased_first (first : e.call = .cancelling) : s.Phased e := by
  constructor <;> simp [first]

/-- A move that is none of the call's own. -/
theorem phased_later (tended : s.Tended) (witnessed : s.Witnessed) (resting : s.Resting t)
    (errand : (s.threads t).errand = some e) (phased : s.Phased e) (turn : Turn s u s') (eased : Eased s u a s') :
    s'.Phased e := by
  obtain ⟨x, there⟩ := Option.isSome_iff_exists.mp (tended.staffed t e errand)
  have asked : e.call ≠ .cancelling → s.force.tokens.isCancelled x.stop = true := by
    intro past
    rw [← shouldStop_of_worker there]
    exact (witnessed.errands t e errand).asked (resting.mine e errand) past
  constructor
  · intro x' there' past woken
    have fewer := (turn_modest turn there there').sleepers (asked past)
    rw [phased.awake x there past woken] at fewer
    exact List.subset_nil.mp fewer
  · intro x' there' passed
    have still := phased.still x there passed
    rw [eased_lifecycle tended witnessed resting eased there still there']
    exact still
  · intro x' there' joins
    have exited := phased.exited x there joins
    have still : x.lifecycle ≠ .running := by
      rw [exited]
      exact nofun
    rw [eased_lifecycle tended witnessed resting eased there still there', exited]

/-- Where the call of thread `t` comes to by one of its own sections. -/
theorem advanced_phased (tended : s.Tended) (witnessed : s.Witnessed) (grounded : s.Grounded) (resting : s.Resting t)
    (errand : (s.threads t).errand = some e) (phased : s.Phased e) (advanced : Advanced s t s') :
    (∃ c, (s'.threads t).errand = some { e with call := c } ∧ s'.Phased { e with call := c }) ∨
      (s'.threads t).errand = none ∧ e.call ≠ .cancelling ∧
        ∀ x', s'.force.worker? e.worker = some x' → x'.lifecycle ≠ .running := by
  have covers : Order.Covers .terminate e.call := by
    have covers := (witnessed.errands t e errand).covers
    rw [resting.mine e errand] at covers
    exact covers
  cases advanced with
  | spawn errand' _ part => exact absurd (Worker.section_spawns part).1 (unstarted witnessed resting errand').1
  | @goOn e' x c ts x' refusal errand' there part =>
    obtain rfl := Option.some.inj (errand.symm.trans errand')
    refine Or.inl ⟨c, congrArg Hand.errand after_self, ?_⟩
    have record : ∀ y, (s.stored e ts x').worker? e.worker = some y → y = x' := by
      intro y found
      rw [worker?_stored (Option.isSome_iff_exists.mpr ⟨x, there⟩), if_pos rfl] at found
      exact (Option.some.inj found).symm
    have awake := phased.awake x there
    have still := phased.still x there
    generalize at_ : e.call = call at part covers awake still
    cases part with
    | cancel => exact ⟨fun _ _ _ woken => absurd rfl woken, by simp, by simp⟩
    | wake =>
      refine ⟨fun y found _ _ => ?_, by simp, by simp⟩
      rw [record y found]
      rfl
    | other =>
      refine ⟨fun y found _ _ => ?_, by simp, by simp⟩
      rw [record y found]
      exact awake nofun nofun
    | pass unheld rests =>
      refine ⟨fun y found _ _ => ?_, fun y found _ => ?_, by simp⟩
      · rw [record y found]
        exact awake nofun nofun
      · rw [record y found]
        exact rests
    | collect kept =>
      have rests := still (Or.inl rfl)
      refine ⟨fun y found _ _ => ?_, fun y found _ => ?_, fun y found _ => ?_⟩
      · rw [record y found]
        exact awake nofun nofun
      · rw [record y found]
        exact rests
      · rw [record y found]
        have begun := grounded.handle _ x there kept
        show x.lifecycle = .exited
        cases lifecycle : x.lifecycle with
        | idle => exact absurd lifecycle begun
        | running => exact absurd lifecycle rests
        | exited => rfl
    | doze resting' => rcases resting' with rfl | rfl <;> cases covers
    | publish | announce => cases covers
  | @comeBack e' x r ts x' refusal errand' there part =>
    obtain rfl := Option.some.inj (errand.symm.trans errand')
    have still := phased.still x there
    have foreign := foreign_of_outside tended grounded there resting.outside
    have record : ∀ y, (s.stored e ts x').worker? e.worker = some y → y = x' := by
      intro y found
      rw [worker?_stored (Option.isSome_iff_exists.mpr ⟨x, there⟩), if_pos rfl] at found
      exact (Option.some.inj found).symm
    refine Or.inr ⟨congrArg Hand.errand after_self, ?_⟩
    generalize at_ : e.call = call at part covers still
    cases part with
    | own mine => exact absurd mine foreign
    | miss =>
      refine ⟨nofun, fun y found => ?_⟩
      rw [record y found]
      exact still (Or.inl rfl)
    | join =>
      refine ⟨nofun, fun y found => ?_⟩
      rw [record y found]
      exact still (Or.inr rfl)
    | rise resting' => rcases resting' with rfl | rfl <;> cases covers
    | refuse | decline | keep => cases covers

/-- Only one section of a call asks for a stop. -/
theorem tokens_of_section {me : ThreadId} {grant : Except String ThreadId} {ts ts' : StopTokens} {c : Worker.Call}
    {move : Worker.Move} (part : Worker.Section me grant ts x c move ts' x') :
    ts' = if c = .cancelling then ts.cancel x.stop else ts := by
  cases part with
  | cancel => rfl
  | doze resting | rise resting => rcases resting with rfl | rfl <;> rfl
  | launch | refuse | decline | publish | announce | keep | wake | own | other | pass | collect | miss | join => rfl

theorem advanced_tokens (witnessed : s.Witnessed) (resting : s.Resting t) (errand : (s.threads t).errand = some e)
    (there : s.force.worker? e.worker = some x) (advanced : Advanced s t s') :
    s'.force.tokens = if e.call = .cancelling then s.force.tokens.cancel x.stop else s.force.tokens := by
  cases advanced with
  | spawn errand' _ part => exact absurd (Worker.section_spawns part).1 (unstarted witnessed resting errand').1
  | goOn errand' there' part | comeBack errand' there' part =>
    obtain rfl := Option.some.inj (errand.symm.trans errand')
    obtain rfl := Option.some.inj (there.symm.trans there')
    rw [after_force, tokens_stored]
    exact tokens_of_section part

def left : Option Errand → Nat
  | some e =>
    match e.call with
    | .cancelling => 6
    | .waking => 5
    | .recognizing => 4
    | .awaiting => 3
    | .collecting => 2
    | .joining => 1
    | _ => 0
  | none => 0

theorem advanced_left (witnessed : s.Witnessed) (resting : s.Resting t) (errand : (s.threads t).errand = some e)
    (advanced : Advanced s t s') : left (s'.threads t).errand < left (s.threads t).errand := by
  have covers : Order.Covers .terminate e.call := by
    have covers := (witnessed.errands t e errand).covers
    rw [resting.mine e errand] at covers
    exact covers
  rw [errand]
  cases advanced with
  | spawn errand' _ part => exact absurd (Worker.section_spawns part).1 (unstarted witnessed resting errand').1
  | goOn errand' there part =>
    obtain rfl := Option.some.inj (errand.symm.trans errand')
    rw [after_self]
    simp only [left]
    generalize e.call = call at part covers
    cases part with
    | cancel | wake | other | pass | collect => decide
    | doze resting' => rcases resting' with rfl | rfl <;> cases covers
    | publish | announce => cases covers
  | comeBack errand' there part =>
    rw [after_self]
    simp only [left]
    cases call : e.call with
    | cancelling | waking | recognizing | awaiting | collecting | joining => decide
    | starting | publishing | announcing | keeping | settling | sleeping =>
      rw [call] at covers
      cases covers

/-! ### Somebody can move -/

/-- A worker that runs has a thread. -/
theorem Course.on_of_running {x : Core} {on : ThreadId → Worker.Run → Prop} {launched begun : List ThreadId}
    {ended : List Bool} (course : Course x on launched begun ended) (runs : x.lifecycle = .running) : ∃ u r, on u r := by
  cases course with
  | idle idle => cases idle.symm.trans runs
  | beginning _ _ _ _ sole | taking _ _ _ _ sole | body _ _ _ _ sole | exiting _ _ _ _ sole =>
    exact ⟨_, _, (sole _ _).mpr ⟨rfl, rfl⟩⟩
  | closing exited | finished exited => cases exited.symm.trans runs

/-- A worker that has exited has its thread for another moment. -/
theorem Course.on_of_exited {x : Core} {on : ThreadId → Worker.Run → Prop} {launched begun : List ThreadId}
    {ended : List Bool} (course : Course x on launched begun ended) (exited : x.lifecycle = .exited)
    (early : x.finished = false) : ∃ u, on u .closing := by
  have still : ¬ x.Active := by
    rintro (⟨idle, _⟩ | ⟨runs, _⟩)
    · cases exited.symm.trans idle
    · cases exited.symm.trans runs
  cases course with
  | idle idle => cases exited.symm.trans idle
  | beginning active | taking active | body active | exiting active => exact absurd active still
  | closing _ _ _ _ _ sole => exact ⟨_, (sole _ _).mpr ⟨rfl, rfl⟩⟩
  | finished _ _ _ _ finished => cases early.symm.trans finished

theorem advance_isSome (errand : (s.threads t).errand = some e) (there : s.force.worker? e.worker = some x) (now : Nat)
    (refusal : Option String)
    (moves : (e.call.advance t now (s.grant refusal) s.force.tokens x).1 ≠ .blocks) :
    (s.act t (.advance now refusal)).isSome = true := by
  rw [act_advance errand there]
  cases move : (e.call.advance t now (s.grant refusal) s.force.tokens x).1 with
  | blocks => exact absurd move moves
  | goes | spawns | ends => rfl

/-- A worker's own thread can move when it is told to stop, and nobody is starting the worker or is asleep in its waits. -/
theorem own_progress (witnessed : s.Witnessed) (resting : s.Resting t)
    (there : s.force.worker? w = some x) (unheld : x.starter = none) (awake : x.sleepers = [])
    (asked : s.force.shouldStop w = true) {r : Worker.Run} (stands : s.posts w u r) :
    ∃ a, s.isMild u a = true ∧ (∀ v, a ≠ .release v) ∧ (s.act u a).isSome = true := by
  have apart : u ≠ t := by
    rintro rfl
    have outside := resting.outside
    rw [show (s.threads u).station = _ from stands] at outside
    cases outside
  cases errand : (s.threads u).errand with
  | none =>
    have hand : s.threads u = ⟨.on w r, none⟩ := by
      cases found : s.threads u with
      | mk station errand' =>
        rw [posts, found] at stands
        rw [found] at errand
        cases stands
        cases errand
        rfl
    cases r with
    | body => exact ⟨.finish false, rfl, by simp, by simp [act, hand]⟩
    | beginning | taking | exiting | closing =>
      refine ⟨.proceed, rfl, by simp, ?_⟩
      simp [act, hand, Workforce.proceed, there, Worker.Run.advance, unheld]
  | some e =>
    obtain ⟨_, own⟩ := resting.others u e apart errand
    obtain rfl := own w r stands
    refine ⟨.advance 0 none, rfl, by simp, advance_isSome errand there 0 none ?_⟩
    rw [shouldStop_of_worker there] at asked
    rcases covers_resting witnessed resting errand with ⟨mine, _⟩ | ⟨_, until?, rests⟩
    · exact absurd mine apart
    · rcases rests with call | call <;>
        simp [call, Worker.Call.advance, Worker.look, Worker.mayWake, asked, awake]

/-- Thread `t`, or a worker's thread that is told to stop, can make a mild move that lets nobody go. -/
def CanMove (s : Shift) (t : ThreadId) : Prop :=
  ∃ u a, (u = t ∨ s.isTold u = true) ∧ s.isMild u a = true ∧ (∀ v, a ≠ .release v) ∧ (s.act u a).isSome = true

theorem terminate_progress (tended : s.Tended) (witnessed : s.Witnessed) (resting : s.Resting t)
    (errand : (s.threads t).errand = some e) (phased : s.Phased e) : s.CanMove t := by
  obtain ⟨x, there⟩ := Option.isSome_iff_exists.mp (tended.staffed t e errand)
  have sound := witnessed.errands t e errand
  have covers := sound.covers
  rw [resting.mine e errand] at covers
  have unheld := unheld_resting tended witnessed resting there
  have course := (tended.sound _ x there).course
  have asked := sound.asked (resting.mine e errand)
  have awake := phased.awake x there
  have own : (e.call.advance t 0 (s.grant none) s.force.tokens x).1 ≠ .blocks → s.CanMove t :=
    fun moves => ⟨t, .advance 0 none, Or.inl rfl, rfl, by simp, advance_isSome errand there 0 none moves⟩
  have other : ∀ {u : ThreadId} {r : Worker.Run}, e.call ≠ .cancelling → e.call ≠ .waking → s.posts e.worker u r →
      s.CanMove t := by
    intro u r past woken stands
    obtain ⟨a, mild, kept, moves⟩ := own_progress witnessed resting there unheld (awake past woken) (asked past) stands
    refine ⟨u, a, Or.inr ?_, mild, kept, moves⟩
    rw [isTold, show (s.threads u).station = _ from stands]
    exact asked past
  cases call : e.call with
  | cancelling | waking =>
    refine own ?_
    simp [call, Worker.Call.advance]
  | recognizing | collecting =>
    refine own ?_
    simp only [call, Worker.Call.advance]
    split <;> simp
  | awaiting =>
    by_cases runs : x.lifecycle = .running
    · obtain ⟨u, r, stands⟩ := course.on_of_running runs
      exact other (by simp [call]) (by simp [call]) stands
    · refine own ?_
      simp [call, Worker.Call.advance, Worker.isBusy, Worker.isRunning, unheld, runs]
  | joining =>
    have exited := phased.exited x there call
    cases finished : x.finished with
    | true =>
      refine own ?_
      simp [call, Worker.Call.advance, finished]
    | false =>
      obtain ⟨u, stands⟩ := course.on_of_exited exited finished
      exact other (by simp [call]) (by simp [call]) stands
  | starting | publishing | announcing | keeping | settling | sleeping =>
    rw [call] at covers
    cases covers

end Switchboard.Shift
