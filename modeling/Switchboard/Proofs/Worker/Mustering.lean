import Mathlib.Data.List.Induction
import Mathlib.Logic.Function.Basic
import Switchboard.Proofs.Worker.Enrolment

/-!
A roster through every history of calls, one after the other: workers are announced, started and taken out, their bodies
come to an end and their handles are let go. What the roster answers is told from the history alone. Main statement:
`rosters_kept`.
-/

namespace Switchboard

/-! ### A call with nobody in between -/

namespace Workforce

variable {f : Workforce} {w v : WorkerId} {r : RosterId} {x y : Worker} {me thread : ThreadId}
  {grant : Except String ThreadId} {there : RosterId → Bool} {n : Nat} {c : Worker.Call}

/-- Thread `me`'s call on a worker, in at most so many sections: what it comes to, the thread that it sets going, if it
does, and the workforce after it. -/
def call (f : Workforce) (me : ThreadId) (grant : Except String ThreadId) (there : RosterId → Bool) (w : WorkerId) :
    Nat → Worker.Call → Option (Worker.Result × Option ThreadId × Workforce)
  | 0, _ => none
  | n + 1, c =>
    match f.advance me 0 grant there w c with
    | (.goes c, f) => f.call me grant there w n c
    | (.spawns thread c, f) => (f.call me grant there w n c).map fun (result, _, f) => (result, some thread, f)
    | (.ends result, f) => some (result, none, f)
    | (.blocks, _) => none

theorem update_update (f : Workforce) (w : WorkerId) (x y : Worker) :
    ((f.update w fun _ => x).update w fun _ => y) = f.update w fun _ => y := by
  simp only [update, List.modify_modify_eq]
  rfl

theorem worker?_self (found : f.worker? w = some x) : (f.update w fun _ => y).worker? w = some y := by
  rw [worker?_put (Option.isSome_iff_exists.mpr ⟨x, found⟩), if_pos rfl]

/-- Two sections of the thread of a worker, one after the other. -/
def stretch (f : Workforce) (thread : ThreadId) (w : WorkerId) (s : Worker.Run) : Worker.Run.Move × Workforce :=
  match f.proceed thread w s with
  | (.goes s, f) => f.proceed thread w s
  | stopped => stopped

/-- The worker runs on a thread, and the call that has started it knows which. -/
def running (x : Worker) (thread : ThreadId) : Worker :=
  { x with lifecycle := .running, starter := none, handle := some thread }

def started (f : Workforce) (w : WorkerId) (x : Worker) (thread : ThreadId) (there : RosterId → Bool) : Workforce :=
  ((f.update w fun _ => { x with lifecycle := .running, starter := none }).announceAtHome w thread there).update w
    fun _ => running x thread

theorem advance_silent {move : Worker.Move} (found : f.worker? w = some x)
    (moved : c.advance me 0 grant f.tokens x = (move, f.tokens, y)) (silent : ∀ thread, c ≠ .announcing thread) :
    f.advance me 0 grant there w c = (move, f.update w fun _ => y) := by
  cases c with
  | announcing thread => exact absurd rfl (silent thread)
  | _ => simp only [advance, found, moved]

theorem advance_announcing (me : ThreadId) (grant : Except String ThreadId) (thread : ThreadId)
    (there : RosterId → Bool) (found : f.worker? w = some x) :
    f.advance me 0 grant there w (.announcing thread) = (.goes (.keeping thread), f.announceAtHome w thread there) := by
  simp only [advance, found, Worker.Call.advance, update_same found]

/-- Starting an idle worker takes four sections. -/
theorem call_launch (found : f.worker? w = some x) (unheld : x.starter = none) (idle : x.lifecycle = .idle) :
    f.call me (.ok thread) there w 4 .starting = some (.done, some thread, f.started w x thread there) := by
  let y : Worker := { x with lifecycle := .running, starter := none }
  have launched : f.advance me 0 (.ok thread) there w .starting =
      (.spawns thread (.publishing thread), f.update w fun _ => { x with starter := some me }) :=
    advance_silent found (by simp [Worker.Call.advance, Worker.launch, unheld, idle]) (by simp)
  have published : (f.update w fun _ => { x with starter := some me }).advance me 0 (.ok thread) there w
      (.publishing thread) = (.goes (.announcing thread), f.update w fun _ => y) := by
    rw [advance_silent (y := y) (worker?_self found) rfl (by simp), update_update]
  have announced := advance_announcing me (.ok thread) thread there (worker?_self (y := y) found)
  have kept : ((f.update w fun _ => y).announceAtHome w thread there).advance me 0 (.ok thread) there w
      (.keeping thread) = (.ends .done, f.started w x thread there) :=
    advance_silent (by rw [worker?_announceAtHome, worker?_self found]) rfl (by simp)
  simp only [call, launched, published, announced, kept, Option.map_some]

theorem call_decline (found : f.worker? w = some x) (unheld : x.starter = none) (begun : x.lifecycle ≠ .idle) :
    f.call me grant there w 4 .starting = some (.done, none, f) := by
  have moved : Worker.Call.starting.advance me 0 grant f.tokens x = (.ends .done, f.tokens, x) := by
    simp [Worker.Call.advance, Worker.launch, unheld, begun]
  simp only [call, advance_silent found moved (by simp), update_same found]

theorem call_refuse {reason : String} (found : f.worker? w = some x) (unheld : x.starter = none)
    (idle : x.lifecycle = .idle) :
    f.call me (.error reason) there w 4 .starting = some (.refused reason, none, f) := by
  have moved : Worker.Call.starting.advance me 0 (.error reason) f.tokens x =
      (.ends (.refused reason), f.tokens, x) := by
    simp [Worker.Call.advance, Worker.launch, unheld, idle]
  simp only [call, advance_silent found moved (by simp), update_same found]

/-! ### A worker that has been started -/

theorem worker?_started (found : f.worker? w = some x) (v : WorkerId) :
    (f.started w x thread there).worker? v = if w = v then some (running x thread) else f.worker? v := by
  rw [started, worker?_put (by simp [worker?_self found]), worker?_announceAtHome]
  split
  · rfl
  · rename_i other
    rw [worker?_put (Option.isSome_iff_exists.mpr ⟨x, found⟩), if_neg other]

theorem isAlive_started (v : WorkerId) : (f.started w x thread there).isAlive v = f.isAlive v := by
  rw [started, isAlive_update, isAlive_of_members (members_announceAtHome ..), isAlive_update]

theorem entries_started (found : f.worker? w = some x) (r : RosterId) :
    (f.started w x thread there).entries r =
      if f.home? w = some r ∧ there r ∧ r < f.rosters.length ∧ w ∉ f.listed r then
        f.entries r ++ [⟨w, x.name, thread⟩]
      else f.entries r := by
  rw [started, entries_update, entries_announceAtHome (worker?_self found), home?_update]
  rfl

theorem stretch_invoke (found : f.worker? w = some x) (body : x.hasBody = true) :
    f.stretch thread w .beginning =
      (.goes .body, f.update w fun _ => { x with thread := some thread, hasBody := false }) := by
  simp only [stretch, proceed, found, Worker.Run.advance, Worker.begin, worker?_self found, Worker.takeBody, body,
    if_true, update_update]

theorem stretch_idle (thread : ThreadId) (found : f.worker? w = some x) (gone : x.hasBody = false) :
    (f.stretch thread w .beginning).1 = .goes .exiting := by
  simp [stretch, proceed, found, Worker.Run.advance, Worker.begin, worker?_self found, Worker.takeBody, gone]

theorem stretch_finish (thread : ThreadId) (found : f.worker? w = some x) (unheld : x.starter = none) :
    f.stretch thread w .exiting =
      (.ends, f.update w fun _ => { x with lifecycle := .exited, finished := true }) := by
  simp only [stretch, proceed, found, Worker.Run.advance, unheld, Option.isSome_none, Bool.false_eq_true, if_false,
    worker?_self found, Worker.close, Worker.exit, update_update]

end Workforce

/-! ### Deeds -/

namespace Muster

/-- What is done in one go, with nobody in between. -/
inductive Deed where
  | addRoster
  /-- Nobody holds a roster any more. -/
  | lose (r : RosterId)
  | hire (name : String) (o : WorkerOptions)
  | clone (w : WorkerId)
  | drop (w : WorkerId)
  | register (r : RosterId) (w : WorkerId) (thread : ThreadId)
  /-- A call of thread `me`; asked for a thread, the system grants one or refuses. -/
  | start (w : WorkerId) (me : ThreadId) (grant : Except String ThreadId)
  /-- The thread of a worker begins and takes the body. -/
  | invoke (w : WorkerId)
  /-- The body returns or panics, and its thread comes to the end. -/
  | finish (w : WorkerId)
  | unregister (r : RosterId) (w : WorkerId)
  | prune (r : RosterId)

inductive Reply where
  | done
  | told (b : Bool)
  | counted (n : Nat)
  | came (r : Worker.Result)

abbrev Record := Deed × Reply

end Muster

/-- A workforce, and who holds its workers and rosters. -/
structure Muster where
  force : Workforce := {}
  /-- How many handles of a worker its users hold. -/
  users : WorkerId → Nat := fun _ => 0
  /-- The thread that has been set going for a worker; it holds one more handle. -/
  posts : WorkerId → Option (ThreadId × Worker.Run) := fun _ => none
  lost : List RosterId := []

namespace Muster

def homeIsThere (m : Muster) (r : RosterId) : Bool := !m.lost.contains r

def Holds (m : Muster) (r : RosterId) : Prop := r < m.force.rosters.length ∧ m.homeIsThere r = true

instance (m : Muster) (r : RosterId) : Decidable (m.Holds r) := inferInstanceAs (Decidable (_ ∧ _))

def isHeld (m : Muster) (w : WorkerId) : Bool := 0 < m.users w || (m.posts w).isSome

/-- The users of a worker hold so many handles of it. -/
def hand (m : Muster) (w : WorkerId) (n : Nat) : Muster := { m with users := Function.update m.users w n }

def post (m : Muster) (w : WorkerId) (station : Option (ThreadId × Worker.Run)) : Muster :=
  { m with posts := Function.update m.posts w station }

/-- A handle of the worker has been dropped. If it was the last one, the worker is released. -/
def settle (m : Muster) (w : WorkerId) : Muster :=
  if m.isHeld w then m else { m with force := m.force.release w m.homeIsThere }

def perform (m : Muster) : Deed → Option (Reply × Muster)
  | .addRoster => some (.done, { m with force := m.force.addRoster.2 })
  | .lose r => if m.Holds r then some (.done, { m with lost := r :: m.lost }) else none
  | .hire name o =>
    if ∀ r ∈ o.home, m.Holds r then
      let (w, force) := m.force.hire name o
      some (.done, { m with force }.hand w 1)
    else none
  | .clone w => if m.isHeld w then some (.done, m.hand w (m.users w + 1)) else none
  | .drop w => if 0 < m.users w then some (.done, (m.hand w (m.users w - 1)).settle w) else none
  | .register r w thread =>
    if m.Holds r ∧ m.isHeld w then
      let (new, force) := m.force.announce r w thread
      some (.told new, { m with force })
    else none
  | .start w me grant =>
    if m.isHeld w then
      (m.force.call me grant m.homeIsThere w 4 .starting).map fun (result, thread?, force) =>
        match thread? with
        | some thread => (.came result, { m with force }.post w (some (thread, .beginning)))
        | none => (.came result, { m with force })
    else none
  | .invoke w =>
    match m.posts w with
    | some (thread, .beginning) =>
      match m.force.stretch thread w .beginning with
      | (.goes .body, force) => some (.done, { m with force }.post w (some (thread, .body)))
      | _ => none
    | _ => none
  | .finish w =>
    match m.posts w with
    | some (thread, .body) =>
      match m.force.stretch thread w .exiting with
      | (.ends, force) => some (.done, ({ m with force }.post w none).settle w)
      | _ => none
    | _ => none
  | .unregister r w =>
    if m.Holds r then
      let (present, roster) := (m.force.roster r).unregister w
      some (.told present, { m with force := m.force.setRoster r roster })
    else none
  | .prune r =>
    if m.Holds r then
      let (n, roster) := (m.force.roster r).prune m.force.isRunning
      some (.counted n, { m with force := m.force.setRoster r roster })
    else none

/-- Performs deeds one after the other and notes what each comes to. -/
def run (m : Muster) : List Deed → Option (List Record × Muster)
  | [] => some ([], m)
  | d :: rest =>
    match m.perform d with
    | some (reply, m) => (m.run rest).map fun (records, m) => ((d, reply) :: records, m)
    | none => none

/-! ### What a deed can do -/

/-- The worker is there for those that have a handle of it, and nobody holds its lifecycle. -/
structure Steady (m : Muster) : Prop where
  alive : ∀ w, m.force.isAlive w = m.isHeld w
  unheld : ∀ w x, m.force.worker? w = some x → x.starter = none

inductive Done (m : Muster) : Deed → Reply → Muster → Prop
  | addRoster : Done m .addRoster .done { m with force := m.force.addRoster.2 }
  | lose {r} (held : m.Holds r) : Done m (.lose r) .done { m with lost := r :: m.lost }
  | hire {name o} (held : ∀ r ∈ o.home, m.Holds r) :
    Done m (.hire name o) .done ({ m with force := (m.force.hire name o).2 }.hand m.force.members.length 1)
  | clone {w} (held : m.isHeld w = true) : Done m (.clone w) .done (m.hand w (m.users w + 1))
  | drop {w} (held : 0 < m.users w) : Done m (.drop w) .done ((m.hand w (m.users w - 1)).settle w)
  | repeated {r w thread} (there : m.Holds r) (held : m.isHeld w = true) (listed : w ∈ m.force.listed r) :
    Done m (.register r w thread) (.told false) m
  | register {r w thread x} (there : m.Holds r) (found : m.force.worker? w = some x) (new : w ∉ m.force.listed r) :
    Done m (.register r w thread) (.told true)
      { m with force := m.force.setRoster r ⟨m.force.entries r ++ [⟨w, x.name, thread⟩]⟩ }
  | launch {w me thread x} (held : m.isHeld w = true) (found : m.force.worker? w = some x)
    (idle : x.lifecycle = .idle) : Done m (.start w me (.ok thread)) (.came .done)
      ({ m with force := m.force.started w x thread m.homeIsThere }.post w (some (thread, .beginning)))
  | decline {w me grant x} (held : m.isHeld w = true) (found : m.force.worker? w = some x)
    (begun : x.lifecycle ≠ .idle) : Done m (.start w me grant) (.came .done) m
  | refuse {w me reason x} (held : m.isHeld w = true) (found : m.force.worker? w = some x)
    (idle : x.lifecycle = .idle) : Done m (.start w me (.error reason)) (.came (.refused reason)) m
  | invoke {w thread x} (station : m.posts w = some (thread, .beginning)) (found : m.force.worker? w = some x) :
    Done m (.invoke w) .done
      ({ m with force := m.force.update w fun _ => { x with thread := some thread, hasBody := false } }.post w
        (some (thread, .body)))
  | finish {w thread x} (station : m.posts w = some (thread, .body)) (found : m.force.worker? w = some x) :
    Done m (.finish w) .done
      (({ m with force := m.force.update w fun _ => { x with lifecycle := .exited, finished := true } }.post w
        none).settle w)
  | unregister {r w} (there : m.Holds r) :
    Done m (.unregister r w) (.told (decide (w ∈ m.force.listed r))) { m with force := m.force.withdraw r w }
  | prune {r} (there : m.Holds r) : Done m (.prune r) (.counted ((m.force.roster r).prune m.force.isRunning).1)
      { m with force := m.force.setRoster r ((m.force.roster r).prune m.force.isRunning).2 }

variable {m m' : Muster} {w v : WorkerId} {r q : RosterId} {x : Worker} {d : Deed} {reply : Reply}

theorem Steady.found (steady : m.Steady) (held : m.isHeld w = true) : ∃ x, m.force.worker? w = some x :=
  Workforce.worker_of_alive (by rw [steady.alive, held])

theorem held_of_station {station : ThreadId × Worker.Run} (stands : m.posts w = some station) : m.isHeld w = true := by
  simp [isHeld, stands]

theorem perform_start (me : ThreadId) (grant : Except String ThreadId) (steady : m.Steady) (held : m.isHeld w = true) :
    ∃ result m', m.perform (.start w me grant) = some (.came result, m') ∧
      Done m (.start w me grant) (.came result) m' := by
  obtain ⟨x, found⟩ := steady.found held
  have unheld := steady.unheld w x found
  by_cases idle : x.lifecycle = .idle
  · cases grant with
    | ok thread =>
      refine ⟨_, _, ?_, .launch held found idle⟩
      simp only [perform, held, if_true, Workforce.call_launch found unheld idle, Option.map_some]
    | error reason =>
      refine ⟨_, _, ?_, .refuse held found idle⟩
      simp only [perform, held, if_true, Workforce.call_refuse found unheld idle, Option.map_some]
  · refine ⟨_, _, ?_, .decline held found idle⟩
    simp only [perform, held, if_true, Workforce.call_decline found unheld idle, Option.map_some]

theorem perform_register (thread : ThreadId) (steady : m.Steady) (there : m.Holds r) (held : m.isHeld w = true) :
    ∃ b m', m.perform (.register r w thread) = some (.told b, m') ∧ Done m (.register r w thread) (.told b) m' := by
  obtain ⟨x, found⟩ := steady.found held
  by_cases listed : w ∈ m.force.listed r
  · refine ⟨_, _, ?_, .repeated there held listed⟩
    simp only [perform, there, held, and_self, if_true, Workforce.announce_listed listed]
  · refine ⟨_, _, ?_, .register there found listed⟩
    simp only [perform, there, held, and_self, if_true, Workforce.announce_new found listed]

theorem done_of_perform (steady : m.Steady) (performed : m.perform d = some (reply, m')) : Done m d reply m' := by
  cases d with
  | addRoster =>
    cases performed
    exact .addRoster
  | lose r =>
    simp only [perform, Option.ite_none_right_eq_some, Option.some.injEq, Prod.mk.injEq] at performed
    obtain ⟨held, rfl, rfl⟩ := performed
    exact .lose held
  | hire name o =>
    simp only [perform, Option.ite_none_right_eq_some, Option.some.injEq, Prod.mk.injEq] at performed
    obtain ⟨held, rfl, rfl⟩ := performed
    exact .hire held
  | clone w =>
    simp only [perform, Option.ite_none_right_eq_some, Option.some.injEq, Prod.mk.injEq] at performed
    obtain ⟨held, rfl, rfl⟩ := performed
    exact .clone held
  | drop w =>
    simp only [perform, Option.ite_none_right_eq_some, Option.some.injEq, Prod.mk.injEq] at performed
    obtain ⟨held, rfl, rfl⟩ := performed
    exact .drop held
  | register r w thread =>
    by_cases allowed : m.Holds r ∧ m.isHeld w = true
    · obtain ⟨b, m₁, same, done⟩ := perform_register thread steady allowed.1 allowed.2
      rw [same] at performed
      cases performed
      exact done
    · rw [perform, if_neg allowed] at performed
      cases performed
  | start w me grant =>
    by_cases held : m.isHeld w = true
    · obtain ⟨result, m₁, same, done⟩ := perform_start me grant steady held
      rw [same] at performed
      cases performed
      exact done
    · rw [perform, if_neg held] at performed
      cases performed
  | invoke w =>
    simp only [perform] at performed
    split at performed
    · rename_i thread station
      obtain ⟨x, found⟩ := steady.found (held_of_station station)
      cases body : x.hasBody with
      | true =>
        simp only [Workforce.stretch_invoke found body, Option.some.injEq, Prod.mk.injEq] at performed
        obtain ⟨rfl, rfl⟩ := performed
        exact .invoke station found
      | false =>
        have skips := Workforce.stretch_idle thread found body
        split at performed
        · rename_i begins
          rw [begins] at skips
          cases skips
        · cases performed
    · cases performed
  | finish w =>
    simp only [perform] at performed
    split at performed
    · rename_i thread station
      obtain ⟨x, found⟩ := steady.found (held_of_station station)
      have finishes := Workforce.stretch_finish thread found (steady.unheld w x found)
      simp only [finishes, Option.some.injEq, Prod.mk.injEq] at performed
      obtain ⟨rfl, rfl⟩ := performed
      exact .finish station found
    · cases performed
  | unregister r w =>
    simp only [perform, Option.ite_none_right_eq_some, Option.some.injEq, Prod.mk.injEq] at performed
    obtain ⟨held, rfl, rfl⟩ := performed
    rw [Roster.unregister, Workforce.any_listed]
    exact .unregister held
  | prune r =>
    simp only [perform, Option.ite_none_right_eq_some, Option.some.injEq, Prod.mk.injEq] at performed
    obtain ⟨held, rfl, rfl⟩ := performed
    exact .prune held

/-! ### What the history tells -/

/-- A call that starts the worker has come back without a refusal. -/
def begins (w : WorkerId) : Record → Bool
  | (.start v _ _, .came .done) => v == w
  | _ => false

def ends (w : WorkerId) : Record → Bool
  | (.finish v, _) => v == w
  | _ => false

def begun (past : List Record) (w : WorkerId) : Bool := past.any (begins w)

def closed (past : List Record) (w : WorkerId) : Bool := past.any (ends w)

def onDuty (past : List Record) (w : WorkerId) : Bool := begun past w && !closed past w

def stage (past : List Record) (w : WorkerId) : Lifecycle :=
  if begun past w then if closed past w then .exited else .running else .idle

variable {past : List Record} {e : Record}

theorem begun_snoc (past : List Record) (e : Record) (w : WorkerId) :
    begun (past ++ [e]) w = (begun past w || begins w e) := by
  simp [begun, List.any_append]

theorem closed_snoc (past : List Record) (e : Record) (w : WorkerId) :
    closed (past ++ [e]) w = (closed past w || ends w e) := by
  simp [closed, List.any_append]

/-- What is held of a worker and how far it has come. -/
def course? (m : Muster) (w : WorkerId) : Option (Option ThreadId × Lifecycle) :=
  (m.force.worker? w).map fun x => (x.starter, x.lifecycle)

/-- How far a worker has come is told from the history. -/
structure Tallies (past : List Record) (m : Muster) (w : WorkerId) : Prop where
  alive : m.force.isAlive w = m.isHeld w
  course : ∀ c, m.course? w = some c → c = (none, stage past w)
  fresh : m.course? w = none → begun past w = false
  posted : (m.posts w).isSome = onDuty past w
  ordered : closed past w = true → begun past w = true

def Tally (past : List Record) (m : Muster) : Prop := ∀ w, Tallies past m w

theorem tally_fresh : Tally [] {} := fun _ => ⟨rfl, nofun, fun _ => rfl, rfl, nofun⟩

theorem Tallies.worker (tallies : Tallies past m w) (found : m.force.worker? w = some x) :
    x.starter = none ∧ x.lifecycle = stage past w := by
  have course := tallies.course (x.starter, x.lifecycle) (by rw [course?, found, Option.map_some])
  rwa [Prod.mk.injEq] at course

theorem Tally.steady (tally : Tally past m) : m.Steady :=
  ⟨fun w => (tally w).alive, fun w _ found => ((tally w).worker found).1⟩

theorem Tallies.not_closed (tallies : Tallies past m w) (idle : begun past w = false) : closed past w = false :=
  Bool.eq_false_iff.mpr fun ended => Bool.eq_false_iff.mp idle (tallies.ordered ended)

theorem begun_iff (tallies : Tallies past m w) (found : m.force.worker? w = some x) :
    begun past w = true ↔ x.lifecycle ≠ .idle := by
  rw [(tallies.worker found).2, stage]
  cases begun past w <;> cases closed past w <;> simp

theorem Tallies.on_duty (tallies : Tallies past m w) {station : ThreadId × Worker.Run}
    (stands : m.posts w = some station) :
    begun past w = true ∧ closed past w = false := by
  have duty := tallies.posted
  rw [stands, Option.isSome_some, onDuty, eq_comm, Bool.and_eq_true, Bool.not_eq_true'] at duty
  exact duty

/-- Nothing has happened to the worker. -/
theorem Tallies.aside {past' : List Record} (tallies : Tallies past m w) (begun_same : begun past' w = begun past w)
    (closed_same : closed past' w = closed past w) (alive : m'.force.isAlive w = m.force.isAlive w)
    (held : m'.isHeld w = m.isHeld w) (course : m'.course? w = m.course? w)
    (posts : (m'.posts w).isSome = (m.posts w).isSome) : Tallies past' m' w where
  alive := by rw [alive, held, tallies.alive]
  course c found := by
    rw [stage, begun_same, closed_same]
    exact tallies.course c (course ▸ found)
  fresh none := begun_same ▸ tallies.fresh (course ▸ none)
  posted := by rw [onDuty, begun_same, closed_same, posts, tallies.posted, onDuty]
  ordered ended := begun_same ▸ tallies.ordered (closed_same ▸ ended)

theorem begun_quiet (quiet : begins w e = false) : begun (past ++ [e]) w = begun past w := by
  rw [begun_snoc, quiet, Bool.or_false]

theorem closed_quiet (quiet : ends w e = false) : closed (past ++ [e]) w = closed past w := by
  rw [closed_snoc, quiet, Bool.or_false]

theorem course?_of_members (members : m'.force.members = m.force.members) : m'.course? w = m.course? w := by
  rw [course?, course?, Workforce.worker?_of_members members]

/-! ### Handles that are dropped -/

section

variable (m) (w)

@[simp] theorem settle_posts : (m.settle w).posts = m.posts := by
  unfold settle
  split <;> rfl

@[simp] theorem settle_users : (m.settle w).users = m.users := by
  unfold settle
  split <;> rfl

@[simp] theorem settle_held (v : WorkerId) : (m.settle w).isHeld v = m.isHeld v := by
  rw [isHeld, isHeld, settle_posts, settle_users]

@[simp] theorem settle_course (v : WorkerId) : (m.settle w).course? v = m.course? v := by
  unfold settle
  split
  · rfl
  · rw [course?, Workforce.worker?_release, course?]

end

theorem settle_alive (w v : WorkerId) :
    (m.settle w).force.isAlive v = (m.force.isAlive v && (v != w || m.isHeld w)) := by
  unfold settle
  split
  · rename_i held
    rw [held, Bool.or_true, Bool.and_true]
  · rename_i dropped
    rw [Workforce.isAlive_release, Bool.eq_false_iff.mpr dropped, Bool.or_false]

/-! ### The history and the workers agree -/

theorem held_hand_other {n : Nat} (other : v ≠ w) : (m.hand w n).isHeld v = m.isHeld v := by
  simp [isHeld, hand, other]

theorem posts_post_other {station : Option (ThreadId × Worker.Run)} (other : v ≠ w) :
    (m.post w station).posts v = m.posts v := Function.update_of_ne other ..

theorem held_post_other {station : Option (ThreadId × Worker.Run)} (other : v ≠ w) :
    (m.post w station).isHeld v = m.isHeld v := by
  rw [isHeld, posts_post_other other]
  rfl

theorem tally_hire {name : String} {o : WorkerOptions} (tally : Tally past m) : Tally (past ++ [(.hire name o, .done)])
    ({ m with force := (m.force.hire name o).2 }.hand m.force.members.length 1) := by
  intro v
  by_cases new : v = m.force.members.length
  · subst new
    have none : m.course? m.force.members.length = none := by
      rw [course?, Workforce.worker?_eq_none.mpr (Nat.le_refl _), Option.map_none]
    have idle := (tally _).fresh none
    have idle' : begun (past ++ [(.hire name o, .done)]) m.force.members.length = false := (begun_quiet rfl).trans idle
    have closed' := (closed_quiet (e := (.hire name o, .done)) rfl).trans ((tally _).not_closed idle)
    refine ⟨?_, ?_, fun _ => idle', ?_, fun ended => ?_⟩
    · simp [Workforce.isAlive_hire, isHeld, hand]
    · intro c found
      simp only [course?, hand, Workforce.worker?_hire, if_true, Option.map_some, Option.some.injEq] at found
      rw [← found, stage, idle']
      rfl
    · refine (tally _).posted.trans ?_
      rw [onDuty, onDuty, idle, idle']
      rfl
    · rw [closed'] at ended
      cases ended
  · refine (tally v).aside (begun_quiet rfl) (closed_quiet rfl) ?_ (held_hand_other new) ?_ rfl
    · simp [hand, Workforce.isAlive_hire, new]
    · simp [course?, hand, Workforce.worker?_hire, new]

theorem tally_clone (tally : Tally past m) (held : m.isHeld w = true) :
    Tally (past ++ [(.clone w, .done)]) (m.hand w (m.users w + 1)) := by
  intro v
  refine (tally v).aside (begun_quiet rfl) (closed_quiet rfl) rfl ?_ rfl rfl
  by_cases same : v = w
  · subst same
    rw [held]
    simp [isHeld, hand]
  · exact held_hand_other same

theorem tally_drop (tally : Tally past m) (held : 0 < m.users w) :
    Tally (past ++ [(.drop w, .done)]) ((m.hand w (m.users w - 1)).settle w) := by
  intro v
  by_cases same : v = w
  · subst same
    have alive : m.force.isAlive v = true := by
      rw [(tally v).alive, isHeld, decide_eq_true held, Bool.true_or]
    refine ⟨?_, ?_, ?_, ?_, ?_⟩
    · rw [settle_alive, settle_held, bne_self_eq_false, Bool.false_or]
      exact alive ▸ Bool.true_and _
    · rw [settle_course, stage, begun_quiet rfl, closed_quiet rfl]
      exact (tally v).course
    · rw [settle_course, begun_quiet rfl]
      exact (tally v).fresh
    · rw [settle_posts, onDuty, begun_quiet rfl, closed_quiet rfl]
      exact (tally v).posted
    · rw [begun_quiet rfl, closed_quiet rfl]
      exact (tally v).ordered
  · refine (tally v).aside (begun_quiet rfl) (closed_quiet rfl) ?_ ?_ (settle_course ..) ?_
    · rw [settle_alive, bne_iff_ne.mpr same, Bool.true_or, Bool.and_true]
      rfl
    · rw [settle_held, held_hand_other same]
    · rw [settle_posts]
      rfl

theorem tally_launch {me thread : ThreadId} (tally : Tally past m) (held : m.isHeld w = true)
    (found : m.force.worker? w = some x) (idle : x.lifecycle = .idle) :
    Tally (past ++ [(.start w me (.ok thread), .came .done)])
      ({ m with force := m.force.started w x thread m.homeIsThere }.post w (some (thread, .beginning))) := by
  intro v
  by_cases same : v = w
  · subst same
    have idle' : begun past v = false := by
      rw [← Bool.not_eq_true, begun_iff (tally v) found]
      exact not_not_intro idle
    have closed' := (closed_quiet (e := (.start v me (.ok thread), .came .done)) rfl).trans ((tally v).not_closed idle')
    have begun' : begun (past ++ [(.start v me (.ok thread), .came .done)]) v = true := by
      simp [begun_snoc, begins]
    refine ⟨?_, ?_, ?_, ?_, fun _ => begun'⟩
    · refine (Workforce.isAlive_started v).trans ?_
      rw [(tally v).alive, held]
      simp [isHeld, post]
    · intro c there
      simp only [course?, post, Workforce.worker?_started found, if_true, Option.map_some, Option.some.injEq] at there
      rw [← there, stage, begun', closed']
      rfl
    · intro none
      simp [course?, post, Workforce.worker?_started found] at none
    · rw [onDuty, begun', closed']
      simp [post]
  · have quiet : begins v (.start w me (.ok thread), .came .done) = false := beq_eq_false_iff_ne.mpr (Ne.symm same)
    refine (tally v).aside (begun_quiet quiet) (closed_quiet rfl) (Workforce.isAlive_started v)
      (held_post_other same) ?_ ?_
    · simp [course?, post, Workforce.worker?_started found, Ne.symm same]
    · rw [posts_post_other same]

theorem tally_invoke {thread : ThreadId} (tally : Tally past m) (station : m.posts w = some (thread, .beginning))
    (found : m.force.worker? w = some x) : Tally (past ++ [(.invoke w, .done)])
      ({ m with force := m.force.update w fun _ => { x with thread := some thread, hasBody := false } }.post w
        (some (thread, .body))) := by
  intro v
  refine (tally v).aside (begun_quiet rfl) (closed_quiet rfl) (Workforce.isAlive_update ..) ?_ ?_ ?_
  · by_cases same : v = w
    · simp [isHeld, post, same, station]
    · exact held_post_other same
  · by_cases same : v = w
    · subst same
      simp [course?, post, Workforce.worker?_self found, found]
    · simp [course?, post, Workforce.worker?_put, found, Ne.symm same]
  · by_cases same : v = w
    · simp [post, same, station]
    · rw [posts_post_other same]

theorem tally_finish {thread : ThreadId} (tally : Tally past m) (station : m.posts w = some (thread, .body))
    (found : m.force.worker? w = some x) : Tally (past ++ [(.finish w, .done)])
      (({ m with force := m.force.update w fun _ => { x with lifecycle := .exited, finished := true } }.post w
        none).settle w) := by
  intro v
  by_cases same : v = w
  · subst same
    have begun' : begun (past ++ [(.finish v, .done)]) v = true := (begun_quiet rfl).trans ((tally v).on_duty station).1
    have closed' : closed (past ++ [(.finish v, .done)]) v = true := by
      simp [closed_snoc, ends]
    have alive : m.force.isAlive v = true := by
      rw [(tally v).alive, held_of_station station]
    refine ⟨?_, ?_, ?_, ?_, fun _ => begun'⟩
    · rw [settle_alive, settle_held, bne_self_eq_false, Bool.false_or, post, Workforce.isAlive_update, alive,
        Bool.true_and]
    · intro c there
      rw [settle_course] at there
      simp only [course?, post, Workforce.worker?_self found, Option.map_some, Option.some.injEq] at there
      rw [← there, stage, begun', closed', ((tally v).worker found).1]
      rfl
    · intro none
      rw [settle_course] at none
      simp [course?, post, Workforce.worker?_self found] at none
    · simp [onDuty, post, begun', closed']
  · have quiet : ends v (.finish w, .done) = false := beq_eq_false_iff_ne.mpr (Ne.symm same)
    refine (tally v).aside (begun_quiet rfl) (closed_quiet quiet) ?_ ?_ ?_ ?_
    · rw [settle_alive, bne_iff_ne.mpr same, Bool.true_or, Bool.and_true]
      exact Workforce.isAlive_update ..
    · rw [settle_held]
      exact held_post_other same
    · rw [settle_course]
      simp [course?, post, Workforce.worker?_put, found, Ne.symm same]
    · rw [settle_posts, posts_post_other same]

/-- Nothing has happened to any worker, and a worker that seems to begin has begun before. -/
theorem Tally.aside (tally : Tally past m) (old : ∀ v, begins v e = true → begun past v = true)
    (quiet : ∀ v, ends v e = false) (members : m'.force.members = m.force.members) (users : m'.users = m.users)
    (posts : m'.posts = m.posts) : Tally (past ++ [e]) m' := by
  intro v
  refine (tally v).aside ?_ (closed_quiet (quiet v)) (Workforce.isAlive_of_members members) ?_
    (course?_of_members members) ?_
  · rw [begun_snoc]
    cases begins' : begins v e with
    | true => rw [old v begins', Bool.or_true]
    | false => rw [Bool.or_false]
  · rw [isHeld, isHeld, users, posts]
  · rw [posts]

theorem tally_done (tally : Tally past m) (done : Done m d reply m') : Tally (past ++ [(d, reply)]) m' := by
  cases done with
  | addRoster | lose | repeated | register | refuse | unregister | prune =>
    exact tally.aside (by simp [begins]) (fun _ => rfl) rfl rfl rfl
  | hire => exact tally_hire tally
  | clone held => exact tally_clone tally held
  | drop held => exact tally_drop tally held
  | launch held found idle => exact tally_launch tally held found idle
  | @decline w _ _ _ _ found begun =>
    refine tally.aside (fun v begins => ?_) (fun _ => rfl) rfl rfl rfl
    obtain rfl := eq_of_beq (a := w) (b := v) begins
    exact (begun_iff (tally w) found).mpr begun
  | invoke station found => exact tally_invoke tally station found
  | finish station found => exact tally_finish tally station found

theorem run_snoc (m : Muster) (deeds : List Deed) (d : Deed) :
    m.run (deeds ++ [d]) = (m.run deeds).bind fun (past, m) =>
      (m.perform d).map fun (reply, m) => (past ++ [(d, reply)], m) := by
  induction deeds generalizing m with
  | nil =>
    simp only [List.nil_append, run, Option.bind_some]
    cases m.perform d <;> rfl
  | cons first rest ih =>
    simp only [List.cons_append, run]
    cases m.perform first with
    | none => rfl
    | some performed =>
      obtain ⟨reply, m'⟩ := performed
      simp only [ih]
      cases m'.run rest with
      | none => rfl
      | some ran =>
        simp only [Option.bind_some, Option.map_some, Option.map_map]
        rfl

/-! ### Entries that come and go -/

/-- Some entries have gone, or a worker that was not there has come. -/
def Revised (before after : List Roster.Entry) : Prop :=
  (∃ keep, after = before.filter keep) ∨ ∃ e, e.worker ∉ before.map Roster.Entry.worker ∧ after = before ++ [e]

theorem revised_refl (es : List Roster.Entry) : Revised es es :=
  Or.inl ⟨fun _ => true, (List.filter_eq_self.mpr fun _ _ => rfl).symm⟩

theorem revised_filter (es : List Roster.Entry) (keep : Roster.Entry → Bool) : Revised es (es.filter keep) :=
  Or.inl ⟨keep, rfl⟩

theorem entries_settle (found : m.force.worker? w = some x) (r : RosterId) :
    (m.settle w).force.entries r =
      if m.isHeld w = false ∧ m.force.home? w = some r ∧ m.homeIsThere r then
        (m.force.entries r).filter fun e => e.worker != w
      else m.force.entries r := by
  unfold settle
  split
  · rename_i held
    rw [if_neg]
    rintro ⟨dropped, _⟩
    rw [held] at dropped
    cases dropped
  · rename_i dropped
    rw [Workforce.entries_release found]
    simp [Bool.eq_false_iff.mpr dropped]

theorem revised_settle (found : m.force.worker? w = some x) (r : RosterId) :
    Revised (m.force.entries r) ((m.settle w).force.entries r) := by
  rw [entries_settle found]
  split
  · exact revised_filter ..
  · exact revised_refl _

theorem revised_setRoster {roster : Roster} (revised : Revised (m.force.entries q) roster.entries) (r : RosterId) :
    Revised (m.force.entries r) ((m.force.setRoster q roster).entries r) := by
  rw [Workforce.entries_setRoster]
  split
  · rename_i here
    exact here.1 ▸ revised
  · exact revised_refl _

theorem revised_done (steady : m.Steady) (done : Done m d reply m') (r : RosterId) :
    Revised (m.force.entries r) (m'.force.entries r) := by
  cases done with
  | lose | clone | repeated | decline | refuse | invoke => exact revised_refl _
  | addRoster => exact (Workforce.entries_addRoster m.force r).symm ▸ revised_refl _
  | hire => exact revised_refl _
  | @drop w held =>
    obtain ⟨x, found⟩ := steady.found (w := w) (by simp [isHeld, held])
    exact revised_settle (m := m.hand w (m.users w - 1)) found r
  | register _ _ new => exact revised_setRoster (Or.inr ⟨_, new, rfl⟩) r
  | launch _ found =>
    rw [post, Workforce.entries_started found]
    split
    · rename_i comes
      exact Or.inr ⟨_, comes.2.2.2, rfl⟩
    · exact revised_refl _
  | @finish w _ _ _ found =>
    exact revised_settle (m := post { m with force := _ } w none) (Workforce.worker?_self found) r
  | unregister => exact revised_setRoster (revised_filter ..) r
  | prune => exact revised_setRoster (revised_filter ..) r

def entriesAfter (deeds : List Deed) (r : RosterId) : List Roster.Entry :=
  (run {} deeds).elim [] fun (_, m) => m.force.entries r

/-- From a moment at which the second worker was not in the roster, the first has been there all the time. -/
def Precedes (deeds : List Deed) (r : RosterId) (a b : Roster.Entry) : Prop :=
  ∃ earlier later, deeds = earlier ++ later ∧ b.worker ∉ (entriesAfter earlier r).map Roster.Entry.worker ∧
    ∀ done, done <+: later → a ∈ entriesAfter (earlier ++ done) r

variable {deeds : List Deed} {a b : Roster.Entry}

theorem Precedes.stays (precedes : Precedes deeds r a b) (stays : a ∈ entriesAfter (deeds ++ [d]) r) :
    Precedes (deeds ++ [d]) r a b := by
  obtain ⟨earlier, later, rfl, absent, there⟩ := precedes
  refine ⟨earlier, later ++ [d], List.append_assoc .., absent, fun done before => ?_⟩
  rcases List.prefix_concat_iff.mp before with rfl | before
  · rwa [← List.append_assoc]
  · exact there done before

theorem precedes_last (there : a ∈ entriesAfter deeds r) (stays : a ∈ entriesAfter (deeds ++ [d]) r)
    (absent : b.worker ∉ (entriesAfter deeds r).map Roster.Entry.worker) : Precedes (deeds ++ [d]) r a b := by
  refine ⟨deeds, [d], rfl, absent, fun done before => ?_⟩
  rcases List.prefix_concat_iff.mp (show done <+: [] ++ [d] from before) with rfl | before
  · exact stays
  · rw [List.prefix_nil.mp before, List.append_nil]
    exact there

theorem ordered_revised (ordered : (entriesAfter deeds r).Pairwise (Precedes deeds r))
    (revised : Revised (entriesAfter deeds r) (entriesAfter (deeds ++ [d]) r)) :
    (entriesAfter (deeds ++ [d]) r).Pairwise (Precedes (deeds ++ [d]) r) := by
  rcases revised with ⟨keep, after⟩ | ⟨e, new, after⟩
  · rw [after]
    refine (ordered.filter keep).imp_of_mem fun member _ precedes => precedes.stays ?_
    rwa [after]
  · have stays : ∀ {a}, a ∈ entriesAfter deeds r → a ∈ entriesAfter (deeds ++ [d]) r := fun member => by
      rw [after]
      exact List.mem_append_left _ member
    rw [after, List.pairwise_append]
    refine ⟨ordered.imp_of_mem fun member _ precedes => precedes.stays (stays member), List.pairwise_singleton .., ?_⟩
    intro a member b last
    obtain rfl := List.mem_singleton.mp last
    exact precedes_last member (stays member) new

theorem distinct_revised {before after : List Roster.Entry} (distinct : (before.map Roster.Entry.worker).Nodup)
    (revised : Revised before after) : (after.map Roster.Entry.worker).Nodup := by
  rcases revised with ⟨keep, rfl⟩ | ⟨e, new, rfl⟩
  · exact distinct.sublist (List.filter_sublist.map _)
  · rw [List.map_append, List.nodup_append]
    refine ⟨distinct, List.nodup_singleton _, fun a member b last => ?_⟩
    obtain rfl := List.mem_singleton.mp last
    rintro rfl
    exact new member

theorem entriesAfter_run (ran : run {} deeds = some (past, m)) (r : RosterId) :
    entriesAfter deeds r = m.force.entries r := by
  rw [entriesAfter, ran]
  rfl

theorem run_keeps (ran : run {} deeds = some (past, m)) :
    Tally past m ∧ ∀ r, (m.force.listed r).Nodup ∧ (m.force.entries r).Pairwise (Precedes deeds r) := by
  induction deeds using List.reverseRecOn generalizing past m with
  | nil =>
    cases ran
    exact ⟨tally_fresh, fun r => ⟨List.nodup_nil, List.Pairwise.nil⟩⟩
  | append_singleton deeds d ih =>
    rw [run_snoc, Option.bind_eq_some_iff] at ran
    obtain ⟨⟨past, m₀⟩, ran₀, last⟩ := ran
    obtain ⟨⟨reply, m₁⟩, performed, same⟩ := Option.map_eq_some_iff.mp last
    cases same
    obtain ⟨tally, rosters⟩ := ih ran₀
    have done := done_of_perform tally.steady performed
    have ran : run {} (deeds ++ [d]) = some (past ++ [(d, reply)], m) := by
      simp only [run_snoc, ran₀, Option.bind_some, performed, Option.map_some]
    refine ⟨tally_done tally done, fun r => ?_⟩
    have revised := revised_done tally.steady done r
    refine ⟨distinct_revised (rosters r).1 revised, ?_⟩
    rw [← entriesAfter_run ran]
    rw [← entriesAfter_run ran, ← entriesAfter_run ran₀] at revised
    exact ordered_revised (entriesAfter_run ran₀ r ▸ (rosters r).2) revised

/-! ### What a roster answers -/

theorem stage_running (past : List Record) (w : WorkerId) : (stage past w == .running) = onDuty past w := by
  rw [stage, onDuty]
  cases begun past w <;> cases closed past w <;> rfl

theorem running_eq (tally : Tally past m) (w : WorkerId) : m.force.isRunning w = onDuty past w := by
  have held : onDuty past w = true → m.isHeld w = true := fun duty => by
    rw [isHeld, (tally w).posted, duty, Bool.or_true]
  rw [Workforce.isRunning_eq, (tally w).alive]
  cases found : m.force.worker? w with
  | none =>
    have idle := (tally w).fresh (by rw [course?, found, Option.map_none])
    rw [onDuty, idle, Option.any_none, Bool.and_false, Bool.false_and]
  | some x =>
    rw [Option.any_some, Worker.isRunning, ((tally w).worker found).2, stage_running]
    cases duty : onDuty past w with
    | true => rw [held duty, Bool.and_true]
    | false => rw [Bool.and_false]

def newcomer (past : List Record) (m : Muster) (r : RosterId) (x : Worker) (w : WorkerId) :
    Except String ThreadId → List Roster.Entry
  | .ok thread =>
    if m.force.home? w = some r ∧ begun past w = false ∧ w ∉ m.force.listed r then [⟨w, x.name, thread⟩] else []
  | .error _ => []

/-- What a roster is like after some deeds, and what it makes of the next. -/
structure Kept (deeds : List Deed) (past : List Record) (m : Muster) (r : RosterId) : Prop where
  distinct : (m.force.listed r).Nodup
  ordered : (m.force.entries r).Pairwise (Precedes deeds r)
  repeated : ∀ w thread, m.isHeld w = true → w ∈ m.force.listed r →
    m.perform (.register r w thread) = some (.told false, m)
  entered : ∀ w thread, m.isHeld w = true → w ∉ m.force.listed r → ∃ x m', m.force.worker? w = some x ∧
    m.perform (.register r w thread) = some (.told true, m') ∧
    m'.force.entries r = m.force.entries r ++ [⟨w, x.name, thread⟩]
  started : ∀ w me grant, m.isHeld w = true → ∃ x result m', m.force.worker? w = some x ∧
    m.perform (.start w me grant) = some (.came result, m') ∧
    m'.force.entries r = m.force.entries r ++ newcomer past m r x w grant
  forward : (m.force.roster r).workers m.force.isAlive .registration = (m.force.listed r).filter m.isHeld
  backward : (m.force.roster r).workers m.force.isAlive .reverse = ((m.force.listed r).filter m.isHeld).reverse
  dumped : (m.force.roster r).dump m.force.isRunning = (m.force.entries r).map fun e => (e, onDuty past e.worker)
  pruned : ∃ m', m.perform (.prune r) =
      some (.counted ((m.force.entries r).countP fun e => !onDuty past e.worker), m') ∧
    m'.force.entries r = (m.force.entries r).filter (fun e => onDuty past e.worker) ∧
    m'.perform (.prune r) = some (.counted 0, m')
  withdrawn : ∀ w, ∃ m', m.perform (.unregister r w) = some (.told (decide (w ∈ m.force.listed r)), m') ∧
    m'.force.entries r = (m.force.entries r).filter fun e => e.worker != w
  dropped : ∀ w d reply m', d = .drop w ∨ d = .finish w → m.perform d = some (reply, m') →
    m'.force.entries r = if m'.isHeld w = false ∧ m.force.home? w = some r then
      (m.force.entries r).filter fun e => e.worker != w else m.force.entries r

theorem perform_prune (tally : Tally past m) (there : m.Holds r) : m.perform (.prune r) =
    some (.counted ((m.force.entries r).countP fun e => !onDuty past e.worker),
      { m with force := m.force.setRoster r ⟨(m.force.entries r).filter fun e => onDuty past e.worker⟩ }) := by
  have running : m.force.isRunning = onDuty past := funext (running_eq tally)
  have count : (m.force.entries r).length - ((m.force.entries r).filter fun e => onDuty past e.worker).length =
      (m.force.entries r).countP fun e => !onDuty past e.worker := by
    rw [← List.countP_eq_length_filter, List.length_eq_countP_add_countP (fun e => onDuty past e.worker),
      Nat.add_sub_cancel_left]
    simp
  simp only [perform, there, if_true, Roster.prune, running]
  rw [← count]
  rfl

theorem pruned_again (tally : Tally past m) (there : m.Holds r) :
    let kept := (m.force.entries r).filter fun e => onDuty past e.worker
    let m' : Muster := { m with force := m.force.setRoster r ⟨kept⟩ }
    m'.force.entries r = kept ∧ m'.perform (.prune r) = some (.counted 0, m') := by
  intro kept m'
  have entries : m'.force.entries r = kept := by
    rw [Workforce.entries_setRoster, if_pos ⟨rfl, there.1⟩]
  have tally' : Tally past m' := fun v =>
    (tally v).aside rfl rfl (Workforce.isAlive_of_members rfl) rfl (course?_of_members rfl) rfl
  have there' : m'.Holds r := ⟨by simpa [m', Workforce.setRoster] using there.1, there.2⟩
  refine ⟨entries, ?_⟩
  rw [perform_prune tally' there', entries]
  have none : (kept.countP fun e => !onDuty past e.worker) = 0 := by
    simp [kept]
  have all : (kept.filter fun e => onDuty past e.worker) = kept := by
    simp [kept]
  have same : m'.force.setRoster r ⟨kept⟩ = m'.force := by
    have roster : m'.force.roster r = ⟨kept⟩ := by
      rw [← entries]
      rfl
    rw [← roster, Workforce.setRoster_self]
  rw [none, all, same]

theorem entries_dropped (m₁ : Muster) (found : m₁.force.worker? w = some x)
    (same : m₁.force.entries r = m.force.entries r) (home : m₁.force.home? w = m.force.home? w)
    (there : m₁.homeIsThere r = true) :
    (m₁.settle w).force.entries r = if (m₁.settle w).isHeld w = false ∧ m.force.home? w = some r then
      (m.force.entries r).filter fun e => e.worker != w else m.force.entries r := by
  rw [entries_settle found, settle_held, same, home]
  simp [there]

theorem entries_start {me : ThreadId} {grant : Except String ThreadId} (tally : Tally past m) (there : m.Holds r)
    (found : m.force.worker? w = some x) (done : Done m (.start w me grant) reply m') :
    m'.force.entries r = m.force.entries r ++ newcomer past m r x w grant := by
  cases done with
  | launch _ found' idle =>
    obtain rfl := Option.some.inj (found'.symm.trans found)
    have idle' : begun past w = false := by
      rw [← Bool.not_eq_true, begun_iff (tally w) found]
      exact not_not_intro idle
    rw [post, Workforce.entries_started found, newcomer]
    simp only [there.1, there.2, idle', true_and]
    split
    · rfl
    · rw [List.append_nil]
  | decline _ found' begun =>
    obtain rfl := Option.some.inj (found'.symm.trans found)
    have begun' := (begun_iff (tally w) found).mpr begun
    cases grant with
    | ok thread => simp [newcomer, begun']
    | error reason => simp [newcomer]
  | refuse => simp [newcomer]

/-- After any deeds a roster that somebody holds lists no worker twice, and lists them in the order in which they came. A worker
that is registered or started comes last, unless it is listed already. The order of stopping is that of the entries or its
reverse, without the workers that nobody holds. The dump marks those that run, and pruning leaves these and finds nothing
when it is done again. A worker that is unregistered goes, and so does one whose last handle is dropped, from its home. -/
theorem rosters_kept (ran : run {} deeds = some (past, m)) (there : m.Holds r) : Kept deeds past m r := by
  obtain ⟨tally, rosters⟩ := run_keeps ran
  have alive : m.force.isAlive = m.isHeld := funext fun w => (tally w).alive
  refine
    { distinct := (rosters r).1, ordered := (rosters r).2, repeated := fun w thread held listed => ?_
      entered := fun w thread held new => ?_, started := fun w me grant held => ?_
      forward := by rw [alive]; rfl, backward := by rw [alive]; rfl, dumped := ?_
      pruned := ⟨_, perform_prune tally there, pruned_again tally there⟩, withdrawn := fun w => ?_
      dropped := fun w d reply m' leaves performed => ?_ }
  · simp only [perform, there, held, and_self, if_true, Workforce.announce_listed listed]
  · obtain ⟨x, found⟩ := tally.steady.found held
    refine ⟨x, { m with force := m.force.setRoster r ⟨m.force.entries r ++ [⟨w, x.name, thread⟩]⟩ }, found, ?_, ?_⟩
    · simp only [perform, there, held, and_self, if_true, Workforce.announce_new found new]
    · rw [Workforce.entries_setRoster, if_pos ⟨rfl, there.1⟩]
  · obtain ⟨result, m', performed, done⟩ := perform_start me grant tally.steady held
    obtain ⟨x, found⟩ := tally.steady.found held
    exact ⟨x, result, m', found, performed, entries_start tally there found done⟩
  · rw [Roster.dump, funext (running_eq tally)]
    rfl
  · refine ⟨{ m with force := m.force.withdraw r w }, ?_, (Workforce.entries_withdraw ..).trans (if_pos rfl)⟩
    simp only [perform, there, if_true, Roster.unregister, Workforce.any_listed, Workforce.withdraw]
  · have done := done_of_perform tally.steady performed
    rcases leaves with rfl | rfl
    · cases done with
      | drop held =>
        obtain ⟨x, found⟩ := tally.steady.found (w := w) (by simp [isHeld, held])
        exact entries_dropped (m.hand w (m.users w - 1)) found rfl rfl there.2
    · cases done with
      | finish _ found =>
        exact entries_dropped (post { m with force := _ } w none) (Workforce.worker?_self found) rfl
          (Workforce.home?_update _) there.2

/-- A pump and a fan belong to the roster, a lamp belongs to none and is registered by hand; so is the pump before it
starts. The fan has come to its end, and nobody holds the lamp any more. -/
def rota : List Deed :=
  [.addRoster, .hire "pump" { home := some 0 }, .hire "lamp" {}, .hire "fan" { home := some 0 },
    .register 0 1 7, .register 0 0 7, .start 0 7 (.ok 8), .start 2 7 (.ok 9), .invoke 0, .invoke 2, .finish 2, .drop 1]

theorem rosters_kept_rota : ∃ past m, run {} rota = some (past, m) ∧ m.Holds 0 ∧ Kept rota past m 0 ∧
    m.force.entries 0 = [⟨1, "lamp", 7⟩, ⟨0, "pump", 7⟩, ⟨2, "fan", 9⟩] ∧
    (m.force.listed 0).filter m.isHeld = [0, 2] ∧ (m.force.listed 0).map (onDuty past) = [false, true, false] :=
  ⟨_, _, rfl, by decide, rosters_kept rfl (by decide), rfl, rfl, rfl⟩

end Muster

end Switchboard
