import Switchboard.Worker.Workforce

/-!
A workforce and the threads that use it. A move of a thread is one section of its call on a worker, one section of the
worker whose thread it is, a call that it makes, or something that it does to tokens, rosters and signals in one go.
Threads come from outside or are granted to workers that are started. Which thread moves, what it asks, how long it
sleeps, whether the system grants a thread and when a body is over is left open, so the runs are all interleavings of
all programs. The log remembers what has happened; no move reads it.
-/

namespace Switchboard

namespace Worker

/-- A section of thread `me`'s call that does not block, and what it makes of the tokens and of the worker. -/
inductive Section (me : ThreadId) (grant : Except String ThreadId) (ts : StopTokens) (x : Worker) :
    Call → Move → StopTokens → Worker → Prop
  | launch {thread} (unheld : x.starter = none) (idle : x.lifecycle = .idle) (granted : grant = .ok thread) :
    Section me grant ts x .starting (.spawns thread (.publishing thread)) ts { x with starter := some me }
  | refuse {reason} (unheld : x.starter = none) (idle : x.lifecycle = .idle) (refused : grant = .error reason) :
    Section me grant ts x .starting (.ends (.refused reason)) ts x
  | decline (unheld : x.starter = none) (begun : x.lifecycle ≠ .idle) : Section me grant ts x .starting (.ends .done) ts x
  | publish {thread} : Section me grant ts x (.publishing thread) (.goes (.announcing thread)) ts x.publish
  | announce {thread} : Section me grant ts x (.announcing thread) (.goes (.keeping thread)) ts x
  | keep {thread} : Section me grant ts x (.keeping thread) (.ends .done) ts { x with handle := some thread }
  | doze {c until? sleepers} (resting : c = .settling until? ∨ c = .sleeping until?)
    (unasked : ts.isCancelled x.stop = false) :
    Section me grant ts x c (.goes (.sleeping until?)) ts { x with sleepers }
  | rise {c until? r sleepers} (resting : c = .settling until? ∨ c = .sleeping until?) (fewer : sleepers ⊆ x.sleepers) :
    Section me grant ts x c (.ends r) ts { x with signaled := false, sleepers }
  | cancel : Section me grant ts x .cancelling (.goes .waking) (ts.cancel x.stop) x
  | wake : Section me grant ts x .waking (.goes .recognizing) ts x.wakeAll
  | own (mine : x.thread = some me) : Section me grant ts x .recognizing (.ends .done) ts x
  | other (foreign : x.thread ≠ some me) : Section me grant ts x .recognizing (.goes .awaiting) ts x
  | pass (unheld : x.starter = none) (still : x.lifecycle ≠ .running) :
    Section me grant ts x .awaiting (.goes .collecting) ts x
  | collect (kept : x.handle.isSome) : Section me grant ts x .collecting (.goes .joining) ts { x with handle := none }
  | miss (empty : x.handle = none) : Section me grant ts x .collecting (.ends .done) ts x
  | join (finished : x.finished = true) : Section me grant ts x .joining (.ends .done) ts x

section

variable {me : ThreadId} {now : Nat} {grant : Except String ThreadId} {ts ts' : StopTokens} {x x' : Worker} {c : Call}
  {move : Move} {until? : Option Nat}

theorem section_of_look {y : Worker} {sleepers : List ThreadId} (same : y = { x with sleepers })
    (fewer : sleepers ⊆ x.sleepers) (resting : c = .settling until? ∨ c = .sleeping until?) :
    Section me grant ts x c (y.look me now (ts.isCancelled x.stop) until?).1 ts
      (y.look me now (ts.isCancelled x.stop) until?).2 := by
  subst same
  unfold look
  split
  · exact .rise resting fewer
  · rename_i sleeps
    split
    · exact .rise resting fewer
    · simp only [mayWake, Bool.not_eq_true, Bool.or_eq_false_iff] at sleeps
      exact .doze resting sleeps.2

theorem section_of_advance (h : c.advance me now grant ts x = (move, ts', x')) (moves : move ≠ .blocks) :
    Section me grant ts x c move ts' x' := by
  have held : ∀ {b : Bool}, ¬ (b = true) → b = false := fun h => Bool.eq_false_iff.mpr h
  cases c with
  | starting =>
    simp only [Call.advance, launch] at h
    split at h
    · cases h
      exact absurd rfl moves
    · rename_i unheld
      replace unheld : x.starter = none := by simpa using unheld
      split at h
      · rename_i idle
        cases grant with
        | ok => cases h; exact .launch unheld idle rfl
        | error => cases h; exact .refuse unheld idle rfl
      · rename_i begun
        cases h
        exact .decline unheld begun
  | publishing | announcing | keeping | cancelling | waking => cases h; constructor
  | settling until? =>
    cases h
    exact section_of_look (y := x) rfl (List.Subset.refl _) (Or.inl rfl)
  | sleeping until? =>
    simp only [Call.advance] at h
    split at h
    · split at h
      · cases h
        exact section_of_look rfl List.erase_subset (Or.inr rfl)
      · cases h
        exact absurd rfl moves
    · cases h
      exact section_of_look (y := x) rfl (List.Subset.refl _) (Or.inr rfl)
  | recognizing =>
    simp only [Call.advance] at h
    split at h
    · rename_i mine
      cases h
      exact .own mine
    · rename_i foreign
      cases h
      exact .other foreign
  | awaiting =>
    simp only [Call.advance] at h
    split at h
    · cases h
      exact absurd rfl moves
    · rename_i free
      cases h
      simp only [isBusy, isRunning, Bool.not_eq_true, Bool.or_eq_false_iff, Option.isSome_eq_false_iff,
        Option.isNone_iff_eq_none, beq_eq_false_iff_ne] at free
      exact .pass free.1 free.2
  | collecting =>
    simp only [Call.advance] at h
    split at h
    · rename_i kept
      cases h
      exact .collect kept
    · rename_i empty
      replace empty : x.handle = none := by simpa using empty
      have same : { x with handle := none } = x := by rw [← empty]
      cases h
      rw [same]
      exact .miss empty
  | joining =>
    simp only [Call.advance] at h
    split at h
    · rename_i finished
      cases h
      exact .join finished
    · cases h
      exact absurd rfl moves

end

end Worker

namespace Shift

/-! ### Threads -/

inductive Station where
  /-- Not there yet, or over. -/
  | absent
  /-- No worker's thread. -/
  | outside
  | on (w : WorkerId) (r : Worker.Run)
deriving DecidableEq, Repr

/-- What a call that takes several sections is for. -/
inductive Order where
  | start
  | sleep (until? : Option Nat)
  | terminate
deriving DecidableEq, Repr

def Order.call : Order → Worker.Call
  | start => .starting
  | sleep until? => .settling until?
  | terminate => .cancelling

/-- A call in progress. It is known by the place that its first entry has in the log. -/
structure Errand where
  number : Nat
  order : Order
  worker : WorkerId
  call : Worker.Call
deriving DecidableEq, Repr

structure Hand where
  station : Station := .absent
  errand : Option Errand := none
deriving DecidableEq, Repr

/-- The thread belongs to whoever has the say on it: to the outside, or to a body. -/
def Station.isFree : Station → Bool
  | outside | on _ .body => true
  | _ => false

def Hand.isFree (h : Hand) : Bool := h.station.isFree && h.errand.isNone

def Hand.uses (h : Hand) (w : WorkerId) : Bool :=
  (match h.station with | .on v _ => v == w | _ => false) || h.errand.any fun e => e.worker == w

/-! ### The log -/

inductive Entry where
  | called (number : Nat) (t : ThreadId) (order : Order) (w : WorkerId)
  | spawned (number : Nat) (w : WorkerId) (thread : ThreadId)
  /-- A terminating call has looked and need not wait. -/
  | looked (number : Nat) (w : WorkerId) (lifecycle : Lifecycle)
  | invoked (w : WorkerId) (thread : ThreadId)
  | ended (w : WorkerId) (panicked : Bool)
  | returned (number : Nat) (t : ThreadId) (order : Order) (w : WorkerId) (r : Worker.Result)
deriving DecidableEq, Repr

/-! ### Moves -/

/-- What a thread does in one go. -/
inductive Chore where
  | hire (name : String) (o : WorkerOptions)
  | addRoster
  | derive (parent : Option StopToken)
  | cancel (token : StopToken)
  | signal (w : WorkerId)
  | announce (r : RosterId) (w : WorkerId) (thread : ThreadId)
  /-- Takes one entry out of a roster; to prune a roster is to do so with several. -/
  | withdraw (r : RosterId) (w : WorkerId)

def Chore.perform (f : Workforce) : Chore → Workforce
  | hire name o => (f.hire name o).2
  | addRoster => f.addRoster.2
  | derive parent => { f with tokens := (f.tokens.derive parent).2 }
  | cancel token => { f with tokens := f.tokens.cancel token }
  | signal w => f.update w Worker.signal
  | announce r w thread => (f.announce r w thread).2
  | withdraw r w => f.setRoster r ((f.roster r).unregister w).2

inductive Action where
  /-- A thread comes from outside. -/
  | arrive
  | chore (c : Chore)
  /-- The last handle of a worker is let go. -/
  | release (w : WorkerId)
  /-- Nobody holds a roster any more. -/
  | lose (r : RosterId)
  | order (o : Order) (w : WorkerId)
  /-- A section of the call in progress; asked for a thread, the system may refuse. -/
  | advance (now : Nat) (refusal : Option String)
  /-- A section of the worker whose thread it is. -/
  | proceed
  /-- The body returns or panics. -/
  | finish (panicked : Bool)

end Shift

structure Shift where
  force : Workforce := {}
  threads : ThreadId → Shift.Hand := fun _ => {}
  /-- How many threads there have been. -/
  born : ThreadId := 0
  lost : List RosterId := []
  log : List Shift.Entry := []

namespace Shift

def homeIsThere (s : Shift) (r : RosterId) : Bool := !s.lost.contains r

/-- Somebody calls the worker, or it is the worker's own thread. -/
def isUsed (s : Shift) (w : WorkerId) : Bool := (List.range s.born).any fun t => (s.threads t).uses w

def after (s : Shift) (t : ThreadId) (force : Workforce) (hand : Hand) (es : List Entry) : Shift :=
  { s with force, threads := fun u => if u = t then hand else s.threads u, log := s.log ++ es }

def enter (s : Shift) (station : Station) : Shift :=
  { s with threads := fun u => if u = s.born then { station } else s.threads u, born := s.born + 1 }

def begin (s : Shift) (t : ThreadId) (o : Order) (w : WorkerId) : Shift :=
  s.after t s.force { (s.threads t) with errand := some ⟨s.log.length, o, w, o.call⟩ } [.called s.log.length t o w]

def Errand.remembered (e : Errand) (f : Workforce) : List Entry :=
  match e.call, f.worker? e.worker with
  | .awaiting, some x => [.looked e.number e.worker x.lifecycle]
  | _, _ => []

def follow (s : Shift) (t : ThreadId) (e : Errand) (force : Workforce) : Worker.Move → Option Shift
  | .goes c => some (s.after t force { (s.threads t) with errand := some { e with call := c } } (e.remembered s.force))
  | .spawns thread c =>
    some ((s.after t force { (s.threads t) with errand := some { e with call := c } }
      [.spawned e.number e.worker thread]).enter (.on e.worker .beginning))
  | .ends r =>
    some (s.after t force { (s.threads t) with errand := none } [.returned e.number t e.order e.worker r])
  | .blocks => none

def grant (s : Shift) : Option String → Except String ThreadId
  | some reason => .error reason
  | none => .ok s.born

def act (s : Shift) (t : ThreadId) : Action → Option Shift
  | .arrive => if t = s.born then some (s.enter .outside) else none
  | .chore c => if (s.threads t).isFree then some { s with force := c.perform s.force } else none
  | .release w => if s.isUsed w then none else some { s with force := s.force.release w s.homeIsThere }
  | .lose r => some { s with lost := r :: s.lost }
  | .order o w => if (s.threads t).isFree && s.force.isAlive w then some (s.begin t o w) else none
  | .advance now refusal =>
    match (s.threads t).errand with
    | some e =>
      let (move, force) := s.force.advance t now (s.grant refusal) s.homeIsThere e.worker e.call
      s.follow t e force move
    | none => none
  | .proceed =>
    match s.threads t with
    | ⟨.on w r, none⟩ =>
      match s.force.proceed t w r with
      | (.goes r, force) =>
        some (s.after t force { station := .on w r } (if r = .body then [.invoked w t] else []))
      | (.ends, force) => some (s.after t force {} [])
      | (.blocks, _) => none
    | _ => none
  | .finish panicked =>
    match s.threads t with
    | ⟨.on w .body, none⟩ => some (s.after t s.force { station := .on w .exiting } [.ended w panicked])
    | _ => none

def run (s : Shift) (moves : List (ThreadId × Action)) : Option Shift := Threads.run act s moves

section

variable {s : Shift} {t u : ThreadId} {f : Workforce} {h : Hand} {es : List Entry} {station : Station}

@[simp] theorem after_force : (s.after t f h es).force = f := rfl

@[simp] theorem after_log : (s.after t f h es).log = s.log ++ es := rfl

@[simp] theorem after_born : (s.after t f h es).born = s.born := rfl

@[simp] theorem after_self : (s.after t f h es).threads t = h := if_pos rfl

theorem after_other (other : u ≠ t) : (s.after t f h es).threads u = s.threads u := if_neg other

@[simp] theorem enter_force : (s.enter station).force = s.force := rfl

@[simp] theorem enter_log : (s.enter station).log = s.log := rfl

@[simp] theorem enter_new : (s.enter station).threads s.born = { station } := if_pos rfl

theorem enter_other (other : u ≠ s.born) : (s.enter station).threads u = s.threads u := if_neg other

end

/-! ### Changes to the workforce -/

end Shift

namespace Workforce

variable {f : Workforce} {w v : WorkerId} {x : Worker}

theorem worker?_update (f : Workforce) (w : WorkerId) (change : Worker → Worker) (v : WorkerId) :
    (f.update w change).worker? v = if w = v then (f.worker? v).map change else f.worker? v := by
  simp only [worker?, member?, update, List.getElem?_modify]
  cases f.members[v]? with
  | none => simp
  | some m => by_cases same : w = v <;> simp [same]

theorem worker?_put (there : (f.worker? w).isSome) (v : WorkerId) :
    (f.update w fun _ => x).worker? v = if w = v then some x else f.worker? v := by
  rw [worker?_update]
  by_cases same : w = v
  · subst same
    obtain ⟨y, there⟩ := Option.isSome_iff_exists.mp there
    simp [there]
  · simp [same]

@[simp] theorem worker?_tokens (ts : StopTokens) : { f with tokens := ts }.worker? w = f.worker? w := rfl

@[simp] theorem worker?_setRoster (r : RosterId) (roster : Roster) : (f.setRoster r roster).worker? w = f.worker? w := rfl

@[simp] theorem worker?_announce (r : RosterId) (w : WorkerId) (thread : ThreadId) :
    (f.announce r w thread).2.worker? v = f.worker? v := by
  unfold announce
  split <;> rfl

@[simp] theorem worker?_announceAtHome (w : WorkerId) (thread : ThreadId) (homeIsThere : RosterId → Bool) :
    (f.announceAtHome w thread homeIsThere).worker? v = f.worker? v := by
  unfold announceAtHome
  split
  · split <;> simp
  · rfl

def letGo (f : Workforce) (w : WorkerId) : Workforce :=
  { f with members := f.members.modify w fun m => { m with released := true } }

theorem release_cases (f : Workforce) (w : WorkerId) (homeIsThere : RosterId → Bool) :
    f.release w homeIsThere = f.letGo w ∨
      ∃ r, f.release w homeIsThere = (f.letGo w).setRoster r ((f.roster r).unregister w).2 := by
  unfold release
  split
  · rename_i none
    have absent : (f.members.modify w fun m => { m with released := true }) = f.members := by
      apply List.ext_getElem?
      intro v
      rw [List.getElem?_modify]
      by_cases here : w = v
      · subst here
        simp [show f.members[w]? = Option.none from none]
      · simp [here]
    exact Or.inl (by rw [letGo, absent])
  · simp only
    split
    · split
      · exact Or.inr ⟨_, rfl⟩
      · exact Or.inl rfl
    · exact Or.inl rfl

@[simp] theorem worker?_letGo (f : Workforce) (w v : WorkerId) : (f.letGo w).worker? v = f.worker? v := by
  simp only [letGo, worker?, member?, List.getElem?_modify]
  cases f.members[v]? with
  | none => rfl
  | some m => by_cases same : w = v <;> simp [same]

@[simp] theorem worker?_release (w : WorkerId) (homeIsThere : RosterId → Bool) :
    (f.release w homeIsThere).worker? v = f.worker? v := by
  rcases release_cases f w homeIsThere with same | ⟨r, same⟩
  · rw [same, worker?_letGo]
  · rw [same, worker?_setRoster, worker?_letGo]

theorem worker?_hire (name : String) (o : WorkerOptions) (v : WorkerId) : (f.hire name o).2.worker? v =
    if v = f.members.length then
      some { name, threadName := Worker.threadNameOf o.threadPrefix name, stop := (f.tokens.derive o.parent).1 }
    else f.worker? v := by
  simp only [worker?, member?, hire, List.getElem?_append]
  rcases Nat.lt_trichotomy v f.members.length with before | last | beyond
  · rw [if_pos before, if_neg (Nat.ne_of_lt before)]
  · rw [if_neg (Nat.not_lt.mpr (Nat.le_of_eq last.symm)), if_pos last]
    simp [last]
  · obtain ⟨k, sum⟩ := Nat.exists_eq_add_of_lt beyond
    rw [if_neg (Nat.lt_asymm beyond), if_neg (Nat.ne_of_gt beyond), List.getElem?_eq_none (Nat.le_of_lt beyond)]
    have place : v - f.members.length = k + 1 := by
      rw [sum, Nat.add_assoc, Nat.add_sub_cancel_left]
    simp [place]

theorem update_same (there : f.worker? w = some x) : (f.update w fun _ => x) = f := by
  obtain ⟨m, member, rfl⟩ := Option.map_eq_some_iff.mp there
  have same : (f.members.modify w fun n => { n with worker := m.worker }) = f.members := by
    apply List.ext_getElem?
    intro v
    rw [List.getElem?_modify]
    by_cases here : w = v
    · subst here
      simp [show f.members[w]? = some m from member]
    · simp [here]
  simp only [update, same]

end Workforce

namespace Shift

def stored (s : Shift) (e : Errand) (ts : StopTokens) (x : Worker) : Workforce :=
  match e.call with
  | .announcing thread => ({ s.force with tokens := ts }.update e.worker fun _ => x).announceAtHome e.worker thread s.homeIsThere
  | _ => { s.force with tokens := ts }.update e.worker fun _ => x

theorem worker?_stored {s : Shift} {e : Errand} (there : (s.force.worker? e.worker).isSome) (ts : StopTokens) (x : Worker)
    (v : WorkerId) : (s.stored e ts x).worker? v = if e.worker = v then some x else s.force.worker? v := by
  have put := Workforce.worker?_put (f := { s.force with tokens := ts }) (x := x) there v
  unfold stored
  split
  · rw [Workforce.worker?_announceAtHome, put]
    rfl
  · exact put

/-! ### What a move can do -/

inductive Advanced (s : Shift) (t : ThreadId) : Shift → Prop
  | goOn {e x c ts x' refusal} (errand : (s.threads t).errand = some e) (there : s.force.worker? e.worker = some x)
    (part : Worker.Section t (s.grant refusal) s.force.tokens x e.call (.goes c) ts x') :
    Advanced s t
      (s.after t (s.stored e ts x') { (s.threads t) with errand := some { e with call := c } } (e.remembered s.force))
  | spawn {e x c ts x' refusal thread} (errand : (s.threads t).errand = some e)
    (there : s.force.worker? e.worker = some x)
    (part : Worker.Section t (s.grant refusal) s.force.tokens x e.call (.spawns thread c) ts x') :
    Advanced s t ((s.after t (s.stored e ts x') { (s.threads t) with errand := some { e with call := c } }
      [.spawned e.number e.worker thread]).enter (.on e.worker .beginning))
  | comeBack {e x r ts x' refusal} (errand : (s.threads t).errand = some e) (there : s.force.worker? e.worker = some x)
    (part : Worker.Section t (s.grant refusal) s.force.tokens x e.call (.ends r) ts x') :
    Advanced s t (s.after t (s.stored e ts x') { (s.threads t) with errand := none }
      [.returned e.number t e.order e.worker r])

inductive Proceeded (s : Shift) (t : ThreadId) : Shift → Prop
  | begin {w x} (hand : s.threads t = ⟨.on w .beginning, none⟩) (there : s.force.worker? w = some x) :
    Proceeded s t (s.after t (s.force.update w fun _ => x.begin t) { station := .on w .taking } [])
  | take {w x} (hand : s.threads t = ⟨.on w .taking, none⟩) (there : s.force.worker? w = some x)
    (body : x.hasBody = true) : Proceeded s t
      (s.after t (s.force.update w fun _ => { x with hasBody := false }) { station := .on w .body } [.invoked w t])
  | skip {w x} (hand : s.threads t = ⟨.on w .taking, none⟩) (there : s.force.worker? w = some x)
    (gone : x.hasBody = false) :
    Proceeded s t (s.after t (s.force.update w fun _ => { x with hasBody := false }) { station := .on w .exiting } [])
  | exit {w x} (hand : s.threads t = ⟨.on w .exiting, none⟩) (there : s.force.worker? w = some x)
    (unheld : x.starter = none) :
    Proceeded s t (s.after t (s.force.update w fun _ => x.exit) { station := .on w .closing } [])
  | close {w x} (hand : s.threads t = ⟨.on w .closing, none⟩) (there : s.force.worker? w = some x) :
    Proceeded s t (s.after t (s.force.update w fun _ => x.close) {} [])

inductive Turn (s : Shift) (t : ThreadId) : Shift → Prop
  | arrive (new : t = s.born) : Turn s t (s.enter .outside)
  | chore (c : Chore) (free : (s.threads t).isFree = true) : Turn s t { s with force := c.perform s.force }
  | release {w} (unused : s.isUsed w = false) : Turn s t { s with force := s.force.release w s.homeIsThere }
  | lose (r : RosterId) : Turn s t { s with lost := r :: s.lost }
  | order {o w} (free : (s.threads t).isFree = true) (alive : s.force.isAlive w = true) : Turn s t (s.begin t o w)
  | goOn {e x c ts x' refusal} (errand : (s.threads t).errand = some e) (there : s.force.worker? e.worker = some x)
    (part : Worker.Section t (s.grant refusal) s.force.tokens x e.call (.goes c) ts x') :
    Turn s t (s.after t (s.stored e ts x') { (s.threads t) with errand := some { e with call := c } } (e.remembered s.force))
  | spawn {e x c ts x' refusal thread} (errand : (s.threads t).errand = some e)
    (there : s.force.worker? e.worker = some x)
    (part : Worker.Section t (s.grant refusal) s.force.tokens x e.call (.spawns thread c) ts x') :
    Turn s t ((s.after t (s.stored e ts x') { (s.threads t) with errand := some { e with call := c } }
      [.spawned e.number e.worker thread]).enter (.on e.worker .beginning))
  | comeBack {e x r ts x' refusal} (errand : (s.threads t).errand = some e) (there : s.force.worker? e.worker = some x)
    (part : Worker.Section t (s.grant refusal) s.force.tokens x e.call (.ends r) ts x') :
    Turn s t (s.after t (s.stored e ts x') { (s.threads t) with errand := none }
      [.returned e.number t e.order e.worker r])
  | begin {w x} (hand : s.threads t = ⟨.on w .beginning, none⟩) (there : s.force.worker? w = some x) :
    Turn s t (s.after t (s.force.update w fun _ => x.begin t) { station := .on w .taking } [])
  | take {w x} (hand : s.threads t = ⟨.on w .taking, none⟩) (there : s.force.worker? w = some x)
    (body : x.hasBody = true) :
    Turn s t (s.after t (s.force.update w fun _ => { x with hasBody := false }) { station := .on w .body } [.invoked w t])
  | skip {w x} (hand : s.threads t = ⟨.on w .taking, none⟩) (there : s.force.worker? w = some x)
    (gone : x.hasBody = false) :
    Turn s t (s.after t (s.force.update w fun _ => { x with hasBody := false }) { station := .on w .exiting } [])
  | finish {w} (hand : s.threads t = ⟨.on w .body, none⟩) (panicked : Bool) :
    Turn s t (s.after t s.force { station := .on w .exiting } [.ended w panicked])
  | exit {w x} (hand : s.threads t = ⟨.on w .exiting, none⟩) (there : s.force.worker? w = some x)
    (unheld : x.starter = none) :
    Turn s t (s.after t (s.force.update w fun _ => x.exit) { station := .on w .closing } [])
  | close {w x} (hand : s.threads t = ⟨.on w .closing, none⟩) (there : s.force.worker? w = some x) :
    Turn s t (s.after t (s.force.update w fun _ => x.close) {} [])

/-- Calls are made on workers that are there. -/
def Staffed (s : Shift) : Prop := ∀ t e, (s.threads t).errand = some e → (s.force.worker? e.worker).isSome

variable {s s' : Shift} {t : ThreadId}

theorem advance_eq {e : Errand} {x : Worker} (there : s.force.worker? e.worker = some x) (now : Nat)
    (grant : Except String ThreadId) :
    s.force.advance t now grant s.homeIsThere e.worker e.call =
      ((e.call.advance t now grant s.force.tokens x).1,
        s.stored e (e.call.advance t now grant s.force.tokens x).2.1 (e.call.advance t now grant s.force.tokens x).2.2) := by
  unfold Workforce.advance stored
  rw [there]
  cases e.call <;> rfl

theorem advanced_of_act {now : Nat} {refusal : Option String} (staffed : s.Staffed)
    (h : s.act t (.advance now refusal) = some s') : Advanced s t s' := by
  simp only [act] at h
  split at h
  · rename_i e errand
    obtain ⟨x, there⟩ := Option.isSome_iff_exists.mp (staffed t e errand)
    rw [advance_eq there] at h
    rcases moved : e.call.advance t now (s.grant refusal) s.force.tokens x with ⟨move, ts, x'⟩
    rw [moved] at h
    cases move with
    | blocks => cases h
    | goes c => cases h; exact .goOn errand there (Worker.section_of_advance moved nofun)
    | spawns thread c => cases h; exact .spawn errand there (Worker.section_of_advance moved nofun)
    | ends r => cases h; exact .comeBack errand there (Worker.section_of_advance moved nofun)
  · cases h

theorem proceeded_of_act (h : s.act t .proceed = some s') : Proceeded s t s' := by
  simp only [act] at h
  split at h
  · rename_i w r hand
    cases found : s.force.worker? w with
    | none => simp [Workforce.proceed, found] at h
    | some x =>
      simp only [Workforce.proceed, found] at h
      cases r with
      | beginning => cases h; exact .begin hand found
      | taking =>
        cases body : x.hasBody with
        | true =>
          simp only [Worker.Run.advance, Worker.takeBody, body, if_true, Option.some.injEq] at h
          subst h
          exact .take hand found body
        | false =>
          simp only [Worker.Run.advance, Worker.takeBody, body, if_false, Bool.false_eq_true, reduceCtorEq,
            Option.some.injEq] at h
          subst h
          exact .skip hand found body
      | body => cases h
      | exiting =>
        cases starter : x.starter with
        | some => simp [Worker.Run.advance, starter] at h
        | none =>
          simp only [Worker.Run.advance, starter, Option.isSome_none, if_false, Bool.false_eq_true, reduceCtorEq,
            Option.some.injEq] at h
          subst h
          exact .exit hand found starter
      | closing => cases h; exact .close hand found
  · cases h

theorem turn_of_act {a : Action} (staffed : s.Staffed) (h : s.act t a = some s') : Turn s t s' := by
  cases a with
  | arrive =>
    simp only [act, Option.ite_none_right_eq_some, Option.some.injEq] at h
    obtain ⟨new, rfl⟩ := h
    exact .arrive new
  | chore c =>
    simp only [act, Option.ite_none_right_eq_some, Option.some.injEq] at h
    obtain ⟨free, rfl⟩ := h
    exact .chore c free
  | release w =>
    simp only [act, Option.ite_none_left_eq_some, Option.some.injEq, Bool.not_eq_true] at h
    obtain ⟨unused, rfl⟩ := h
    exact .release unused
  | lose r =>
    cases h
    exact .lose r
  | order o w =>
    simp only [act, Option.ite_none_right_eq_some, Bool.and_eq_true, Option.some.injEq] at h
    obtain ⟨⟨free, alive⟩, rfl⟩ := h
    exact .order free alive
  | advance now refusal =>
    cases advanced_of_act staffed h with
    | goOn errand there part => exact .goOn errand there part
    | spawn errand there part => exact .spawn errand there part
    | comeBack errand there part => exact .comeBack errand there part
  | proceed =>
    cases proceeded_of_act h with
    | begin hand there => exact .begin hand there
    | take hand there body => exact .take hand there body
    | skip hand there gone => exact .skip hand there gone
    | exit hand there unheld => exact .exit hand there unheld
    | close hand there => exact .close hand there
  | finish panicked =>
    simp only [act] at h
    split at h
    · rename_i w hand
      cases h
      exact .finish hand panicked
    · cases h

end Shift

end Switchboard
