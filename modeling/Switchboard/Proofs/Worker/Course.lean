import Switchboard.Proofs.Worker.Shift

/-!
The course of a worker's life: what its record, the threads that stand on it and the log can tell of it, and how a move
takes it further.
-/

namespace Switchboard.Shift

/-! ### Readings of the log -/

def Entry.launch? (w : WorkerId) : Entry → Option ThreadId
  | spawned _ v thread => if v = w then some thread else none
  | _ => none

def Entry.invocation? (w : WorkerId) : Entry → Option ThreadId
  | invoked v thread => if v = w then some thread else none
  | _ => none

def Entry.ending? (w : WorkerId) : Entry → Option Bool
  | ended v panicked => if v = w then some panicked else none
  | _ => none

def launches (log : List Entry) (w : WorkerId) : List ThreadId := log.filterMap (Entry.launch? w)

def invocations (log : List Entry) (w : WorkerId) : List ThreadId := log.filterMap (Entry.invocation? w)

def endings (log : List Entry) (w : WorkerId) : List Bool := log.filterMap (Entry.ending? w)

/-! ### The course of a worker's life -/

/-- What of a worker tells how far it has come. -/
structure Core where
  lifecycle : Lifecycle
  starter : Option ThreadId
  hasBody : Bool
  thread : Option ThreadId
  finished : Bool

def core (x : Worker) : Core := ⟨x.lifecycle, x.starter, x.hasBody, x.thread, x.finished⟩

/-- The worker is started, or about to be, and has not exited. -/
def Core.Active (x : Core) : Prop :=
  x.lifecycle = .idle ∧ x.starter.isSome ∨ x.lifecycle = .running ∧ x.starter = none

/-- How far a worker has come: its record, the threads that stand on it, and what the log tells of it. -/
inductive Course (x : Core) (on : ThreadId → Worker.Run → Prop) : List ThreadId → List ThreadId → List Bool → Prop
  | idle (idle : x.lifecycle = .idle) (unheld : x.starter = none) (body : x.hasBody = true) (unknown : x.thread = none)
    (early : x.finished = false) (nobody : ∀ u r, ¬ on u r) : Course x on [] [] []
  | beginning {t} (active : x.Active) (body : x.hasBody = true) (unknown : x.thread = none) (early : x.finished = false)
    (sole : ∀ u r, on u r ↔ u = t ∧ r = .beginning) : Course x on [t] [] []
  | taking {t} (active : x.Active) (body : x.hasBody = true) (known : x.thread = some t) (early : x.finished = false)
    (sole : ∀ u r, on u r ↔ u = t ∧ r = .taking) : Course x on [t] [] []
  | body {t} (active : x.Active) (taken : x.hasBody = false) (known : x.thread = some t) (early : x.finished = false)
    (sole : ∀ u r, on u r ↔ u = t ∧ r = .body) : Course x on [t] [t] []
  | exiting {t p} (active : x.Active) (taken : x.hasBody = false) (known : x.thread = some t) (early : x.finished = false)
    (sole : ∀ u r, on u r ↔ u = t ∧ r = .exiting) : Course x on [t] [t] [p]
  | closing {t p} (exited : x.lifecycle = .exited) (unheld : x.starter = none) (taken : x.hasBody = false)
    (known : x.thread = some t) (early : x.finished = false) (sole : ∀ u r, on u r ↔ u = t ∧ r = .closing) :
    Course x on [t] [t] [p]
  | finished {t p} (exited : x.lifecycle = .exited) (unheld : x.starter = none) (taken : x.hasBody = false)
    (known : x.thread = some t) (finished : x.finished = true) (nobody : ∀ u r, ¬ on u r) : Course x on [t] [t] [p]

section

variable {x : Core} {on : ThreadId → Worker.Run → Prop} {launched begun : List ThreadId} {ended : List Bool} {t : ThreadId}

theorem Course.begun_le (course : Course x on launched begun ended) : begun.length ≤ 1 := by
  cases course <;> simp

theorem Course.launched_of_thread (course : Course x on launched begun ended) (mine : x.thread = some t) :
    launched = [t] := by
  cases course with
  | idle _ _ _ unknown | beginning _ _ unknown => simp [unknown] at mine
  | taking _ _ known | body _ _ known | exiting _ _ known | closing _ _ _ known | finished _ _ _ known =>
    rw [known] at mine
    rw [Option.some.inj mine]

/-- While its body has a thread, the worker knows the thread. -/
theorem Course.thread_of_on (course : Course x on launched begun ended) (stands : on t .body) : x.thread = some t := by
  cases course with
  | idle _ _ _ _ _ nobody | finished _ _ _ _ _ nobody => exact absurd stands (nobody t _)
  | beginning _ _ _ _ sole | taking _ _ _ _ sole | exiting _ _ _ _ sole | closing _ _ _ _ _ sole =>
    cases ((sole t _).mp stands).2
  | body _ _ known _ sole => rw [known, ((sole t _).mp stands).1]

theorem Course.idle_of_held (course : Course x on launched begun ended) (held : x.starter.isSome) : x.lifecycle = .idle := by
  cases course with
  | idle idle => exact idle
  | beginning active | taking active | body active | exiting active =>
    rcases active with ⟨idle, _⟩ | ⟨_, unheld⟩
    · exact idle
    · simp [unheld] at held
  | closing _ unheld | finished _ unheld => simp [unheld] at held

theorem Course.running_of_on (course : Course x on launched begun ended) (unheld : x.starter = none)
    (stands : on t .exiting) : x.lifecycle = .running := by
  cases course with
  | idle _ _ _ _ _ nobody | finished _ _ _ _ _ nobody => exact absurd stands (nobody t _)
  | beginning _ _ _ _ sole | taking _ _ _ _ sole | body _ _ _ _ sole | closing _ _ _ _ _ sole =>
    cases ((sole t _).mp stands).2
  | exiting active =>
    rcases active with ⟨_, held⟩ | ⟨running, _⟩
    · simp [unheld] at held
    · exact running

/-- A worker that nobody is starting and that does not run was never started, or its body is over. -/
theorem Course.still (course : Course x on launched begun ended) (unheld : x.starter = none)
    (still : x.lifecycle ≠ .running) :
    x.lifecycle = .idle ∧ launched = [] ∨ x.lifecycle = .exited ∧ ended ≠ [] := by
  have idle : ¬ x.Active := by
    rintro (⟨_, held⟩ | ⟨running, _⟩)
    · simp [unheld] at held
    · exact still running
  cases course with
  | idle idle => exact Or.inl ⟨idle, rfl⟩
  | beginning active | taking active | body active | exiting active => exact absurd active idle
  | closing exited | finished exited => exact Or.inr ⟨exited, List.cons_ne_nil _ _⟩

end

/-! ### Moves along the course -/

section

variable {x : Core} {on on' : ThreadId → Worker.Run → Prop} {launched begun : List ThreadId} {ended : List Bool}
  {t new : ThreadId}

theorem Course.launch (course : Course x on launched begun ended) (unheld : x.starter = none) (idle : x.lifecycle = .idle)
    (enters : ∀ u r, on' u r ↔ on u r ∨ u = new ∧ r = .beginning) :
    Course { x with starter := some t } on' (launched ++ [new]) begun ended := by
  cases course with
  | idle _ _ body unknown early nobody =>
    refine .beginning (Or.inl ⟨idle, rfl⟩) body unknown early fun u r => ?_
    rw [enters, or_iff_right (nobody u r)]
  | beginning active | taking active | body active | exiting active =>
    rcases active with ⟨_, held⟩ | ⟨running, _⟩
    · simp [unheld] at held
    · rw [idle] at running
      cases running
  | closing exited | finished exited =>
    rw [idle] at exited
    cases exited

theorem Course.publish (course : Course x on launched begun ended) (held : x.starter.isSome) :
    Course { x with lifecycle := .running, starter := none } on launched begun ended := by
  have active : Core.Active { x with lifecycle := .running, starter := none } := Or.inr ⟨rfl, rfl⟩
  cases course with
  | idle _ unheld | closing _ unheld | finished _ unheld => simp [unheld] at held
  | beginning _ body unknown early sole => exact .beginning active body unknown early sole
  | taking _ body known early sole => exact .taking active body known early sole
  | body _ taken known early sole => exact .body active taken known early sole
  | exiting _ taken known early sole => exact .exiting active taken known early sole

/-- A thread on a worker that has moved on is the only one there. -/
theorem sole_after {r r' : Worker.Run} (sole : ∀ u k, on u k ↔ u = t ∧ k = r) (mine : ∀ k, on' t k ↔ k = r')
    (others : ∀ u k, u ≠ t → (on' u k ↔ on u k)) (u : ThreadId) (k : Worker.Run) : on' u k ↔ u = t ∧ k = r' := by
  by_cases same : u = t
  · rw [same, mine]
    simp
  · rw [others u k same, sole]
    simp [same]

theorem Course.begin (course : Course x on launched begun ended) (stands : on t .beginning)
    (mine : ∀ k, on' t k ↔ k = .taking) (others : ∀ u k, u ≠ t → (on' u k ↔ on u k)) :
    Course { x with thread := some t } on' launched begun ended := by
  cases course with
  | idle _ _ _ _ _ nobody | finished _ _ _ _ _ nobody => exact absurd stands (nobody t _)
  | taking _ _ _ _ sole | body _ _ _ _ sole | exiting _ _ _ _ sole | closing _ _ _ _ _ sole =>
    cases ((sole t _).mp stands).2
  | beginning active body _ early sole =>
    obtain ⟨rfl, _⟩ := (sole t _).mp stands
    exact .taking active body rfl early (sole_after sole mine others)

theorem Course.hasBody (course : Course x on launched begun ended) (stands : on t .taking) : x.hasBody = true := by
  cases course with
  | idle _ _ body | beginning _ body | taking _ body => exact body
  | finished _ _ _ _ _ nobody => exact absurd stands (nobody t _)
  | body _ _ _ _ sole | exiting _ _ _ _ sole | closing _ _ _ _ _ sole => cases ((sole t _).mp stands).2

theorem Course.take (course : Course x on launched begun ended) (stands : on t .taking)
    (mine : ∀ k, on' t k ↔ k = .body) (others : ∀ u k, u ≠ t → (on' u k ↔ on u k)) :
    Course { x with hasBody := false } on' launched (begun ++ [t]) ended := by
  cases course with
  | idle _ _ _ _ _ nobody | finished _ _ _ _ _ nobody => exact absurd stands (nobody t _)
  | beginning _ _ _ _ sole | body _ _ _ _ sole | exiting _ _ _ _ sole | closing _ _ _ _ _ sole =>
    cases ((sole t _).mp stands).2
  | taking active _ known early sole =>
    obtain ⟨rfl, _⟩ := (sole t _).mp stands
    exact .body active rfl known early (sole_after sole mine others)

theorem Course.finish (course : Course x on launched begun ended) (stands : on t .body) (panicked : Bool)
    (mine : ∀ k, on' t k ↔ k = .exiting) (others : ∀ u k, u ≠ t → (on' u k ↔ on u k)) :
    Course x on' launched begun (ended ++ [panicked]) := by
  cases course with
  | idle _ _ _ _ _ nobody | finished _ _ _ _ _ nobody => exact absurd stands (nobody t _)
  | beginning _ _ _ _ sole | taking _ _ _ _ sole | exiting _ _ _ _ sole | closing _ _ _ _ _ sole =>
    cases ((sole t _).mp stands).2
  | body active taken known early sole =>
    obtain ⟨rfl, _⟩ := (sole t _).mp stands
    exact .exiting active taken known early (sole_after sole mine others)

theorem Course.exit (course : Course x on launched begun ended) (stands : on t .exiting) (unheld : x.starter = none)
    (mine : ∀ k, on' t k ↔ k = .closing) (others : ∀ u k, u ≠ t → (on' u k ↔ on u k)) :
    Course { x with lifecycle := .exited } on' launched begun ended := by
  cases course with
  | idle _ _ _ _ _ nobody | finished _ _ _ _ _ nobody => exact absurd stands (nobody t _)
  | beginning _ _ _ _ sole | taking _ _ _ _ sole | body _ _ _ _ sole | closing _ _ _ _ _ sole =>
    cases ((sole t _).mp stands).2
  | exiting _ taken known early sole =>
    obtain ⟨rfl, _⟩ := (sole t _).mp stands
    exact .closing rfl unheld taken known early (sole_after sole mine others)

theorem Course.close (course : Course x on launched begun ended) (stands : on t .closing)
    (mine : ∀ k, ¬ on' t k) (others : ∀ u k, u ≠ t → (on' u k ↔ on u k)) :
    Course { x with finished := true } on' launched begun ended := by
  cases course with
  | idle _ _ _ _ _ nobody | finished _ _ _ _ _ nobody => exact absurd stands (nobody t _)
  | beginning _ _ _ _ sole | taking _ _ _ _ sole | body _ _ _ _ sole | exiting _ _ _ _ sole =>
    cases ((sole t _).mp stands).2
  | closing exited unheld taken known _ sole =>
    obtain ⟨rfl, _⟩ := (sole t _).mp stands
    refine .finished exited unheld taken known rfl fun u k here => ?_
    by_cases same : u = t
    · exact mine k (same ▸ here)
    · exact same ((sole u k).mp ((others u k same).mp here)).1

end

end Switchboard.Shift
