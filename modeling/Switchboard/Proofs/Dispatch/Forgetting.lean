import Switchboard.Proofs.Dispatch.Marking

/-!
Counting is queueing with identities forgotten. A dispatcher that counts events and one that queues whole items,
used by one thread in the same way, do the same: `lockstep`. What the thread asks for, inside its handlers and
outside, may depend on everything that has happened, except on which items they were.
-/

namespace Switchboard.Dispatch

variable {β ι η : Type}

abbrev forget : ι → Unit := fun _ => ()

theorem length_map (ι : Type) : BacklogMap List.length (forget : ι → Unit) where
  empty := rfl
  push _ _ := List.length_append
  pop q := by cases q <;> rfl
  items _ := List.map_const'.symm

/-! ### One thread and its program -/

/-- The call that a thread makes next, given what has happened. Without one, a handler that is running returns, and
outside of handlers the thread is through. -/
abbrev Program (ι η : Type) := List (Entry ι η) → Option (Operation ι η)

namespace Program

def next (p : Program ι η) (log : List (Entry ι η)) : List (Frame ι η) → Option (Action ι η)
  | [] => (p log).map .call
  | ⟨_, _, .at _⟩ :: _ => some .advance
  | ⟨_, _, .calling _ _ _⟩ :: _ => some .enter
  | ⟨_, _, .handling _ _⟩ :: _ => some ((p log).elim (.settle (.ok ())) .call)

/-- The same program for items, of which one is chosen for every event. -/
def fill (p : Program Unit η) (choose : List (Entry ι η) → ι) : Program ι η := fun log =>
  (p (log.map (Entry.map forget))).map (Operation.map fun _ => choose log)

end Program

namespace System

variable [Backlog β ι] [LawfulBacklog β ι]

/-- Thread `t` makes `n` moves, or fewer if it is through before. -/
def play (p : Program ι η) (t : ThreadId) : Nat → System β ι η → Option (System β ι η)
  | 0, s => some s
  | n + 1, s =>
    match p.next s.log (s.threads t) with
    | none => some s
    | some a => (s.act (fun _ x => x) t a).bind (play p t n)

end System

/-! ### A thread alone is never held up

Only waiting for another thread's drain can block, and no other thread drains. -/

section

variable [Backlog β ι] [LawfulBacklog β ι] {stamp : Nat → ι → ι} {t : ThreadId}

structure Sole (t : ThreadId) (d : Dispatcher β ι η) (fs : List (Frame ι η)) : Prop where
  drainer : ∀ u, d.gate.drainer = some u → u = t
  awake : ∀ f ∈ fs, f.stage ≠ .at .waiting

omit [Backlog β ι] [LawfulBacklog β ι] in
theorem operation_phase_awake (op : Operation ι η) : op.phase ≠ .waiting := by
  cases op with
  | request r =>
    cases r with
    | dispatch | suspend => nofun
    | resume discard => cases discard <;> nofun
  | dispatchPreset | bind => nofun

theorem turn_sole {n : Nat} {d d' : Dispatcher β ι η} {fs fs' : List (Frame ι η)} {es : List (Entry ι η)}
    (turn : Turn stamp t n d fs d' fs' es) (sole : Sole t d fs) : Sole t d' fs' := by
  obtain ⟨drainer, awake⟩ := sole
  cases turn with
  | call op =>
    exact ⟨drainer, List.forall_mem_cons.mpr ⟨fun waits => operation_phase_awake op (Stage.at.inj waits), awake⟩⟩
  | queue | refuse | lack | suspend | discard | bindSuspended | reopenInside | reopenEmpty | wake | settleDirect =>
    exact ⟨drainer, (List.forall_mem_cons.mp awake).2⟩
  | pass | choose | bindActive | take | lose | enter | settleDrained =>
    exact ⟨drainer, List.forall_mem_cons.mpr ⟨nofun, (List.forall_mem_cons.mp awake).2⟩⟩
  | claim =>
    refine ⟨fun u mark => (Option.some.inj mark).symm, ?_⟩
    exact List.forall_mem_cons.mpr ⟨nofun, (List.forall_mem_cons.mp awake).2⟩
  | wait other differs =>
    -- Only the drain of another thread is waited for.
    exact absurd (drainer _ other) differs
  | stop => exact ⟨nofun, (List.forall_mem_cons.mp awake).2⟩
  | preset => exact ⟨drainer, awake⟩

theorem advance_moves {d : Dispatcher β ι η} {p : Phase ι η} (awake : p ≠ .waiting) : (p.advance t d).1 ≠ .blocks := by
  cases p with
  | waiting => exact absurd rfl awake
  | admitting x =>
    rcases offer_cases d x with ⟨_, offer⟩ | ⟨h, _, _, offer⟩ | ⟨_, _, offer⟩ <;> simp [Phase.advance, offer]
  | presetting => cases preset : d.preset <;> simp [Phase.advance, preset]
  | suspending | discarding => simp [Phase.advance]
  | binding h suspended => cases suspended <;> simp [Phase.advance]
  | reopening =>
    rcases claim_cases d t with ⟨_, _, claim⟩ | ⟨u, _, _, claim⟩ | ⟨_, claim⟩ | ⟨_, _, claim⟩ <;>
      simp [Phase.advance, claim]
  | draining r =>
    rcases take_cases d with ⟨_, take⟩ | ⟨x, rest, h, _, _, _, take⟩ | ⟨x, rest, _, _, _, take⟩ <;>
      simp [Phase.advance, take]

omit [Backlog β ι] [LawfulBacklog β ι] in
theorem land_moves {m : Move ι η} (moves : m ≠ .blocks) (f : Frame ι η) (below : List (Frame ι η)) :
    ∃ landed, f.land below m = some landed := by
  cases m with
  | blocks => exact absurd rfl moves
  | goes | calls | ends => exact ⟨_, rfl⟩

theorem turn_of_next {p : Program ι η} {log : List (Entry ι η)} {d : Dispatcher β ι η} {fs : List (Frame ι η)}
    {a : Action ι η} (stamp : Nat → ι → ι) (n : Nat) (sole : Sole t d fs) (next : p.next log fs = some a) :
    ∃ moved, turn? stamp t n d fs a = some moved := by
  cases fs with
  | nil =>
    obtain ⟨op, _, rfl⟩ := Option.map_eq_some_iff.mp next
    exact ⟨_, rfl⟩
  | cons f below =>
    obtain ⟨m, op, stage⟩ := f
    cases stage with
    | «at» phase =>
      cases next
      have awake : phase.stamped (stamp m) ≠ .waiting := by
        have before := sole.awake _ List.mem_cons_self
        cases phase with
        | waiting => exact absurd rfl before
        | _ => nofun
      have moves : ((phase.stamped (stamp m)).advance t d).1 ≠ .blocks := advance_moves awake
      obtain ⟨landed, lands⟩ := land_moves moves ⟨m, op, .at (phase.stamped (stamp m))⟩ below
      exact ⟨_, congrArg (Option.map _) lands⟩
    | calling h x k =>
      cases next
      exact ⟨_, rfl⟩
    | handling x k =>
      cases decided : p log with
      | some op =>
        have call : some (Action.call op) = some a := by simpa [Program.next, decided] using next
        cases call
        exact ⟨_, rfl⟩
      | none =>
        have done : some (Action.settle (.ok ())) = some a := by simpa [Program.next, decided] using next
        cases done
        cases k <;> exact ⟨_, rfl⟩

end

namespace System

variable [Backlog β ι] [LawfulBacklog β ι] {p : Program ι η} {t : ThreadId}

theorem play_sole (n : Nat) (s : System β ι η) (sole : Sole t s.dispatcher (s.threads t)) :
    ∃ s', s.play p t n = some s' ∧ Sole t s'.dispatcher (s'.threads t) := by
  induction n generalizing s with
  | zero => exact ⟨s, rfl, sole⟩
  | succ n ih =>
    cases next : p.next s.log (s.threads t) with
    | none => exact ⟨s, by simp [play, next], sole⟩
    | some a =>
      obtain ⟨⟨d, fs, es⟩, moved⟩ := turn_of_next (fun _ x => x) s.log.length sole next
      have acted : s.act (fun _ x => x) t a = some (s.after t d fs es) := by simp [act, moved]
      have after : Sole t d fs := turn_sole (turn_of_turn? moved) sole
      obtain ⟨s', played, sole'⟩ := ih (s.after t d fs es) (by simpa using after)
      exact ⟨s', by simp [play, next, acted, played], sole'⟩

omit [LawfulBacklog β ι] in
theorem fresh_sole : Sole t (fresh : System β ι η).dispatcher ((fresh : System β ι η).threads t) where
  drainer := nofun
  awake := nofun

end System

/-! ### The same program with other items -/

theorem operation_fill (x : ι) (op : Operation Unit η) : (op.map fun _ => x).map forget = op := by
  cases op with
  | request r => cases r <;> rfl
  | dispatchPreset | bind => rfl

theorem next_forget (p : Program Unit η) (choose : List (Entry ι η) → ι) (log : List (Entry ι η))
    (fs : List (Frame ι η)) :
    p.next (log.map (Entry.map forget)) (fs.map (Frame.map forget)) =
      ((p.fill choose).next log fs).map (Action.map forget) := by
  have filled : p (log.map (Entry.map forget)) = ((p.fill choose) log).map (Operation.map forget) := by
    simp [Program.fill, Option.map_map, Function.comp_def, operation_fill]
  cases fs with
  | nil =>
    simp only [List.map_nil, Program.next, filled, Option.map_map]
    rfl
  | cons f below =>
    obtain ⟨m, op, stage⟩ := f
    cases stage with
    | «at» | calling => rfl
    | handling x k =>
      simp only [List.map_cons, Frame.map, Stage.map, Program.next, filled]
      cases p.fill choose log <;> rfl

theorem play_forget (p : Program Unit η) (choose : List (Entry ι η) → ι) (t : ThreadId) (n : Nat)
    (s : System (List ι) ι η) :
    (s.map List.length forget).play p t n = (s.play (p.fill choose) t n).map (System.map List.length forget) := by
  induction n generalizing s with
  | zero => rfl
  | succ n ih =>
    let e := s.map List.length forget
    have next : p.next e.log (e.threads t) = ((p.fill choose).next s.log (s.threads t)).map (Action.map forget) :=
      next_forget p choose s.log (s.threads t)
    show System.play p t (n + 1) e = _
    unfold System.play
    rw [next]
    cases (p.fill choose).next s.log (s.threads t) with
    | none => rfl
    | some a =>
      have acted : e.act (fun _ x => x) t (a.map forget) =
          (s.act (fun _ x => x) t a).map (System.map List.length forget) :=
        System.act_map (length_map ι) (fun _ _ => rfl) s t a
      simp only [Option.map_some, acted]
      cases s.act (fun _ x => x) t a with
      | none => rfl
      | some s' => exact ih s'

theorem returned_forget {log : List (Entry ι η)} {i m : Nat} {r : Reply} :
    (log.map (Entry.map forget))[i]? = some (.returned m r) ↔ log[i]? = some (.returned m r) := by
  rw [List.getElem?_map]
  cases log[i]? with
  | none => simp
  | some entry => cases entry <;> simp [Entry.map]

theorem started_forget {log : List (Entry ι η)} {i : Nat} {h : η} {k : Awaiting} :
    (log.map (Entry.map forget))[i]? = some (.started () h k) ↔ ∃ x, log[i]? = some (.started x h k) := by
  rw [List.getElem?_map]
  cases log[i]? with
  | none => simp
  | some entry => cases entry <;> simp [Entry.map]

/-- A thread alone uses a dispatcher that counts events, and one that queues items, with any item in the place of
each event. After every number of moves both have come equally far: the same has happened, the same calls have
returned the same, the same handlers have been entered at the same places, both gates are alike, and as many events are
counted as items are queued. -/
theorem lockstep (program : Program Unit η) (choose : List (Entry ι η) → ι) (t : ThreadId) (n : Nat) :
    ∃ (e : System Nat Unit η) (c : System (List ι) ι η),
      System.fresh.play program t n = some e ∧ System.fresh.play (program.fill choose) t n = some c ∧
      e.log = c.log.map (Entry.map forget) ∧
      (∀ (i m : Nat) (r : Reply), e.log[i]? = some (Entry.returned m r) ↔ c.log[i]? = some (Entry.returned m r)) ∧
      (∀ (i : Nat) (h : η) (k : Awaiting),
        e.log[i]? = some (Entry.started () h k) ↔ ∃ x, c.log[i]? = some (Entry.started x h k)) ∧
      e.dispatcher.gate = c.dispatcher.gate ∧ e.dispatcher.handler = c.dispatcher.handler ∧
      e.dispatcher.pending = c.dispatcher.backlog.length ∧
      (program.next e.log (e.threads t) = none ↔ (program.fill choose).next c.log (c.threads t) = none) := by
  obtain ⟨c, played, _⟩ := System.play_sole n (System.fresh : System (List ι) ι η) System.fresh_sole
  have forgotten := play_forget program choose t n System.fresh
  rw [System.fresh_map (length_map ι), played, Option.map_some] at forgotten
  refine ⟨c.map List.length forget, c, forgotten, played, rfl, ?_, ?_, rfl, rfl, rfl, ?_⟩
  · exact fun i m r => returned_forget
  · exact fun i h k => started_forget
  · have next := next_forget program choose c.log (c.threads t)
    show program.next (c.log.map _) ((c.threads t).map _) = none ↔ _
    rw [next, Option.map_eq_none_iff]

/-- The handler of the first of two queued events counts one more and closes the gate, so two are left. -/
example : ∃ s, (System.fresh : System Nat Unit Nat).play (fun log =>
      match log.countP (fun | .called .. => true | _ => false) with
      | 0 => some (.bind 7 true)
      | 1 | 2 => some (.request (.dispatch ()))
      | 3 => some (.request (.resume false))
      | 4 => some (.request (.dispatch ()))
      | 5 => some (.request .suspend)
      | _ => none) 0 20 = some s ∧ s.threads 0 = [] ∧ s.dispatcher.pending = 2 ∧
    s.log[18]? = some (Entry.returned 9 (.report { delivered := 1 })) := ⟨_, rfl, rfl, rfl, rfl⟩

end Switchboard.Dispatch
