import Switchboard.Proofs.Dispatch.Calls

/-!
A dispatcher never looks into its items: put others in their places, and it makes the same moves with those
(`System.run_map`). So the marks on parcels are for the log only, and a run over marked items is the run over
plain ones with marks added (`run_unmarked`).
-/

namespace Switchboard.Dispatch

variable {β γ ι κ η : Type}

/-! ### The same with other items -/

/-- A backlog of items is taken to one of their images. -/
structure BacklogMap [Backlog β ι] [LawfulBacklog β ι] [Backlog γ κ] [LawfulBacklog γ κ] (b : β → γ) (f : ι → κ) :
    Prop where
  empty : b Backlog.empty = Backlog.empty
  push : ∀ q x, b (Backlog.push q x) = Backlog.push (b q) (f x)
  pop : ∀ q, Backlog.pop? (b q) = (Backlog.pop? q).map fun (x, rest) => (f x, b rest)
  items : ∀ q, LawfulBacklog.items (b q) = (LawfulBacklog.items q).map f

theorem listMap (f : ι → κ) : BacklogMap (List.map f) f where
  empty := rfl
  push q x := by simp [Backlog.push]
  pop q := by cases q <;> rfl
  items _ := rfl

section

variable (b : β → γ) (f : ι → κ)

def Dispatcher.map (d : Dispatcher β ι η) : Dispatcher γ κ η :=
  { gate := d.gate, backlog := b d.backlog, handler := d.handler, preset := d.preset.map f }

def Request.map : Request ι → Request κ
  | dispatch x => .dispatch (f x)
  | suspend => .suspend
  | resume discard => .resume discard

def Operation.map : Operation ι η → Operation κ η
  | request r => .request (r.map f)
  | dispatchPreset => .dispatchPreset
  | bind h suspended => .bind h suspended

def Phase.map : Phase ι η → Phase κ η
  | admitting x => .admitting (f x)
  | presetting => .presetting
  | suspending => .suspending
  | discarding => .discarding
  | binding h suspended => .binding h suspended
  | reopening => .reopening
  | waiting => .waiting
  | draining r => .draining r

def Move.map : Move ι η → Move κ η
  | goes p => .goes (p.map f)
  | calls h x k => .calls h (f x) k
  | ends r => .ends r
  | blocks => .blocks

def Stage.map : Stage ι η → Stage κ η
  | .at p => .at (p.map f)
  | calling h x k => .calling h (f x) k
  | handling x k => .handling (f x) k

def Frame.map (g : Frame ι η) : Frame κ η := ⟨g.call, g.op.map f, g.stage.map f⟩

def Entry.map : Entry ι η → Entry κ η
  | called n t op => .called n t (op.map f)
  | bound h => .bound h
  | queued x => .queued (f x)
  | passed x => .passed (f x)
  | taken x => .taken (f x)
  | discarded x => .discarded (f x)
  | started x h k => .started (f x) h k
  | finished x k verdict => .finished (f x) k verdict
  | returned n r => .returned n r

def Action.map : Action ι η → Action κ η
  | call op => .call (op.map f)
  | advance => .advance
  | enter => .enter
  | settle verdict => .settle verdict
  | preset x => .preset (x.map f)

def System.map (s : System β ι η) : System γ κ η where
  dispatcher := s.dispatcher.map b f
  threads t := (s.threads t).map (Frame.map f)
  log := s.log.map (Entry.map f)

def Dispatcher.Taken.map : Dispatcher.Taken ι η → Dispatcher.Taken κ η
  | stopped => .stopped
  | item x h => .item (f x) h

end

/-! ### Moves do not look into items -/

section

variable {b : β → γ} {f : ι → κ}

theorem operation_phase_map (op : Operation ι η) : (op.map f).phase = op.phase.map f := by
  cases op with
  | request r =>
    cases r with
    | dispatch | suspend => rfl
    | resume discard => cases discard <;> rfl
  | dispatchPreset | bind => rfl

theorem free_map (fs : List (Frame ι η)) : free (fs.map (Frame.map f)) = free fs := by
  cases fs with
  | nil => rfl
  | cons g below =>
    obtain ⟨m, op, stage⟩ := g
    cases stage <;> rfl

theorem land_map (g : Frame ι η) (below : List (Frame ι η)) (m : Move ι η) :
    (g.map f).land (below.map (Frame.map f)) (m.map f) =
      (g.land below m).map fun (fs, es) => (fs.map (Frame.map f), es.map (Entry.map f)) := by
  cases m <;> rfl

variable [Backlog β ι] [LawfulBacklog β ι] [Backlog γ κ] [LawfulBacklog γ κ] (maps : BacklogMap b f)
include maps

theorem offer_map (d : Dispatcher β ι η) (x : ι) :
    (d.map b f).offer (f x) = ((d.offer x).1, (d.offer x).2.map b f) := by
  unfold Dispatcher.offer
  cases queues : d.gate.queues with
  | true => simp [Dispatcher.map, queues, maps.push]
  | false => cases bound : d.handler <;> simp [Dispatcher.map, queues, bound]

theorem pending_map (d : Dispatcher β ι η) : (d.map b f).pending = d.pending := by
  rw [pending_eq, pending_eq]
  show (LawfulBacklog.items (b d.backlog)).length = _
  rw [maps.items, List.length_map]

theorem claim_map (d : Dispatcher β ι η) (me : ThreadId) :
    (d.map b f).claim me = ((d.claim me).1, (d.claim me).2.map b f) := by
  unfold Dispatcher.claim
  rw [pending_map maps]
  cases drainer : d.gate.drainer with
  | none =>
    by_cases none : d.pending = 0
    · simp [Dispatcher.map, Dispatcher.reopen, drainer, none]
    · simp [Dispatcher.map, drainer, none]
  | some u => simp [Dispatcher.map, Dispatcher.reopen, drainer]

theorem take_map (d : Dispatcher β ι η) :
    (d.map b f).take = ((d.take).1.map f, (d.take).2.map b f) := by
  have popped := maps.pop d.backlog
  unfold Dispatcher.take
  cases suspended : d.gate.suspended with
  | true => simp [Dispatcher.map, suspended, Dispatcher.Taken.map]
  | false =>
    cases next : Backlog.pop? d.backlog with
    | none =>
      rw [next] at popped
      simp [Dispatcher.map, suspended, popped, Dispatcher.Taken.map]
    | some next' =>
      obtain ⟨x, rest⟩ := next'
      rw [next] at popped
      simp [Dispatcher.map, suspended, popped, Dispatcher.Taken.map]

theorem advance_map (me : ThreadId) (d : Dispatcher β ι η) (p : Phase ι η) :
    (p.map f).advance me (d.map b f) = ((p.advance me d).1.map f, (p.advance me d).2.map b f) := by
  cases p with
  | admitting x =>
    simp only [Phase.map, Phase.advance, offer_map maps]
    rcases offer_cases d x with ⟨_, offer⟩ | ⟨h, _, _, offer⟩ | ⟨_, _, offer⟩ <;> simp [offer, Move.map]
  | presetting =>
    cases preset : d.preset <;> simp [Phase.map, Phase.advance, Dispatcher.map, preset, Move.map]
  | suspending => rfl
  | discarding =>
    simp only [Phase.map, Phase.advance, Dispatcher.discard, pending_map maps]
    simp [Move.map, Dispatcher.map, Dispatcher.reopen, maps.empty]
  | binding h suspended => cases suspended <;> rfl
  | reopening =>
    simp only [Phase.map, Phase.advance, claim_map maps]
    rcases claim_cases d me with ⟨_, _, claim⟩ | ⟨u, _, _, claim⟩ | ⟨_, claim⟩ | ⟨_, _, claim⟩ <;>
      simp [claim, Move.map, Phase.map]
  | waiting => cases drainer : d.gate.drainer <;> simp [Phase.map, Phase.advance, Dispatcher.map, drainer, Move.map]
  | draining r =>
    simp only [Phase.map, Phase.advance, take_map maps]
    rcases take_cases d with ⟨_, take⟩ | ⟨x, rest, h, _, _, _, take⟩ | ⟨x, rest, _, _, _, take⟩ <;>
      simp [take, Dispatcher.Taken.map, Move.map, Phase.map]

theorem remembered_map (d : Dispatcher β ι η) (p : Phase ι η) :
    (p.map f).remembered (d.map b f) = (p.remembered d).map (Entry.map f) := by
  cases p with
  | admitting x =>
    simp only [Phase.map, Phase.remembered, offer_map maps]
    rcases offer_cases d x with ⟨_, offer⟩ | ⟨h, _, _, offer⟩ | ⟨_, _, offer⟩ <;> simp [offer, Entry.map]
  | discarding =>
    simp only [Phase.map, Phase.remembered, Dispatcher.map, maps.items, List.map_map]
    rfl
  | draining r =>
    simp only [Phase.map, Phase.remembered, take_map maps]
    rcases take_cases d with ⟨_, take⟩ | ⟨x, rest, h, _, _, _, take⟩ | ⟨x, rest, _, _, _, take⟩ <;>
      simp [take, Dispatcher.Taken.map, Entry.map]
  | presetting | suspending | binding | reopening | waiting => rfl

variable {stamp : Nat → ι → ι} {stamp' : Nat → κ → κ} (stamps : ∀ n x, f (stamp n x) = stamp' n (f x))
include stamps

theorem turn_map (t : ThreadId) (n : Nat) (d : Dispatcher β ι η) (fs : List (Frame ι η)) (a : Action ι η) :
    turn? stamp' t n (d.map b f) (fs.map (Frame.map f)) (a.map f) =
      (turn? stamp t n d fs a).map fun (d, fs, es) => (d.map b f, fs.map (Frame.map f), es.map (Entry.map f)) := by
  cases a with
  | call op =>
    simp only [turn?, Action.map, free_map]
    cases free fs with
    | true => simp [Frame.map, Stage.map, Entry.map, operation_phase_map]
    | false => rfl
  | preset x =>
    simp only [turn?, Action.map, free_map]
    cases free fs with
    | true => rfl
    | false => rfl
  | advance =>
    cases fs with
    | nil => rfl
    | cons g below =>
      obtain ⟨m, op, stage⟩ := g
      cases stage with
      | «at» p =>
        have stamped : (p.map f).stamped (stamp' m) = (p.stamped (stamp m)).map f := by
          cases p with
          | admitting x => exact congrArg Phase.admitting (stamps m x).symm
          | _ => rfl
        have land := land_map (f := f) ⟨m, op, .at (p.stamped (stamp m))⟩ below
        simp only [Frame.map, Stage.map] at land
        simp only [turn?, Action.map, List.map_cons, Frame.map, Stage.map, stamped, advance_map maps,
          remembered_map maps, land, Option.map_map]
        congr 1
        funext landed
        simp
      | calling | handling => rfl
  | enter =>
    cases fs with
    | nil => rfl
    | cons g below =>
      obtain ⟨m, op, stage⟩ := g
      cases stage <;> rfl
  | settle v =>
    cases fs with
    | nil => rfl
    | cons g below =>
      obtain ⟨m, op, stage⟩ := g
      cases stage with
      | handling x k => cases k <;> rfl
      | «at» | calling => rfl

namespace System

theorem act_map (s : System β ι η) (t : ThreadId) (a : Action ι η) :
    (s.map b f).act stamp' t (a.map f) = (s.act stamp t a).map (System.map b f) := by
  have moved := turn_map maps stamps t s.log.length s.dispatcher (s.threads t) a
  unfold act
  simp only [System.map, List.length_map, moved, Option.map_map]
  congr 1
  funext moved
  obtain ⟨d, fs, es⟩ := moved
  simp only [Function.comp, after, System.map, List.map_append, mk.injEq, true_and, and_true]
  funext u
  split <;> rfl

theorem run_map (s : System β ι η) (moves : List (ThreadId × Action ι η)) :
    (s.map b f).run stamp' (moves.map fun m => (m.1, m.2.map f)) = (s.run stamp moves).map (System.map b f) := by
  induction moves generalizing s with
  | nil => rfl
  | cons move rest ih =>
    obtain ⟨t, a⟩ := move
    rw [List.map_cons, run, Threads.run, act_map maps stamps, run, Threads.run]
    cases s.act stamp t a with
    | none => rfl
    | some s' => exact ih s'

omit stamps in
theorem fresh_map : (fresh : System β ι η).map b f = fresh := by
  simp [System.map, fresh, Dispatcher.map, Dispatcher.idle, maps.empty]

end System

end

/-! ### Without the marks -/

theorem unmark_mark (a : Action ι η) : (a.map (Parcel.mk 0)).map Parcel.item = a := by
  cases a with
  | call op =>
    cases op with
    | request r => cases r <;> rfl
    | dispatchPreset | bind => rfl
  | preset x => cases x <;> rfl
  | advance | enter | settle => rfl

/-- Every run over plain items is a marked run without its marks. -/
theorem run_unmarked (moves : List (ThreadId × Action ι η)) :
    System.fresh.run (fun _ x => x) moves =
      (System.fresh.run Parcel.stamp (moves.map fun m => (m.1, m.2.map (Parcel.mk 0)))).map
        (System.map (List.map Parcel.item) Parcel.item) := by
  have maps : BacklogMap (List.map Parcel.item) (Parcel.item : Parcel ι → ι) := listMap _
  have same : ((moves.map fun m => (m.1, m.2.map (Parcel.mk 0))).map fun m => (m.1, m.2.map Parcel.item)) = moves := by
    simp [List.map_map, Function.comp_def, unmark_mark]
  have run : (System.map (List.map Parcel.item) Parcel.item System.fresh).run (fun _ x => x) _ =
      (System.fresh.run Parcel.stamp _).map _ :=
    System.run_map maps (fun _ _ => rfl) System.fresh (moves.map fun m => (m.1, m.2.map (Parcel.mk 0)))
  rw [System.fresh_map maps, same] at run
  exact run

end Switchboard.Dispatch
