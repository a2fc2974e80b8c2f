import Mathlib.Logic.Relation
import Switchboard.Proofs.Attribute.Serving
import Switchboard.Scenario.Thread

/-!
Lines in a scenario. A thread that executes a line leaves the registry, asks the owner, lets go of it and answers. Where
capabilities answer through their tables and rows perform no steps, all that comes to what `Registry.execute` does at
once (`executeLine_leads`).
-/

namespace Switchboard.Scenario

open Attribute (OwnerId Request Registry)

/-! ### Capabilities as tables -/

def RowObject.row (r : RowObject) (o : OwnerId) (place : Nat) : Attribute.Row World :=
  { descriptor := r.spec.descriptor
    action := fun request w => ((r.perform request).1, w.setRow o place (r.perform request).2) }

namespace World

def tables (w : World) (o : OwnerId) : List (Attribute.Row World) :=
  ((w.capabilities[o]?).elim [] Capability.rows).mapIdx fun place r => r.row o place

/-- Every capability answers through its table, and no row performs a step. -/
def Tabular (w : World) : Prop :=
  ∀ c ∈ w.capabilities, c.raw = false ∧ ∀ r ∈ c.rows, ∀ request, r.stepFor request = none

theorem table_rows (c : Capability) (o : OwnerId) :
    (c.rows.mapIdx fun place r => r.row o place).map Attribute.Row.descriptor = c.table := by
  apply List.ext_getElem?
  simp [Capability.table, RowObject.row, Function.comp_def]

theorem query_eq {w : World} (tabular : w.Tabular) (o : OwnerId) (name : String) (request : Request) :
    w.query o name request =
      (Attribute.serve (w.tables o) o name request w).state.giveText
        (Attribute.serve (w.tables o) o name request w).outcome := by
  unfold query Attribute.serve tables
  cases found : w.capabilities[o]? with
  | none => rfl
  | some c =>
    obtain ⟨cooked, idle⟩ := tabular c (List.mem_of_getElem? found)
    simp only [Option.elim_some, table_rows, cooked, Bool.false_eq_true, if_false, List.getElem?_mapIdx]
    cases Attribute.route c.table name request with
    | answer | refuse => rfl
    | perform place =>
      cases placed : c.rows[place]? with
      | none => simp [placed]
      | some r =>
        have none := idle r (List.mem_of_getElem? placed) request
        simp [placed, none, RowObject.row]

theorem serve_hold (w s : World) (o : OwnerId) (name : String) (request : Request) (h : Handle) :
    Attribute.serve (w.tables o) o name request (s.hold h) =
      { Attribute.serve (w.tables o) o name request s with
        state := (Attribute.serve (w.tables o) o name request s).state.hold h } := by
  unfold Attribute.serve
  cases Attribute.route ((w.tables o).map Attribute.Row.descriptor) name request with
  | answer | refuse => rfl
  | perform place =>
    cases placed : (w.tables o)[place]? with
    | none => simp only [placed]
    | some row =>
      obtain ⟨r, _, rfl⟩ := Option.map_eq_some_iff.mp (List.getElem?_mapIdx.symm.trans placed)
      simp only [placed]
      rfl

theorem release_hold (w : World) (o : OwnerId) (v : Value) :
    (w.hold (.capability o)).release (.capability o) v = ⟨w, .give v, []⟩ := by
  simp [release, hold]

end World

/-! ### Executing a line -/

def Moves (a b : World × Thread) : Prop := a.2.step a.1 = .moved b.1 b.2

def Next.thread (n : Next) (id : ThreadId) (below : List Frame) : World × Thread :=
  (n.world, { id, task := n.task, frames := n.frames ++ below })

/-- A thread that executes a line answers it in the end as `Registry.execute` does, and leaves the same registry and the
same capabilities behind. -/
theorem World.executeLine_leads {w : World} (tabular : w.Tabular) (i : RegistryId) (r : Registry) (line radix : String)
    (id : ThreadId) (below : List Frame) :
    let x := r.execute w.ownerAlive w.tables line radix (w.setRegistry i (r.receive w.ownerAlive line radix).2)
    Relation.ReflTransGen Moves ((w.executeLine i r line radix).thread id below)
      ((x.state.answer (.response x.response)).thread id below) := by
  intro x
  simp only [x]
  unfold Registry.execute executeLine
  generalize r.receive w.ownerAlive line radix = received
  obtain ⟨passage, r'⟩ := received
  cases passage with
  | answers response => exact .refl
  | asks o l =>
    let s := w.setRegistry i r'
    let served := Attribute.serve (w.tables o) o l.name l.request s
    have queried : (s.hold (.capability o)).query o l.name l.request =
        (served.state.hold (.capability o)).giveText served.outcome := by
      have held : (s.hold (.capability o)).Tabular := tabular
      have serves := serve_hold w s o l.name l.request (.capability o)
      rw [query_eq held]
      exact congrArg (fun x => giveText x.state x.outcome) serves
    have asked : Moves ((s.ask o l.name l.request (.response l)).thread id below)
        (((served.state.hold (.capability o)).giveText served.outcome).thread id
          (.release (.capability o) :: .response l :: below)) :=
      congrArg (fun n => Thread.follow _ _ (some n)) queried
    have released : Moves (((served.state.hold (.capability o)).giveText served.outcome).thread id
          (.release (.capability o) :: .response l :: below))
        ((served.state.giveText served.outcome).thread id (.response l :: below)) :=
      congrArg (fun n => Thread.follow _ _ (some n)) (release_hold served.state o _)
    have answered : Moves ((served.state.giveText served.outcome).thread id (.response l :: below))
        ((served.state.answer (.response (l.response served.outcome))).thread id below) := rfl
    exact .head asked (.head released (.single answered))

end Switchboard.Scenario
