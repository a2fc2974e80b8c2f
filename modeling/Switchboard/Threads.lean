/-!
Threads, and what several of them do to something that they share: moves, one after the other and each with the thread that
makes it, in any order of the threads. A run ends where a thread cannot make its move. Main statement: what holds at
first and is kept by every move holds in the end.
-/

namespace Switchboard

/-- Threads are told apart by a number; what else a thread is does not matter here. -/
abbrev ThreadId := Nat

namespace Threads

variable {σ α : Type} {act : σ → ThreadId → α → Option σ} {s s' : σ} {moves : List (ThreadId × α)}

/-- Performs moves one after the other, each by the thread named with it. -/
def run (act : σ → ThreadId → α → Option σ) (s : σ) : List (ThreadId × α) → Option σ
  | [] => some s
  | (t, a) :: rest => (act s t a).bind fun s => run act s rest

theorem run_append (act : σ → ThreadId → α → Option σ) (s : σ) (moves more : List (ThreadId × α)) :
    run act s (moves ++ more) = (run act s moves).bind fun s => run act s more := by
  induction moves generalizing s with
  | nil => rfl
  | cons move rest ih =>
    obtain ⟨t, a⟩ := move
    simp only [List.cons_append, run, Option.bind_assoc, ih]

/-- What is kept may speak of the moves made so far. -/
theorem run_traces {P : List (ThreadId × α) → σ → Prop} (past : List (ThreadId × α)) (holds : P past s)
    (ran : run act s moves = some s')
    (step : ∀ past s t a s', (t, a) ∈ moves → P past s → act s t a = some s' → P (past ++ [(t, a)]) s') :
    P (past ++ moves) s' := by
  induction moves generalizing past s with
  | nil =>
    cases ran
    rwa [List.append_nil]
  | cons move rest ih =>
    obtain ⟨t, a⟩ := move
    obtain ⟨s₁, acted, ran⟩ := Option.bind_eq_some_iff.mp ran
    have first := step past s t a s₁ List.mem_cons_self holds acted
    have whole := ih (past ++ [(t, a)]) first ran
      fun past s u b s' member => step past s u b s' (List.mem_cons_of_mem _ member)
    rwa [List.append_assoc, List.singleton_append] at whole

/-- What holds at first and is kept by every move holds in the end. -/
theorem run_keeps {P : σ → Prop} (holds : P s) (ran : run act s moves = some s')
    (step : ∀ s t a s', (t, a) ∈ moves → P s → act s t a = some s' → P s') : P s' :=
  run_traces (P := fun _ => P) [] holds ran fun _ => step

end Threads

end Switchboard
