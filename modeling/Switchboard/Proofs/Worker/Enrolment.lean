import Switchboard.Proofs.Worker.Resting

/-!
What becomes of the rosters of a workforce: what each change to the workforce leaves of the entries of a roster, of the
homes of the workers and of who is held. An entry comes when a worker is announced and goes when one is withdrawn.
-/

namespace Switchboard

namespace Workforce

variable {f : Workforce} {w v : WorkerId} {q r : RosterId} {x y : Worker} {thread : ThreadId}

def entries (f : Workforce) (r : RosterId) : List Roster.Entry := (f.roster r).entries

def listed (f : Workforce) (r : RosterId) : List WorkerId := (f.entries r).map Roster.Entry.worker

/-- The roster that a worker announces itself to when it starts, and leaves when it is let go. -/
def home? (f : Workforce) (w : WorkerId) : Option RosterId := (f.member? w).bind Member.home

def withdraw (f : Workforce) (r : RosterId) (w : WorkerId) : Workforce := f.setRoster r ((f.roster r).unregister w).2

/-- Makes a change that is about the home of a worker, if there is one and it is still there. -/
def atHome (f : Workforce) (w : WorkerId) (there : RosterId → Bool) (change : RosterId → Workforce) : Workforce :=
  match f.home? w with
  | some q => if there q then change q else f
  | none => f

def depart (f : Workforce) (w : WorkerId) (there : RosterId → Bool) : Workforce :=
  f.atHome w there fun q => f.withdraw q w

/-! ### Rosters -/

theorem entries_setRoster (f : Workforce) (q : RosterId) (roster : Roster) (r : RosterId) :
    (f.setRoster q roster).entries r = if q = r ∧ r < f.rosters.length then roster.entries else f.entries r := by
  simp only [entries, Workforce.roster, setRoster, List.getElem?_set]
  by_cases same : q = r
  · subst same
    by_cases there : q < f.rosters.length
    · simp [there]
    · simp [there]
  · simp [same]

theorem entries_beyond (beyond : f.rosters.length ≤ r) : f.entries r = [] := by
  rw [entries, Workforce.roster, List.getElem?_eq_none beyond]
  rfl

theorem entries_addRoster (f : Workforce) (r : RosterId) : f.addRoster.2.entries r = f.entries r := by
  simp only [entries, Workforce.roster, addRoster, List.getElem?_append]
  split
  · rfl
  · rename_i beyond
    rw [List.getElem?_eq_none (Nat.le_of_not_lt beyond)]
    cases r - f.rosters.length <;> rfl

theorem any_listed (f : Workforce) (r : RosterId) (w : WorkerId) :
    ((f.roster r).entries.any fun e => e.worker == w) = decide (w ∈ f.listed r) := by
  rw [Bool.eq_iff_iff]
  simp [listed, entries]

theorem setRoster_self (f : Workforce) (r : RosterId) : f.setRoster r (f.roster r) = f := by
  have rosters : f.rosters.set r (f.roster r) = f.rosters := by
    by_cases there : r < f.rosters.length
    · simp [Workforce.roster, there]
    · exact List.set_eq_of_length_le (Nat.le_of_not_lt there)
  rw [setRoster, rosters]

theorem announce_listed (listed : w ∈ f.listed r) : f.announce r w thread = (false, f) := by
  unfold announce
  cases f.worker? w with
  | none => rfl
  | some x => simp only [Roster.register, any_listed, listed, decide_true, if_true, setRoster_self]

theorem announce_new (found : f.worker? w = some x) (new : w ∉ f.listed r) :
    f.announce r w thread = (true, f.setRoster r ⟨f.entries r ++ [⟨w, x.name, thread⟩]⟩) := by
  simp only [announce, found, Roster.register, any_listed, new, decide_false, Bool.false_eq_true, if_false, entries]

theorem entries_announce (found : f.worker? w = some x) (q r : RosterId) :
    (f.announce q w thread).2.entries r =
      if q = r ∧ r < f.rosters.length ∧ w ∉ f.listed r then f.entries r ++ [⟨w, x.name, thread⟩] else f.entries r := by
  by_cases listed : w ∈ f.listed q
  · rw [announce_listed listed, if_neg]
    rintro ⟨rfl, _, new⟩
    exact new listed
  · rw [announce_new found listed, entries_setRoster]
    by_cases same : q = r
    · subst same
      simp [listed]
    · simp [same]

theorem entries_withdraw (f : Workforce) (q : RosterId) (w : WorkerId) (r : RosterId) :
    (f.withdraw q w).entries r = if q = r then (f.entries r).filter (fun e => e.worker != w) else f.entries r := by
  rw [withdraw, entries_setRoster]
  by_cases same : q = r
  · subst same
    by_cases there : q < f.rosters.length
    · simp [there, Roster.unregister, entries]
    · simp [there, entries_beyond (Nat.le_of_not_lt there)]
  · simp [same]

theorem announceAtHome_eq (f : Workforce) (w : WorkerId) (thread : ThreadId) (there : RosterId → Bool) :
    f.announceAtHome w thread there = f.atHome w there fun q => (f.announce q w thread).2 := rfl

/-- A change that is about one roster leaves the others as they are. -/
theorem entries_atHome {change : RosterId → Workforce} {after : List Roster.Entry} {comes : Prop} [Decidable comes]
    (changed : ∀ q, (change q).entries r = if q = r ∧ comes then after else f.entries r) (there : RosterId → Bool) :
    (f.atHome w there change).entries r = if f.home? w = some r ∧ there r ∧ comes then after else f.entries r := by
  unfold atHome
  cases f.home? w with
  | none => simp
  | some q =>
    by_cases held : there q = true
    · simp only [held, if_true, changed, Option.some.injEq]
      by_cases same : q = r
      · subst same
        simp [held]
      · simp [same]
    · simp only [held, Bool.false_eq_true, if_false, Option.some.injEq]
      rw [if_neg]
      rintro ⟨rfl, held', _⟩
      exact held held'

theorem entries_announceAtHome (found : f.worker? w = some x) (there : RosterId → Bool) (r : RosterId) :
    (f.announceAtHome w thread there).entries r =
      if f.home? w = some r ∧ there r ∧ r < f.rosters.length ∧ w ∉ f.listed r then
        f.entries r ++ [⟨w, x.name, thread⟩]
      else f.entries r :=
  entries_atHome (fun q => entries_announce found q r) there

theorem entries_depart (f : Workforce) (w : WorkerId) (there : RosterId → Bool) (r : RosterId) :
    (f.depart w there).entries r =
      if f.home? w = some r ∧ there r then (f.entries r).filter (fun e => e.worker != w) else f.entries r := by
  have withdrawn : ∀ q, (f.withdraw q w).entries r =
      if q = r ∧ True then (f.entries r).filter (fun e => e.worker != w) else f.entries r := fun q => by
    simp only [entries_withdraw, and_true]
  simpa only [depart, and_true] using entries_atHome (w := w) withdrawn there

@[simp] theorem entries_letGo : (f.letGo w).entries r = f.entries r := rfl

@[simp] theorem entries_update (change : Worker → Worker) : (f.update w change).entries r = f.entries r := rfl

/-! ### Homes and holders -/

@[simp] theorem home?_update (change : Worker → Worker) : (f.update w change).home? v = f.home? v := by
  simp only [home?, member?, update, List.getElem?_modify]
  cases f.members[v]? with
  | none => rfl
  | some m => by_cases same : w = v <;> simp [same]

@[simp] theorem home?_letGo : (f.letGo w).home? v = f.home? v := by
  simp only [home?, member?, letGo, List.getElem?_modify]
  cases f.members[v]? with
  | none => rfl
  | some m => by_cases same : w = v <;> simp [same]

theorem home?_of_members {f' : Workforce} (same : f'.members = f.members) : f'.home? v = f.home? v := by
  rw [home?, home?, member?, member?, same]

theorem isAlive_of_members {f' : Workforce} (same : f'.members = f.members) : f'.isAlive v = f.isAlive v := by
  rw [isAlive, isAlive, member?, member?, same]

theorem worker?_of_members {f' : Workforce} (same : f'.members = f.members) : f'.worker? v = f.worker? v := by
  rw [worker?, worker?, member?, member?, same]

/-- A worker is released when it is let go and then leaves its home. -/
theorem release_eq (found : f.worker? w = some x) (there : RosterId → Bool) :
    f.release w there = (f.letGo w).depart w there := by
  obtain ⟨m, member, _⟩ := Option.map_eq_some_iff.mp found
  unfold release depart atHome
  rw [home?_letGo, home?, member, Option.bind_some]
  rfl

theorem entries_release (found : f.worker? w = some x) (there : RosterId → Bool) (r : RosterId) :
    (f.release w there).entries r =
      if f.home? w = some r ∧ there r then (f.entries r).filter (fun e => e.worker != w) else f.entries r := by
  rw [release_eq found, entries_depart, home?_letGo, entries_letGo]

theorem members_atHome {change : RosterId → Workforce} (changed : ∀ q, (change q).members = f.members)
    (there : RosterId → Bool) : (f.atHome w there change).members = f.members := by
  unfold atHome
  split
  · split
    · exact changed _
    · rfl
  · rfl

theorem members_depart (f : Workforce) (w : WorkerId) (there : RosterId → Bool) :
    (f.depart w there).members = f.members :=
  members_atHome (fun q => (rfl : (f.withdraw q w).members = f.members)) there

theorem members_announce (f : Workforce) (r : RosterId) (w : WorkerId) (thread : ThreadId) :
    (f.announce r w thread).2.members = f.members := by
  unfold announce
  split <;> rfl

theorem members_announceAtHome (f : Workforce) (w : WorkerId) (thread : ThreadId) (there : RosterId → Bool) :
    (f.announceAtHome w thread there).members = f.members :=
  members_atHome (fun q => members_announce f q w thread) there

theorem getElem?_hire (f : Workforce) (name : String) (o : WorkerOptions) (v : WorkerId) :
    (f.hire name o).2.members[v]? = if v = f.members.length then
      some
        { worker :=
            { name, threadName := Worker.threadNameOf o.threadPrefix name, stop := (f.tokens.derive o.parent).1 }
          home := o.home }
    else f.members[v]? := by
  simp only [hire, List.getElem?_append]
  rcases Nat.lt_trichotomy v f.members.length with before | last | beyond
  · rw [if_pos before, if_neg (Nat.ne_of_lt before)]
  · simp [last]
  · have place : v - f.members.length ≠ 0 := Nat.sub_ne_zero_of_lt beyond
    rw [if_neg (Nat.lt_asymm beyond), if_neg (Nat.ne_of_gt beyond), List.getElem?_eq_none (Nat.le_of_lt beyond)]
    cases rest : v - f.members.length with
    | zero => exact absurd rest place
    | succ => rfl

theorem home?_hire (name : String) (o : WorkerOptions) (v : WorkerId) :
    (f.hire name o).2.home? v = if v = f.members.length then o.home else f.home? v := by
  rw [home?, member?, getElem?_hire]
  split <;> rfl

theorem isAlive_hire (name : String) (o : WorkerOptions) (v : WorkerId) :
    (f.hire name o).2.isAlive v = (v == f.members.length || f.isAlive v) := by
  rw [isAlive, member?, getElem?_hire]
  by_cases new : v = f.members.length
  · simp [new]
  · simp [new, isAlive, member?]

theorem worker?_eq_none : f.worker? w = none ↔ f.members.length ≤ w := by
  rw [worker?, Option.map_eq_none_iff, member?, List.getElem?_eq_none_iff]

theorem worker_of_alive (alive : f.isAlive w = true) : ∃ x, f.worker? w = some x := by
  obtain ⟨m, member, _⟩ := (Option.any_eq_true _ _).mp alive
  exact ⟨m.worker, by rw [worker?, member, Option.map_some]⟩

theorem isRunning_eq (f : Workforce) (w : WorkerId) :
    f.isRunning w = (f.isAlive w && (f.worker? w).any Worker.isRunning) := by
  rw [isRunning, isAlive, worker?]
  cases f.member? w <;> rfl

end Workforce

end Switchboard
