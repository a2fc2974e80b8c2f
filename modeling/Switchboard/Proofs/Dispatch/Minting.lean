import Mathlib
import Switchboard.Proofs.Dispatch.Membership
import Switchboard.Proofs.Dispatch.Traffic
import Switchboard.Proofs.Dispatch.Turn

/-!
Events in a network of event dispatchers that one thread uses. An event is minted in the moment a handler is called with
it, whether the notification was counted before or not, and by whoever wants one for himself. Main statement:
`events_fresh`.
-/

namespace Switchboard.Dispatch

variable {η : Type}

namespace Mintage

/-- What becomes of notifications at the leaves, and of events. -/
inductive Entry (η : Type) where
  /-- Somebody has an event minted for himself. -/
  | struck (e : Event)
  | counted (leaf : NodeId)
  /-- The notification goes straight to the handler. -/
  | passed (leaf : NodeId) (h : η)
  | refused (leaf : NodeId)
  | discarded (leaf : NodeId) (n : Nat)
  /-- A counted notification is taken for the handler. -/
  | drained (leaf : NodeId) (h : η)
  /-- A counted notification is taken and there is no handler. -/
  | lost (leaf : NodeId)
  | notified (h : η) (e : Event)

/-- The handler that is to be called now. -/
def Entry.due? : Entry η → Option η
  | passed _ h | drained _ h => some h
  | _ => none

def Entry.handed? : Entry η → Option Nat
  | notified _ e => some e.ordinal
  | _ => none

def Entry.minted? : Entry η → Option Nat
  | struck e | notified _ e => some e.ordinal
  | _ => none

def Entry.arriving (leaf : NodeId) : Entry η → Nat
  | counted l => if l = leaf then 1 else 0
  | _ => 0

def Entry.leaving (leaf : NodeId) : Entry η → Nat
  | drained l _ | lost l => if l = leaf then 1 else 0
  | discarded l n => if l = leaf then n else 0
  | _ => 0

def mark? (l : NodeId) (d : Dispatcher Nat Unit η) : Phase Unit η → Option (Entry η)
  | .admitting x =>
    match (d.offer x).1 with
    | .queued => some (.counted l)
    | .handed h => some (.passed l h)
    | .refused => some (.refused l)
  | .discarding => some (.discarded l d.pending)
  | .draining _ =>
    match d.take.1 with
    | .item _ (some h) => some (.drained l h)
    | .item _ none => some (.lost l)
    | .stopped => none
  | _ => none

inductive Action (η : Type) where
  | strike
  | move (a : Traffic.Action Unit η)

end Mintage

/-- A network of event dispatchers, the mint, and what has happened to notifications and events. -/
structure Mintage (η : Type) where
  traffic : Traffic Nat Unit η
  mint : Mint := {}
  log : List (Mintage.Entry η) := []

namespace Mintage

def noted (mint : Mint) (net : Network Nat Unit η) (fs : List (Traffic.Journey Unit η)) :
    Traffic.Action Unit η → Option (Entry η) × Mint
  | .advance =>
    match fs with
    | ⟨_, _, _, _, .going ⟨.at l p, _⟩⟩ :: _ => ((net.leaf? l).bind fun d => mark? l d p, mint)
    | _ => (none, mint)
  | .enter =>
    match fs with
    | ⟨_, _, _, _, .calling h _ _⟩ :: _ =>
      let (e, mint) := mint.strike
      (some (.notified h e), mint)
    | _ => (none, mint)
  | _ => (none, mint)

def act (s : Mintage η) (t : ThreadId) : Action η → Option (Mintage η)
  | .strike =>
    if Traffic.free (s.traffic.threads t) then
      let (e, mint) := s.mint.strike
      some { s with mint, log := s.log ++ [.struck e] }
    else none
  | .move a =>
    (s.traffic.act t a).map fun traffic =>
      let (entry, mint) := noted s.mint s.traffic.net (s.traffic.threads t) a
      ⟨traffic, mint, s.log ++ entry.toList⟩

def run (t : ThreadId) (s : Mintage η) (moves : List (Action η)) : Option (Mintage η) := Threads.run act s (moves.map (t, ·))

/-! ### What a move can do -/

variable {s s' : Mintage η} {t : ThreadId} {l k : NodeId} {d d' : Dispatcher Nat Unit η} {net : Network Nat Unit η}
  {fs : List (Traffic.Journey Unit η)} {p : Phase Unit η} {move : Move Unit η}

def calling? : List (Traffic.Journey Unit η) → Option η
  | ⟨_, _, _, _, .calling h _ _⟩ :: _ => some h
  | _ => none

def reached? : Move Unit η → Option η
  | .calls h _ _ => some h
  | _ => none

def backlog (net : Network Nat Unit η) (l : NodeId) : Nat := (net.leaf? l).elim 0 Dispatcher.pending

theorem backlog_setLeaf (leaf : net.leaf? l = some d) (d' : Dispatcher Nat Unit η) (k : NodeId) :
    backlog (net.setLeaf l d') k = if l = k then d'.pending else backlog net k := by
  rw [backlog, Network.leaf?_setLeaf leaf]
  split <;> rfl

theorem backlog_preset (leaf : net.leaf? l = some d) (x : Option Unit) (k : NodeId) :
    backlog (net.setLeaf l { d with preset := x }) k = backlog net k := by
  rw [backlog_setLeaf leaf]
  split
  · rename_i same
    rw [← same, backlog, leaf]
    rfl
  · rfl

theorem backlog_join (net : Network Nat Unit η) (n m k : NodeId) : backlog (net.join n m) k = backlog net k := by
  rw [backlog, backlog, Network.leaf?_join]

theorem backlog_leave (net : Network Nat Unit η) (n m k : NodeId) : backlog (net.leave n m).2 k = backlog net k := by
  rw [backlog, backlog, Network.leaf?_leave]

/-- What a section does to notifications: it leads to a handler exactly if one is due, and what comes into the backlog and
goes out of it is marked. -/
theorem mark_section (moved : p.advance t d = (move, d')) :
    (mark? l d p).bind Entry.due? = reached? move ∧
    d.pending + (mark? l d p).elim 0 (Entry.arriving l) = d'.pending + (mark? l d p).elim 0 (Entry.leaving l) ∧
    ∀ k, l ≠ k → (mark? l d p).elim 0 (Entry.arriving k) = 0 ∧ (mark? l d p).elim 0 (Entry.leaving k) = 0 := by
  cases p with
  | admitting x =>
    rcases offer_cases d x with ⟨_, offered⟩ | ⟨h, _, _, offered⟩ | ⟨_, _, offered⟩ <;>
    · simp only [Phase.advance, offered] at moved
      cases moved
      simp +contextual [mark?, offered, Entry.due?, reached?, Entry.arriving, Entry.leaving, Dispatcher.pending, Backlog.push,
        Backlog.size]
  | draining r =>
    rcases take_cases d with ⟨_, taken⟩ | ⟨x, rest, h, _, queue, _, taken⟩ | ⟨x, rest, _, queue, _, taken⟩
    · simp only [Phase.advance, taken] at moved
      cases moved
      simp [mark?, taken, reached?, Dispatcher.pending]
    all_goals
      have one : d.pending = rest + 1 := by
        rw [pending_eq, queue, List.length_cons, ← LawfulBacklog.size_eq]
        rfl
      simp only [Phase.advance, taken] at moved
      cases moved
      simp +contextual [mark?, taken, Entry.due?, reached?, Entry.arriving, Entry.leaving, one]
      rfl
  | discarding =>
    cases moved
    simp +contextual [mark?, Entry.due?, reached?, Entry.arriving, Entry.leaving, Dispatcher.pending, Backlog.size,
      Backlog.empty]
  | presetting =>
    simp only [Phase.advance] at moved
    split at moved <;>
    · cases moved
      simp [mark?, reached?]
  | reopening =>
    rcases claim_cases d t with ⟨_, _, claimed⟩ | ⟨u, _, _, claimed⟩ | ⟨_, claimed⟩ | ⟨_, _, claimed⟩ <;>
    · simp only [Phase.advance, claimed] at moved
      cases moved
      simp [mark?, reached?, Dispatcher.pending, Dispatcher.reopen]
  | binding h suspended =>
    cases moved
    cases suspended <;> simp [mark?, reached?, Dispatcher.bind, Dispatcher.suspend, Dispatcher.pending]
  | suspending =>
    cases moved
    simp [mark?, reached?, Dispatcher.suspend, Dispatcher.pending]
  | waiting =>
    cases moved
    cases d.gate.drainer <;> simp [mark?, reached?]

/-- A move of the one thread there is: it has an event minted, it calls the handler that is due with a new event, a section
of a leaf is performed, or nothing of this happens. -/
inductive Step (t : ThreadId) (s : Mintage η) : Mintage η → Prop
  | strike (quiet : calling? (s.traffic.threads t) = none) :
    Step t s { s with mint := s.mint.strike.2, log := s.log ++ [.struck s.mint.strike.1] }
  | notify {traffic h} (due : calling? (s.traffic.threads t) = some h) (done : calling? (traffic.threads t) = none)
    (net : traffic.net = s.traffic.net) :
    Step t s ⟨traffic, s.mint.strike.2, s.log ++ [.notified h s.mint.strike.1]⟩
  | serve {traffic l d p move d'} (quiet : calling? (s.traffic.threads t) = none) (leaf : s.traffic.net.leaf? l = some d)
    (moved : p.advance t d = (move, d')) (due : calling? (traffic.threads t) = reached? move)
    (net : traffic.net = s.traffic.net.setLeaf l d') : Step t s ⟨traffic, s.mint, s.log ++ (mark? l d p).toList⟩
  | pass {traffic} (quiet : calling? (s.traffic.threads t) = none) (still : calling? (traffic.threads t) = none)
    (net : ∀ k, backlog traffic.net k = backlog s.traffic.net k) : Step t s { s with traffic }

theorem calling_of_free (ready : Traffic.free fs = true) : calling? fs = none := by
  match fs with
  | [] | ⟨_, _, _, _, .going _⟩ :: _ | ⟨_, _, _, _, .handling _ _⟩ :: _ => rfl
  | ⟨_, _, _, _, .calling _ _ _⟩ :: _ => cases ready

/-- All calls but the innermost one wait for a handler. -/
def Waiting (fs : List (Traffic.Journey Unit η)) : Prop := ∀ j ∈ fs.tail, ∃ x c, j.stage = .handling x c

theorem waiting_of_turn {n : Nat} {net' : Network Nat Unit η} {fs' : List (Traffic.Journey Unit η)}
    {es : List (Traffic.Entry Unit η)} (waiting : Waiting fs) (turn : Traffic.Turn t n net fs net' fs' es) :
    Waiting fs' := by
  cases turn with
  | call _ _ ready =>
    match fs, ready with
    | [], _ => exact nofun
    | ⟨_, _, _, _, .handling x c⟩ :: _, _ => exact List.forall_mem_cons.mpr ⟨⟨x, c, rfl⟩, waiting⟩
  | stray | comeBack => exact fun j below => waiting j (List.mem_of_mem_tail below)
  | route | goOn | handOver | reply | enter | settleDirect | settleDrained | preset => exact waiting

theorem waiting_of_turn? {n : Nat} {net' : Network Nat Unit η} {fs' : List (Traffic.Journey Unit η)}
    {es : List (Traffic.Entry Unit η)} {a : Traffic.Action Unit η} (waiting : Waiting fs)
    (moved : Traffic.turn? t n net fs a = some (net', fs', es)) : Waiting fs' := by
  cases a with
  | join | leave =>
    simp only [Traffic.turn?, Option.ite_none_right_eq_some, Option.some.injEq, Prod.mk.injEq] at moved
    exact moved.2.2.1 ▸ waiting
  | _ => exact waiting_of_turn waiting (Traffic.turn_of_turn? rfl moved)

theorem calling_of_waiting {j : Traffic.Journey Unit η} (waiting : Waiting (j :: fs)) : calling? fs = none := by
  match fs with
  | [] => rfl
  | ⟨_, _, _, _, stage⟩ :: _ =>
    obtain ⟨x, c, rfl⟩ := waiting _ List.mem_cons_self
    rfl

theorem Step.unmarked {traffic : Traffic Nat Unit η} (quiet : calling? (s.traffic.threads t) = none)
    (still : calling? (traffic.threads t) = none) (net : ∀ k, backlog traffic.net k = backlog s.traffic.net k) :
    Step t s ⟨traffic, s.mint, s.log ++ []⟩ := by
  rw [List.append_nil]
  exact .pass quiet still net

theorem step_of_advance {net' : Network Nat Unit η} {fs' : List (Traffic.Journey Unit η)} {es : List (Traffic.Entry Unit η)}
    {n : Nat} (waiting : Waiting (s.traffic.threads t))
    (moved : Traffic.turn? t n s.traffic.net (s.traffic.threads t) .advance = some (net', fs', es)) :
    Step t s ⟨s.traffic.after t net' fs' es, (noted s.mint s.traffic.net (s.traffic.threads t) .advance).2,
      s.log ++ (noted s.mint s.traffic.net (s.traffic.threads t) .advance).1.toList⟩ := by
  have turn := Traffic.turn_of_turn? rfl moved
  have after : (s.traffic.after t net' fs' es).threads t = fs' := Traffic.after_threads_self
  generalize stack : s.traffic.threads t = fs at moved turn waiting
  match fs, moved with
  | ⟨_, _, _, _, .going c⟩ :: below, moved =>
    have quiet : calling? (s.traffic.threads t) = none := by rw [stack]; rfl
    cases turn with
    | call _ _ ready | preset _ ready => cases ready
    | route way =>
      obtain ⟨position, rounds⟩ := c
      cases position with
      | entering | replying => exact .unmarked quiet (by rw [after]; rfl) fun _ => rfl
      | «at» | handling => cases way
    | goOn leaf served | handOver leaf served | reply leaf served =>
      simp only [noted, leaf, Option.bind_some]
      exact .serve quiet leaf served (by rw [after]; rfl) rfl
    | stray absent =>
      simp only [noted, absent, Option.bind_none]
      exact .unmarked quiet (by rw [after]; exact calling_of_waiting waiting) fun _ => rfl
    | comeBack => exact .unmarked quiet (by rw [after]; exact calling_of_waiting waiting) fun _ => rfl

theorem step_of_settle {net' : Network Nat Unit η} {fs' : List (Traffic.Journey Unit η)} {es : List (Traffic.Entry Unit η)}
    {n : Nat} {v : Except Error Unit}
    (moved : Traffic.turn? t n s.traffic.net (s.traffic.threads t) (.settle v) = some (net', fs', es)) :
    Step t s { s with traffic := s.traffic.after t net' fs' es } := by
  have after : (s.traffic.after t net' fs' es).threads t = fs' := Traffic.after_threads_self
  generalize stack : s.traffic.threads t = fs at moved
  match fs, moved with
  | ⟨_, _, _, _, .handling _ ⟨.handling _ .direct, _⟩⟩ :: _, moved =>
    cases moved
    exact .pass (by rw [stack]; rfl) (by rw [after]; rfl) fun _ => rfl
  | ⟨_, _, _, _, .handling _ ⟨.handling _ (.drained _), _⟩⟩ :: _, moved =>
    cases moved
    exact .pass (by rw [stack]; rfl) (by rw [after]; rfl) fun _ => rfl

/-- Calls that are made, handlers that return, and what is changed without a call. -/
theorem step_aside {net' : Network Nat Unit η} {fs' : List (Traffic.Journey Unit η)} {es : List (Traffic.Entry Unit η)}
    {n : Nat} {a : Traffic.Action Unit η} (other : a ≠ .advance) (elsewhere : a ≠ .enter)
    (moved : Traffic.turn? t n s.traffic.net (s.traffic.threads t) a = some (net', fs', es)) :
    Step t s { s with traffic := s.traffic.after t net' fs' es } := by
  have after : (s.traffic.after t net' fs' es).threads t = fs' := Traffic.after_threads_self
  have idle : Traffic.free (s.traffic.threads t) = true → fs' = s.traffic.threads t →
      (∀ k, backlog net' k = backlog s.traffic.net k) → Step t s { s with traffic := s.traffic.after t net' fs' es } :=
    fun ready same still => .pass (calling_of_free ready) (by rw [after, same]; exact calling_of_free ready) still
  cases a with
  | advance => exact absurd rfl other
  | enter => exact absurd rfl elsewhere
  | call node op =>
    simp only [Traffic.turn?, Option.ite_none_right_eq_some, Bool.and_eq_true, Option.some.injEq, Prod.mk.injEq] at moved
    obtain ⟨⟨ready, _⟩, rfl, rfl, rfl⟩ := moved
    exact .pass (calling_of_free ready) (by rw [after]; rfl) fun _ => rfl
  | preset leaf x =>
    simp only [Traffic.turn?] at moved
    split at moved
    · rename_i d found
      simp only [Option.ite_none_right_eq_some, Option.some.injEq, Prod.mk.injEq] at moved
      obtain ⟨ready, rfl, rfl, rfl⟩ := moved
      exact idle ready rfl (backlog_preset found x)
    · cases moved
  | join node member =>
    simp only [Traffic.turn?, Option.ite_none_right_eq_some, Option.some.injEq, Prod.mk.injEq] at moved
    obtain ⟨ready, rfl, rfl, rfl⟩ := moved
    exact idle ready rfl (backlog_join _ node member)
  | leave node member =>
    simp only [Traffic.turn?, Option.ite_none_right_eq_some, Option.some.injEq, Prod.mk.injEq] at moved
    obtain ⟨ready, rfl, rfl, rfl⟩ := moved
    exact idle ready rfl (backlog_leave _ node member)
  | settle v => exact step_of_settle moved

theorem step_of_act {a : Action η} (waiting : Waiting (s.traffic.threads t)) (acted : s.act t a = some s') :
    Step t s s' ∧ Waiting (s'.traffic.threads t) := by
  cases a with
  | strike =>
    simp only [act, Option.ite_none_right_eq_some, Option.some.injEq] at acted
    obtain ⟨ready, rfl⟩ := acted
    exact ⟨.strike (calling_of_free ready), waiting⟩
  | move a =>
    obtain ⟨traffic, moved, rfl⟩ := Option.map_eq_some_iff.mp acted
    obtain ⟨⟨net', fs', es⟩, turned, rfl⟩ := Option.map_eq_some_iff.mp moved
    have after : (s.traffic.after t net' fs' es).threads t = fs' := Traffic.after_threads_self
    constructor
    · cases a with
      | advance => exact step_of_advance waiting turned
      | enter =>
        simp only [noted]
        generalize stack : s.traffic.threads t = fs at turned
        match fs, turned with
        | ⟨_, _, _, _, .calling h x c⟩ :: below, turned =>
          cases turned
          exact .notify (by rw [stack]; rfl) (by rw [after]; rfl) rfl
      | _ =>
        have step := step_aside (by simp) (by simp) turned
        simp only [noted, Option.toList_none, List.append_nil]
        exact step
    · show Waiting ((s.traffic.after t net' fs' es).threads t)
      rw [after]
      exact waiting_of_turn? waiting turned

/-! ### What has happened so far -/

variable {e a : Entry η} {log before after : List (Entry η)} {h : η}

def minted (log : List (Entry η)) : List Nat := log.filterMap Entry.minted?

def arrived (l : NodeId) (log : List (Entry η)) : Nat := (log.map (Entry.arriving l)).sum

def left (l : NodeId) (log : List (Entry η)) : Nat := (log.map (Entry.leaving l)).sum

def due? (log : List (Entry η)) : Option η := log.getLast?.bind Entry.due?

theorem mark_unminted (marked : mark? l d p = some e) : e.minted? = none := by
  unfold mark? at marked
  split at marked
  · split at marked <;> cases marked <;> rfl
  · cases marked
    rfl
  · split at marked <;> cases marked <;> rfl
  · cases marked

theorem split_snoc (split : log ++ [e] = before ++ a :: after) :
    (after = [] ∧ before = log ∧ a = e) ∨ ∃ rest, after = rest ++ [e] ∧ log = before ++ a :: rest := by
  rcases List.eq_nil_or_concat after with rfl | ⟨rest, last, rfl⟩
  · obtain ⟨rfl, same⟩ := List.append_inj' split rfl
    exact .inl ⟨rfl, rfl, (List.cons.inj same).1.symm⟩
  · rw [List.concat_eq_append, ← List.cons_append, ← List.append_assoc] at split
    obtain ⟨same, last⟩ := List.append_inj' split rfl
    exact .inr ⟨rest, by rw [last, List.concat_eq_append], same⟩

/-- What stands in the log around an entry: a handler that is due is called next, and only then; and an event has the
number that comes after those of the events minted before. -/
structure Attended (first : Nat) (before : List (Entry η)) (a : Entry η) (after : List (Entry η)) : Prop where
  followed : ∀ h, a.due? = some h → after = [] ∨ ∃ e rest, after = .notified h e :: rest
  called : ∀ h e, a = .notified h e → due? before = some h
  numbered : ∀ n, a.minted? = some n → n = first + (minted before).length

/-- What holds after any moves of thread `t` in network `net`, when number `first` was the next at the start. -/
structure Sound (net : Network Nat Unit η) (first : Nat) (t : ThreadId) (s : Mintage η) : Prop where
  due : calling? (s.traffic.threads t) = due? s.log
  next : s.mint.minted = first + (minted s.log).length
  numbers : minted s.log = List.range' first (minted s.log).length
  attended : ∀ before a after, s.log = before ++ a :: after → Attended first before a after
  balance : ∀ l, backlog net l + arrived l s.log = backlog s.traffic.net l + left l s.log

theorem due_snoc (log : List (Entry η)) (e : Entry η) : due? (log ++ [e]) = e.due? := by simp [due?]

theorem arrived_snoc (l : NodeId) (log : List (Entry η)) (e : Entry η) :
    arrived l (log ++ [e]) = arrived l log + e.arriving l := by
  simp [arrived]

theorem left_snoc (l : NodeId) (log : List (Entry η)) (e : Entry η) : left l (log ++ [e]) = left l log + e.leaving l := by
  simp [left]

/-- One more entry: it is the call of the handler that is due, or no handler is due. -/
theorem attended_snoc {first : Nat} (attended : ∀ before a after, log = before ++ a :: after → Attended first before a after)
    (follows : ∀ h, due? log = some h → ∃ n, e = .notified h n) (called : ∀ h n, e = .notified h n → due? log = some h)
    (numbered : ∀ n, e.minted? = some n → n = first + (minted log).length) (before : List (Entry η)) (a : Entry η)
    (after : List (Entry η)) (split : log ++ [e] = before ++ a :: after) : Attended first before a after := by
  rcases split_snoc split with ⟨rfl, rfl, rfl⟩ | ⟨rest, rfl, rfl⟩
  · exact ⟨fun _ _ => .inl rfl, called, numbered⟩
  · obtain ⟨followed, called, numbered⟩ := attended before a rest rfl
    refine ⟨fun h due => .inr ?_, called, numbered⟩
    rcases followed h due with rfl | ⟨n, rest, rfl⟩
    · obtain ⟨n, rfl⟩ := follows h ((due_snoc before a).trans due)
      exact ⟨n, [], rfl⟩
    · exact ⟨n, rest ++ [e], rfl⟩

variable {net₀ : Network Nat Unit η} {first : Nat}

/-- An event is minted now. -/
theorem minted_snoc (sound : s.Sound net₀ first t) (new : e.minted? = some s.mint.minted) :
    s.mint.strike.2.minted = first + (minted (s.log ++ [e])).length ∧
    minted (s.log ++ [e]) = List.range' first (minted (s.log ++ [e])).length := by
  have longer : minted (s.log ++ [e]) = minted s.log ++ [s.mint.minted] := by simp [minted, new]
  rw [longer, List.length_append, List.length_singleton, List.range'_concat, ← sound.numbers, Nat.one_mul, ← sound.next]
  exact ⟨congrArg (· + 1) sound.next, rfl⟩

theorem sound_step (sound : s.Sound net₀ first t) (step : Step t s s') : s'.Sound net₀ first t := by
  have silent : calling? (s.traffic.threads t) = none → due? s.log = none := fun quiet => sound.due.symm.trans quiet
  cases step with
  | strike quiet =>
    obtain ⟨next, numbers⟩ := minted_snoc sound (e := .struck s.mint.strike.1) rfl
    refine ⟨?_, next, numbers, attended_snoc sound.attended ?_ ?_ ?_, fun l => ?_⟩
    · rw [due_snoc]
      exact quiet
    · simp [silent quiet]
    · simp
    · rintro n ⟨⟩
      exact sound.next
    · rw [arrived_snoc, left_snoc]
      exact sound.balance l
  | @notify traffic h due done net =>
    have now : due? s.log = some h := sound.due.symm.trans due
    obtain ⟨next, numbers⟩ := minted_snoc sound (e := .notified h s.mint.strike.1) rfl
    refine ⟨?_, next, numbers, attended_snoc sound.attended ?_ ?_ ?_, fun l => ?_⟩
    · rw [due_snoc]
      exact done
    · intro h' due'
      obtain rfl := Option.some.inj (now.symm.trans due')
      exact ⟨_, rfl⟩
    · rintro _ _ ⟨⟩
      exact now
    · rintro n ⟨⟩
      exact sound.next
    · rw [arrived_snoc, left_snoc]
      exact net ▸ sound.balance l
  | @serve traffic l d p move d' quiet leaf moved due net =>
    obtain ⟨reached, here, elsewhere⟩ := mark_section (l := l) moved
    have balance : ∀ k, backlog net₀ k + (arrived k s.log + (mark? l d p).elim 0 (Entry.arriving k)) =
        backlog traffic.net k + (left k s.log + (mark? l d p).elim 0 (Entry.leaving k)) := by
      intro k
      have before := sound.balance k
      rw [net, backlog_setLeaf leaf]
      split
      · rename_i same
        subst same
        have pending : backlog s.traffic.net l = d.pending := by simp [backlog, leaf]
        omega
      · rename_i other
        obtain ⟨none, nothing⟩ := elsewhere k other
        omega
    cases marked : mark? l d p with
    | none =>
      rw [marked] at reached balance
      refine ⟨?_, ?_, ?_, ?_, fun k => ?_⟩
      all_goals rw [Option.toList_none, List.append_nil]
      · rw [due, ← reached]
        exact (silent quiet).symm
      · exact sound.next
      · exact sound.numbers
      · exact sound.attended
      · exact balance k
    | some e =>
      rw [marked] at reached balance
      have unminted := mark_unminted marked
      have same : minted (s.log ++ [e]) = minted s.log := by simp [minted, unminted]
      refine ⟨?_, ?_, ?_, attended_snoc sound.attended ?_ ?_ ?_, fun k => ?_⟩
      · rw [Option.toList_some, due_snoc, due, ← reached]
        rfl
      · rw [Option.toList_some, same]
        exact sound.next
      · rw [Option.toList_some, same]
        exact sound.numbers
      · simp [silent quiet]
      · rintro h n rfl
        cases unminted
      · simp [unminted]
      · rw [Option.toList_some, arrived_snoc, left_snoc]
        exact balance k
  | pass quiet still net =>
    refine ⟨still.trans (silent quiet).symm, sound.next, sound.numbers, sound.attended, fun l => ?_⟩
    rw [net]
    exact sound.balance l

theorem sound_fresh (net : Network Nat Unit η) (mint : Mint) (t : ThreadId) :
    Sound net mint.minted t ⟨⟨net, fun _ => [], []⟩, mint, []⟩ where
  due := rfl
  next := rfl
  numbers := rfl
  attended before a after split := absurd (congrArg List.length split) (by simp)
  balance _ := rfl

theorem run_sound {moves : List (Action η)} (sound : s.Sound net₀ first t) (waiting : Waiting (s.traffic.threads t))
    (ran : s.run t moves = some s') : s'.Sound net₀ first t := by
  refine (Threads.run_keeps (P := fun s => s.Sound net₀ first t ∧ Waiting (s.traffic.threads t)) ⟨sound, waiting⟩ ran ?_).1
  rintro s u a s' member ⟨sound, waiting⟩ acted
  obtain ⟨_, _, ⟨⟩⟩ := List.mem_map.mp member
  obtain ⟨step, waiting'⟩ := step_of_act waiting acted
  exact ⟨sound_step sound step, waiting'⟩

theorem handed_sublist (log : List (Entry η)) : (log.filterMap Entry.handed?).Sublist (minted log) := by
  induction log with
  | nil => exact List.Sublist.refl _
  | cons e rest ih =>
    cases e with
    | notified h e => exact ih.cons_cons e.ordinal
    | struck e => exact ih.cons e.ordinal
    | counted | passed | refused | discarded | drained | lost => exact ih

/-- One thread uses a network of event dispatchers, its handlers use it again, and events are minted on the side.
Handlers are called with events that come later and later. All events minted are numbered one after the other, and they
are those that somebody has minted for himself and those that handlers were called with: a notification that is counted,
discarded, refused, or taken while there is no handler has none. One that is taken for a handler, or goes straight to it,
is followed at once by the call of this handler, with an event that is minted then, and handlers are not called
otherwise. What is counted at a leaf is what is taken there, with a handler or without one, discarded, or still
there. -/
theorem events_fresh {net : Network Nat Unit η} {mint : Mint} {t : ThreadId} {moves : List (Action η)} {s : Mintage η}
    (ran : run t ⟨⟨net, fun _ => [], []⟩, mint, []⟩ moves = some s) :
    (s.log.filterMap Entry.handed?).Pairwise (· < ·) ∧
    s.mint.minted = mint.minted + (minted s.log).length ∧
    minted s.log = List.range' mint.minted (minted s.log).length ∧
    (∀ before a h after, s.log = before ++ a :: after → a.due? = some h →
      after = [] ∧ calling? (s.traffic.threads t) = some h ∨
        ∃ rest, after = .notified h ⟨mint.minted + (minted before).length⟩ :: rest) ∧
    (∀ before h e after, s.log = before ++ .notified h e :: after →
      ∃ front l, before = front ++ [.drained l h] ∨ before = front ++ [.passed l h]) ∧
    ∀ l, backlog net l + arrived l s.log = backlog s.traffic.net l + left l s.log := by
  have sound := run_sound (sound_fresh net mint t) (by simp [Waiting]) ran
  refine ⟨?_, sound.next, sound.numbers, ?_, ?_, sound.balance⟩
  · have increasing : (minted s.log).Pairwise (· < ·) := by
      rw [sound.numbers]
      exact List.pairwise_lt_range'
    exact increasing.sublist (handed_sublist s.log)
  · intro before a h after split called
    rcases (sound.attended before a after split).followed h called with rfl | ⟨e, rest, rfl⟩
    · refine .inl ⟨rfl, ?_⟩
      rw [sound.due, split, due_snoc]
      exact called
    · have unminted : a.minted? = none := by
        cases a with
        | passed | drained => rfl
        | struck | counted | refused | discarded | lost | notified => cases called
      have number := (sound.attended (before ++ [a]) (.notified h e) rest (by simp [split])).numbered _ rfl
      have same : minted (before ++ [a]) = minted before := by simp [minted, unminted]
      rw [same] at number
      exact .inr ⟨rest, by rw [← number]⟩
  · intro before h e after split
    have due := (sound.attended before _ after split).called h e rfl
    rcases List.eq_nil_or_concat before with rfl | ⟨front, a, rfl⟩
    · cases due
    · rw [List.concat_eq_append, due_snoc] at due
      rw [List.concat_eq_append]
      cases a with
      | passed l h' =>
        obtain rfl := Option.some.inj due
        exact ⟨front, l, .inr rfl⟩
      | drained l h' =>
        obtain rfl := Option.some.inj due
        exact ⟨front, l, .inl rfl⟩
      | struck | counted | refused | discarded | lost | notified => cases due

/-- Two leaves with handlers, a third one without, of which the last two are suspended, and a fan-out that serves the first
leaf twice. -/
def trio : Network Nat Unit Nat :=
  ⟨[.leaf { backlog := (0 : Nat), handler := some 7 },
    .leaf { gate := { suspended := true }, backlog := (0 : Nat), handler := some 8 },
    .leaf { gate := { suspended := true }, backlog := (1 : Nat) }, .fanOut [0, 1, 0]]⟩

/-- While it is notified through the fan-out, the first handler has an event minted and notifies the second leaf; while the
second one is notified of that, it notifies the first leaf. In the end the third leaf is reopened. -/
def nested : List (Action Nat) :=
  let call (n : NodeId) (r : Request Unit) : Action Nat := .move (.call n (.request r))
  let on (n : Nat) : List (Action Nat) := List.replicate n (.move .advance)
  let settle : Action Nat := .move (.settle (.ok ()))
  [call 3 (.dispatch ())] ++ on 3 ++ [.move .enter, .strike, call 1 (.dispatch ())] ++ on 3 ++ [settle] ++ on 6 ++
    [.move .enter, settle] ++ on 2 ++ [call 1 (.resume false)] ++ on 3 ++ [.move .enter, call 0 (.dispatch ())] ++ on 2 ++
    [.move .enter, settle] ++ on 1 ++ [settle] ++ on 1 ++ [.move .enter, settle] ++ on 2 ++
    [call 2 (.resume false)] ++ on 5

theorem events_fresh_nested : ∃ s, run 0 ⟨⟨trio, fun _ => [], []⟩, {}, []⟩ nested = some s ∧
    s.log.filterMap Entry.handed? = [0, 2, 3, 4, 5] ∧ (s.log.filterMap Entry.handed?).Pairwise (· < ·) ∧
    minted s.log = List.range' 0 6 ∧ arrived 1 s.log = 2 ∧ left 1 s.log = 2 ∧ left 2 s.log = 1 := by
  have ends : ∃ s, run 0 ⟨⟨trio, fun _ => [], []⟩, {}, []⟩ nested = some s ∧ (minted s.log).length = 6 ∧
      s.log.filterMap Entry.handed? = [0, 2, 3, 4, 5] ∧ arrived 1 s.log = 2 ∧ backlog s.traffic.net 1 = 0 ∧
      arrived 2 s.log = 0 ∧ backlog s.traffic.net 2 = 0 := ⟨_, rfl, rfl, rfl, rfl, rfl, rfl, rfl⟩
  obtain ⟨s, ran, count, handed, counted, none, uncounted, nothing⟩ := ends
  obtain ⟨increasing, _, numbers, _, _, balance⟩ := events_fresh ran
  have first : 0 + arrived 1 s.log = backlog s.traffic.net 1 + left 1 s.log := balance 1
  have second : 1 + arrived 2 s.log = backlog s.traffic.net 2 + left 2 s.log := balance 2
  rw [count] at numbers
  exact ⟨s, ran, handed, increasing, numbers, counted, by omega, by omega⟩

end Mintage

end Switchboard.Dispatch
