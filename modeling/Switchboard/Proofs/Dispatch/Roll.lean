import Mathlib
import Switchboard.Proofs.Dispatch.Cycle

/-!
The membership of a fan-out after a history of additions and removals. An addition is not refused when the member is
there already, so a member stands in the list as often as it was added since it was last removed, and is offered every
request as often (`membership_of_history`). What a fan-out has pending counts such a member's backlog each time, while
a reopening that drops the backlogs drops each of them once.
-/

namespace Switchboard.Dispatch

variable {β ι η : Type}

namespace Network

variable {net : Network β ι η} {m n : NodeId} {d : Dispatcher β ι η} {members : List NodeId}

/-! ### Fan-outs over leaves -/

theorem leaves_of_members (fanOut : net.members? n = some members)
    (flat : ∀ m ∈ members, (net.leaf? m).isSome) : net.leaves n = members.flatMap net.leaves := by
  have here := node?_of_members fanOut
  have room : n < net.nodes.length := lt_of_node (by simp [here])
  obtain ⟨depth, length⟩ := Nat.exists_eq_succ_of_ne_zero (Nat.ne_zero_of_lt room)
  rw [leaves, length, leavesWithin, here]
  refine List.flatMap_congr fun m listed => ?_
  obtain ⟨d, leaf⟩ := Option.isSome_iff_exists.mp (flat m listed)
  rw [leaves_of_leaf leaf, leavesWithin, node?_of_leaf leaf]

theorem pending_of_members [Backlog β ι] (fanOut : net.members? n = some members)
    (flat : ∀ m ∈ members, (net.leaf? m).isSome) : net.pending n = (members.map net.pending).sum := by
  rw [pending_of_leaves, leaves_of_members fanOut flat, pending_of_flatMap]

section

variable [Backlog β ι] [LawfulBacklog β ι]

theorem pending_discard (d : Dispatcher β ι η) : d.discard.2.pending = 0 :=
  (LawfulBacklog.size_eq _).trans (congrArg List.length LawfulBacklog.items_empty)

/-- Each backlog is counted where its member is met first: when it is met again there is nothing left to drop. -/
theorem sum_dropped (leaf : net.leaf? m = some d) (flat : ∀ k ∈ members, (net.leaf? k).isSome) :
    d.pending + ∑ k ∈ members.toFinset, (net.setLeaf m d.discard.2).pending k =
      ∑ k ∈ (m :: members).toFinset, net.pending k := by
  have now := leaf?_setLeaf (d := d.discard.2) leaf
  have emptied : (net.setLeaf m d.discard.2).pending m = 0 := by
    rw [pending_of_leaf ((now m).trans (if_pos rfl)), pending_discard]
  have others : ∀ k ∈ members.toFinset.erase m, (net.setLeaf m d.discard.2).pending k = net.pending k := by
    intro k listed
    obtain ⟨other, listed⟩ := Finset.mem_erase.mp listed
    obtain ⟨e, found⟩ := Option.isSome_iff_exists.mp (flat k (List.mem_toFinset.mp listed))
    rw [pending_of_leaf ((now k).trans ((if_neg (Ne.symm other)).trans found)), pending_of_leaf found]
  rw [← Finset.sum_erase _ emptied, Finset.sum_congr rfl others, ← pending_of_leaf leaf, List.toFinset_cons,
    ← Finset.add_sum_erase _ _ (Finset.mem_insert_self m _), Finset.erase_insert_eq_erase]

end

/-- A sum over a list counts no value twice exactly if all that is listed twice is zero. -/
theorem sum_listed_eq (weight : NodeId → Nat) :
    (members.map weight).sum = ∑ m ∈ members.toFinset, weight m ↔ ∀ m, 1 < members.count m → weight m = 0 := by
  have least : ∀ m ∈ members.toFinset, weight m ≤ members.count m * weight m := fun m listed =>
    Nat.le_mul_of_pos_left _ (List.count_pos_iff.mpr (List.mem_toFinset.mp listed))
  rw [Finset.sum_list_map_count, eq_comm]
  simp only [smul_eq_mul]
  rw [Finset.sum_eq_sum_iff_of_le least]
  constructor
  · intro single m twice
    have listed : m ∈ members.toFinset := List.mem_toFinset.mpr (List.count_pos_iff.mp (by omega))
    by_contra some
    have more : 1 * weight m < members.count m * weight m :=
      Nat.mul_lt_mul_of_pos_right twice (Nat.pos_of_ne_zero some)
    rw [Nat.one_mul, ← single m listed] at more
    exact Nat.lt_irrefl _ more
  · intro none m listed
    rcases Nat.lt_or_ge 1 (members.count m) with twice | once
    · rw [none m twice, Nat.mul_zero]
    · have here := List.count_pos_iff.mpr (List.mem_toFinset.mp listed)
      rw [show members.count m = 1 by omega, Nat.one_mul]

end Network

namespace Traffic

/-! ### Additions that stand -/

def Action.added? (n : NodeId) : Action ι η → Option NodeId
  | join node member => if node = n then some member else none
  | _ => none

def Action.removes (n m : NodeId) : Action ι η → Bool
  | leave node member => node == n && m == member
  | _ => false

/-- What was added to fan-out `n` and not removed later, in the order in which it was added. -/
def roll (n : NodeId) : List (Action ι η) → List NodeId
  | [] => []
  | a :: later => (a.added? n).toList.filter (fun m => !later.any (·.removes n m)) ++ roll n later

section

variable {n m : NodeId} {a : Action ι η} {history later : List (Action ι η)} {members : List NodeId}

theorem edited_eq (n : NodeId) (members : List NodeId) (a : Action ι η) :
    a.edited n members = members.filter (fun m => !a.removes n m) ++ (a.added? n).toList := by
  cases a with
  | join node member => by_cases same : node = n <;> simp [Action.edited, Action.removes, Action.added?, same]
  | leave node member =>
    by_cases same : node = n
    · simp [Action.edited, Action.removes, Action.added?, same, bne]
    · have stays : (node == n) = false := beq_false_of_ne same
      simp [Action.edited, Action.removes, Action.added?, same, stays]
  | _ => simp [Action.edited, Action.removes, Action.added?]

/-- A history adds its roll, and takes away the members from before that it removes. -/
theorem foldl_edited (n : NodeId) (members : List NodeId) (history : List (Action ι η)) :
    history.foldl (fun members a => a.edited n members) members =
      members.filter (fun m => !history.any (·.removes n m)) ++ roll n history := by
  induction history generalizing members with
  | nil => simp [roll]
  | cons a later ih =>
    have both : (fun m => !later.any (·.removes n m) && !a.removes n m) =
        fun m => !(a :: later).any (·.removes n m) :=
      funext fun m => by rw [List.any_cons, Bool.not_or, Bool.and_comm]
    rw [List.foldl_cons, ih, edited_eq, roll, List.filter_append, List.filter_filter, List.append_assoc, both]

theorem mem_roll : m ∈ roll n history ↔ ∃ before a after,
    history = before ++ a :: after ∧ a.added? n = some m ∧ after.any (·.removes n m) = false := by
  induction history with
  | nil => simp [roll]
  | cons a later ih =>
    rw [roll, List.mem_append, List.mem_filter, Option.mem_toList, ih]
    constructor
    · rintro (⟨added, stands⟩ | ⟨before, b, after, rfl, added, stands⟩)
      · exact ⟨[], a, later, rfl, added, by simpa using stands⟩
      · exact ⟨a :: before, b, after, rfl, added, stands⟩
    · rintro ⟨before, b, after, split, added, stands⟩
      cases before with
      | nil =>
        obtain ⟨rfl, rfl⟩ := List.cons.inj split
        exact .inl ⟨added, by simpa using stands⟩
      | cons c before =>
        obtain ⟨_, rfl⟩ := List.cons.inj split
        exact .inr ⟨before, b, after, rfl, added, stands⟩

theorem roll_append (n : NodeId) (history later : List (Action ι η)) :
    roll n (history ++ later) = (roll n history).filter (fun m => !later.any (·.removes n m)) ++ roll n later := by
  have whole := foldl_edited n [] (history ++ later)
  rw [List.foldl_append, foldl_edited n [] history, foldl_edited] at whole
  simpa using whole.symm

theorem removes_of_added (added : a.added? n = some m) (k : NodeId) : a.removes n k = false := by
  cases a with
  | join => rfl
  | _ => cases added

/-- No member is listed twice exactly if each addition of a member that was there already has been undone since. -/
theorem roll_nodup : (roll n history).Nodup ↔ ∀ before a after m, history = before ++ a :: after →
    a.added? n = some m → m ∈ roll n before → after.any (·.removes n m) = true := by
  constructor
  · rintro distinct before a after m rfl added here
    by_contra stands
    rw [Bool.not_eq_true] at stands
    have kept : m ∈ (roll n before).filter fun k => !(a :: after).any (·.removes n k) := by
      rw [List.mem_filter, List.any_cons, removes_of_added added, stands]
      exact ⟨here, rfl⟩
    have again : m ∈ roll n (a :: after) := mem_roll.mpr ⟨[], a, after, rfl, added, stands⟩
    rw [roll_append] at distinct
    exact List.disjoint_of_nodup_append distinct kept again
  · intro undone
    induction history with
    | nil => exact List.nodup_nil
    | cons a later ih =>
      have first : ((a.added? n).toList.filter fun m => !later.any (·.removes n m)).Nodup := by
        cases a.added? n with
        | none => exact List.nodup_nil
        | some m => exact (List.nodup_singleton m).filter _
      have others : (roll n later).Nodup := ih fun before b after m split added here =>
        undone (a :: before) b after m (congrArg (a :: ·) split) added (List.mem_append_right _ here)
      refine first.append others fun m mine theirs => ?_
      -- An addition that a later one repeats would have to be undone in between.
      obtain ⟨before, b, after, rfl, added, stands⟩ := mem_roll.mp theirs
      obtain ⟨here, kept⟩ := List.mem_filter.mp mine
      rw [List.any_append, Bool.not_or, Bool.and_eq_true] at kept
      have there : m ∈ roll n (a :: before) := List.mem_append_left _ (List.mem_filter.mpr ⟨here, kept.1⟩)
      rw [undone (a :: before) b after m rfl added there] at stands
      cases stands

end

/-! ### Histories of a network -/

section

variable [Backlog β ι] {s s' : Traffic β ι η} {moves : List (ThreadId × Action ι η)}

theorem run_members (ran : s.run moves = some s') (n : NodeId) :
    s'.net.members? n = (s.net.members? n).map fun members =>
      (moves.map Prod.snd).foldl (fun members a => a.edited n members) members := by
  refine Threads.run_traces (P := fun past later => later.net.members? n = (s.net.members? n).map fun members =>
    (past.map Prod.snd).foldl (fun members a => a.edited n members) members) [] (by simp) ran ?_
  intro past later u a s' _ before acted
  obtain ⟨⟨net, fs, es⟩, moved, rfl⟩ := Option.map_eq_some_iff.mp acted
  rw [after_net, (turn_edits moved).members, before, Option.map_map]
  simp [Function.comp_def]

theorem run_closed (known : ∀ move ∈ moves, move.2.Known s.net) (closed : s.net.Closed) (ran : s.run moves = some s') :
    s'.net.Closed := by
  refine (Threads.run_keeps (P := fun s => (∀ move ∈ moves, move.2.Known s.net) ∧ s.net.Closed) ⟨known, closed⟩ ran ?_).2
  rintro s u a s' member ⟨known, closed⟩ acted
  obtain ⟨kinds, closed'⟩ := act_closed acted (known _ member) closed
  exact ⟨fun move member => known_kinds (known move member) kinds, closed'⟩

end

/-! ### What a member is offered -/

/-- How often the fan-out that is watched has passed a request on to member `m`. -/
def offers (m : NodeId) (signs : List (Sign ι)) : Nat :=
  signs.countP fun
    | .offered k _ => k == m
    | .replied _ => false

section

variable {q : Request ι} {m : NodeId} {served members : List NodeId} {heard : List Reply}

theorem offers_append (m : NodeId) (signs more : List (Sign ι)) :
    offers m (signs ++ more) = offers m signs + offers m more := List.countP_append

theorem offers_exchanged (even : heard.length = served.length) (q : Request ι) (m : NodeId) :
    offers m (exchanged q served heard) = served.count m := by
  induction served generalizing heard with
  | nil => simp [exchanged, offers]
  | cons k served ih =>
    cases heard with
    | nil => cases even
    | cons r heard =>
      have rest := ih (Nat.succ.inj even)
      have first : exchanged q (k :: served) (r :: heard) = [.offered k q, .replied r] ++ exchanged q served heard := rfl
      rw [first, offers_append, rest, List.count_cons, Nat.add_comm]
      by_cases same : k == m <;> simp [offers, same]

/-- A fan-out offers a request to each member as often as it is listed: never more often, and as often once it has
replied. -/
theorem offers_of_watch [Backlog β ι] {s s' : Traffic β ι η} {t : ThreadId} {number : Nat} {node n : NodeId}
    {op : Operation ι η} {replies : List (NodeId × Reply)} {below : List (Journey ι η)} {outer : List (Round ι)}
    {moves : List (ThreadId × Action ι η)} {signs : List (Sign ι)} (closed : s.net.Closed)
    (known : ∀ move ∈ moves, move.2.Known s.net)
    (stack : s.threads t = ⟨number, node, op, replies, .going ⟨.entering n q, outer⟩⟩ :: below)
    (found : s.net.members? n = some members)
    (ran : s.watch t below.length outer.length ((t, .advance) :: moves) = some (s', signs)) (m : NodeId) :
    offers m signs ≤ members.count m ∧
      ((overall? below.length outer.length (s'.threads t)).isSome → offers m signs = members.count m) := by
  obtain ⟨_, s₁, more, acted, onward, rfl⟩ := watch_cons ran
  rw [if_pos rfl]
  obtain ⟨kinds, closed'⟩ := act_closed acted trivial closed
  have begun := act_begin closed stack found acted
  obtain ⟨_, underway | ended⟩ :=
    watch_stands (fun move member => known_kinds (known move member) kinds) closed' begun onward
  · have unreplied := overall_underway underway
    refine ⟨?_, fun replied => by rw [unreplied] at replied; cases replied⟩
    obtain ⟨newer, replies, stage, served, heard, k, later, c, stack', waits, fits, whole, at'⟩ := underway
    have last : offers m (Sign.offered k q :: (c.answer?.map Sign.replied).toList) ≤ [k].count m := by
      cases c.answer? <;> by_cases same : k == m <;> simp [offers, same, List.count_cons]
    have split : members = served ++ [k] ++ later := by simpa using at'.split
    rw [at'.signs, offers_append, offers_exchanged at'.even, split, List.count_append, List.count_append]
    exact Nat.le_add_right_of_le (Nat.add_le_add_left last _)
  · obtain ⟨replies, heard, stack', through⟩ := ended
    have same := offers_exchanged through.even q m
    rw [← through.signs] at same
    exact ⟨same.le, fun _ => same⟩

end

/-! ### A reopening that nothing disturbs -/

/-- Thread `t`'s call goes on alone until it returns this reply. -/
inductive Ends [Backlog β ι] (t : ThreadId) : Network β ι η → Call ι η → Reply → Network β ι η → Prop
  | returns {net net' c r} (last : net.advance t c = (.ends r, net')) : Ends t net c r net'
  | goes {net net₁ net' c c' r} (step : net.advance t c = (.goes c', net₁)) (onward : Ends t net₁ c' r net') :
    Ends t net c r net'

/-- What thread `t` is told when it reopens node `n`, dropping what is pending there, and nothing comes in between. -/
def Drops [Backlog β ι] (s : Traffic β ι η) (t : ThreadId) (n : NodeId) (report : Report) : Prop :=
  ∃ steps s' replies, s.run ((t, .call n (.request (.resume true))) :: List.replicate steps (t, .advance)) = some s' ∧
    s'.threads t = s.threads t ∧
    s'.log.getLast? = some (.returned s.log.length n (.request (.resume true)) replies (.report report))

section

variable [Backlog β ι] {s : Traffic β ι η} {t : ThreadId} {net net' : Network β ι η} {c : Call ι η} {r : Reply}

theorem run_of_ends (ends : Ends t net c r net') {number : Nat} {node : NodeId} {op : Operation ι η}
    {replies : List (NodeId × Reply)} {below : List (Journey ι η)} (same : s.net = net)
    (stack : s.threads t = ⟨number, node, op, replies, .going c⟩ :: below) :
    ∃ steps s' replies', s.run (List.replicate steps (t, .advance)) = some s' ∧ s'.threads t = below ∧
      s'.log.getLast? = some (.returned number node op replies' r) := by
  induction ends generalizing s replies with
  | @returns _ net' c r last =>
    have acted : s.act t .advance = some (s.after t net' below
        (Journey.remembered ⟨number, node, op, replies, .going c⟩ c.position ++
          [.returned number node op replies r])) := by
      simp only [act, stack, turn?, same, last, Journey.land, Option.map_some]
    refine ⟨1, _, replies, by rw [List.replicate_one, run, Threads.run, acted]; rfl, after_threads_self, ?_⟩
    rw [after_log, ← List.append_assoc, List.getLast?_concat]
  | @goes _ net₁ _ c c' _ step onward ih =>
    have acted : s.act t .advance = some (s.after t net₁
        (⟨number, node, op, replies ++ (leafReply? c.position (.goes c')).toList, .going c'⟩ :: below)
        (Journey.remembered ⟨number, node, op, replies, .going c⟩ c.position)) := by
      simp only [act, stack, turn?, same, step, Journey.land, Option.map_some, List.append_nil]
    obtain ⟨steps, s', replies', ran, there, last⟩ := ih after_net after_threads_self
    exact ⟨steps + 1, s', replies', by rw [List.replicate_succ, run, Threads.run, acted]; exact ran, there, last⟩

variable {m : NodeId} {d : Dispatcher β ι η} {members : List NodeId}

/-- A leaf that is a member drops its backlog, and the fan-out goes on. -/
theorem ends_member (leaf : net.leaf? m = some d) (later : List NodeId) (dropped : Nat)
    (served : Network.serve (.resume true later ⟨0, dropped + d.pending, []⟩) [] = .goes c)
    (onward : Ends t (net.setLeaf m d.discard.2) c r net') :
    Ends t net ⟨.entering m (.resume true), [.resume true (m :: later) ⟨0, dropped, []⟩]⟩ r net' := by
  let rounds : List (Round ι) := [.resume true (m :: later) ⟨0, dropped, []⟩]
  have none : net.members? m = none := Network.members?_of_leaf (by simp [leaf])
  have enters : net.advance t ⟨.entering m (.resume true), rounds⟩ = (.goes ⟨.at m .discarding, rounds⟩, net) := by
    simp only [Network.advance, none, Request.phase]
  have drops : net.advance t ⟨.at m .discarding, rounds⟩ =
      (.goes ⟨.replying (.report ⟨0, d.pending, []⟩), rounds⟩, net.setLeaf m d.discard.2) := advance_at leaf rfl
  have gathers : (net.setLeaf m d.discard.2).advance t ⟨.replying (.report ⟨0, d.pending, []⟩), rounds⟩ =
      (.goes c, net.setLeaf m d.discard.2) := congrArg (·, net.setLeaf m d.discard.2) served
  exact .goes enters (.goes drops (.goes gathers onward))

theorem ends_round [LawfulBacklog β ι] (flat : ∀ k ∈ members, (net.leaf? k).isSome) (dropped : Nat) :
    ∃ c net', Network.serve (.resume true members ⟨0, dropped, []⟩) [] = .goes c ∧
      Ends t net c (.report ⟨0, dropped + ∑ k ∈ members.toFinset, net.pending k, []⟩) net' := by
  induction members generalizing net dropped with
  | nil =>
    refine ⟨⟨.replying (.report ⟨0, dropped, []⟩), []⟩, net, rfl, .returns ?_⟩
    simp [Network.advance]
  | cons m later ih =>
    obtain ⟨here, flat⟩ := List.forall_mem_cons.mp flat
    obtain ⟨d, leaf⟩ := Option.isSome_iff_exists.mp here
    have still : ∀ k ∈ later, ((net.setLeaf m d.discard.2).leaf? k).isSome := fun k listed =>
      (Network.setLeaf_shape leaf).leaf k ▸ flat k listed
    obtain ⟨c, net', served, ends⟩ := ih still (dropped + d.pending)
    refine ⟨_, net', rfl, ends_member leaf later dropped served ?_⟩
    rwa [← Network.sum_dropped leaf flat, ← Nat.add_assoc]

theorem drops_of_leaves [LawfulBacklog β ι] {n : NodeId} (fanOut : s.net.members? n = some members)
    (flat : ∀ m ∈ members, (s.net.leaf? m).isSome) (ready : free (s.threads t) = true) :
    s.Drops t n ⟨0, ∑ m ∈ members.toFinset, s.net.pending m, []⟩ := by
  have accepted : s.net.accepts n (.request (.resume true) : Operation ι η) = true := by
    simp [Network.accepts, Network.node?_of_members fanOut]
  let j : Journey ι η :=
    ⟨s.log.length, n, .request (.resume true), [], .going ⟨.entering n (.resume true), []⟩⟩
  have called : s.act t (.call n (.request (.resume true))) =
      some (s.after t s.net (j :: s.threads t) [.called s.log.length t n (.request (.resume true))]) := by
    simp only [act, turn?, ready, accepted, Bool.and_self, if_true, Option.map_some]
    rfl
  obtain ⟨c, net', served, ends⟩ := ends_round (t := t) (η := η) flat 0
  have enters : s.net.advance t ⟨.entering n (.resume true), []⟩ = (.goes c, s.net) := by
    simp only [Network.advance, fanOut]
    exact congrArg (·, s.net) served
  rw [Nat.zero_add] at ends
  obtain ⟨steps, s', replies, ran, there, last⟩ := run_of_ends (.goes enters ends) after_net after_threads_self
  exact ⟨steps, s', replies, by rw [run, Threads.run, called]; exact ran, there, last⟩

end

/-- A fan-out that had no members lists, after any moves of any threads, what was added to it and not removed since.
No member is listed twice, and the length is the number of distinct members, exactly if each addition of a member that
was there already has been undone since. A member is offered a request as often as it is listed. Over leaves, what is
pending is counted as often, while an undisturbed reopening drops it once, so that the two numbers are the same exactly
if nothing is pending at a member that is listed more than once. -/
theorem membership_of_history [Backlog β ι] [LawfulBacklog β ι] {s₀ s : Traffic β ι η} {n : NodeId}
    {moves : List (ThreadId × Action ι η)} (closed : s₀.net.Closed) (known : ∀ move ∈ moves, move.2.Known s₀.net)
    (empty : s₀.net.members? n = some []) (ran : s₀.run moves = some s) :
    let members := roll n (moves.map Prod.snd)
    s.net.members? n = some members ∧
    (members.Nodup ↔ ∀ before a after m, moves.map Prod.snd = before ++ a :: after → a.added? n = some m →
      m ∈ roll n before → after.any (·.removes n m) = true) ∧
    (members.length = members.toFinset.card ↔ members.Nodup) ∧
    (∀ t number node op replies below outer q later s' signs,
      s.threads t = ⟨number, node, op, replies, .going ⟨.entering n q, outer⟩⟩ :: below →
      (∀ move ∈ later, move.2.Known s.net) →
      s.watch t below.length outer.length ((t, .advance) :: later) = some (s', signs) →
      ∀ m, offers m signs ≤ members.count m ∧
        ((overall? below.length outer.length (s'.threads t)).isSome → offers m signs = members.count m)) ∧
    ((∀ m ∈ members, (s.net.leaf? m).isSome) →
      s.net.pending n = (members.map s.net.pending).sum ∧
      (∀ t, free (s.threads t) = true → s.Drops t n ⟨0, ∑ m ∈ members.toFinset, s.net.pending m, []⟩) ∧
      (s.net.pending n = ∑ m ∈ members.toFinset, s.net.pending m ↔
        ∀ m, 1 < members.count m → s.net.pending m = 0)) := by
  intro members
  have found : s.net.members? n = some members := by
    rw [run_members ran, empty, Option.map_some, foldl_edited]
    rfl
  refine ⟨found, roll_nodup, ?_, ?_, ?_⟩
  · rw [List.card_toFinset, eq_comm, ← List.dedup_eq_self]
    exact ⟨fun same => (List.dedup_sublist members).eq_of_length same, congrArg List.length⟩
  · intro t number node op replies below outer q later s' signs stack known' watched
    exact offers_of_watch (run_closed known closed ran) known' stack found watched
  · intro flat
    have total := Network.pending_of_members found flat
    exact ⟨total, fun t ready => drops_of_leaves found flat ready, total ▸ Network.sum_listed_eq s.net.pending⟩

/-- Two suspended leaves with one command each, and a fan-out. -/
def pair (members : List NodeId) : Network (List Nat) Nat Nat :=
  ⟨[.leaf { gate := { suspended := true }, backlog := [4] }, .leaf { gate := { suspended := true }, backlog := [5] },
    .fanOut members]⟩

def doubling : List (ThreadId × Action Nat Nat) := [(0, .join 2 0), (0, .join 2 1), (0, .join 2 0)]

theorem membership_of_history_doubling :
    (pair []).Closed ∧ (∀ move ∈ doubling, move.2.Known (pair [])) ∧ (pair []).members? 2 = some [] ∧
    ∃ s : Traffic (List Nat) Nat Nat, run ⟨pair [], fun _ => [], []⟩ doubling = some s ∧
      s.net.members? 2 = some [0, 1, 0] ∧ s.net.pending 2 = 3 ∧ s.Drops 0 2 ⟨0, 2, []⟩ := by
  have closed : (pair []).Closed := by
    rintro m n ⟨members, found, member⟩
    match n, found with
    | 2, rfl => cases member
  have known : ∀ move ∈ doubling, move.2.Known (pair []) := by simp [doubling, Action.Known, pair, Network.node?]
  obtain ⟨s, ran, net, idle⟩ : ∃ s : Traffic (List Nat) Nat Nat,
      run ⟨pair [], fun _ => [], []⟩ doubling = some s ∧ s.net = pair [0, 1, 0] ∧ free (s.threads 0) = true :=
    ⟨_, rfl, rfl, rfl⟩
  obtain ⟨found, _, _, _, counted⟩ := membership_of_history (n := 2) closed known rfl ran
  have flat : ∀ m ∈ roll 2 (doubling.map Prod.snd), (s.net.leaf? m).isSome := by
    rw [net]
    decide
  obtain ⟨total, drops, _⟩ := counted flat
  rw [net] at total drops
  exact ⟨closed, known, rfl, s, ran, found, by rw [net]; exact total, drops 0 idle⟩

/-- A member that was added twice is offered each command twice. The fan-out then has three commands pending and drops
two of them, while none is left. -/
theorem member_listed_twice : ∃ (s s₁ s₂ : Traffic (List Nat) Nat Nat) (signs : List (Sign Nat)),
    run ⟨pair [], fun _ => [], []⟩ doubling = some s ∧ s.net.members? 2 = some [0, 1, 0] ∧ ¬ [0, 1, 0].Nodup ∧
    s.net.pending 2 = 3 ∧ s.Drops 0 2 ⟨0, 2, []⟩ ∧
    s.act 0 (.call 2 (.request (.dispatch 6))) = some s₁ ∧
    s₁.watch 0 0 0 (List.replicate 10 (0, .advance)) = some (s₂, signs) ∧
    overall? 0 0 (s₂.threads 0) = some (.outcome (.ok .queued)) ∧ offers 0 signs = 2 :=
  ⟨_, _, _, _, rfl, rfl, by decide, rfl, ⟨11, _, _, rfl, rfl, rfl⟩, rfl, rfl, rfl, rfl⟩

end Traffic

end Switchboard.Dispatch
