import Switchboard.Proofs.Dispatch.Routing

/-!
A fan-out behaves as the list of the leaves below it. What a call does at the leaves, and what it replies, depends only
on which leaves come below the node that was called, in which order, however they are nested. Main statement:
`nested_as_flat`.
-/

namespace Switchboard.Dispatch

variable {β ι η : Type}

namespace Traffic

/-! ### What can be seen of a call -/

/-- Where a call is, if it is at a leaf, and else what it does next that leaves a trace. -/
def bearing (net : Network β ι η) (node : NodeId) (op : Operation ι η) (replies : List (NodeId × Reply))
    (p : Position ι η) : Position ι η :=
  match op with
  | .request q => net.bearing node q replies p
  | _ => p

/-- A call without the fan-outs that it came through. -/
def Journey.view (net : Network β ι η) (j : Journey ι η) : Journey ι η :=
  { j with
    stage := match j.stage with
      | .going c => .going ⟨bearing net j.node j.op j.replies c.position, []⟩
      | .calling h x c => .calling h x ⟨c.position, []⟩
      | .handling x c => .handling x ⟨c.position, []⟩ }

theorem bearing_congr {a b : Network β ι η} (leaves : a.leaves = b.leaves) (node : NodeId) (op : Operation ι η)
    (replies : List (NodeId × Reply)) (p : Position ι η) : bearing a node op replies p = bearing b node op replies p := by
  cases op with
  | request q => cases p <;> simp only [bearing, Network.bearing, Network.aim, leaves]
  | dispatchPreset | bind => rfl

theorem view_congr {a b : Network β ι η} (leaves : a.leaves = b.leaves) :
    (Journey.view a : Journey ι η → Journey ι η) = Journey.view b := by
  funext j
  simp only [Journey.view, bearing_congr leaves]

theorem free_of_views {a : Network β ι η} {fs fs' : List (Journey ι η)}
    (views : fs.map (Journey.view a) = fs'.map (Journey.view a)) : free fs = free fs' := by
  have seen : ∀ fs : List (Journey ι η), free (fs.map (Journey.view a)) = free fs := by
    intro fs
    cases fs with
    | nil => rfl
    | cons j below =>
      obtain ⟨m, node, op, replies, stage⟩ := j
      cases stage <;> rfl
  rw [← seen fs, views, seen]

/-- A call that has come to a leaf, or back, is where its bearing tells. -/
theorem bearing_of_arrived {net : Network β ι η} {m : Nat} {node : NodeId} {op : Operation ι η}
    {replies : List (NodeId × Reply)} {c : Call ι η} (sound : Journey.Sound net ⟨m, node, op, replies, .going c⟩)
    (arrived : routing c = false) : bearing net node op replies c.position = c.position := by
  cases op with
  | dispatchPreset | bind => rfl
  | request q =>
    obtain ⟨position, rounds⟩ := c
    cases position with
    | «at» | handling => rfl
    | entering => cases arrived
    | replying r =>
      cases rounds with
      | cons => cases arrived
      | nil =>
        obtain ⟨leaves, combined⟩ := Network.stands_done sound.stands
        show net.aim node q replies = .replying r
        rw [combined]
        exact Network.aim_done leaves

/-! ### Traffic that looks the same -/

variable [Backlog β ι]

structure Sound (s : Traffic β ι η) : Prop where
  nested : s.net.WellNested
  calls : ∀ t, ∀ j ∈ s.threads t, j.Sound s.net
  log : ∀ e ∈ s.log, e.Sound s.net

variable {s s' : Traffic β ι η} {t : ThreadId} {net : Network β ι η} {fs : List (Journey ι η)} {es : List (Entry ι η)}

theorem after_sound (sound : s.Sound) (turn : Turn t s.log.length s.net (s.threads t) net fs es) :
    (s.after t net fs es).Sound := by
  obtain ⟨same, nested⟩ := turn_shape turn sound.nested
  refine ⟨nested, ?_, ?_⟩
  · refine forall_after (P := fun _ fs => ∀ j ∈ fs, j.Sound net) (turn_sound turn sound.nested (sound.calls t)) ?_
    exact fun u _ j member => (sound.calls u j member).shape same
  · intro e member
    rcases List.mem_append.mp member with member | member
    · exact (sound.log e member).shape same
    · exact turn_remembers turn (sound.calls t) e member

/-- Two networks in use that differ in nothing but the way to the leaves. -/
structure Mirrors (s s' : Traffic β ι η) : Prop where
  sound : s.Sound
  sound' : s'.Sound
  net : s.net.Alike s'.net
  log : s.log = s'.log
  views : ∀ t, (s.threads t).map (Journey.view s.net) = (s'.threads t).map (Journey.view s.net)

/-- Moves that look the same lead to states that look the same. -/
theorem Mirrors.after (mirrors : s.Mirrors s') {net net' : Network β ι η} {fs fs' : List (Journey ι η)}
    (turn : Turn t s.log.length s.net (s.threads t) net fs es)
    (turn' : Turn t s'.log.length s'.net (s'.threads t) net' fs' es)
    (alike : net.Alike net') (views : fs.map (Journey.view net) = fs'.map (Journey.view net)) :
    (s.after t net fs es).Mirrors (s'.after t net' fs' es) where
  sound := after_sound mirrors.sound turn
  sound' := after_sound mirrors.sound' turn'
  net := alike
  log := by simp only [after_log, mirrors.log]
  views u := by
    have same : (Journey.view net : Journey ι η → Journey ι η) = Journey.view s.net :=
      view_congr (turn_shape turn mirrors.sound.nested).1.leaves.symm
    by_cases mine : u = t
    · subst mine
      simpa only [after_threads_self, after_net] using views
    · simp only [after_threads_other mine, after_net, same, mirrors.views u]

omit [Backlog β ι] in
theorem Mirrors.symm (mirrors : s.Mirrors s') : s'.Mirrors s where
  sound := mirrors.sound'
  sound' := mirrors.sound
  net := mirrors.net.symm
  log := mirrors.log.symm
  views u := by
    rw [← view_congr (funext mirrors.net.leaves)]
    exact (mirrors.views u).symm

/-! ### Steps between leaves cannot be seen -/

theorem view_route (nested : net.WellNested) {m : Nat} {node : NodeId} {op : Operation ι η}
    {replies : List (NodeId × Reply)} {c c' : Call ι η} (sound : Journey.Sound net ⟨m, node, op, replies, .going c⟩)
    (way : routing c = true) (advanced : net.advance t c = (.goes c', net)) :
    Journey.view net ⟨m, node, op, replies, .going c'⟩ = Journey.view net ⟨m, node, op, replies, .going c⟩ := by
  cases op with
  | request q =>
    obtain ⟨c'', advanced', _, after⟩ := Network.stands_advance nested sound.stands way t
    obtain rfl : c'' = c' := Stride.goes.inj (congrArg Prod.fst (advanced'.symm.trans advanced))
    have before : net.bearing node q replies c.position = net.aim node q replies := by
      obtain ⟨position, rounds⟩ := c
      cases position with
      | entering | replying => rfl
      | «at» | handling => cases way
    have same : bearing net node (.request q) replies c''.position = bearing net node (.request q) replies c.position :=
      after.trans before.symm
    simp only [Journey.view, same]
  | dispatchPreset | bind =>
    obtain ⟨_, place, none⟩ := sound.stands
    obtain ⟨position, rounds⟩ := c
    cases none
    cases position with
    | entering => cases place
    | replying | «at» | handling => cases way

theorem Mirrors.route (mirrors : s.Mirrors s') {m : Nat} {node : NodeId} {op : Operation ι η}
    {replies : List (NodeId × Reply)} {c c' : Call ι η} {below : List (Journey ι η)}
    (stack : s.threads t = ⟨m, node, op, replies, .going c⟩ :: below) (way : routing c = true)
    (advanced : s.net.advance t c = (.goes c', s.net)) :
    (s.after t s.net (⟨m, node, op, replies, .going c'⟩ :: below) []).Mirrors s' where
  sound := after_sound mirrors.sound (stack ▸ .route way advanced)
  sound' := mirrors.sound'
  net := mirrors.net
  log := by rw [after_log, List.append_nil, mirrors.log]
  views u := by
    have sound : Journey.Sound s.net ⟨m, node, op, replies, .going c⟩ := mirrors.sound.calls t _ (by simp [stack])
    have nested := mirrors.sound.nested
    have before := mirrors.views u
    by_cases mine : u = t
    · subst mine
      rw [stack, List.map_cons] at before
      rw [after_threads_self, after_net, List.map_cons, view_route nested sound way advanced, before]
    · rw [after_threads_other mine]
      exact before

/-- A call on its way can be let come to its next leaf, or back. -/
theorem Mirrors.arrive (mirrors : s.Mirrors s') {m : Nat} {node : NodeId} {op : Operation ι η}
    {replies : List (NodeId × Reply)} {c : Call ι η} {below : List (Journey ι η)}
    (stack : s.threads t = ⟨m, node, op, replies, .going c⟩ :: below) :
    ∃ (u : Traffic β ι η) (c' : Call ι η), s.Leads u ∧ u.Mirrors s' ∧
      u.threads t = ⟨m, node, op, replies, .going c'⟩ :: below ∧ routing c' = false := by
  have sound : Journey.Sound s.net ⟨m, node, op, replies, .going c⟩ := mirrors.sound.calls t _ (by simp [stack])
  cases op with
  | dispatchPreset | bind =>
    obtain ⟨_, place, none⟩ := sound.stands
    obtain ⟨position, rounds⟩ := c
    cases none
    refine ⟨s, _, .refl s, mirrors, stack, ?_⟩
    cases position with
    | entering => cases place
    | replying | «at» | handling => rfl
  | request q =>
    have arrives : s.net.Arrives t c := Network.arrives_of_stands mirrors.sound.nested sound.stands
    clear sound
    -- The steps change nothing but the call, so they are steps of one network.
    generalize net : s.net = start at arrives
    obtain ⟨end', steps, there⟩ := arrives
    induction steps using Relation.ReflTransGen.head_induction_on generalizing s with
    | refl => exact ⟨s, _, .refl s, mirrors, stack, there⟩
    | @head c₁ c₂ step _ ih =>
      subst net
      obtain ⟨way, advanced⟩ := step
      have turn : Turn t s.log.length s.net (s.threads t) s.net (⟨m, node, .request q, replies, .going c₂⟩ :: below) [] :=
        stack ▸ .route way advanced
      obtain ⟨u, c', leads, mirrors', stack', arrived⟩ :=
        ih (mirrors.route stack way advanced) after_threads_self rfl
      exact ⟨u, c', (Leads.turn turn).trans leads, mirrors', stack', arrived⟩

omit [Backlog β ι] in
theorem Mirrors.below (mirrors : s.Mirrors s') {j j' : Journey ι η} {below below' : List (Journey ι η)}
    (stack : s.threads t = j :: below) (stack' : s'.threads t = j' :: below') :
    j.view s.net = j'.view s.net ∧ below.map (Journey.view s.net) = below'.map (Journey.view s.net) := by
  have views := mirrors.views t
  rw [stack, stack', List.map_cons, List.map_cons] at views
  exact List.cons.inj views

omit [Backlog β ι] in
theorem Mirrors.stack (mirrors : s.Mirrors s') {j : Journey ι η} {below : List (Journey ι η)}
    (stack : s.threads t = j :: below) : ∃ j' below', s'.threads t = j' :: below' := by
  have views := mirrors.views t
  cases stack' : s'.threads t with
  | nil => rw [stack, stack'] at views; cases views
  | cons j' below' => exact ⟨j', below', rfl⟩

/-- Where one call has arrived, its like can be let arrive too, at the same place. -/
theorem Mirrors.meet (mirrors : s.Mirrors s') {m : Nat} {node : NodeId} {op : Operation ι η}
    {replies : List (NodeId × Reply)} {p : Position ι η} {rounds : List (Round ι)} {below : List (Journey ι η)}
    (stack : s.threads t = ⟨m, node, op, replies, .going ⟨p, rounds⟩⟩ :: below)
    (arrived : routing ⟨p, rounds⟩ = false) :
    ∃ u rounds' below', s'.Leads u ∧ s.Mirrors u ∧
      u.threads t = ⟨m, node, op, replies, .going ⟨p, rounds'⟩⟩ :: below' ∧ routing ⟨p, rounds'⟩ = false ∧
      below.map (Journey.view s.net) = below'.map (Journey.view s.net) := by
  obtain ⟨⟨m', node', op', replies', stage⟩, below', stack'⟩ := mirrors.stack stack
  have seen := (mirrors.below stack stack').1
  cases stage with
  | calling | handling => cases congrArg Journey.stage seen
  | going c =>
    obtain ⟨rfl, rfl, rfl, rfl⟩ : m' = m ∧ node' = node ∧ op' = op ∧ replies' = replies :=
      ⟨(congrArg Journey.number seen).symm, (congrArg Journey.node seen).symm, (congrArg Journey.op seen).symm,
        (congrArg Journey.replies seen).symm⟩
    obtain ⟨u, ⟨p', rounds'⟩, leads, mirrors', there, arrived'⟩ := mirrors.symm.arrive stack'
    have met := mirrors'.symm
    obtain ⟨same, views⟩ := met.below stack there
    have soundHere : Journey.Sound s.net _ := met.sound.calls t _ (stack ▸ List.mem_cons_self)
    have soundThere : Journey.Sound u.net _ := met.sound'.calls t _ (there ▸ List.mem_cons_self)
    have bearings : bearing s.net node' op' replies' p = bearing s.net node' op' replies' p' :=
      congrArg Call.position (Stage.going.inj (congrArg Journey.stage same))
    have position : p = p' := by
      rw [bearing_of_arrived soundHere arrived, bearing_congr (funext met.net.leaves),
        bearing_of_arrived soundThere arrived'] at bearings
      exact bearings
    subst position
    exact ⟨u, rounds', below', leads, met, there, arrived', views⟩

/-- Each answers the other's move with its like. -/
theorem Mirrors.respond (mirrors : s.Mirrors s') {net net' : Network β ι η} {calls calls' fs fs' : List (Journey ι η)}
    (stack : s.threads t = calls) (turn : Turn t s.log.length s.net calls net fs es)
    (stack' : s'.threads t = calls') (turn' : Turn t s'.log.length s'.net calls' net' fs' es)
    (alike : net.Alike net') (views : fs.map (Journey.view net) = fs'.map (Journey.view net)) :
    ∃ u, s'.Leads u ∧ (s.after t net fs es).Mirrors u := by
  subst stack stack'
  exact ⟨_, .turn turn', mirrors.after turn turn' alike views⟩

omit [Backlog β ι] in
theorem views_setLeaf {l : NodeId} {d d' : Dispatcher β ι η} (leaf : net.leaf? l = some d) {j j' : Journey ι η}
    {below below' : List (Journey ι η)} (same : j.view net = j'.view net)
    (views : below.map (Journey.view net) = below'.map (Journey.view net)) :
    (j :: below).map (Journey.view (net.setLeaf l d')) = (j' :: below').map (Journey.view (net.setLeaf l d')) := by
  rw [view_congr (Network.setLeaf_shape leaf).leaves.symm, List.map_cons, List.map_cons, same, views]

omit [Backlog β ι] in
/-- A call that waits for a handler looks like another one only if that waits for the same handler at the same leaf. -/
theorem Mirrors.handling (mirrors : s.Mirrors s') {m : Nat} {node : NodeId} {op : Operation ι η}
    {replies : List (NodeId × Reply)} {x : ι} {p : Position ι η} {rounds : List (Round ι)} {below : List (Journey ι η)}
    (stack : s.threads t = ⟨m, node, op, replies, .handling x ⟨p, rounds⟩⟩ :: below) :
    ∃ rounds' below', s'.threads t = ⟨m, node, op, replies, .handling x ⟨p, rounds'⟩⟩ :: below' ∧
      below.map (Journey.view s.net) = below'.map (Journey.view s.net) := by
  obtain ⟨⟨m', node', op', replies', stage⟩, below', stack'⟩ := mirrors.stack stack
  obtain ⟨same, views⟩ := mirrors.below stack stack'
  cases stage with
  | going | calling => cases congrArg Journey.stage same
  | handling x' c' =>
    obtain ⟨p', rounds'⟩ := c'
    obtain ⟨rfl, rfl, rfl, rfl, stages⟩ := Journey.mk.inj same
    obtain ⟨rfl, calls⟩ := Stage.handling.inj stages
    obtain rfl := congrArg Call.position calls
    exact ⟨rounds', below', stack', views⟩

/-- Each move has its like, perhaps after steps between leaves. -/
theorem mirrors_turn (mirrors : s.Mirrors s') {calls : List (Journey ι η)} (stack : s.threads t = calls)
    (turn : Turn t s.log.length s.net calls net fs es) : ∃ u, s'.Leads u ∧ (s.after t net fs es).Mirrors u := by
  have moved := turn
  cases turn with
  | call node op ready accepted =>
    have views := mirrors.views t
    rw [stack] at views
    have ready' : free (s'.threads t) = true := (free_of_views views).symm.trans ready
    have accepted' : s'.net.accepts node op = true := by
      cases op with
      | request q => exact (mirrors.net.node node).symm.trans accepted
      | dispatchPreset | bind => exact (congrArg Option.isSome (mirrors.net.leaf node)).symm.trans accepted
    have turn' : Turn t s'.log.length s'.net (s'.threads t) s'.net
        (⟨s.log.length, node, op, [], .going ⟨op.position node, []⟩⟩ :: s'.threads t)
        [.called s.log.length t node op] := by
      rw [mirrors.log]
      exact .call node op ready' accepted'
    refine mirrors.respond stack moved rfl turn' mirrors.net ?_
    rw [List.map_cons, List.map_cons, views]
  | route way advanced => exact ⟨s', .refl s', mirrors.route stack way advanced⟩
  | @goOn m node op replies l p rounds below d p' d' leaf section_ =>
    obtain ⟨u, rounds', below', leads, met, stack', _, views⟩ := mirrors.meet stack rfl
    obtain ⟨v, leads', same⟩ := met.respond stack moved stack' (.goOn ((met.net.leaf l).symm.trans leaf) section_)
      (met.net.setLeaf leaf) (views_setLeaf leaf rfl views)
    exact ⟨v, leads.trans leads', same⟩
  | @handOver m node op replies l p rounds below d h x k d' leaf section_ =>
    obtain ⟨u, rounds', below', leads, met, stack', _, views⟩ := mirrors.meet stack rfl
    obtain ⟨v, leads', same⟩ := met.respond stack moved stack' (.handOver ((met.net.leaf l).symm.trans leaf) section_)
      (met.net.setLeaf leaf) (views_setLeaf leaf rfl views)
    exact ⟨v, leads.trans leads', same⟩
  | @reply m node op replies l p rounds below d r d' leaf section_ =>
    obtain ⟨u, rounds', below', leads, met, stack', _, views⟩ := mirrors.meet stack rfl
    obtain ⟨v, leads', same⟩ := met.respond stack moved stack' (.reply ((met.net.leaf l).symm.trans leaf) section_)
      (met.net.setLeaf leaf) (views_setLeaf leaf rfl views)
    exact ⟨v, leads.trans leads', same⟩
  | @stray m node op replies l p rounds below stray =>
    obtain ⟨u, rounds', below', leads, met, stack', _, views⟩ := mirrors.meet stack rfl
    obtain ⟨v, leads', same⟩ :=
      met.respond stack moved stack' (.stray ((met.net.leaf l).symm.trans stray)) met.net views
    exact ⟨v, leads.trans leads', same⟩
  | @comeBack m node op replies r below =>
    obtain ⟨u, rounds', below', leads, met, stack', arrived, views⟩ := mirrors.meet stack rfl
    cases rounds' with
    | cons => cases arrived
    | nil =>
      obtain ⟨v, leads', same⟩ := met.respond stack moved stack' .comeBack met.net views
      exact ⟨v, leads.trans leads', same⟩
  | @enter m node op replies h x c below =>
    obtain ⟨⟨m', node', op', replies', stage⟩, below', stack'⟩ := mirrors.stack stack
    obtain ⟨same, views⟩ := mirrors.below stack stack'
    cases stage with
    | going | handling => cases congrArg Journey.stage same
    | calling h' x' c' =>
      obtain ⟨rfl, rfl, rfl, rfl, stages⟩ := Journey.mk.inj same
      obtain ⟨rfl, rfl, calls⟩ := Stage.calling.inj stages
      have position : c.position = c'.position := (Call.mk.inj calls).1
      refine mirrors.respond stack moved stack' .enter mirrors.net ?_
      simp only [List.map_cons, views, Journey.view, position]
  | settleDirect v =>
    obtain ⟨rounds', below', stack', views⟩ := mirrors.handling stack
    exact mirrors.respond stack moved stack' (.settleDirect v) mirrors.net (by simp only [List.map_cons, views]; rfl)
  | settleDrained v =>
    obtain ⟨rounds', below', stack', views⟩ := mirrors.handling stack
    exact mirrors.respond stack moved stack' (.settleDrained v) mirrors.net (by simp only [List.map_cons, views]; rfl)
  | @preset _ leaf d x ready found =>
    have views := mirrors.views t
    rw [stack] at views
    have ready' : free (s'.threads t) = true := (free_of_views views).symm.trans ready
    refine mirrors.respond stack moved rfl (.preset x ready' ((mirrors.net.leaf leaf).symm.trans found))
      (mirrors.net.setLeaf found) ?_
    rw [view_congr (Network.setLeaf_shape found).leaves.symm]
    exact views

theorem mirrors_leads (mirrors : s.Mirrors s') {u : Traffic β ι η} (leads : s.Leads u) :
    ∃ u', s'.Leads u' ∧ u.Mirrors u' := by
  refine leads.keeps (P := fun u => ∃ u', s'.Leads u' ∧ u.Mirrors u') ⟨s', .refl s', mirrors⟩ ?_
  rintro u t net fs es ⟨u', leads', mirrors'⟩ turn
  obtain ⟨v, leads'', same⟩ := mirrors_turn mirrors' rfl turn
  exact ⟨v, leads'.trans leads'', same⟩

/-! ### A network and the flat one -/

/-- Nobody who looks at the leaves, the nodes or the log can tell one from the other. -/
structure LooksAs (s s' : Traffic β ι η) : Prop where
  log : s.log = s'.log
  leaf : ∀ n, s.net.leaf? n = s'.net.leaf? n
  isSuspended : ∀ n, s.net.isSuspended n = s'.net.isSuspended n
  pending : ∀ n, s.net.pending n = s'.net.pending n

theorem Mirrors.looksAs (mirrors : s.Mirrors s') : s.LooksAs s' :=
  ⟨mirrors.log, mirrors.net.leaf, mirrors.net.isSuspended, mirrors.net.pending⟩

omit [Backlog β ι] in
theorem sound_fresh (nested : net.WellNested) : Sound (⟨net, fun _ => [], []⟩ : Traffic β ι η) := ⟨nested, nofun, nofun⟩

omit [Backlog β ι] in
theorem mirrors_flatten (nested : net.WellNested) :
    Mirrors (⟨net, fun _ => [], []⟩ : Traffic β ι η) ⟨net.flatten, fun _ => [], []⟩ where
  sound := sound_fresh nested
  sound' := sound_fresh (Network.flatten_wellNested net)
  net := Network.flatten_alike net
  log := rfl
  views _ := rfl

theorem returned_of_leads (nested : net.WellNested) {u : Traffic β ι η} (leads : Leads ⟨net, fun _ => [], []⟩ u)
    {m : Nat} {n : NodeId} {q : Request ι} {replies : List (NodeId × Reply)} {r : Reply}
    (returned : .returned m n (.request q) replies r ∈ u.log) :
    replies.map Prod.fst = net.leaves n ∧ r = q.combine (replies.map Prod.snd) := by
  have kept : u.Sound ∧ u.net.leaves = net.leaves := by
    refine leads.keeps (P := fun u => u.Sound ∧ u.net.leaves = net.leaves) ⟨sound_fresh nested, rfl⟩ ?_
    rintro s t net' fs es ⟨sound, leaves⟩ turn
    exact ⟨after_sound sound turn, (turn_shape turn sound.nested).1.leaves.symm.trans leaves⟩
  obtain ⟨served, combined⟩ := kept.1.log _ returned
  exact ⟨served.trans (congrFun kept.2 n), combined⟩

/-- A fan-out shows what its members show, put together. Whatever threads do with a network of nested fan-outs, short of
changing memberships, could have been done with the flat one, where each fan-out has the leaves below it as its
members, and the other way round: the same calls, the same sections of the same leaves, the same handlers with the same
items, the same replies, all in the same order, and the same leaves in the end. A request that returns has been
replied to by every leaf below its node, depth first and in member order, and its reply is what those replies
combine to. -/
theorem nested_as_flat (net : Network β ι η) (nested : net.WellNested) :
    (∀ n members, net.members? n = some members →
      net.flatten.members? n = some (net.leaves n) ∧ net.leaves n = members.flatMap net.leaves ∧
      net.isSuspended n = members.any net.isSuspended ∧ net.pending n = (members.map net.pending).sum) ∧
    LooksAs (⟨net, fun _ => [], []⟩ : Traffic β ι η) ⟨net.flatten, fun _ => [], []⟩ ∧
    (∀ u, Leads ⟨net, fun _ => [], []⟩ u → ∃ u', Leads ⟨net.flatten, fun _ => [], []⟩ u' ∧ u.LooksAs u') ∧
    (∀ u, Leads ⟨net.flatten, fun _ => [], []⟩ u → ∃ u', Leads ⟨net, fun _ => [], []⟩ u' ∧ u.LooksAs u') ∧
    ∀ u, Leads ⟨net, fun _ => [], []⟩ u → ∀ m n q replies r, .returned m n (.request q) replies r ∈ u.log →
      replies.map Prod.fst = net.leaves n ∧ r = q.combine (replies.map Prod.snd) := by
  have mirrors := mirrors_flatten nested
  refine ⟨fun n members fanOut => ⟨?_, ?_, ?_, ?_⟩, mirrors.looksAs, fun u leads => ?_, fun u leads => ?_, ?_⟩
  · rw [Network.flatten_members?, fanOut, Option.map_some]
  · exact Network.leaves_of_fanOut nested fanOut
  · exact Network.isSuspended_of_fanOut nested fanOut
  · exact Network.pending_of_fanOut nested fanOut
  · obtain ⟨u', leads', same⟩ := mirrors_leads mirrors leads
    exact ⟨u', leads', same.looksAs⟩
  · obtain ⟨u', leads', same⟩ := mirrors_leads mirrors.symm leads
    exact ⟨u', leads', same.looksAs⟩
  · exact fun u leads m n q replies r returned => returned_of_leads nested leads returned

/-- Node 3 has the fan-outs 2 and 4 below it and comes to leaf 0 twice; leaf 1 is suspended. -/
def branching : Network (List Nat) Nat Nat :=
  ⟨[.leaf { backlog := [], handler := some 7 }, .leaf { backlog := [], handler := some 8, gate := { suspended := true } },
    .fanOut [0, 1], .fanOut [2, 4, 0], .fanOut []]⟩

theorem branching_wellNested : branching.WellNested := by
  have members : ∀ m n, branching.Member m n → n = 2 ∧ m ∈ [0, 1] ∨ n = 3 ∧ m ∈ [2, 4, 0] := by
    rintro m n ⟨members, fanOut, member⟩
    match n, fanOut with
    | 2, rfl => exact Or.inl ⟨rfl, member⟩
    | 3, rfl => exact Or.inr ⟨rfl, member⟩
    | 4, rfl => cases member
  refine Network.wellNested_of_rank ?_ (fun n => if n = 3 then 2 else if n = 2 then 1 else 0) ?_
  · intro m n member
    rcases members m n member with ⟨_, below⟩ | ⟨_, below⟩
    · exact (by decide : ∀ m ∈ [0, 1], (branching.node? m).isSome) m below
    · exact (by decide : ∀ m ∈ [2, 4, 0], (branching.node? m).isSome) m below
  · intro m n member
    rcases members m n member with ⟨rfl, below⟩ | ⟨rfl, below⟩
    · exact (by decide : ∀ m ∈ [0, 1], (if m = 3 then 2 else if m = 2 then 1 else 0) < 1) m below
    · exact (by decide : ∀ m ∈ [2, 4, 0], (if m = 3 then 2 else if m = 2 then 1 else 0) < 2) m below

/-- Leaf 0 delivers the first time, then its handler fails; between, leaf 1 keeps the item. -/
def visits : List (ThreadId × Action Nat Nat) :=
  (1, .call 3 (.request (.dispatch 5))) :: List.replicate 4 (1, .advance) ++
    [(1, .enter), (1, .settle (.ok ()))] ++ List.replicate 9 (1, .advance) ++
    [(1, .enter), (1, .settle (.error .outOfMemory))] ++ List.replicate 2 (1, .advance)

theorem nested_as_flat_branching : branching.leaves 3 = [0, 1, 0] ∧
    ∃ u', Leads ⟨branching.flatten, fun _ => [], []⟩ u' ∧ u'.net.pending 3 = 1 ∧
      .returned 0 3 (.request (.dispatch 5))
        [(0, .outcome (.ok .delivered)), (1, .outcome (.ok .queued)), (0, .outcome (.error .outOfMemory))]
        (.outcome (.error .outOfMemory)) ∈ u'.log := by
  have ends : ∃ u : Traffic (List Nat) Nat Nat, run ⟨branching, fun _ => [], []⟩ visits = some u ∧
      u.net.pending 3 = 1 ∧ u.log.getLast? = some (.returned 0 3 (.request (.dispatch 5))
        [(0, .outcome (.ok .delivered)), (1, .outcome (.ok .queued)), (0, .outcome (.error .outOfMemory))]
        (.outcome (.error .outOfMemory))) := ⟨_, rfl, rfl, rfl⟩
  obtain ⟨u, ran, pending, last⟩ := ends
  have leads : Leads ⟨branching, fun _ => [], []⟩ u := ⟨visits, by decide, ran⟩
  obtain ⟨_, _, follows, _, returns⟩ := nested_as_flat branching branching_wellNested
  have returned := List.mem_of_getLast? last
  obtain ⟨u', leads', same⟩ := follows u leads
  exact ⟨(returns u leads _ _ _ _ _ returned).1.symm, u', leads', (same.pending 3).symm.trans pending, same.log ▸ returned⟩

end Traffic

end Switchboard.Dispatch
