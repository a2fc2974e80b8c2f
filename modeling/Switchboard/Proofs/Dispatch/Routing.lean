import Switchboard.Proofs.Dispatch.Nesting
import Switchboard.Proofs.Dispatch.Traffic

/-!
The way of a call through nested fan-outs. What the fan-outs that a call came through have gathered is what the leaves
served so far have replied, and every call comes to its next leaf, or back, in finitely many steps that touch no leaf
(`arrives_of_stands`).
-/

namespace Switchboard.Dispatch

variable {β ι η : Type}

/-! ### Replies of many leaves -/

namespace Reply

def error? : Reply → Option Error
  | outcome (.error e) => some e
  | _ => none

def isDelivered : Reply → Bool
  | outcome (.ok .delivered) => true
  | _ => false

def shown : Reply → Report
  | report r => r
  | _ => {}

def Answers : Reply → Request ι → Prop
  | outcome _, .dispatch _ | done, .suspend | report _, .resume _ => True
  | _, _ => False

end Reply

/-- The reply to a request that the leaves have given these replies to, in order: a dispatch fails with the first
error, and else has delivered if every leaf has; reports add up. -/
def Request.combine (replies : List Reply) : Request ι → Reply
  | .dispatch _ =>
    .outcome (match replies.findSome? Reply.error? with
      | some e => .error e
      | none => .ok (if replies.all Reply.isDelivered then .delivered else .queued))
  | .suspend => .done
  | .resume _ =>
    .report
      { delivered := (replies.map fun r => r.shown.delivered).sum
        discarded := (replies.map fun r => r.shown.discarded).sum
        failed := replies.flatMap fun r => r.shown.failed }

/-- A round that has heard these replies and has these members left. -/
def Request.progress (members : List NodeId) (heard : List Reply) : Request ι → Round ι
  | .dispatch x =>
    .dispatch x members
      { allDelivered := heard.all Reply.isDelivered, firstError := heard.findSome? Reply.error? }
  | .suspend => .suspend members
  | .resume discard =>
    .resume discard members
      { delivered := (heard.map fun r => r.shown.delivered).sum
        discarded := (heard.map fun r => r.shown.discarded).sum
        failed := heard.flatMap fun r => r.shown.failed }

section

variable {q : Request ι} {r : Reply} {heard own : List Reply} {m : NodeId} {members : List NodeId}

theorem round_eq (q : Request ι) (members : List NodeId) : q.round members = q.progress members [] := by
  cases q <;> rfl

theorem combine_answers (q : Request ι) (replies : List Reply) : (q.combine replies).Answers q := by
  cases q <;> trivial

theorem combine_single (answers : r.Answers q) : q.combine [r] = r := by
  cases q with
  | dispatch x =>
    match r, answers with
    | .outcome (.ok .delivered), _ | .outcome (.ok .queued), _ | .outcome (.error _), _ => rfl
  | suspend => match r, answers with | .done, _ => rfl
  | resume discard =>
    match r, answers with
    | .report r, _ => simp [Request.combine, Reply.shown]

theorem progress_gather (answers : r.Answers q) :
    (q.progress (m :: members) heard).gather r = q.progress members (heard ++ [r]) := by
  cases q with
  | dispatch x =>
    match r, answers with
    | .outcome (.ok .delivered), _ | .outcome (.ok .queued), _ =>
      simp [Request.progress, Round.gather, Tally.count, Reply.isDelivered, Reply.error?]
    | .outcome (.error e), _ =>
      simp only [Request.progress, Round.gather, Tally.count, List.tail_cons, List.all_append, List.findSome?_append,
        List.all_cons, Reply.isDelivered, Bool.false_and, Bool.and_false]
      cases heard.findSome? Reply.error? <;> rfl
  | suspend => rfl
  | resume discard =>
    match r, answers with
    | .report r, _ => simp [Request.progress, Round.gather, Report.merge, Reply.shown]

theorem not_all_delivered {e : Error} (fails : own.findSome? Reply.error? = some e) :
    own.all Reply.isDelivered = false := by
  obtain ⟨r, member, failed⟩ := List.exists_of_findSome?_eq_some fails
  refine List.all_eq_false.mpr ⟨r, member, ?_⟩
  match r, failed with
  | .outcome (.error _), _ => exact Bool.false_ne_true

/-- The reply of a fan-out tells a round as much as the replies of the leaves below it. -/
theorem progress_combine (q : Request ι) :
    q.progress members (heard ++ [q.combine own]) = q.progress members (heard ++ own) := by
  cases q with
  | dispatch x =>
    simp only [Request.progress, Request.combine, List.all_append, List.findSome?_append]
    cases fails : own.findSome? Reply.error? with
    | some e => simp [not_all_delivered fails, Reply.isDelivered, Reply.error?]
    | none => cases all : own.all Reply.isDelivered <;> simp [Reply.isDelivered, Reply.error?]
  | suspend => rfl
  | resume discard => simp [Request.progress, Request.combine, Reply.shown]

theorem serve_done (q : Request ι) (heard : List Reply) (rounds : List (Round ι)) :
    (Network.serve (q.progress [] heard) rounds : Stride ι η) = .goes ⟨.replying (q.combine heard), rounds⟩ := by
  cases q <;> rfl

theorem serve_member (q : Request ι) (m : NodeId) (members : List NodeId) (heard : List Reply) (rounds : List (Round ι)) :
    (Network.serve (q.progress (m :: members) heard) rounds : Stride ι η) =
      .goes ⟨.entering m q, q.progress (m :: members) heard :: rounds⟩ := by
  cases q <;> rfl

end

/-! ### Where a call stands -/

namespace Phase

def Serves : Phase ι η → Request ι → Prop
  | admitting _, .dispatch _ | suspending, .suspend | discarding, .resume _ | reopening, .resume _ | waiting, .resume _
  | draining _, .resume _ => True
  | _, _ => False

end Phase

def Awaiting.Serves : Awaiting → Request ι → Prop
  | direct, .dispatch _ | drained _, .resume _ => True
  | _, _ => False

def Move.Serves : Move ι η → Request ι → Prop
  | goes p, q => p.Serves q
  | calls _ _ k, q => k.Serves q
  | ends r, q => r.Answers q
  | blocks, _ => True

theorem phase_serves (q : Request ι) : (q.phase : Phase ι η).Serves q := by
  cases q with
  | dispatch | suspend => trivial
  | resume discard => cases discard <;> trivial

theorem advance_serves [Backlog β ι] {q : Request ι} {p : Phase ι η} (serves : p.Serves q) (t : ThreadId)
    (d : Dispatcher β ι η) : (p.advance t d).1.Serves q := by
  cases q with
  | dispatch x =>
    match p, serves with
    | .admitting y, _ =>
      simp only [Phase.advance]
      split <;> trivial
  | suspend => match p, serves with | .suspending, _ => trivial
  | resume discard =>
    match p, serves with
    | .discarding, _ => trivial
    | .reopening, _ =>
      simp only [Phase.advance]
      split <;> trivial
    | .waiting, _ =>
      simp only [Phase.advance]
      split <;> trivial
    | .draining r, _ =>
      simp only [Phase.advance]
      split <;> trivial

namespace Network

variable {net : Network β ι η} {n m : NodeId} {q : Request ι} {replies : List (NodeId × Reply)} {rounds : List (Round ι)}
  {heard own : List Reply} {rest members : List NodeId}

/-- The fan-outs that a call came through, innermost first. They have heard `heard` from the leaves served so far, and
`rest` are the leaves that come after those of the member being served. -/
inductive Within (net : Network β ι η) (q : Request ι) : List (Round ι) → List Reply → List NodeId → Prop
  | outermost : Within net q [] [] []
  | inside {above before after} (m : NodeId) (later : List NodeId) (own : List Reply)
    (outer : Within net q above before after) (present : ∀ k ∈ later, (net.node? k).isSome) :
    Within net q (q.progress (m :: later) own :: above) (before ++ own) (later.flatMap net.leaves ++ after)

/-- How a call on node `n` stands to the leaves below it, which have given it these replies. -/
def Stands (net : Network β ι η) (n : NodeId) (q : Request ι) (replies : List (NodeId × Reply)) (c : Call ι η) : Prop :=
  match c.position with
  | .entering m request =>
    request = q ∧ (net.node? m).isSome ∧ ∃ rest, net.Within q c.rounds (replies.map Prod.snd) rest ∧
      net.leaves n = replies.map Prod.fst ++ (net.leaves m ++ rest)
  | .at l p =>
    p.Serves q ∧ (net.leaf? l).isSome ∧ ∃ rest, net.Within q c.rounds (replies.map Prod.snd) rest ∧
      net.leaves n = replies.map Prod.fst ++ l :: rest
  | .handling l k =>
    k.Serves q ∧ (net.leaf? l).isSome ∧ ∃ rest, net.Within q c.rounds (replies.map Prod.snd) rest ∧
      net.leaves n = replies.map Prod.fst ++ l :: rest
  | .replying r =>
    ∃ heard own rest, replies.map Prod.snd = heard ++ own ∧ net.Within q c.rounds heard rest ∧ r = q.combine own ∧
      net.leaves n = replies.map Prod.fst ++ rest

/-- What a call does next that leaves a trace: a section of the next leaf, or its return. -/
def aim (net : Network β ι η) (n : NodeId) (q : Request ι) (replies : List (NodeId × Reply)) : Position ι η :=
  match (net.leaves n).drop replies.length with
  | l :: _ => .at l q.phase
  | [] => .replying (q.combine (replies.map Prod.snd))

def bearing (net : Network β ι η) (n : NodeId) (q : Request ι) (replies : List (NodeId × Reply)) :
    Position ι η → Position ι η
  | .at l p => .at l p
  | .handling l k => .handling l k
  | _ => net.aim n q replies

theorem aim_at {l : NodeId} (leaves : net.leaves n = replies.map Prod.fst ++ l :: rest) :
    net.aim n q replies = .at l q.phase := by
  have left : (net.leaves n).drop replies.length = l :: rest := by
    rw [leaves, ← List.length_map Prod.fst, List.drop_left]
  rw [aim, left]

theorem aim_done (leaves : net.leaves n = replies.map Prod.fst) :
    net.aim n q replies = .replying (q.combine (replies.map Prod.snd)) := by
  have left : (net.leaves n).drop replies.length = [] := by
    rw [leaves, ← List.length_map Prod.fst, List.drop_length]
  rw [aim, left]

theorem aim_ne_handling {l : NodeId} {k : Awaiting} : net.aim n q replies ≠ (.handling l k : Position ι η) := by
  unfold aim
  split <;> nofun

/-- A call that replies to nobody above it has heard every leaf. -/
theorem stands_done {r : Reply} (stands : net.Stands n q replies (⟨.replying r, []⟩ : Call ι η)) :
    net.leaves n = replies.map Prod.fst ∧ r = q.combine (replies.map Prod.snd) := by
  obtain ⟨heard, own, rest, split, within, combined, leaves⟩ := stands
  cases within
  rw [List.nil_append] at split
  rw [List.append_nil] at leaves
  exact ⟨leaves, split ▸ combined⟩

/-- A round that goes on with these members: either the call enters the next one, or the fan-out replies. -/
theorem stands_serve (within : net.Within q rounds heard rest) (split : replies.map Prod.snd = heard ++ own)
    (present : ∀ k ∈ members, (net.node? k).isSome)
    (leaves : net.leaves n = replies.map Prod.fst ++ (members.flatMap net.leaves ++ rest)) :
    ∃ c : Call ι η, serve (q.progress members own) rounds = .goes c ∧ net.Stands n q replies c ∧
      net.bearing n q replies c.position = net.aim n q replies := by
  cases members with
  | nil => exact ⟨_, serve_done q own rounds, ⟨heard, own, rest, split, within, rfl, leaves⟩, rfl⟩
  | cons m members =>
    obtain ⟨here, present⟩ := List.forall_mem_cons.mp present
    refine ⟨_, serve_member q m members own rounds, ⟨rfl, here, members.flatMap net.leaves ++ rest, ?_, ?_⟩, rfl⟩
    · rw [split]
      exact .inside m members own within present
    · rw [leaves, List.flatMap_cons, List.append_assoc]

variable [Backlog β ι]

/-- A step between leaves changes nothing about what the call does next at a leaf. -/
theorem stands_advance (nested : net.WellNested) {c : Call ι η} (stands : net.Stands n q replies c)
    (way : Traffic.routing c = true) (t : ThreadId) :
    ∃ c', net.advance t c = (.goes c', net) ∧ net.Stands n q replies c' ∧
      net.bearing n q replies c'.position = net.aim n q replies := by
  obtain ⟨position, rounds⟩ := c
  cases position with
  | «at» | handling => cases way
  | entering m request =>
    obtain ⟨rfl, here, rest, within, leaves⟩ := stands
    rcases leaf_or_fanOut here with ⟨d, leaf⟩ | ⟨members, fanOut⟩
    · rw [leaves_of_leaf leaf] at leaves
      have none : net.members? m = none := members?_of_leaf (by simp [leaf])
      refine ⟨⟨.at m request.phase, rounds⟩, by simp only [advance, none], ?_, (aim_at leaves).symm⟩
      exact ⟨phase_serves request, by simp [leaf], rest, within, leaves⟩
    · have present : ∀ k ∈ members, (net.node? k).isSome := fun k member =>
        nested.closed k m ⟨members, fanOut, member⟩
      rw [leaves_of_fanOut nested fanOut] at leaves
      have split : replies.map Prod.snd = replies.map Prod.snd ++ [] := (List.append_nil _).symm
      obtain ⟨c', served, stands', bearing⟩ := stands_serve within split present leaves
      exact ⟨c', by simp only [advance, fanOut, round_eq, served], stands', bearing⟩
  | replying r =>
    cases rounds with
    | nil => cases way
    | cons round rounds =>
      obtain ⟨heard, own, rest, split, within, rfl, leaves⟩ := stands
      cases within with
      | @inside _ before after m later gathered outer present =>
        -- What the member replied stands for what the leaves below it replied.
        have gather : (q.progress (m :: later) gathered).gather (q.combine own) = q.progress later (gathered ++ own) := by
          rw [progress_gather (combine_answers q own), progress_combine]
        rw [List.append_assoc] at split
        obtain ⟨c', served, stands', bearing⟩ := stands_serve outer split present leaves
        exact ⟨c', by simp only [advance, gather, served], stands', bearing⟩

/-! ### Every call comes to a leaf, or back -/

def Step (net : Network β ι η) (t : ThreadId) (c c' : Call ι η) : Prop :=
  Traffic.routing c = true ∧ net.advance t c = (.goes c', net)

def Arrives (net : Network β ι η) (t : ThreadId) (c : Call ι η) : Prop :=
  ∃ c', Relation.ReflTransGen (net.Step t) c c' ∧ Traffic.routing c' = false

variable {t : ThreadId}

theorem Step.arrives {c c' : Call ι η} (step : net.Step t c c') (arrives : net.Arrives t c') : net.Arrives t c := by
  obtain ⟨end', steps, there⟩ := arrives
  exact ⟨end', .head step steps, there⟩

omit [Backlog β ι] in
theorem progress_hear (q : Request ι) (m : NodeId) (members : List NodeId) (own : List Reply) (r : Reply) :
    ∃ own', (q.progress (m :: members) own).gather r = q.progress members own' := by
  by_cases answers : r.Answers q
  · exact ⟨_, progress_gather answers⟩
  · refine ⟨own, ?_⟩
    cases q with
    | dispatch x => cases r with | outcome => exact absurd trivial answers | report | done => rfl
    | suspend => rfl
    | resume discard => cases r with | report => exact absurd trivial answers | outcome | done => rfl

/-- If the fan-out above goes on whatever it is replied, then so does one that comes to the end of its members. -/
theorem arrives_serve
    (enters : ∀ m ∈ members, ∀ rounds, (∀ r, net.Arrives t ⟨.replying r, rounds⟩) → net.Arrives t ⟨.entering m q, rounds⟩)
    (replies : ∀ r, net.Arrives t (⟨.replying r, rounds⟩ : Call ι η)) (own : List Reply) :
    ∃ c : Call ι η, serve (q.progress members own) rounds = .goes c ∧ net.Arrives t c := by
  induction members generalizing own with
  | nil => exact ⟨_, serve_done q own rounds, replies _⟩
  | cons m members ih =>
    obtain ⟨enter, enters⟩ := List.forall_mem_cons.mp enters
    refine ⟨_, serve_member q m members own rounds, enter _ fun r => ?_⟩
    obtain ⟨own', gather⟩ := progress_hear q m members own r
    obtain ⟨c, served, arrives⟩ := ih enters own'
    exact Step.arrives ⟨rfl, by simp only [advance, gather, served]⟩ arrives

theorem arrives_enter (nested : net.WellNested) (q : Request ι) (m : NodeId) (here : (net.node? m).isSome)
    (rounds : List (Round ι)) (replies : ∀ r, net.Arrives t (⟨.replying r, rounds⟩ : Call ι η)) :
    net.Arrives t (⟨.entering m q, rounds⟩ : Call ι η) := by
  induction member_acc nested m generalizing rounds with
  | intro m _ ih =>
    rcases leaf_or_fanOut here with ⟨d, leaf⟩ | ⟨members, fanOut⟩
    · have none : net.members? m = none := members?_of_leaf (by simp [leaf])
      have step : net.Step t (⟨.entering m q, rounds⟩ : Call ι η) ⟨.at m q.phase, rounds⟩ :=
        ⟨rfl, by simp only [advance, none]⟩
      exact step.arrives ⟨_, .refl, rfl⟩
    · have enters : ∀ k ∈ members, ∀ rounds, (∀ r, net.Arrives t (⟨.replying r, rounds⟩ : Call ι η)) →
          net.Arrives t ⟨.entering k q, rounds⟩ := by
        intro k member
        have below : net.Member k m := ⟨members, fanOut, member⟩
        exact ih k below (nested.closed k m below)
      obtain ⟨c, served, arrives⟩ := arrives_serve enters replies []
      exact Step.arrives ⟨rfl, by simp only [advance, fanOut, round_eq, served]⟩ arrives

theorem arrives_reply (nested : net.WellNested) (within : net.Within q rounds heard rest) (r : Reply) :
    net.Arrives t (⟨.replying r, rounds⟩ : Call ι η) := by
  induction within generalizing r with
  | outermost => exact ⟨_, .refl, rfl⟩
  | inside m later own outer present ih =>
    obtain ⟨own', gather⟩ := progress_hear q m later own r
    have enters := fun k member => arrives_enter (t := t) (η := η) nested q k (present k member)
    obtain ⟨c, served, arrives⟩ := arrives_serve enters ih own'
    exact Step.arrives ⟨rfl, by simp only [advance, gather, served]⟩ arrives

theorem arrives_of_stands (nested : net.WellNested) {c : Call ι η} (stands : net.Stands n q replies c) :
    net.Arrives t c := by
  obtain ⟨position, rounds⟩ := c
  cases position with
  | «at» | handling => exact ⟨_, .refl, rfl⟩
  | entering m request =>
    obtain ⟨rfl, here, rest, within, _⟩ := stands
    exact arrives_enter nested request m here rounds (arrives_reply nested within)
  | replying r =>
    obtain ⟨heard, own, rest, _, within, _⟩ := stands
    exact arrives_reply nested within r

/-! ### Leaves that change -/

omit [Backlog β ι] in
theorem Within.shape {a b : Network β ι η} (same : a.SameShape b) (within : a.Within q rounds heard rest) :
    b.Within q rounds heard rest := by
  induction within with
  | outermost => exact .outermost
  | inside m later own outer present ih =>
    rw [same.leaves]
    exact .inside m later own ih fun k member => same.node k ▸ present k member

omit [Backlog β ι] in
theorem Stands.shape {a b : Network β ι η} {c : Call ι η} (same : a.SameShape b) (stands : a.Stands n q replies c) :
    b.Stands n q replies c := by
  unfold Stands at stands ⊢
  split
  · rename_i m request position
    simp only [position] at stands
    obtain ⟨asked, here, rest, within, leaves⟩ := stands
    exact ⟨asked, same.node m ▸ here, rest, within.shape same, same.leaves ▸ leaves⟩
  · rename_i l p position
    simp only [position] at stands
    obtain ⟨serves, leaf, rest, within, leaves⟩ := stands
    exact ⟨serves, same.leaf l ▸ leaf, rest, within.shape same, same.leaves ▸ leaves⟩
  · rename_i l k position
    simp only [position] at stands
    obtain ⟨serves, leaf, rest, within, leaves⟩ := stands
    exact ⟨serves, same.leaf l ▸ leaf, rest, within.shape same, same.leaves ▸ leaves⟩
  · rename_i r position
    simp only [position] at stands
    obtain ⟨heard, own, rest, split, within, combined, leaves⟩ := stands
    exact ⟨heard, own, rest, split, within.shape same, combined, same.leaves ▸ leaves⟩

omit [Backlog β ι] in
/-- The leaf that a call is at has replied. -/
theorem stands_replied {r : Reply} {l : NodeId} {rounds : List (Round ι)} (answers : r.Answers q)
    (stands : ∃ rest, net.Within q rounds (replies.map Prod.snd) rest ∧
      net.leaves n = replies.map Prod.fst ++ l :: rest) :
    net.Stands n q (replies ++ [(l, r)]) (⟨.replying r, rounds⟩ : Call ι η) := by
  obtain ⟨rest, within, leaves⟩ := stands
  exact ⟨replies.map Prod.snd, [r], rest, by simp, within, (combine_single answers).symm, by simp [leaves]⟩

end Network

/-! ### Sound traffic -/

namespace Traffic

def Stage.call : Stage ι η → Call ι η
  | going c | calling _ _ c | handling _ c => c

/-- A call waits for a handler exactly when one is to be called or runs. -/
def Stage.Fits : Stage ι η → Prop
  | going c => ∀ l k, c.position ≠ .handling l k
  | calling _ _ c | handling _ c => ∃ l k, c.position = .handling l k

/-- The call is at this leaf, or has left it. -/
def AtLeaf (node : NodeId) : Position ι η → Prop
  | .at l _ | .handling l _ => l = node
  | .replying _ => True
  | .entering .. => False

structure Journey.Sound (net : Network β ι η) (j : Journey ι η) : Prop where
  fits : j.stage.Fits
  stands : match j.op with
    | .request q => net.Stands j.node q j.replies j.stage.call
    | _ => (net.leaf? j.node).isSome ∧ AtLeaf j.node j.stage.call.position ∧ j.stage.call.rounds = []

/-- A request that has returned was replied to by every leaf below its node, in order, and returned what that comes
to. -/
def Entry.Sound (net : Network β ι η) : Entry ι η → Prop
  | returned _ node (.request q) replies r =>
    replies.map Prod.fst = net.leaves node ∧ r = q.combine (replies.map Prod.snd)
  | _ => True

variable {net net' : Network β ι η} {t : ThreadId} {n : Nat} {fs fs' : List (Journey ι η)} {es : List (Entry ι η)}

theorem Journey.Sound.shape {j : Journey ι η} (sound : j.Sound net) (same : net.SameShape net') : j.Sound net' where
  fits := sound.fits
  stands := by
    have stands := sound.stands
    obtain ⟨m, node, op, replies, stage⟩ := j
    cases op with
    | request q => exact stands.shape same
    | dispatchPreset | bind =>
      obtain ⟨leaf, place⟩ := stands
      exact ⟨same.leaf node ▸ leaf, place⟩

theorem Entry.Sound.shape {e : Entry ι η} (sound : e.Sound net) (same : net.SameShape net') : e.Sound net' := by
  cases e with
  | returned m node op replies r =>
    cases op with
    | request q =>
      obtain ⟨leaves, combined⟩ := sound
      exact ⟨same.leaves ▸ leaves, combined⟩
    | dispatchPreset | bind => trivial
  | called | served | started | finished => trivial

variable [Backlog β ι]

theorem turn_shape (turn : Turn t n net fs net' fs' es) (nested : net.WellNested) :
    net.SameShape net' ∧ net'.WellNested := by
  cases turn with
  | call | route | stray | comeBack | enter | settleDirect | settleDrained => exact ⟨.refl net, nested⟩
  | goOn leaf | handOver leaf | reply leaf | preset _ _ leaf =>
    exact ⟨Network.setLeaf_shape leaf, Network.setLeaf_wellNested nested leaf⟩

theorem turn_sound (turn : Turn t n net fs net' fs' es) (nested : net.WellNested) (sound : ∀ j ∈ fs, j.Sound net) :
    ∀ j ∈ fs', j.Sound net' := by
  have same := (turn_shape turn nested).1
  cases turn with
  | call node op ready accepted =>
    refine List.forall_mem_cons.mpr ⟨⟨?_, ?_⟩, sound⟩
    · cases op <;> nofun
    · cases op with
      | request q => exact ⟨rfl, accepted, [], .outermost, (List.append_nil _).symm⟩
      | dispatchPreset | bind => exact ⟨accepted, rfl, rfl⟩
  | @route m node op replies c c' below way advanced =>
    obtain ⟨top, rest⟩ := List.forall_mem_cons.mp sound
    refine List.forall_mem_cons.mpr ⟨?_, rest⟩
    cases op with
    | request q =>
      obtain ⟨c'', advanced', stands, bearing⟩ := Network.stands_advance nested top.stands way t
      obtain rfl : c'' = c' := Stride.goes.inj (congrArg Prod.fst (advanced'.symm.trans advanced))
      refine ⟨fun l k handling => ?_, stands⟩
      rw [handling] at bearing
      exact Network.aim_ne_handling bearing.symm
    | dispatchPreset | bind =>
      -- A call on a leaf alone is never on its way.
      obtain ⟨_, place, none⟩ := top.stands
      obtain ⟨position, rounds⟩ := c
      cases none
      cases position with
      | entering => cases place
      | replying | «at» | handling => cases way
  | @goOn m node op replies l p rounds below d p' d' leaf moved =>
    obtain ⟨top, rest⟩ := List.forall_mem_cons.mp sound
    refine List.forall_mem_cons.mpr ⟨⟨nofun, ?_⟩, fun j member => (rest j member).shape same⟩
    have stands := (top.shape same).stands
    cases op with
    | request q =>
      have serves := advance_serves stands.1 t d
      rw [moved] at serves
      exact ⟨serves, stands.2⟩
    | dispatchPreset | bind => exact stands
  | @handOver m node op replies l p rounds below d h x k d' leaf moved =>
    obtain ⟨top, rest⟩ := List.forall_mem_cons.mp sound
    refine List.forall_mem_cons.mpr ⟨⟨⟨l, k, rfl⟩, ?_⟩, fun j member => (rest j member).shape same⟩
    have stands := (top.shape same).stands
    cases op with
    | request q =>
      have serves := advance_serves stands.1 t d
      rw [moved] at serves
      exact ⟨serves, stands.2⟩
    | dispatchPreset | bind => exact stands
  | @reply m node op replies l p rounds below d r d' leaf moved =>
    obtain ⟨top, rest⟩ := List.forall_mem_cons.mp sound
    refine List.forall_mem_cons.mpr ⟨⟨nofun, ?_⟩, fun j member => (rest j member).shape same⟩
    have stands := (top.shape same).stands
    cases op with
    | request q =>
      have answers := advance_serves stands.1 t d
      rw [moved] at answers
      exact Network.stands_replied answers stands.2.2
    | dispatchPreset | bind => exact ⟨stands.1, trivial, stands.2.2⟩
  | stray | comeBack => exact (List.forall_mem_cons.mp sound).2
  | enter =>
    obtain ⟨top, rest⟩ := List.forall_mem_cons.mp sound
    exact List.forall_mem_cons.mpr ⟨⟨top.fits, top.stands⟩, rest⟩
  | @settleDirect m node op replies x l rounds below v =>
    obtain ⟨top, rest⟩ := List.forall_mem_cons.mp sound
    refine List.forall_mem_cons.mpr ⟨⟨nofun, ?_⟩, rest⟩
    have stands := top.stands
    cases op with
    | request q =>
      have answers : (Reply.outcome (v.map fun _ => .delivered)).Answers q := by
        cases q with
        | dispatch => trivial
        | suspend | resume => cases stands.1
      exact Network.stands_replied answers stands.2.2
    | dispatchPreset | bind => exact ⟨stands.1, trivial, stands.2.2⟩
  | @settleDrained m node op replies x l r rounds below v =>
    obtain ⟨top, rest⟩ := List.forall_mem_cons.mp sound
    refine List.forall_mem_cons.mpr ⟨⟨nofun, ?_⟩, rest⟩
    have stands := top.stands
    cases op with
    | request q =>
      have serves : (Phase.draining (r.deliver v) : Phase ι η).Serves q := by
        cases q with
        | resume => trivial
        | suspend | dispatch => cases stands.1
      exact ⟨serves, stands.2⟩
    | dispatchPreset | bind => exact stands
  | preset => exact fun j member => (sound j member).shape same

theorem turn_remembers (turn : Turn t n net fs net' fs' es) (sound : ∀ j ∈ fs, j.Sound net) :
    ∀ e ∈ es, e.Sound net' := by
  cases turn with
  | @comeBack m node op replies r below =>
    have stands := (List.forall_mem_cons.mp sound).1.stands
    cases op with
    | request q =>
      obtain ⟨leaves, combined⟩ := Network.stands_done stands
      exact List.forall_mem_singleton.mpr ⟨leaves.symm, combined⟩
    | dispatchPreset | bind => exact List.forall_mem_singleton.mpr trivial
  | @stray m node op replies l p rounds below stray =>
    -- No call is at a node that is no leaf.
    have stands := (List.forall_mem_cons.mp sound).1.stands
    cases op with
    | request q =>
      have leaf := stands.2.1
      rw [stray] at leaf
      cases leaf
    | dispatchPreset | bind =>
      obtain ⟨leaf, place, _⟩ := stands
      rw [← place, stray] at leaf
      cases leaf
  | call | goOn | handOver | reply | enter | settleDirect | settleDrained => exact List.forall_mem_singleton.mpr trivial
  | route | preset => nofun

end Traffic

end Switchboard.Dispatch
