import Switchboard.Proofs.Attribute.Dropping

/-!
Requests to owners that use the registry themselves before they answer. The registry is left before the owner is asked,
so whatever the owner registers, releases and asks meanwhile happens to it as it would from outside, and the request
adds nothing of its own. Main statement: `forwarded_frame`.
-/

namespace Switchboard.Attribute

/-! ### What an owner does before it answers -/

/-- What is over in one go. -/
inductive Deed where
  | clone (owner : OwnerId)
  | drop (owner : OwnerId)
  | register (owner : Option (OwnerId × String)) (d : Descriptor)
  | unregister (name : String) (release : Bool)
  | unregisterOwner (owner : OwnerId)

def Deed.event : Deed → Event
  | clone owner => .clone owner
  | drop owner => .drop owner
  | register owner d => .register owner d
  | unregister name release => .unregister name release
  | unregisterOwner owner => .unregisterOwner owner

/-- What takes until an owner has answered. -/
inductive Demand where
  | dispatch (name : String) (request : Request)
  | execute (line radix : String)

def Demand.event : Demand → Event
  | dispatch name request => .dispatch name request
  | execute line radix => .execute line radix

/-- What an owner does when it is asked. How it goes on may depend on the replies so far, and what is done by the owners
that it asks on the way may depend on who they are. It comes to its answer in the end. -/
inductive Conduct where
  | answers (outcome : Except Error String)
  | does (deed : Deed) (next : Option Reply → Conduct)
  | asks (demand : Demand) (asked : OwnerId → Conduct) (next : Option Reply → Conduct)

/-- What happened while something was done, what came of it and what is after it. -/
structure Episode (α : Type) where
  events : List Event
  outcome : α
  after : Usage

namespace Usage

/-- A request is made, and if somebody is there for it, it is answered after all that is done on a visit there. -/
def forward (u : Usage) (demand : Demand) (visit : OwnerId → Usage → Episode (Except Error String)) :
    Episode (Option Reply) :=
  let (reply, v) := u.perform late demand.event
  match v.pending[u.pending.length]? with
  | none => ⟨[demand.event], reply, v⟩
  | some c =>
    let stay := visit c.owner v
    let answer := Event.answer u.pending.length stay.outcome
    let (reply, w) := stay.after.perform late answer
    ⟨demand.event :: (stay.events ++ [answer]), reply, w⟩

end Usage

def Conduct.visit : Conduct → Usage → Episode (Except Error String)
  | answers outcome, u => ⟨[], outcome, u⟩
  | does deed next, u =>
    let (reply, v) := u.perform Usage.late deed.event
    let rest := (next reply).visit v
    { rest with events := deed.event :: rest.events }
  | asks demand asked next, u =>
    let episode := u.forward demand fun owner => (asked owner).visit
    let rest := (next episode.outcome).visit episode.after
    { rest with events := episode.events ++ rest.events }

namespace Usage

variable {u v : Usage} {P : Usage → Prop} {e : Event} {events later : List Event}

/-! ### Events one after the other -/

theorem run_append (u : Usage) (events later : List Event) :
    (u.run late (events ++ later)).2 = ((u.run late events).2.run late later).2 := by
  induction events generalizing u with
  | nil => rfl
  | cons e rest ih => exact ih (u.perform late e).2

/-- Something holds before the events, after them and at all times between. -/
def Throughout (P : Usage → Prop) (u : Usage) (events : List Event) : Prop :=
  ∀ front back, events = front ++ back → P (u.run late front).2

theorem throughout_nil (now : P u) : u.Throughout P [] := by
  intro front back split
  obtain ⟨rfl, _⟩ := List.append_eq_nil_iff.mp split.symm
  exact now

theorem throughout_cons (now : P u) (further : (u.perform late e).2.Throughout P events) :
    u.Throughout P (e :: events) := by
  intro front back split
  cases front with
  | nil => exact now
  | cons e' front =>
    obtain ⟨rfl, rest⟩ := List.cons.inj split
    exact further front back rest

theorem throughout_append (first : u.Throughout P events) (second : (u.run late events).2.Throughout P later) :
    u.Throughout P (events ++ later) := by
  induction events generalizing u with
  | nil => exact second
  | cons e rest ih =>
    have after : (u.perform late e).2.Throughout P rest := fun front back split =>
      first (e :: front) back (congrArg (e :: ·) split)
    exact throughout_cons (first [] _ rfl) (ih after second)

theorem Throughout.mono {Q : Usage → Prop} (holds : u.Throughout P events) (weaker : ∀ v, P v → Q v) :
    u.Throughout Q events := fun front back split => weaker _ (holds front back split)

end Usage

/-! ### Critical sections -/

def Event.sections (u : Usage) : Event → List Registry.Section
  | .register owner d => if owner.all fun o => u.alive o.1 then [.register u.alive owner d] else []
  | .unregister name release => [.unregister name release]
  | .unregisterOwner owner => if u.alive owner then [.unregisterOwner owner] else []
  | .dispatch name _ => [.dispatch u.alive name]
  | .execute line radix => [.execute u.alive line radix]
  | .proceed place =>
    match u.pending[place]? with
    | some (.filing _ (.finished _)) => []
    | some (.filing owner f) => [.file u.alive owner f]
    | _ => []
  | _ => []

namespace Usage

variable {u v : Usage} {e : Event} {events : List Event}

def sections (u : Usage) : List Event → List Registry.Section
  | [] => []
  | e :: rest => e.sections u ++ sections (u.perform late e).2 rest

theorem registry_forwarded (u : Usage) (name : String) (request : Request) (outcome : Option OwnerId × Registry) :
    (u.forwarded name request outcome).2.registry = outcome.2 := by
  obtain ⟨_ | _, _⟩ := outcome <;> rfl

theorem registry_passed (u : Usage) (outcome : Passage × Registry) : (u.passed outcome).2.registry = outcome.2 := by
  obtain ⟨_ | _, _⟩ := outcome <;> rfl

theorem perform_registry (u : Usage) (e : Event) :
    (u.perform late e).2.registry = (e.sections u).foldl Registry.Section.perform u.registry := by
  cases e with
  | clone | drop | registerTable =>
    simp only [perform, settle_late, Event.sections]
    split <;> rfl
  | register | unregisterOwner =>
    simp only [perform, Event.sections]
    split <;> rfl
  | proceed place =>
    simp only [perform, Event.sections, returned, settle_late]
    cases u.pending[place]? with
    | none => rfl
    | some c =>
      cases c with
      | filing owner f => cases f <;> rfl
      | dispatching | executing => rfl
  | dispatch name request => exact registry_forwarded u name request _
  | execute line radix => exact registry_passed u _
  | answer place outcome =>
    simp only [perform, Event.sections, returned, settle_late]
    split <;> rfl
  | unregister | list | descriptor | size | isEmpty | owners => rfl

/-- A registry changes by the critical sections of what happens, in the order in which it happens. -/
theorem run_registry (u : Usage) (events : List Event) :
    (u.run late events).2.registry = (u.sections events).foldl Registry.Section.perform u.registry := by
  induction events generalizing u with
  | nil => rfl
  | cons e rest ih =>
    rw [sections, List.foldl_append, ← perform_registry]
    exact ih (u.perform late e).2

/-! ### Visits -/

theorem pending_deed (u : Usage) (deed : Deed) : (u.perform late deed.event).2.pending = u.pending := by
  cases deed with
  | clone | drop =>
    simp only [Deed.event, perform, settle_late]
    split <;> rfl
  | register | unregisterOwner =>
    simp only [Deed.event, perform]
    split <;> rfl
  | unregister => rfl

end Usage

/-- The reply that a call in progress brings when its owner answers. -/
def Pending.reply? (outcome : Except Error String) : Pending → Option Reply
  | filing _ _ => none
  | dispatching _ _ _ => some (.dispatched outcome)
  | executing _ l => some (.executed (l.response outcome))

namespace Usage

variable {v : Usage}

theorem perform_answer {base : List Pending} {c : Pending} {outcome : Except Error String} {reply : Reply}
    (last : v.pending = base ++ [c]) (told : c.reply? outcome = some reply) :
    v.perform late (.answer base.length outcome) = (some reply, { v with pending := base }) := by
  have found : v.pending[base.length]? = some c := by simp [last]
  have erased : v.pending.eraseIdx base.length = base := by
    rw [last, List.eraseIdx_append_of_length_le (Nat.le_refl _), Nat.sub_self]
    exact List.append_nil base
  cases c with
  | filing => cases told
  | dispatching | executing =>
    obtain rfl := Option.some.inj told
    simp only [perform, found, returned, settle_late, erased]

/-- Either nobody is there for a request, or somebody is asked. -/
theorem perform_demand (u : Usage) (demand : Demand) :
    (∃ reply r, u.perform late demand.event = (some reply, { u with registry := r })) ∨
    ∃ c r, (∀ outcome, (c.reply? outcome).isSome) ∧
      u.perform late demand.event = (none, { u with registry := r, pending := u.pending ++ [c] }) := by
  cases demand with
  | dispatch name request =>
    simp only [Demand.event, perform]
    rcases u.registry.resolve u.alive name with ⟨_ | owner, r⟩
    · exact .inl ⟨_, r, rfl⟩
    · exact .inr ⟨.dispatching owner name request, r, fun _ => rfl, rfl⟩
  | execute line radix =>
    simp only [Demand.event, perform]
    rcases u.registry.receive u.alive line radix with ⟨⟨owner, l⟩ | response, r⟩
    · exact .inr ⟨.executing owner l, r, fun _ => rfl, rfl⟩
    · exact .inl ⟨_, r, rfl⟩

end Usage

/-- What an episode is made of are its events. It ends with the calls in progress that it has begun with, which stay in
progress until then. -/
structure Episode.Closed {α : Type} (u : Usage) (episode : Episode α) : Prop where
  after : episode.after = (u.run Usage.late episode.events).2
  ends : episode.after.pending = u.pending
  stays : u.Throughout (fun v => u.pending <+: v.pending) episode.events

namespace Usage

variable {u v : Usage} {visit : OwnerId → Usage → Episode (Except Error String)} {c : Pending} {r : Registry}

theorem forward_unanswered (demand : Demand) {reply : Reply}
    (told : u.perform late demand.event = (some reply, { u with registry := r })) :
    u.forward demand visit = ⟨[demand.event], some reply, { u with registry := r }⟩ := by
  have none : u.pending[u.pending.length]? = none := List.getElem?_eq_none (Nat.le_refl _)
  simp only [forward, told, none]

/-- Somebody is asked: the reply is what comes of the visit there, and the call in progress is over with it. -/
theorem forward_asked (demand : Demand) {reply : Reply} (begun : u.perform late demand.event = (none, v))
    (last : v.pending = u.pending ++ [c]) (closed : (visit c.owner v).Closed v)
    (told : c.reply? (visit c.owner v).outcome = some reply) :
    u.forward demand visit =
      ⟨demand.event :: ((visit c.owner v).events ++ [.answer u.pending.length (visit c.owner v).outcome]),
        some reply, { (visit c.owner v).after with pending := u.pending }⟩ := by
  have found : v.pending[u.pending.length]? = some c := by simp [last]
  have answered := perform_answer (closed.ends.trans last) told
  simp only [forward, begun, found, answered]

theorem forward_closed (visits : ∀ owner v, (visit owner v).Closed v) (u : Usage) (demand : Demand) :
    (u.forward demand visit).Closed u := by
  rcases perform_demand u demand with ⟨reply, r, told⟩ | ⟨c, r, replies, begun⟩
  · rw [forward_unanswered demand told]
    have after : (u.perform late demand.event).2.pending = u.pending := by rw [told]
    refine ⟨(congrArg Prod.snd told).symm, rfl, throughout_cons List.prefix_rfl (throughout_nil ?_)⟩
    exact after ▸ List.prefix_rfl
  · generalize same : ({ u with registry := r, pending := u.pending ++ [c] } : Usage) = v at begun
    have last : v.pending = u.pending ++ [c] := by rw [← same]
    have closed := visits c.owner v
    obtain ⟨reply, told⟩ := Option.isSome_iff_exists.mp (replies (visit c.owner v).outcome)
    have ended : (visit c.owner v).after = (v.run late (visit c.owner v).events).2 := closed.after
    have answered : ((visit c.owner v).after.perform late (.answer u.pending.length (visit c.owner v).outcome)).2 =
        { (visit c.owner v).after with pending := u.pending } :=
      congrArg Prod.snd (perform_answer (closed.ends.trans last) told)
    rw [forward_asked demand begun last closed told]
    refine ⟨?_, rfl, throughout_cons List.prefix_rfl ?_⟩
    · show _ = ((u.perform late demand.event).2.run late _).2
      rw [begun, run_append, ← ended]
      exact answered.symm
    · rw [begun]
      refine throughout_append (closed.stays.mono fun w longer => ?_) (throughout_cons ?_ (throughout_nil ?_))
      · exact (List.prefix_append _ _).trans (last ▸ longer)
      · rw [← ended, closed.ends, last]
        exact List.prefix_append _ _
      · exact ended ▸ answered ▸ List.prefix_rfl

theorem visit_closed (conduct : Conduct) (u : Usage) : (conduct.visit u).Closed u := by
  induction conduct generalizing u with
  | answers outcome => exact ⟨rfl, rfl, throughout_nil List.prefix_rfl⟩
  | does deed next ih =>
    obtain ⟨after, ends, stays⟩ := ih (u.perform late deed.event).1 (u.perform late deed.event).2
    rw [pending_deed] at ends stays
    exact ⟨after, ends, throughout_cons List.prefix_rfl stays⟩
  | asks demand asked next forwarded further =>
    have first : (u.forward demand fun owner => (asked owner).visit).Closed u := forward_closed forwarded u demand
    have second := further (u.forward demand fun owner => (asked owner).visit).outcome
      (u.forward demand fun owner => (asked owner).visit).after
    obtain ⟨after, ends, stays⟩ := second
    rw [first.ends] at ends stays
    refine ⟨?_, ends, throughout_append first.stays ?_⟩
    · rw [Conduct.visit, run_append, ← first.after]
      exact after
    · rw [← first.after]
      exact stays

/-! ### Requests by name -/

variable {name : String} {owner : OwnerId} {request : Request}

theorem dispatch_living (coherent : u.registry.Coherent) (claimed : u.registry.names.get? name = some owner)
    (awake : u.alive owner = true) (request : Request) : u.perform late (.dispatch name request) =
      (none, { u with pending := u.pending ++ [.dispatching owner name request] }) := by
  obtain ⟨s, _, found, _⟩ := Registry.filed_of_name coherent claimed
  simp [perform, Registry.resolve, claimed, found, awake, forwarded]

theorem dispatch_gone (coherent : u.registry.Coherent) (claimed : u.registry.names.get? name = some owner)
    (gone : u.alive owner = false) (request : Request) : u.perform late (.dispatch name request) =
      (some (.dispatched (.error (.notFound name))), { u with registry := u.registry.keep (· ≠ owner) }) := by
  simp [perform, Registry.resolve, claimed, gone, forwarded, Registry.removeOwner_eq coherent]

theorem dispatch_free (unclaimed : u.registry.names.get? name = none) (request : Request) :
    u.perform late (.dispatch name request) = (some (.dispatched (.error (.notFound name))), u) := by
  simp [perform, Registry.resolve, unclaimed, forwarded]

/-- Whoever is asked in a call that is in progress throughout is alive throughout. -/
theorem alive_of_prefix {base : List Pending} (last : v.pending = base ++ [c]) {w : Usage}
    (longer : v.pending <+: w.pending) : w.alive c.owner = true := by
  refine alive_iff.mpr (.inr ⟨c, longer.subset ?_, rfl⟩)
  rw [last]
  exact List.mem_append_right _ List.mem_cons_self

/-- A request by name, at any time. If an owner that is alive has the name, the request is answered as that owner
answers it; the owner is alive until then, whatever it lets go of, and the registry after the request is the one before it
with the critical sections of what the owner and those it asks do, in their order. If the owner is gone nothing is
found, and its names are removed, all of them and no others. If nobody has the name nothing is found and nothing is
changed. -/
theorem forwarded_frame (handles : OwnerId → Nat) (before : List Event) (name : String) (mode : Mode)
    (value : Option String) (asked : OwnerId → Conduct) :
    let u := (({ handles } : Usage).run late before).2
    let request := Request.ofMode mode value
    let whole := u.forward (.dispatch name request) fun owner => (asked owner).visit
    whole.after = (u.run late whole.events).2 ∧
    (∀ owner, u.registry.names.get? name = some owner → u.alive owner = true →
      let v : Usage := { u with pending := u.pending ++ [.dispatching owner name request] }
      let stay := (asked owner).visit v
      whole.outcome = some (.dispatched stay.outcome) ∧
      whole.events = .dispatch name request :: (stay.events ++ [.answer u.pending.length stay.outcome]) ∧
      v.Throughout (fun w => w.alive owner = true) stay.events ∧
      whole.after.registry = (v.sections stay.events).foldl Registry.Section.perform u.registry) ∧
    (∀ owner, u.registry.names.get? name = some owner → u.alive owner = false →
      whole = ⟨[.dispatch name request], some (.dispatched (.error (.notFound name))),
        { u with registry := u.registry.keep (· ≠ owner) }⟩ ∧
      ∀ other o, whole.after.registry.names.get? other = some o ↔ u.registry.names.get? other = some o ∧ o ≠ owner) ∧
    (u.registry.names.get? name = none →
      whole = ⟨[.dispatch name request], some (.dispatched (.error (.notFound name))), u⟩) := by
  intro u request whole
  have coherent : u.registry.Coherent := run_coherent Registry.empty_coherent before
  refine ⟨(forward_closed (fun owner v => visit_closed (asked owner) v) u _).after, ?_, ?_, ?_⟩
  · intro owner claimed awake v stay
    have closed : stay.Closed v := visit_closed (asked owner) v
    have same : whole = ⟨.dispatch name request :: (stay.events ++ [.answer u.pending.length stay.outcome]),
        some (.dispatched stay.outcome), { stay.after with pending := u.pending }⟩ :=
      forward_asked (.dispatch name request) (dispatch_living coherent claimed awake request) rfl closed rfl
    have registry : stay.after.registry = (v.sections stay.events).foldl Registry.Section.perform u.registry := by
      rw [closed.after]
      exact run_registry v stay.events
    rw [same]
    refine ⟨rfl, rfl, closed.stays.mono fun w longer => ?_, registry⟩
    exact alive_of_prefix (c := .dispatching owner name request) rfl longer
  · intro owner claimed gone
    have same : whole = ⟨[.dispatch name request], some (.dispatched (.error (.notFound name))),
        { u with registry := u.registry.keep (· ≠ owner) }⟩ :=
      forward_unanswered (.dispatch name request) (dispatch_gone coherent claimed gone request)
    refine ⟨same, fun other o => ?_⟩
    rw [same]
    show (u.registry.keep _).names.get? other = some o ↔ _
    rw [Registry.get?_keep coherent, Option.filter_eq_some_iff, decide_eq_true_eq]
  · intro unclaimed
    exact forward_unanswered (.dispatch name request) (r := u.registry) (dispatch_free unclaimed request)

/-- The cab, asked for its connection, lets go of its last handle, releases that name, takes a new one and asks the log
for its level. The log takes back a name of its own first. -/
def farewell : OwnerId → Conduct
  | 1 => .does (.drop 1) fun _ => .does (.unregister "CCON" true) fun _ =>
      .does (.register (some (1, "cab")) { name := "CBYE" }) fun _ =>
      .asks (.dispatch "LLEV" .read) (fun _ => .does (.unregister "LOLD" true) fun _ => .answers (.ok "3")) fun reply =>
      .answers (match reply with | some (.dispatched outcome) => outcome | _ => .ok "?")
  | _ => .answers (.ok "")

theorem forwarded_frame_farewell :
    let u := (({ handles := fun _ => 1 } : Usage).run late
      [.register (some (1, "cab")) { name := "CCON" }, .register (some (2, "log")) { name := "LLEV" },
        .register (some (2, "log")) { name := "LOLD" }]).2
    let whole := u.forward (.dispatch "CCON" .read) fun owner => (farewell owner).visit
    u.registry.names.get? "CCON" = some 1 ∧ u.alive 1 = true ∧ whole.outcome = some (.dispatched (.ok "3")) ∧
    whole.after.registry.names.entries = [("LLEV", 2), ("CBYE", 1)] ∧ whole.after.alive 1 = false := by
  intro u whole
  have claimed : u.registry.names.get? "CCON" = some 1 := by decide
  have awake : u.alive 1 = true := by decide
  obtain ⟨_, living, _⟩ := forwarded_frame (fun _ => 1)
    [.register (some (1, "cab")) { name := "CCON" }, .register (some (2, "log")) { name := "LLEV" },
      .register (some (2, "log")) { name := "LOLD" }] "CCON" .read none farewell
  obtain ⟨outcome, _, _, registry⟩ := living 1 claimed awake
  refine ⟨claimed, awake, outcome, ?_, by decide⟩
  show whole.after.registry.names.entries = _
  rw [show whole.after.registry = _ from registry]
  decide

end Usage

end Switchboard.Attribute
