import Mathlib.Data.List.Perm.Basic
import Switchboard.Proofs.Attribute.Reclaiming

/-!
Capabilities that are dropped while a registry is used. It removes their names late, when one of them is asked for or
something is registered, and no request tells. Main statement: `dropped_unseen`, by a lockstep run of a registry that
removes the names of a capability in the moment its last handle is let go.

Handles are let go between the critical sections of calls. A section looks at an owner once, so a handle that is let
go meanwhile might as well be let go before or after it. A call of several sections is in progress between them, and a
request until it is answered.
-/

namespace Switchboard.Attribute

/-! ### Registries in use -/

/-- A call in progress. It has a handle on the capability it is about. -/
inductive Pending where
  /-- A table's registration between two of its sections. -/
  | filing (owner : OwnerId × String) (f : Registry.Filing)
  /-- A request that has been forwarded. -/
  | dispatching (owner : OwnerId) (name : String) (request : Request)
  | executing (owner : OwnerId) (line : Line)

def Pending.owner : Pending → OwnerId
  | filing owner _ => owner.1
  | dispatching owner _ _ => owner
  | executing owner _ => owner

/-- A registry with the handles that its users have. A capability that comes later has its first handle from the
start; the registry does not know of it before it is registered. -/
structure Usage where
  registry : Registry := {}
  handles : OwnerId → Nat
  pending : List Pending := []

/-- What happens around a registry, on whatever thread and inside or outside of a capability's answer. -/
inductive Event where
  | clone (owner : OwnerId)
  | drop (owner : OwnerId)
  | register (owner : Option (OwnerId × String)) (d : Descriptor)
  | registerTable (owner : OwnerId × String) (table : List Descriptor)
  /-- The table's registration at this place among the calls goes on by a section, or returns. -/
  | proceed (place : Nat)
  | unregister (name : String) (release : Bool)
  | unregisterOwner (owner : OwnerId)
  | dispatch (name : String) (request : Request)
  | execute (line radix : String)
  /-- The capability that is asked in the call at this place answers. -/
  | answer (place : Nat) (outcome : Except Error String)
  | list (wanted : Option OwnerId) (radix : String)
  | descriptor (name : String)
  | size
  | isEmpty
  | owners

inductive Reply where
  | registered (outcome : Except Error Unit)
  | released (outcome : Except Error (Option Descriptor))
  | dismissed (count : Nat)
  | dispatched (outcome : Except Error String)
  | executed (response : Response)
  | listed (text : String)
  | descriptor (found : Option Descriptor)
  | size (n : Nat)
  | isEmpty (answer : Bool)
  | owners (labels : List String)

/-- The reply, if it is one that tells nothing about capabilities that are gone. -/
def Reply.public : Reply → Option Reply
  | released _ | descriptor _ | size _ | isEmpty _ | owners _ => none
  | reply => some reply

namespace Usage

def alive (u : Usage) (owner : OwnerId) : Bool := 0 < u.handles owner || u.pending.any fun c => c.owner == owner

/-- What a registry does when the last handle on a capability is let go: nothing. -/
def late (r : Registry) (_ : OwnerId) : Registry := r

/-- What it might do instead. -/
def prompt (r : Registry) (owner : OwnerId) : Registry := (r.removeOwner owner).2

def filed (u : Usage) (place : Nat) (owner : OwnerId × String) (outcome : Registry.Filing × Registry) : Usage :=
  { u with registry := outcome.2, pending := u.pending.set place (.filing owner outcome.1) }

/-- A request by name is forwarded, unless nobody is there for it. -/
def forwarded (u : Usage) (name : String) (request : Request) : Option OwnerId × Registry → Option Reply × Usage
  | (some owner, r) => (none, { u with registry := r, pending := u.pending ++ [.dispatching owner name request] })
  | (none, r) => (some (.dispatched (.error (.notFound name))), { u with registry := r })

def passed (u : Usage) : Passage × Registry → Option Reply × Usage
  | (.asks owner l, r) => (none, { u with registry := r, pending := u.pending ++ [.executing owner l] })
  | (.answers response, r) => (some (.executed response), { u with registry := r })

section

variable (bury : Registry → OwnerId → Registry)

def settle (u : Usage) (owner : OwnerId) : Usage :=
  if u.alive owner then u else { u with registry := bury u.registry owner }

def returned (u : Usage) (place : Nat) (owner : OwnerId) : Usage :=
  settle bury { u with pending := u.pending.eraseIdx place } owner

/-- The reply that an event brings, and what is after it. Whoever names a capability in a call has a handle on it,
and only handles that are there are cloned or dropped. -/
def perform (u : Usage) : Event → Option Reply × Usage
  | .clone owner =>
    if u.alive owner then (none, { u with handles := Function.update u.handles owner (u.handles owner + 1) })
    else (none, u)
  | .drop owner =>
    if 0 < u.handles owner then
      (none, settle bury { u with handles := Function.update u.handles owner (u.handles owner - 1) } owner)
    else (none, u)
  | .register owner d =>
    if owner.all fun o => u.alive o.1 then
      let (outcome, r) := u.registry.register u.alive owner d
      (some (.registered outcome), { u with registry := r })
    else (none, u)
  | .registerTable owner table =>
    if u.alive owner.1 then (none, { u with pending := u.pending ++ [.filing owner (.claiming table [])] })
    else (none, u)
  | .proceed place =>
    match u.pending[place]? with
    | some (.filing owner (.finished outcome)) => (some (.registered outcome), u.returned bury place owner.1)
    | some (.filing owner f) => (none, u.filed place owner (f.advance u.alive owner u.registry))
    | _ => (none, u)
  | .unregister name release =>
    let (outcome, r) := u.registry.unregister name release
    (some (.released outcome), { u with registry := r })
  | .unregisterOwner owner =>
    if u.alive owner then
      let (count, r) := u.registry.removeOwner owner
      (some (.dismissed count), { u with registry := r })
    else (none, u)
  | .dispatch name request => u.forwarded name request (u.registry.resolve u.alive name)
  | .execute line radix => u.passed (u.registry.receive u.alive line radix)
  | .answer place outcome =>
    match u.pending[place]? with
    | some (.dispatching owner _ _) => (some (.dispatched outcome), u.returned bury place owner)
    | some (.executing owner l) => (some (.executed (l.response outcome)), u.returned bury place owner)
    | _ => (none, u)
  | .list wanted radix => (some (.listed (u.registry.list u.alive wanted radix)), u)
  | .descriptor name => (some (.descriptor (u.registry.descriptor? name)), u)
  | .size => (some (.size u.registry.size), u)
  | .isEmpty => (some (.isEmpty u.registry.isEmpty), u)
  | .owners => (some (.owners u.registry.owners), u)

def run (u : Usage) : List Event → List (Option Reply) × Usage
  | [] => ([], u)
  | e :: rest =>
    let (reply, u) := u.perform bury e
    let (replies, u) := run u rest
    (reply :: replies, u)

end

/-! ### Handles -/

variable {u : Usage} {owner : OwnerId}

theorem alive_iff : u.alive owner = true ↔ 0 < u.handles owner ∨ ∃ c ∈ u.pending, c.owner = owner := by
  simp [alive]

theorem alive_pending {c : Pending} {place : Nat} (found : u.pending[place]? = some c) : u.alive c.owner = true :=
  alive_iff.mpr (.inr ⟨c, List.mem_of_getElem? found, rfl⟩)

theorem alive_handles {o : OwnerId} (other : o ≠ owner) (n : Nat) :
    alive { u with handles := Function.update u.handles owner n } o = u.alive o := by
  simp only [alive, Function.update_of_ne other]

theorem alive_clone (awake : u.alive owner = true) :
    alive { u with handles := Function.update u.handles owner (u.handles owner + 1) } = u.alive := by
  funext o
  by_cases same : o = owner
  · subst same
    rw [awake]
    exact alive_iff.mpr (.inl (by simp))
  · exact alive_handles same _

theorem alive_begin {c : Pending} (awake : u.alive c.owner = true) :
    alive { u with pending := u.pending ++ [c] } = u.alive := by
  funext o
  by_cases same : c.owner = o
  · subst same
    rw [awake]
    exact alive_iff.mpr (.inr ⟨c, by simp, rfl⟩)
  · have elsewhere : (c.owner == o) = false := by simpa using same
    simp [alive, elsewhere]

theorem any_eraseIdx {c : Pending} {place : Nat} {pending : List Pending} (found : pending[place]? = some c)
    (o : OwnerId) : (pending.any fun c => c.owner == o) =
      (c.owner == o || (pending.eraseIdx place).any fun c => c.owner == o) := by
  obtain ⟨within, rfl⟩ := List.getElem?_eq_some_iff.mp found
  exact (List.getElem_cons_eraseIdx_perm within).any_eq.symm

theorem alive_set {c c' : Pending} {place : Nat} (found : u.pending[place]? = some c) (same : c'.owner = c.owner) :
    alive { u with pending := u.pending.set place c' } = u.alive := by
  obtain ⟨within, _⟩ := List.getElem?_eq_some_iff.mp found
  have placed : (u.pending.set place c')[place]? = some c' := List.getElem?_set_self within
  funext o
  simp only [alive]
  rw [any_eraseIdx placed, any_eraseIdx found, same, List.eraseIdx_set_eq]

theorem alive_eraseIdx {c : Pending} {place : Nat} (found : u.pending[place]? = some c) {o : OwnerId}
    (other : o ≠ c.owner) : alive { u with pending := u.pending.eraseIdx place } o = u.alive o := by
  have elsewhere : (c.owner == o) = false := by simpa using other.symm
  simp only [alive]
  rw [any_eraseIdx found, elsewhere, Bool.false_or]

/-! ### Lockstep -/

/-- The use of a registry in which nothing is left of capabilities that are gone. -/
def purged (u : Usage) : Usage := { u with registry := u.registry.keep u.alive }

theorem purged_of_alive {u' : Usage} (same : u'.alive = u.alive) :
    u'.purged = { u' with registry := u'.registry.keep u.alive } := by
  rw [purged, same]

/-- A handle that is let go: what is gone by that is not in the way. -/
theorem settle_purged {before : OwnerId → Bool} (coherent : u.registry.Coherent)
    (others : ∀ o, o ≠ owner → u.alive o = before o) (awake : before owner = true) :
    (settle late u owner).purged = settle prompt { u with registry := u.registry.keep before } owner := by
  have unchanged : alive { u with registry := u.registry.keep before } = u.alive := rfl
  rw [settle, settle, unchanged]
  -- Either someone else has a handle, or the owner is the only one who was alive before and is not any more.
  by_cases still : u.alive owner = true
  · have same : u.alive = before := by
      funext o
      by_cases equal : o = owner
      · rw [equal, still, awake]
      · exact others o equal
    rw [if_pos still, if_pos still, ← same]
    rfl
  · have left : (u.registry.keep before).keep (· ≠ owner) = u.registry.keep u.alive := by
      rw [Registry.keep_keep]
      congr 1
      funext o
      by_cases equal : o = owner
      · simp [equal, still]
      · simp [equal, others o equal]
    rw [if_neg still, if_neg still]
    unfold purged late prompt
    rw [Registry.removeOwner_eq (Registry.keep_coherent coherent before), left]

theorem returned_purged (coherent : u.registry.Coherent) {c : Pending} {place : Nat}
    (found : u.pending[place]? = some c) :
    (u.returned late place c.owner).purged = u.purged.returned prompt place c.owner :=
  settle_purged coherent (fun _ => alive_eraseIdx found) (alive_pending found)

theorem filed_purged (coherent : u.registry.Coherent) {owner : OwnerId × String} {f : Registry.Filing} {place : Nat}
    (found : u.pending[place]? = some (.filing owner f)) :
    (u.filed place owner (f.advance u.alive owner u.registry)).purged =
      u.purged.filed place owner (f.advance u.alive owner u.purged.registry) := by
  have still : (u.filed place owner (f.advance u.alive owner u.registry)).alive = u.alive := alive_set found rfl
  have kept : u.purged.registry = u.registry.keep u.alive := rfl
  rw [purged_of_alive still, kept, ← Registry.advance_keep coherent (alive_pending found) f]
  rfl

theorem forwarded_purged {outcome : Option OwnerId × Registry} (awake : ∀ o ∈ outcome.1, u.alive o = true)
    (name : String) (request : Request) :
    Prod.map id purged (u.forwarded name request outcome) =
      u.purged.forwarded name request (Prod.map id (Registry.keep u.alive) outcome) := by
  obtain ⟨_ | owner, r⟩ := outcome
  · rfl
  · have still : (u.forwarded name request (some owner, r)).2.alive = u.alive := alive_begin (awake owner rfl)
    exact Prod.ext rfl (purged_of_alive still)

theorem passed_purged {outcome : Passage × Registry} (awake : ∀ o l, outcome.1 = .asks o l → u.alive o = true) :
    Prod.map id purged (u.passed outcome) = u.purged.passed (Prod.map id (Registry.keep u.alive) outcome) := by
  obtain ⟨⟨owner, l⟩ | _, r⟩ := outcome
  · have still : (u.passed (.asks owner l, r)).2.alive = u.alive := alive_begin (awake owner l rfl)
    exact Prod.ext rfl (purged_of_alive still)
  · rfl

/-- What happens to a registry that is late happens in lockstep to one that is prompt. -/
theorem perform_purged (coherent : u.registry.Coherent) (e : Event) :
    ((u.perform late e).1.bind Reply.public, (u.perform late e).2.purged) =
      ((u.purged.perform prompt e).1.bind Reply.public, (u.purged.perform prompt e).2) := by
  have same : u.purged.alive = u.alive := rfl
  have handles : u.purged.handles = u.handles := rfl
  cases e with
  | clone owner =>
    simp only [perform, same]
    split
    · rename_i awake
      have still := alive_clone awake
      unfold purged
      simp only [still]
    · rfl
  | drop owner =>
    simp only [perform, handles]
    split
    · rename_i held
      let u' : Usage := { u with handles := Function.update u.handles owner (u.handles owner - 1) }
      have others : ∀ o, o ≠ owner → u'.alive o = u.alive o := fun o other => alive_handles other _
      have settled := settle_purged (u := u') coherent others (alive_iff.mpr (.inl held))
      exact congrArg (Prod.mk none) settled
    · rfl
  | register owner d =>
    simp only [perform, same]
    split
    · rename_i awake
      have lockstep := Registry.register_keep coherent ((Option.all_eq_true _ _).mp awake) d
      exact congrArg (fun out => (some (Reply.registered out.1), ({ u with registry := out.2 } : Usage))) lockstep
    · rfl
  | registerTable owner table =>
    simp only [perform, same]
    split
    · rename_i awake
      have still := alive_begin (c := .filing owner (.claiming table [])) awake
      unfold purged
      simp only [still]
    · rfl
  | proceed place =>
    have places : u.purged.pending = u.pending := rfl
    simp only [perform, same, places]
    cases found : u.pending[place]? with
    | none => rfl
    | some c =>
      cases c with
      | filing owner f =>
        cases f with
        | finished outcome =>
          have settled := returned_purged coherent found
          exact congrArg (Prod.mk (some (Reply.registered outcome))) settled
        | claiming todo done => exact congrArg (Prod.mk none) (filed_purged coherent found)
        | releasing left e => exact congrArg (Prod.mk none) (filed_purged coherent found)
      | dispatching owner name request => rfl
      | executing owner l => rfl
  | unregister name release =>
    have lockstep := Registry.unregister_keep coherent u.alive name release
    exact congrArg (fun r => (none, ({ u with registry := r } : Usage))) lockstep
  | unregisterOwner owner =>
    simp only [perform, same]
    split
    · rename_i awake
      have lockstep := Registry.removeOwner_keep coherent awake
      exact congrArg (fun out => (some (Reply.dismissed out.1), ({ u with registry := out.2 } : Usage))) lockstep
    · rfl
  | dispatch name request =>
    have awake : ∀ o ∈ (u.registry.resolve u.alive name).1, u.alive o = true := fun o found =>
      Registry.resolve_awake found
    have lockstep := forwarded_purged awake name request
    rw [Registry.resolve_keep coherent] at lockstep
    exact congrArg (Prod.map (·.bind Reply.public) id) lockstep
  | execute line radix =>
    have awake : ∀ o l, (u.registry.receive u.alive line radix).1 = .asks o l → u.alive o = true := fun o l found =>
      Registry.receive_awake found
    have lockstep := passed_purged awake
    rw [Registry.receive_keep coherent line radix] at lockstep
    exact congrArg (Prod.map (·.bind Reply.public) id) lockstep
  | answer place outcome =>
    have places : u.purged.pending = u.pending := rfl
    simp only [perform, places]
    cases found : u.pending[place]? with
    | none => rfl
    | some c =>
      cases c with
      | filing owner f => rfl
      | dispatching owner name request =>
        have settled := returned_purged coherent found
        exact congrArg (Prod.mk (some (Reply.dispatched outcome))) settled
      | executing owner l =>
        have settled := returned_purged coherent found
        exact congrArg (Prod.mk (some (Reply.executed (l.response outcome)))) settled
  | list wanted radix =>
    have shown : u.purged.registry.listed u.alive wanted = u.registry.listed u.alive wanted :=
      Registry.listed_keep u.registry wanted
    simp only [perform, same, Registry.list, shown]
  | descriptor name => rfl
  | size => rfl
  | isEmpty => rfl
  | owners => rfl

theorem settle_late (u : Usage) (owner : OwnerId) : settle late u owner = u := ite_self u

theorem perform_coherent (coherent : u.registry.Coherent) (e : Event) : (u.perform late e).2.registry.Coherent := by
  cases e with
  | clone owner =>
    simp only [perform]
    split <;> exact coherent
  | drop owner =>
    simp only [perform, settle_late]
    split <;> exact coherent
  | register owner d =>
    simp only [perform]
    split
    · exact Registry.register_coherent coherent u.alive owner d
    · exact coherent
  | registerTable owner table =>
    simp only [perform]
    split <;> exact coherent
  | proceed place =>
    simp only [perform, returned, settle_late]
    split
    · exact coherent
    · exact Registry.filing_coherent coherent u.alive _ _
    · exact coherent
  | unregister name release => exact Registry.unregister_coherent coherent name release
  | unregisterOwner owner =>
    simp only [perform]
    split
    · exact Registry.removeOwner_coherent coherent owner
    · exact coherent
  | dispatch name request =>
    have left := Registry.resolve_coherent coherent u.alive name
    simp only [perform]
    generalize u.registry.resolve u.alive name = outcome at left
    obtain ⟨_ | _, _⟩ := outcome <;> exact left
  | execute line radix =>
    have left := Registry.receive_coherent coherent u.alive line radix
    simp only [perform]
    generalize u.registry.receive u.alive line radix = outcome at left
    obtain ⟨_ | _, _⟩ := outcome <;> exact left
  | answer place outcome =>
    simp only [perform, returned, settle_late]
    split <;> exact coherent
  | list wanted radix => exact coherent
  | descriptor name => exact coherent
  | size => exact coherent
  | isEmpty => exact coherent
  | owners => exact coherent

theorem run_coherent (coherent : u.registry.Coherent) (events : List Event) :
    (u.run late events).2.registry.Coherent := by
  induction events generalizing u with
  | nil => exact coherent
  | cons e rest ih => exact ih (perform_coherent coherent e)

theorem run_purged (coherent : u.registry.Coherent) (events : List Event) :
    ((u.run late events).1.map (·.bind Reply.public), (u.run late events).2.purged) =
      ((u.purged.run prompt events).1.map (·.bind Reply.public), (u.purged.run prompt events).2) := by
  induction events generalizing u with
  | nil => rfl
  | cons e rest ih =>
    obtain ⟨reply, left⟩ := Prod.mk.inj (perform_purged coherent e)
    obtain ⟨replies, last⟩ := Prod.mk.inj (ih (perform_coherent coherent e))
    rw [left] at replies last
    simp only [run, List.map_cons, reply, replies, last]

/-! ### Names that nobody alive has -/

theorem dispatch_unclaimed {name : String} (unresolved : (u.registry.resolve u.alive name).1 = none) (request : Request) :
    (u.perform late (.dispatch name request)).1 = some (.dispatched (.error (.notFound name))) := by
  simp only [perform]
  generalize u.registry.resolve u.alive name = outcome at unresolved
  obtain ⟨_, _⟩ := outcome
  obtain rfl : _ = none := unresolved
  rfl

theorem execute_unclaimed {line radix : String} {l : Line} (parsed : Line.parse line radix = .ok l)
    (unresolved : (u.registry.resolve u.alive l.name).1 = none) :
    (u.perform late (.execute line radix)).1 = some (.executed (l.response (.error (.notFound l.name)))) := by
  simp only [perform, Registry.receive, parsed]
  generalize u.registry.resolve u.alive l.name = outcome at unresolved
  obtain ⟨_, _⟩ := outcome
  obtain rfl : _ = none := unresolved
  rfl

/-- Whatever is registered, released, asked and dropped, in the midst of calls or between them: requests are answered
as by a registry that removes the names of a capability in the moment its last handle is let go, and the same
capabilities are asked the same. At any moment a name that nobody alive has is not found, whoever registers it gets
it, and it is not listed. -/
theorem dropped_unseen (handles : OwnerId → Nat) (events : List Event) :
    let s := ({ handles } : Usage).run late events
    let t := ({ handles } : Usage).run prompt events
    (s.1.map (·.bind Reply.public) = t.1.map (·.bind Reply.public) ∧ s.2.pending = t.2.pending) ∧
    (∀ slot ∈ t.2.registry.slots, t.2.alive slot.owner = true) ∧
    ∀ name, (∀ o, s.2.registry.names.get? name = some o → s.2.alive o = false) →
      (∀ request, (s.2.perform late (.dispatch name request)).1 = some (.dispatched (.error (.notFound name)))) ∧
      (∀ line radix l, Line.parse line radix = .ok l → l.name = name →
        (s.2.perform late (.execute line radix)).1 = some (.executed (l.response (.error (.notFound name))))) ∧
      (∀ owner d, s.2.alive owner.1 = true → d.name = name →
        (s.2.perform late (.register (some owner) d)).1 = some (.registered (.ok ()))) ∧
      ∀ wanted, name ∉ (s.2.registry.listed s.2.alive wanted).map Descriptor.name := by
  intro s t
  have coherent : s.2.registry.Coherent := run_coherent Registry.empty_coherent events
  obtain ⟨replies, same⟩ := Prod.mk.inj (run_purged (u := { handles }) Registry.empty_coherent events)
  have same : s.2.purged = t.2 := same
  refine ⟨⟨replies, by rw [← same]; rfl⟩, ?_, ?_⟩
  · rw [← same]
    exact fun slot member => (List.mem_filter.mp member).2
  · intro name gone
    have unclaimed : (s.2.registry.keep s.2.alive).names.get? name = none := by
      rw [Registry.get?_keep coherent, Option.filter_eq_none_iff]
      exact fun o claimed => by simp [gone o claimed]
    have unresolved := Registry.resolve_unclaimed coherent unclaimed
    refine ⟨dispatch_unclaimed unresolved, ?_, ?_, ?_⟩
    · rintro line radix l parsed rfl
      exact execute_unclaimed parsed unresolved
    · rintro owner d awake rfl
      have registered := Registry.register_unclaimed coherent owner unclaimed
      simp only [perform, Option.all_some, awake, if_true, registered]
    · intro wanted listed
      obtain ⟨d, shown, named⟩ := List.mem_map.mp listed
      obtain ⟨slot, member, within⟩ := List.mem_flatMap.mp shown
      obtain ⟨present, visible⟩ := List.mem_filter.mp member
      have claimed := (Registry.name_iff coherent).mpr (mem_claims.mpr ⟨slot, present, rfl, d, within, named⟩)
      simp [gone slot.owner claimed] at visible

/-- A late registry still has what a prompt one has removed. -/
example : let events := [.register (some (1, "cab")) { name := "CCON" }, .drop 1]
    (run late { handles := fun _ => 1 } events).2.registry.owners = ["cab"] ∧
      (run prompt { handles := fun _ => 1 } events).2.registry.owners = [] := by decide

end Usage

end Switchboard.Attribute
