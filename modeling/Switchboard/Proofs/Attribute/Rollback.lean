import Switchboard.Proofs.Attribute.Reclaiming

/-!
What a registration of a table takes away. Such registrations run section by section among all other calls that a
registry serves. Each of them is followed with the names that it has claimed, and each name with the registration that
it was claimed through last. Main statement: `rollback_spares_living`.
-/

namespace Switchboard.Attribute

namespace Registry

def gained (r : Registry) (alive : OwnerId → Bool) (owner : Option (OwnerId × String)) (d : Descriptor) :
    Option String :=
  match (r.register alive owner d).1 with
  | .ok _ => some d.name
  | .error _ => none

/-- A section of a table's registration, which may find no room for a name that is free. -/
def Filing.attempt (alive : OwnerId → Bool) (owner : OwnerId × String) (room : Bool) (r : Registry) :
    Filing → Filing × Registry
  | claiming (d :: todo) done =>
    if room || (r.gained alive (some owner) d).isNone then (claiming (d :: todo) done).advance alive owner r
    else (releasing done .outOfMemory, r.reclaim alive)
  | f => f.advance alive owner r

def Filing.gains (alive : OwnerId → Bool) (owner : OwnerId × String) (room : Bool) (r : Registry) :
    Filing → Option String
  | claiming (d :: _) _ => if room then r.gained alive (some owner) d else none
  | _ => none

/-- The names that are to be given back if the registration fails. -/
def Filing.pending : Filing → List String
  | claiming _ done => done
  | releasing left _ => left
  | finished _ => []

def Filing.Keeps (name : String) (f : Filing) : Prop := name ∈ f.pending ∨ f = finished (.ok ())

def Section.gains (r : Registry) : Section → Option String
  | register alive owner d => r.gained alive owner d
  | file alive owner f => f.gains alive owner true r
  | unregister .. | unregisterOwner _ | dispatch .. | execute .. | exhausted _ => none

/-! ### What one section does to names -/

variable {r : Registry} {alive : OwnerId → Bool} {owner : OwnerId × String} {name : String} {o : OwnerId}

theorem get?_without (coherent : r.Coherent) (gone name : String) :
    (r.without gone).names.get? name = if name = gone then none else r.names.get? name := by
  have found : (r.without gone).names.get? name = (r.names.get? name).filter fun _ => name ≠ gone :=
    OrderedMap.find_filter (keys_nodup coherent) _ name
  rw [found]
  by_cases same : name = gone <;> cases r.names.get? name <;> simp [same]

theorem get?_of_keep (coherent : r.Coherent) {p : OwnerId → Bool} (kept : (r.keep p).names.get? name = some o) :
    r.names.get? name = some o := by
  rw [get?_keep coherent] at kept
  exact (Option.filter_eq_some_iff.mp kept).1

/-- A name that is claimed was free among the living; in either case the others stay if their owners are alive. -/
theorem register_outcome (coherent : r.Coherent) (alive : OwnerId → Bool) (owner : OwnerId × String) (d : Descriptor) :
    r.register alive (some owner) d = (.error (.duplicate d.name), r.keep alive) ∨
    ∃ after, r.register alive (some owner) d = (.ok (), after) ∧ (r.names.get? d.name).filter alive = none ∧
      ∀ name, after.names.get? name = if name = d.name then some owner.1 else (r.names.get? name).filter alive := by
  unfold register
  simp only [reclaim_eq coherent]
  by_cases taken : (r.keep alive).names.contains d.name = true
  · rw [if_pos taken]
    exact .inl rfl
  · rw [if_neg taken]
    refine .inr ⟨_, rfl, ?_, fun name => ?_⟩
    · rw [← get?_keep coherent]
      simpa [OrderedMap.contains] using taken
    · by_cases same : name = d.name
      · rw [if_pos same, same]
        exact OrderedMap.get?_insert_self _ _ _
      · rw [if_neg same, ← get?_keep coherent]
        exact OrderedMap.get?_insert_other _ _ same

/-- What a section of a table's registration does to the owners of names. -/
inductive Filing.Moved (alive : OwnerId → Bool) (owner : OwnerId) (before after : String → Option OwnerId) :
    Filing → Filing → Option String → Prop where
  | claimed (d : Descriptor) (todo : List Descriptor) (done : List String)
    (free : (before d.name).filter alive = none)
    (names : ∀ name, after name = if name = d.name then some owner else (before name).filter alive) :
    Moved alive owner before after (claiming (d :: todo) done) (claiming todo (done ++ [d.name])) (some d.name)
  | failed (d : Descriptor) (todo : List Descriptor) (done : List String) (e : Error)
    (names : ∀ name, after name = (before name).filter alive) :
    Moved alive owner before after (claiming (d :: todo) done) (releasing done e) none
  | released (gone : String) (left : List String) (e : Error)
    (names : ∀ name, after name = if name = gone then none else before name) :
    Moved alive owner before after (releasing (gone :: left) e) (releasing left e) none
  | succeeded (done : List String) (names : after = before) :
    Moved alive owner before after (claiming [] done) (finished (.ok ())) none
  | returned (e : Error) (names : after = before) :
    Moved alive owner before after (releasing [] e) (finished (.error e)) none
  | rested (result : Except Error Unit) (names : after = before) :
    Moved alive owner before after (finished result) (finished result) none

theorem attempt_roomy (f : Filing) : f.attempt alive owner true r = f.advance alive owner r := by
  cases f with
  | claiming todo done => cases todo <;> rfl
  | releasing | finished => rfl

theorem attempt_coherent (coherent : r.Coherent) (room : Bool) (f : Filing) :
    (f.attempt alive owner room r).2.Coherent := by
  unfold Filing.attempt
  split
  · split
    · exact filing_coherent coherent alive owner _
    · exact reclaim_coherent coherent alive
  · exact filing_coherent coherent alive owner f

theorem attempt_moved (coherent : r.Coherent) (alive : OwnerId → Bool) (owner : OwnerId × String) (room : Bool)
    (f : Filing) :
    f.Moved alive owner.1 r.names.get? (f.attempt alive owner room r).2.names.get? (f.attempt alive owner room r).1
      (f.gains alive owner room r) := by
  cases f with
  | claiming todo done =>
    cases todo with
    | nil => exact .succeeded done rfl
    | cons d todo =>
      rcases register_outcome coherent alive owner d with refused | ⟨after, registered, free, names⟩
      · have gained : r.gained alive (some owner) d = none := by rw [gained, refused]
        have gains : Filing.gains alive owner room r (.claiming (d :: todo) done) = none := by
          rw [Filing.gains, gained, ite_self]
        have attempt : Filing.attempt alive owner room r (.claiming (d :: todo) done) =
            (.releasing done (.duplicate d.name), r.keep alive) := by
          rw [Filing.attempt, gained, Option.isNone_none, Bool.or_true, if_pos rfl, Filing.advance, refused]
        rw [gains, attempt]
        exact .failed d todo done _ (get?_keep coherent alive)
      · have gained : r.gained alive (some owner) d = some d.name := by rw [gained, registered]
        -- Only a name that is free can be short of room.
        cases room with
        | true =>
          have attempt : Filing.attempt alive owner true r (.claiming (d :: todo) done) =
              (.claiming todo (done ++ [d.name]), after) := by
            rw [Filing.attempt, Bool.true_or, if_pos rfl, Filing.advance, registered]
          rw [Filing.gains, if_pos rfl, gained, attempt]
          exact .claimed d todo done free names
        | false =>
          have attempt : Filing.attempt alive owner false r (.claiming (d :: todo) done) =
              (.releasing done .outOfMemory, r.keep alive) := by
            rw [Filing.attempt, gained, Option.isNone_some, Bool.or_self, if_neg Bool.false_ne_true, reclaim_eq coherent]
          rw [Filing.gains, if_neg (by decide), attempt]
          exact .failed d todo done _ (get?_keep coherent alive)
  | releasing left e =>
    cases left with
    | nil => exact .returned e rfl
    | cons gone left =>
      refine .released gone left e fun name => ?_
      rw [← get?_without coherent, ← removeName_without coherent, ← unregister_snd r gone true]
      rfl
  | finished result => exact .rested result rfl

namespace Filing.Moved

variable {alive : OwnerId → Bool} {owner : OwnerId} {before after : String → Option OwnerId} {f f' : Filing}
  {gain : Option String}

/-- An owner that is alive keeps a name, unless the name is being given back. -/
theorem spares (moved : f.Moved alive owner before after f' gain) (claimed : before name = some o)
    (awake : alive o = true) : after name = some o ∨ ∃ left e, f = .releasing (name :: left) e := by
  have kept : (before name).filter alive = some o := by rw [claimed, Option.filter_some, if_pos awake]
  cases moved with
  | claimed d todo done free names =>
    have other : name ≠ d.name := by
      rintro rfl
      rw [free] at kept
      cases kept
    exact .inl (by rw [names, if_neg other, kept])
  | failed d todo done e names => exact .inl ((names name).trans kept)
  | released gone left e names =>
    by_cases same : name = gone
    · exact .inr ⟨left, e, by rw [same]⟩
    · exact .inl (by rw [names, if_neg same, claimed])
  | succeeded _ names | returned _ names | rested _ names => exact .inl (names ▸ claimed)

theorem gain_owner (moved : f.Moved alive owner before after f' (some name)) : after name = some owner := by
  cases moved with
  | claimed d todo done free names => exact (names d.name).trans (if_pos rfl)

theorem gain_pending (moved : f.Moved alive owner before after f' (some name)) : name ∈ f'.pending := by
  cases moved with
  | claimed d todo done free names => exact List.mem_append_right done List.mem_cons_self

/-- No other name is claimed on the way. -/
theorem within (moved : f.Moved alive owner before after f' gain) (claimed : after name = some o)
    (other : gain ≠ some name) : before name = some o := by
  cases moved with
  | claimed d todo done free names =>
    rw [names, if_neg fun same => other (congrArg some same.symm)] at claimed
    exact (Option.filter_eq_some_iff.mp claimed).1
  | failed d todo done e names =>
    rw [names] at claimed
    exact (Option.filter_eq_some_iff.mp claimed).1
  | released gone left e names =>
    rw [names] at claimed
    split at claimed
    · cases claimed
    · exact claimed
  | succeeded _ names | returned _ names | rested _ names => exact names ▸ claimed

theorem keeps (moved : f.Moved alive owner before after f' gain) (claimed : after name = some o)
    (keeps : f.Keeps name) : f'.Keeps name := by
  rcases keeps with pending | rfl
  · cases moved with
    | claimed d todo done free names => exact .inl (List.mem_append_left _ pending)
    | failed d todo done e names => exact .inl pending
    | released gone left e names =>
      rcases List.mem_cons.mp pending with rfl | later
      · rw [names, if_pos rfl] at claimed
        cases claimed
      · exact .inl later
    | succeeded done names => exact .inr rfl
    | returned e names | rested result names => cases pending
  · cases moved with
    | rested result names => exact .inr rfl

theorem pending (moved : f.Moved alive owner before after f' gain) (pending : name ∈ f'.pending) :
    name ∈ f.pending ∨ gain = some name := by
  cases moved with
  | claimed d todo done free names =>
    exact (List.mem_append.mp pending).imp_right fun last => congrArg some (List.mem_singleton.mp last).symm
  | failed d todo done e names => exact .inl pending
  | released gone left e names => exact .inl (List.mem_cons_of_mem gone pending)
  | succeeded done names | returned e names | rested result names => cases pending

end Filing.Moved

/-- A section of any call claims one name at most. -/
theorem perform_within (coherent : r.Coherent) (s : Section) (claimed : (s.perform r).names.get? name = some o)
    (other : s.gains r ≠ some name) : r.names.get? name = some o := by
  have removed (gone : OwnerId) (left : (r.removeOwner gone).2.names.get? name = some o) :
      r.names.get? name = some o := get?_of_keep coherent (removeOwner_eq coherent gone ▸ left)
  have resolved (alive : OwnerId → Bool) (asked : String) (left : (r.resolve alive asked).2.names.get? name = some o) :
      r.names.get? name = some o := by
    unfold resolve at left
    split at left
    · exact left
    · split at left
      · exact left
      · exact removed _ left
  cases s with
  | register alive owner d =>
    cases owner with
    | none => exact claimed
    | some owner =>
      rw [Section.perform] at claimed
      rw [Section.gains, gained] at other
      rcases register_outcome coherent alive owner d with refused | ⟨after, registered, _, names⟩
      · rw [refused] at claimed
        exact get?_of_keep coherent claimed
      · rw [registered] at claimed other
        rw [names, if_neg fun same => other (congrArg some same.symm)] at claimed
        exact (Option.filter_eq_some_iff.mp claimed).1
  | file alive owner f =>
    rw [Section.perform, ← attempt_roomy] at claimed
    exact (attempt_moved coherent alive owner true f).within claimed other
  | unregister gone release =>
    rw [Section.perform, unregister_snd, removeName_without coherent, get?_without coherent] at claimed
    split at claimed
    · cases claimed
    · exact claimed
  | unregisterOwner gone => exact removed gone claimed
  | dispatch alive asked => exact resolved alive asked claimed
  | execute alive line radix =>
    rw [Section.perform, receive] at claimed
    split at claimed
    · exact claimed
    · rename_i l parsed
      have left : (r.resolve alive l.name).2.names.get? name = some o := by
        split at claimed <;> rename_i outcome <;> rw [outcome] <;> exact claimed
      exact resolved alive l.name left
  | exhausted alive =>
    rw [Section.perform, reclaim_eq coherent] at claimed
    exact get?_of_keep coherent claimed

end Registry

/-! ### Registrations among other calls -/

/-- A call that registers a table, also when it has returned. -/
structure Call where
  owner : OwnerId × String
  filing : Registry.Filing
  /-- All names that it has claimed. -/
  won : List String := []

/-- A registry with the tables that were registered at it. -/
structure Desk where
  registry : Registry := {}
  calls : List Call := []
  /-- The call through which a name was claimed last; other calls claim names as well. -/
  through : String → Option Nat := fun _ => none

inductive Move where
  | begin (owner : OwnerId × String) (table : List Descriptor)
  /-- A call goes on by one section or returns. -/
  | proceed (alive : OwnerId → Bool) (room : Bool) (call : Nat)
  /-- A section of another call. -/
  | meanwhile (s : Registry.Section)

namespace Desk

def marked (d : Desk) (gained : Option String) (call : Option Nat) (name : String) : Option Nat :=
  if gained = some name then call else d.through name

/-- The call at this place has gone on, and claimed the name if one is given. -/
def advanced (d : Desk) (k : Nat) (c : Call) (gained : Option String) (outcome : Registry.Filing × Registry) : Desk where
  registry := outcome.2
  calls := d.calls.set k { c with filing := outcome.1, won := c.won ++ gained.toList }
  through := d.marked gained (some k)

def step (d : Desk) : Move → Desk
  | .begin owner table => { d with calls := d.calls ++ [{ owner, filing := .claiming table [] }] }
  | .proceed alive room k =>
    match d.calls[k]? with
    | none => d
    | some c =>
      d.advanced k c (c.filing.gains alive c.owner room d.registry) (c.filing.attempt alive c.owner room d.registry)
  | .meanwhile s => { d with registry := s.perform d.registry, through := d.marked (s.gains d.registry) none }

def after (moves : List Move) : Desk := moves.foldl step {}

/-- What the marks say about the registry. -/
structure Followed (d : Desk) : Prop where
  coherent : d.registry.Coherent
  /-- A claim through a call is its owner's, and the call will take it back if it fails. -/
  kept : ∀ name o k, d.registry.names.get? name = some o → d.through name = some k →
    ∃ c, d.calls[k]? = some c ∧ c.owner.1 = o ∧ name ∈ c.won ∧ c.filing.Keeps name
  /-- Nothing else is given back by a call than what it has claimed. -/
  won : ∀ c ∈ d.calls, ∀ name ∈ c.filing.pending, name ∈ c.won

variable {d : Desk}

theorem followed_empty : Followed {} where
  coherent := Registry.empty_coherent
  kept _ _ _ _ marked := by cases marked
  won _ member := by cases member

theorem Followed.begin (followed : d.Followed) (owner : OwnerId × String) (table : List Descriptor) :
    (d.step (.begin owner table)).Followed where
  coherent := followed.coherent
  kept name o k claimed marked := by
    obtain ⟨c, found, rest⟩ := followed.kept name o k claimed marked
    obtain ⟨within, _⟩ := List.getElem?_eq_some_iff.mp found
    exact ⟨c, (List.getElem?_append_left within).trans found, rest⟩
  won c member name pending := by
    rcases List.mem_append.mp member with old | new
    · exact followed.won c old name pending
    · rw [List.mem_singleton.mp new] at pending
      cases pending

theorem Followed.meanwhile (followed : d.Followed) (s : Registry.Section) : (d.step (.meanwhile s)).Followed where
  coherent := Registry.perform_coherent followed.coherent s
  kept name o k claimed marked := by
    have other : s.gains d.registry ≠ some name := fun gains => by
      have unmarked : d.marked (s.gains d.registry) none name = some k := marked
      rw [Desk.marked, if_pos gains] at unmarked
      cases unmarked
    have before : d.through name = some k := (if_neg other).symm.trans marked
    exact followed.kept name o k (Registry.perform_within followed.coherent s claimed other) before
  won := followed.won

theorem Followed.advanced (followed : d.Followed) {k : Nat} {c : Call} (found : d.calls[k]? = some c)
    {alive : OwnerId → Bool} {gained : Option String} {outcome : Registry.Filing × Registry}
    (coherent : outcome.2.Coherent)
    (moved : c.filing.Moved alive c.owner.1 d.registry.names.get? outcome.2.names.get? outcome.1 gained) :
    (d.advanced k c gained outcome).Followed where
  coherent := coherent
  kept name o j claimed marked := by
    have within : k < d.calls.length := (List.getElem?_eq_some_iff.mp found).1
    have marked : (if gained = some name then some k else d.through name) = some j := marked
    -- A name that is claimed just now is this call's; any other one was claimed before, maybe through the same call.
    by_cases gains : gained = some name
    · subst gains
      rw [if_pos rfl] at marked
      cases marked
      have owned : some c.owner.1 = some o := moved.gain_owner.symm.trans claimed
      exact ⟨_, List.getElem?_set_self within, Option.some.inj owned,
        List.mem_append_right c.won (List.mem_singleton_self name), .inl moved.gain_pending⟩
    · rw [if_neg gains] at marked
      obtain ⟨c', found', owned, won, keeps⟩ := followed.kept name o j (moved.within claimed gains) marked
      by_cases same : j = k
      · subst same
        obtain rfl : c = c' := Option.some.inj (found.symm.trans found')
        exact ⟨_, List.getElem?_set_self within, owned, List.mem_append_left _ won, moved.keeps claimed keeps⟩
      · exact ⟨c', (List.getElem?_set_ne (Ne.symm same)).trans found', owned, won, keeps⟩
  won c' member name pending := by
    rcases List.mem_or_eq_of_mem_set member with old | rfl
    · exact followed.won c' old name pending
    · rcases moved.pending pending with before | rfl
      · exact List.mem_append_left _ (followed.won c (List.mem_of_getElem? found) name before)
      · exact List.mem_append_right c.won (List.mem_singleton_self name)

theorem Followed.step (followed : d.Followed) (m : Move) : (d.step m).Followed := by
  cases m with
  | begin owner table => exact followed.begin owner table
  | proceed alive room k =>
    rw [Desk.step]
    cases found : d.calls[k]? with
    | none => exact followed
    | some c =>
      exact followed.advanced found (Registry.attempt_coherent followed.coherent room c.filing)
        (Registry.attempt_moved followed.coherent alive c.owner room c.filing)
  | meanwhile s => exact followed.meanwhile s

theorem followed_after (moves : List Move) : (after moves).Followed := by
  have run (d : Desk) (followed : d.Followed) : (moves.foldl Desk.step d).Followed := by
    induction moves generalizing d with
    | nil => exact followed
    | cons m rest ih => exact ih (d.step m) (followed.step m)
  exact run {} followed_empty

/-- However the sections of calls are mixed, a registration takes a name from nobody who is alive, unless it gives back
what it has claimed itself; and nothing stays claimed through a registration that has failed. -/
theorem rollback_spares_living (moves : List Move) (k : Nat) {c : Call} (found : (after moves).calls[k]? = some c) :
    (∀ alive room name o, (after moves).registry.names.get? name = some o → alive o = true →
      ((after moves).step (.proceed alive room k)).registry.names.get? name = some o ∨
      (∃ left e, c.filing = .releasing (name :: left) e) ∧ name ∈ c.won) ∧
    (∀ name o, (after moves).registry.names.get? name = some o → (after moves).through name = some k →
      o = c.owner.1 ∧ name ∈ c.won) ∧
    ∀ e, c.filing = .finished (.error e) →
      ∀ name o, (after moves).registry.names.get? name = some o → (after moves).through name ≠ some k := by
  have followed := followed_after moves
  have through : ∀ name o, (after moves).registry.names.get? name = some o → (after moves).through name = some k →
      c.owner.1 = o ∧ name ∈ c.won ∧ c.filing.Keeps name := by
    intro name o claimed marked
    obtain ⟨c', found', own⟩ := followed.kept name o k claimed marked
    obtain rfl : c = c' := Option.some.inj (found.symm.trans found')
    exact own
  refine ⟨fun alive room name o claimed awake => ?_, fun name o claimed marked => ?_,
    fun e failed name o claimed marked => ?_⟩
  · have moved := Registry.attempt_moved followed.coherent alive c.owner room c.filing
    have names : ((after moves).step (.proceed alive room k)).registry =
        (c.filing.attempt alive c.owner room (after moves).registry).2 := by
      rw [step, found]
      rfl
    rw [names]
    refine (moved.spares claimed awake).imp_right fun back => ⟨back, ?_⟩
    obtain ⟨left, e, releasing⟩ := back
    have pending : name ∈ c.filing.pending := by
      rw [releasing]
      exact List.mem_cons_self
    exact followed.won c (List.mem_of_getElem? found) name pending
  · obtain ⟨owned, won, _⟩ := through name o claimed marked
    exact ⟨owned.symm, won⟩
  · obtain ⟨_, _, keeps⟩ := through name o claimed marked
    rw [failed] at keeps
    rcases keeps with pending | succeeded
    · cases pending
    · cases succeeded

/-- A table is refused for its second name, while another one is being registered. -/
def contended : List Move :=
  [.meanwhile (.register (fun _ => true) (some (3, "console")) { name := "CCON" }),
    .begin (1, "modem") [{ name := "APN" }, { name := "CCON" }],
    .proceed (fun _ => true) true 0,
    .begin (2, "log") [{ name := "CLOG" }],
    .proceed (fun _ => true) true 1,
    .proceed (fun _ => true) true 0]

/-- The refused registration gives back its first name and returns. -/
def settled : List Move := contended ++ List.replicate 2 (.proceed (fun _ => true) true 0)

theorem rollback_spares_living_contended :
    (after contended).calls[0]? = some ⟨(1, "modem"), .releasing ["APN"] (.duplicate "CCON"), ["APN"]⟩ ∧
    ((after contended).step (.proceed (fun _ => true) true 0)).registry.names.get? "CLOG" = some 2 ∧
    (after settled).calls[0]? = some ⟨(1, "modem"), .finished (.error (.duplicate "CCON")), ["APN"]⟩ ∧
    ∀ name o, (after settled).registry.names.get? name = some o → (after settled).through name ≠ some 0 := by
  refine ⟨rfl, ?_, rfl, ?_⟩
  · have claimed : (after contended).registry.names.get? "CLOG" = some 2 := by decide
    obtain ⟨spared, _⟩ := rollback_spares_living contended 0 rfl
    rcases spared (fun _ => true) true "CLOG" 2 claimed rfl with kept | ⟨⟨left, e, releasing⟩, _⟩
    · exact kept
    · have same : "APN" = "CLOG" := (List.cons.inj (Registry.Filing.releasing.inj releasing).1).1
      exact absurd same (by decide)
  · obtain ⟨_, _, returned⟩ := rollback_spares_living settled 0 rfl
    exact returned _ rfl

/-- The owner of a name goes, and a table is about to be registered. -/
def abandoned : List Move :=
  [.meanwhile (.register (fun _ => true) (some (1, "modem")) { name := "APN" }),
    .meanwhile (.register (fun _ => true) (some (3, "console")) { name := "CCON" }),
    .begin (2, "log") [{ name := "LLEV" }, { name := "CCON" }]]

/-- A name that a refused table has claimed is released by someone and claimed by someone else. -/
def overtaken : List Move :=
  [.meanwhile (.register (fun _ => true) (some (3, "console")) { name := "CCON" }),
    .begin (1, "modem") [{ name := "APN" }, { name := "CCON" }],
    .proceed (fun _ => true) true 0,
    .meanwhile (.unregister "APN" true),
    .meanwhile (.register (fun _ => true) (some (2, "log")) { name := "APN" }),
    .proceed (fun _ => true) true 0]

/-- A registration that fails may take names from others: from those who are gone, and by giving back a name that has
passed to another owner meanwhile. -/
theorem rollback_takes_foreign :
    ((after abandoned).registry.names.get? "APN" = some 1 ∧
      ((after abandoned).step (.proceed (fun o => o ≠ 1) true 0)).registry.names.get? "APN" = none ∧
      (after (abandoned ++ List.replicate 4 (.proceed (fun o => o ≠ 1) true 0))).calls[0]? =
        some ⟨(2, "log"), .finished (.error (.duplicate "CCON")), ["LLEV"]⟩) ∧
    (after overtaken).registry.names.get? "APN" = some 2 ∧
      ((after overtaken).step (.proceed (fun _ => true) true 0)).registry.names.get? "APN" = none ∧
      (after (overtaken ++ List.replicate 2 (.proceed (fun _ => true) true 0))).calls[0]? =
        some ⟨(1, "modem"), .finished (.error (.duplicate "CCON")), ["APN"]⟩ :=
  ⟨⟨by decide, by decide, rfl⟩, by decide, by decide, rfl⟩

end Desk

end Switchboard.Attribute
