import Switchboard.Proofs.Attribute.Listing
import Switchboard.Proofs.Attribute.Reclaiming

/-!
Tables are registered as a whole or not at all. Registration goes name by name and takes back what it has claimed at
the first name that is taken; what is left then is the registry from before, down to the order of its names. Main
statement: `table_all_or_nothing`.
-/

namespace Switchboard.Attribute

/-! ### The first name in the way -/

namespace Ledger

theorem conflict?_eq_none_iff (taken : List String) (table : List Descriptor) :
    conflict? taken table = none ↔ (table.map Descriptor.name).Nodup ∧ ∀ d ∈ table, d.name ∉ taken := by
  induction table generalizing taken with
  | nil => simp [conflict?]
  | cons d rest ih =>
    rw [conflict?]
    split
    · rename_i here
      refine iff_of_false (Option.some_ne_none _) ?_
      rintro ⟨_, free⟩
      exact free d List.mem_cons_self here
    · rename_i free
      rw [ih, List.map_cons, List.nodup_cons, List.forall_mem_cons]
      constructor
      · rintro ⟨distinct, apart⟩
        refine ⟨⟨fun member => ?_, distinct⟩, free, fun d' member here => ?_⟩
        · obtain ⟨d', later, same⟩ := List.mem_map.mp member
          exact apart d' later (List.mem_append_right taken (List.mem_singleton.mpr same))
        · exact apart d' member (List.mem_append_left _ here)
      · rintro ⟨⟨missing, distinct⟩, _, apart⟩
        refine ⟨distinct, fun d' member here => ?_⟩
        rcases List.mem_append.mp here with old | new
        · exact apart d' member old
        · exact missing (List.mem_singleton.mp new ▸ List.mem_map_of_mem member)

/-- Rows before the first one in the way have names of their own that nobody has claimed. -/
theorem conflict?_eq_some {taken : List String} {table : List Descriptor} {name : String}
    (conflict : conflict? taken table = some name) :
    ∃ before d rest, table = before ++ d :: rest ∧ d.name = name ∧
      (d.name ∈ taken ∨ d.name ∈ before.map Descriptor.name) ∧ (before.map Descriptor.name).Nodup ∧
      ∀ d' ∈ before, d'.name ∉ taken := by
  induction table generalizing taken with
  | nil => cases conflict
  | cons d rest ih =>
    rw [conflict?] at conflict
    split at conflict
    · rename_i here
      exact ⟨[], d, rest, rfl, Option.some.inj conflict, .inl here, List.nodup_nil, by simp⟩
    · rename_i free
      obtain ⟨before, d', rest, rfl, named, reason, distinct, apart⟩ := ih conflict
      refine ⟨d :: before, d', rest, rfl, named, ?_, ?_, ?_⟩
      · rw [List.mem_append, List.mem_singleton] at reason
        rw [List.map_cons, List.mem_cons, or_assoc] at *
        exact reason
      · rw [List.map_cons, List.nodup_cons]
        refine ⟨fun member => ?_, distinct⟩
        obtain ⟨d'', earlier, same⟩ := List.mem_map.mp member
        exact apart d'' earlier (List.mem_append_right taken (List.mem_singleton.mpr same))
      · exact List.forall_mem_cons.mpr ⟨free, fun d'' earlier here => apart d'' earlier (List.mem_append_left _ here)⟩

end Ledger

namespace Registry

variable {r : Registry} {alive : OwnerId → Bool} {owner : OwnerId × String}

/-! ### Owners that are gone -/

theorem keep_alive (r : Registry) : ∀ s ∈ (r.keep alive).slots, alive s.owner = true :=
  fun _ member => (List.mem_filter.mp member).2

theorem register_reclaimed (coherent : r.Coherent) (owner : OwnerId × String) (d : Descriptor) :
    (r.keep alive).register alive (some owner) d = r.register alive (some owner) d := by
  unfold register
  simp only [reclaim_eq coherent, reclaim_of_alive (keep_alive r)]

/-- As long as everybody with names is alive, it does not matter who else is. -/
theorem advance_everyone (all : ∀ s ∈ r.slots, alive s.owner = true) (f : Filing) :
    f.advance alive owner r = f.advance everyone owner r := by
  have same (d : Descriptor) : r.register alive (some owner) d = r.register everyone (some owner) d := by
    have unreclaimed : r.reclaim everyone = r := reclaim_of_alive fun _ _ => rfl
    unfold register
    simp only [reclaim_of_alive all, unreclaimed]
  unfold Filing.advance
  simp only [same]

theorem advance_alive (coherent : r.Coherent) (awake : alive owner.1 = true)
    (all : ∀ s ∈ r.slots, alive s.owner = true) (f : Filing) :
    ∀ s ∈ (f.advance alive owner r).2.slots, alive s.owner = true := by
  have kept := congrArg Prod.snd (advance_keep coherent awake f)
  rw [keep_of_alive coherent all] at kept
  rw [← kept]
  exact keep_alive _

theorem run_everyone (coherent : r.Coherent) (awake : alive owner.1 = true)
    (all : ∀ s ∈ r.slots, alive s.owner = true) (f : Filing) :
    Filing.run alive owner r f = Filing.run everyone owner r f := by
  fun_induction Filing.run alive owner r f with
  | case1 r result => rw [Filing.run]
  | case2 r todo done next ih =>
    rw [Filing.run, ← advance_everyone all]
    exact ih (filing_coherent coherent alive owner _) (advance_alive coherent awake all _)
  | case3 r left e next ih =>
    rw [Filing.run, ← advance_everyone all]
    exact ih (filing_coherent coherent alive owner _) (advance_alive coherent awake all _)

/-- A registration begins with what the living owners have, unless it has nothing to register. -/
theorem registerTable_keep (coherent : r.Coherent) (awake : alive owner.1 = true) {table : List Descriptor}
    (some : table ≠ []) : r.registerTable alive owner table = (r.keep alive).registerTable everyone owner table := by
  obtain ⟨d, rest, rfl⟩ := List.exists_cons_of_ne_nil some
  have first : Filing.advance alive owner r (.claiming (d :: rest) []) =
      Filing.advance alive owner (r.keep alive) (.claiming (d :: rest) []) := by
    simp only [Filing.advance, register_reclaimed coherent]
  rw [registerTable, registerTable, ← run_everyone (keep_coherent coherent alive) awake (keep_alive r), Filing.run,
    Filing.run, first]

theorem registerTable_nil (r : Registry) : r.registerTable alive owner [] = (.ok (), r) := by
  rw [registerTable, Filing.run, Filing.advance, Filing.run]

/-! ### The order of names -/

def entryOf (owner : OwnerId × String) (d : Descriptor) : String × OwnerId := (d.name, owner.1)

/-- Names given back leave the others in the order in which they were claimed. -/
theorem releasing_names {entries : List (String × OwnerId)} (coherent : r.Coherent) (ds : List Descriptor) (e : Error)
    (claimed : r.names.entries = entries ++ ds.map (entryOf owner)) :
    let outcome := Filing.run everyone owner r (.releasing (ds.map Descriptor.name) e)
    outcome.1 = .error e ∧ outcome.2.names.entries = entries := by
  induction ds generalizing r with
  | nil =>
    rw [List.map_nil, Filing.run, Filing.advance, Filing.run]
    exact ⟨rfl, claimed.trans (List.append_nil entries)⟩
  | cons d rest ih =>
    have distinct := keys_nodup coherent
    rw [claimed, List.map_append, List.map_cons, List.map_cons, List.nodup_append, List.nodup_cons] at distinct
    obtain ⟨_, ⟨missing, _⟩, apart⟩ := distinct
    have old : entries.filter (fun e => e.1 ≠ d.name) = entries := by
      refine List.filter_eq_self.mpr fun e member => decide_eq_true ?_
      exact apart e.1 (List.mem_map_of_mem member) d.name List.mem_cons_self
    have new : (rest.map (entryOf owner)).filter (fun e => e.1 ≠ d.name) = rest.map (entryOf owner) := by
      refine List.filter_eq_self.mpr fun e member => decide_eq_true fun same => missing ?_
      exact List.mem_map.mpr ⟨e, member, same⟩
    have left : (r.unregister d.name true).2.names.entries = entries ++ rest.map (entryOf owner) := by
      rw [unregister_snd, removeName_without coherent, without, claimed, List.filter_append, List.map_cons,
        List.filter_cons_of_neg (by simp [entryOf]), old, new]
    rw [List.map_cons, Filing.run, Filing.advance]
    exact ih (unregister_coherent coherent d.name true) left

theorem register_cases (r : Registry) (owner : OwnerId × String) (d : Descriptor) :
    r.register everyone (some owner) d = (.error (.duplicate d.name), r) ∨
      ∃ r', r.register everyone (some owner) d = (.ok (), r') ∧
        r'.names.entries = r.names.entries ++ [entryOf owner d] := by
  have unreclaimed : r.reclaim everyone = r := reclaim_of_alive fun _ _ => rfl
  unfold register
  simp only [unreclaimed]
  split
  · exact .inl rfl
  · rename_i free
    have absent : d.name ∉ r.names.keys := fun member => free (OrderedMap.contains_iff.mpr member)
    exact .inr ⟨_, rfl, OrderedMap.put_of_absent absent owner.1⟩

theorem claiming_names (owner : OwnerId × String) {entries : List (String × OwnerId)} (done todo : List Descriptor)
    (coherent : r.Coherent)
    (claimed : r.names.entries = entries ++ done.map (entryOf owner)) :
    let outcome := Filing.run everyone owner r (.claiming todo (done.map Descriptor.name))
    (outcome.1 = .ok () ∧ outcome.2.names.entries = entries ++ (done ++ todo).map (entryOf owner)) ∨
      ((∃ e, outcome.1 = .error e) ∧ outcome.2.names.entries = entries) := by
  induction todo generalizing r done with
  | nil =>
    rw [Filing.run, Filing.advance, Filing.run, List.append_nil]
    exact .inl ⟨rfl, claimed⟩
  | cons d rest ih =>
    have kept := register_coherent coherent everyone (some owner) d
    rcases register_cases r owner d with refused | ⟨r', registered, grown⟩
    · rw [Filing.run, Filing.advance, refused]
      obtain ⟨failed, left⟩ := releasing_names coherent done (.duplicate d.name) claimed
      exact .inr ⟨⟨_, failed⟩, left⟩
    · rw [registered] at kept
      have more : r'.names.entries = entries ++ (done ++ [d]).map (entryOf owner) := by
        rw [grown, claimed, List.map_append, List.append_assoc, List.map_singleton]
      have later := ih (done ++ [d]) kept more
      rw [List.map_append] at later
      rw [Filing.run, Filing.advance, registered, List.append_cons done d rest]
      exact later

/-! ### All or nothing -/

theorem ledger_injective {r r' : Registry} (same : r.ledger = r'.ledger) : r.slots = r'.slots := by
  refine List.map_injective_iff.mpr (fun s s' equal => ?_) (congrArg OrderedMap.entries same)
  obtain ⟨owner, label, descriptors⟩ := s
  obtain ⟨owner', label', descriptors'⟩ := s'
  obtain ⟨rfl, rest⟩ := Prod.mk.inj equal
  obtain ⟨rfl, rfl⟩ := Group.mk.inj rest
  rfl

theorem registerTable_cases (coherent : r.Coherent) (owner : OwnerId × String) (table : List Descriptor) :
    (∃ name, Ledger.conflict? r.ledger.names table = some name ∧
      r.registerTable everyone owner table = (.error (.duplicate name), r)) ∨
    (Ledger.conflict? r.ledger.names table = none ∧ ∃ r', r.registerTable everyone owner table = (.ok (), r') ∧
      r'.ledger = r.ledger.add owner table ∧ r'.names.entries = r.names.entries ++ table.map (entryOf owner)) := by
  have asLedger := registerTable_ledger coherent owner table
  have names := claiming_names owner [] table coherent (List.append_nil _).symm
  rw [List.map_nil, ← registerTable] at names
  rw [Ledger.registerTable] at asLedger
  generalize r.registerTable everyone owner table = outcome at asLedger names ⊢
  obtain ⟨result, r'⟩ := outcome
  cases conflict : Ledger.conflict? r.ledger.names table with
  | none =>
    rw [conflict] at asLedger
    obtain ⟨rfl, added⟩ := Prod.mk.inj asLedger
    rcases names with ⟨_, grown⟩ | ⟨⟨_, failed⟩, _⟩
    · exact .inr ⟨rfl, r', rfl, added, grown⟩
    · cases failed
  | some name =>
    rw [conflict] at asLedger
    obtain ⟨rfl, same⟩ := Prod.mk.inj asLedger
    rcases names with ⟨succeeded, _⟩ | ⟨_, kept⟩
    · cases succeeded
    · have names : r'.names = r.names := congrArg OrderedMap.mk kept
      obtain ⟨_, _⟩ := r'
      cases names
      cases ledger_injective same
      exact .inl ⟨name, rfl, rfl⟩

def Taken (r : Registry) (alive : OwnerId → Bool) (name : String) : Prop :=
  ∃ o, r.names.get? name = some o ∧ alive o = true

theorem taken_iff (coherent : r.Coherent) (name : String) : name ∈ (r.keep alive).ledger.names ↔ r.Taken alive name := by
  rw [← contains_iff (keep_coherent coherent alive), OrderedMap.contains, get?_keep coherent, Option.isSome_iff_exists]
  simp only [Option.filter_eq_some_iff, Taken]

/-- A living owner registers a table with a registry that calls have brought into whatever state, and nothing else is
asked of it meanwhile. That succeeds exactly if the names in the table are distinct and nobody alive has claimed one of
them. If it succeeds, the table stands at the end of the owner's group, in its order. Otherwise the answer names
the first row whose name is claimed or stands in the table before, and everything is as it was. In both cases nobody
loses anything but owners that are gone, whose slots have been reclaimed if there was anything to register. -/
theorem table_all_or_nothing (owner : OwnerId × String) (before : List Section) (awake : alive owner.1 = true)
    (table : List Descriptor) :
    let r := after before
    let left := if table = [] then r else r.keep alive
    let outcome := r.registerTable alive owner table
    ((∀ s ∈ r.slots, alive s.owner = true) → left = r) ∧
    (outcome.1 = .ok () ↔ (table.map Descriptor.name).Nodup ∧ ∀ d ∈ table, ¬ r.Taken alive d.name) ∧
    (outcome.1 = .ok () → outcome.2.ledger = left.ledger.add owner table ∧
      outcome.2.names.entries = left.names.entries ++ table.map fun d => (d.name, owner.1)) ∧
    (outcome.1 ≠ .ok () → outcome.2 = left ∧ ∃ front d rest, table = front ++ d :: rest ∧
      outcome.1 = .error (.duplicate d.name) ∧
      (r.Taken alive d.name ∨ d.name ∈ front.map Descriptor.name) ∧
      (front.map Descriptor.name).Nodup ∧ ∀ d' ∈ front, ¬ r.Taken alive d'.name) := by
  intro r left outcome
  have coherent : r.Coherent := performs_coherent empty_coherent before
  refine ⟨fun all => by simp only [left, keep_of_alive coherent all, ite_self], ?_⟩
  by_cases none : table = []
  · subst none
    have unchanged : outcome = (.ok (), r) := registerTable_nil r
    rw [unchanged]
    exact ⟨by simp, fun _ => ⟨(Ledger.add_nil owner).symm, (List.append_nil _).symm⟩, fun failed => absurd rfl failed⟩
  have base : left = r.keep alive := if_neg none
  have begun : outcome = left.registerTable everyone owner table := base ▸ registerTable_keep coherent awake none
  have taken (name : String) : name ∈ left.ledger.names ↔ r.Taken alive name := base ▸ taken_iff coherent name
  have free := Ledger.conflict?_eq_none_iff left.ledger.names table
  simp only [taken] at free
  rw [begun, ← free]
  rcases registerTable_cases (base ▸ keep_coherent coherent alive) owner table with
    ⟨name, conflict, refused⟩ | ⟨free, r', registered, added, grown⟩
  · obtain ⟨front, d, rest, split, rfl, reason, distinct, apart⟩ := Ledger.conflict?_eq_some conflict
    simp only [taken] at reason apart
    rw [refused, conflict]
    exact ⟨by simp, nofun, fun _ => ⟨rfl, front, d, rest, split, rfl, reason, distinct, apart⟩⟩
  · rw [registered, free]
    exact ⟨by simp, fun _ => ⟨added, grown⟩, fun failed => absurd rfl failed⟩

def modemBegun : List Section :=
  [.register everyone (some (1, "console")) { name := "CCON" }, .register everyone (some (2, "modem")) { name := "RST" }]

/-- The console is gone when the modem, which has a name already, registers its table. A row that repeats that name
undoes the registration; without it the table takes the console's name over. -/
theorem table_all_or_nothing_takeover :
    let table : List Descriptor := [{ name := "CCON" }, { name := "APN" }]
    let awake : OwnerId → Bool := fun o => o ≠ 1
    awake 2 = true ∧
    ((after modemBegun).registerTable awake (2, "modem") (table ++ [{ name := "RST" }])).2.slots =
      [⟨2, "modem", [{ name := "RST" }]⟩] ∧
    ((after modemBegun).registerTable awake (2, "modem") table).1 = .ok () ∧
    ((after modemBegun).registerTable awake (2, "modem") table).2.ledger.shown (some 2) =
      [{ name := "RST" }, { name := "CCON" }, { name := "APN" }] := by
  intro table awake
  have here : awake 2 = true := rfl
  have taken : (after modemBegun).Taken awake "RST" := ⟨2, by decide, here⟩
  have free : ∀ d ∈ table, ¬ (after modemBegun).Taken awake d.name := by
    have console : (after modemBegun).names.get? "CCON" = some 1 := by decide
    have nobody : (after modemBegun).names.get? "APN" = none := by decide
    simp [table, Taken, console, nobody, awake]
  obtain ⟨_, undone, _, restored⟩ :=
    table_all_or_nothing (2, "modem") modemBegun here (table ++ [{ name := "RST" }])
  obtain ⟨_, succeeds, added, _⟩ := table_all_or_nothing (2, "modem") modemBegun here table
  have refused := fun registered => (undone.mp registered).2 { name := "RST" } (by simp) taken
  have registered := succeeds.mpr ⟨by decide, free⟩
  refine ⟨here, ?_, registered, ?_⟩
  · rw [(restored refused).1]
    decide
  · rw [(added registered).1]
    decide

end Registry

end Switchboard.Attribute
