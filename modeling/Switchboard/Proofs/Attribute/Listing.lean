import Switchboard.Proofs.Attribute.Coherence
import Switchboard.Proofs.Attribute.Ledger

/-!
A registry whose owners are all alive is a ledger: every call is answered as the ledger answers it, and owners and
listings are those of the ledger. Main statement: `registry_ledger`.
-/

namespace Switchboard.Attribute

def everyone : OwnerId → Bool := fun _ => true

def Slot.entry (s : Slot) : OwnerId × Group := (s.owner, ⟨s.label, s.descriptors⟩)

@[simp] theorem Slot.entry_fst (s : Slot) : s.entry.1 = s.owner := rfl
@[simp] theorem Slot.entry_descriptors (s : Slot) : s.entry.2.descriptors = s.descriptors := rfl

namespace Registry

variable {r : Registry}

/-! ### The ledger of a registry -/

/-- The slots, without the names that find them. -/
def ledger (r : Registry) : Ledger := ⟨r.slots.map Slot.entry⟩

theorem ledger_keys (r : Registry) : r.ledger.keys = r.slots.map Slot.owner := List.map_map

theorem ledger_claimed (r : Registry) : r.ledger.claimed = r.slots.flatMap Slot.descriptors := by
  unfold Ledger.claimed OrderedMap.values ledger
  rw [List.map_map, List.flatMap_map]
  rfl

theorem ledger_owners (r : Registry) : r.ledger.owners = r.owners := by
  unfold Ledger.owners OrderedMap.values ledger owners
  rw [List.map_map, List.map_map]
  rfl

theorem ledger_get? (r : Registry) (owner : OwnerId) :
    r.ledger.get? owner = (r.slot? owner).map fun s => ⟨s.label, s.descriptors⟩ :=
  OrderedMap.find_map r.slots Slot.owner _ owner

theorem ledger_sound (coherent : r.Coherent) : r.ledger.Sound where
  owners := by
    rw [ledger_keys]
    exact coherent.owners
  inhabited e member := by
    obtain ⟨s, present, rfl⟩ := List.mem_map.mp member
    exact coherent.inhabited s present
  names := by
    rw [Ledger.names, ledger_claimed, ← claims_names]
    exact coherent.distinct

theorem contains_iff (coherent : r.Coherent) (name : String) :
    r.names.contains name = true ↔ name ∈ r.ledger.names := by
  rw [Ledger.names, ledger_claimed, ← claims_names, ← (coherent.agree.map Prod.fst).mem_iff]
  exact OrderedMap.contains_iff

/-- A claimed name is found in the ledger with the descriptor that its slot has for it. -/
theorem ledger_find (coherent : r.Coherent) {owner : OwnerId} {name : String} {s : Slot} {d : Descriptor}
    (found : r.slot? owner = some s) (described : s.descriptors.find? (fun d => d.name == name) = some d) :
    r.ledger.find name = some d := by
  refine (find?_key_iff Descriptor.name (ledger_sound coherent).names).mpr ⟨?_, ?_⟩
  · rw [ledger_claimed]
    exact List.mem_flatMap.mpr ⟨s, ((slot?_iff coherent).mp found).1, List.mem_of_find?_eq_some described⟩
  · simpa using List.find?_some described

theorem ledger_find_none (coherent : r.Coherent) {name : String} (unclaimed : r.names.get? name = none) :
    r.ledger.find name = none := by
  have absent : name ∉ r.ledger.names := by
    rw [← contains_iff coherent, OrderedMap.contains, unclaimed]
    exact Bool.false_ne_true
  refine List.find?_eq_none.mpr fun d member named => absent ?_
  rw [← eq_of_beq named]
  exact List.mem_map_of_mem member

theorem descriptor?_ledger (coherent : r.Coherent) (name : String) : r.descriptor? name = r.ledger.find name := by
  unfold descriptor?
  cases claimed : r.names.get? name with
  | none => exact (ledger_find_none coherent claimed).symm
  | some owner =>
    obtain ⟨s, d, found, described⟩ := filed_of_name coherent claimed
    rw [ledger_find coherent found described]
    simp [found, described]

theorem listed_ledger (coherent : r.Coherent) (wanted : Option OwnerId) :
    r.listed everyone wanted = r.ledger.shown wanted := by
  cases wanted with
  | none => rw [listed_of_alive fun _ _ => rfl, Ledger.shown, ledger_claimed]
  | some owner =>
    have distinct := coherent.owners
    unfold listed ledger
    generalize r.slots = slots at distinct
    induction slots with
    | nil => rfl
    | cons s rest ih =>
      obtain ⟨missing, distinct⟩ := List.nodup_cons.mp distinct
      rw [List.map_cons, Ledger.shown_cons, Slot.entry_fst, Slot.entry_descriptors, ← ih distinct]
      by_cases same : s.owner = owner
      · subst same
        have others : (rest.filter fun s' => (some s.owner).all (· == s'.owner) && everyone s'.owner) = [] := by
          apply List.filter_eq_nil_iff.mpr
          intro s' member
          have other : s.owner ≠ s'.owner := fun equal => missing (equal ▸ List.mem_map_of_mem member)
          simpa [everyone] using other
        rw [List.filter_cons_of_pos (by simp [everyone]), others, if_pos rfl]
        exact List.append_nil _
      · rw [List.filter_cons_of_neg (by simp [everyone, Ne.symm same]), if_neg same]

theorem text_rows (ds : List Descriptor) (radix : String) :
    String.join ((Ledger.rows ds).map (Ledger.Row.text radix)) = String.join (ds.map (row radix)) := by
  induction ds with
  | nil => rfl
  | cons d rest ih =>
    have head : String.join ((if d.access.canWrite then [Ledger.Row.entry d, .help d] else [.entry d]).map
        (Ledger.Row.text radix)) = row radix d := by
      unfold row
      split <;> simp [Ledger.Row.text, String.join_cons]
    rw [Ledger.rows, List.flatMap_cons, List.map_append, String.join_append, head, ← Ledger.rows, ih, List.map_cons,
      String.join_cons]

theorem list_ledger (coherent : r.Coherent) (wanted : Option OwnerId) (radix : String) :
    r.list everyone wanted radix = r.ledger.list wanted radix := by
  unfold list Ledger.list Ledger.text
  rw [listed_ledger coherent, text_rows]
  rfl

/-! ### Calls -/

theorem file_ledger (owner : OwnerId) (label : String) (d : Descriptor) (slots : List Slot) :
    (file owner label d slots).map Slot.entry = (Ledger.add ⟨slots.map Slot.entry⟩ (owner, label) [d]).entries := by
  induction slots with
  | nil => rfl
  | cons s rest ih =>
    rw [file, List.map_cons, Ledger.add_cons, Slot.entry_fst]
    by_cases same : s.owner = owner
    · rw [if_pos same, if_pos same]
      rfl
    · rw [if_neg same, if_neg same, List.map_cons, ih]

theorem register_ledger (coherent : r.Coherent) (owner : Option (OwnerId × String)) (d : Descriptor) :
    Prod.map id ledger (r.register everyone owner d) = r.ledger.register owner d := by
  match owner with
  | none => rfl
  | some (owner, label) =>
    have unreclaimed : r.reclaim everyone = r := reclaim_of_alive fun _ _ => rfl
    simp only [register, Ledger.register, unreclaimed, contains_iff coherent]
    split
    · rfl
    · have filed := congrArg OrderedMap.mk (file_ledger owner label d r.slots)
      exact congrArg (Prod.mk (Except.ok ())) filed

theorem removeName_ledger (coherent : r.Coherent) {owner : OwnerId} {name : String}
    (claimed : r.names.get? name = some owner) : (r.removeName name).2.ledger = r.ledger.remove name := by
  have entries : (r.slots.map (Slot.without name)).map Slot.entry =
      (r.slots.map Slot.entry).map fun e => (e.1, e.2.without name) := by
    rw [List.map_map, List.map_map]
    rfl
  have empty : (fun s : Slot => !s.descriptors.isEmpty) = (fun e => decide (e.2.descriptors ≠ [])) ∘ Slot.entry := by
    funext s
    cases left : s.descriptors <;> simp [left]
  rw [removeName_eq coherent claimed, empty]
  unfold ledger Ledger.remove
  rw [← entries, List.filter_map (f := Slot.entry)]

theorem removed_ledger (coherent : r.Coherent) (name : String) : (r.removeName name).1 = r.ledger.find name := by
  unfold removeName
  cases claimed : r.names.get? name with
  | none => exact (ledger_find_none coherent claimed).symm
  | some owner =>
    obtain ⟨s, d, found, described⟩ := filed_of_name coherent claimed
    have found' : ({ r with names := r.names.erase name } : Registry).slot? owner = some s := found
    simp only [found', described, ledger_find coherent found described]

theorem unregister_ledger (coherent : r.Coherent) (name : String) (release : Bool) :
    Prod.map id ledger (r.unregister name release) = r.ledger.unregister name release := by
  have removed := removed_ledger coherent name
  unfold unregister Ledger.unregister
  cases claimed : r.names.get? name with
  | none =>
    have unchanged : r.removeName name = (none, r) := by
      unfold removeName
      rw [claimed]
    simp only [unchanged, ledger_find_none coherent claimed, Prod.map_apply, id]
  | some owner =>
    have left := removeName_ledger coherent claimed
    obtain ⟨s, d, found, described⟩ := filed_of_name coherent claimed
    rw [ledger_find coherent found described] at removed ⊢
    rw [← left, ← Prod.eta (r.removeName name), removed]
    rfl

theorem keep_ledger (p : OwnerId → Bool) (r : Registry) : (r.keep p).ledger = ⟨r.ledger.entries.filter fun e => p e.1⟩ := by
  unfold ledger
  rw [List.filter_map]
  rfl

theorem removeOwner_ledger (coherent : r.Coherent) (owner : OwnerId) :
    Prod.map id ledger (r.removeOwner owner) = r.ledger.unregisterOwner owner := by
  have size : (r.removeOwner owner).1 = (r.ledger.get? owner).elim 0 fun g => g.descriptors.length := by
    rw [ledger_get?]
    unfold removeOwner
    cases r.slot? owner <;> rfl
  have left : (r.removeOwner owner).2.ledger = r.ledger.erase owner := by
    rw [removeOwner_eq coherent, keep_ledger, OrderedMap.erase, OrderedMap.drop_eq_filter (ledger_sound coherent).owners]
  rw [Ledger.unregisterOwner, ← size, ← left]
  rfl

/-! ### Tables -/

/-- Giving back what a table has claimed leaves the ledger from before. -/
theorem releasing_ledger {l : Ledger} (sound : l.Sound) (owner : OwnerId × String) (ds : List Descriptor) (e : Error)
    (coherent : r.Coherent) (claimed : r.ledger = l.add owner ds) :
    Prod.map id ledger (Filing.run everyone owner r (.releasing (ds.map Descriptor.name) e)) = (.error e, l) := by
  induction ds generalizing r with
  | nil =>
    rw [List.map_nil, Filing.run, Filing.advance, Filing.run, Prod.map_apply, claimed, Ledger.add_nil]
    rfl
  | cons d rest ih =>
    -- Names are given back in the order in which they were claimed, so the first of the new ones goes first.
    have distinct := (ledger_sound coherent).names
    rw [claimed, (Ledger.names_add l owner (d :: rest)).nodup_iff, List.map_cons] at distinct
    obtain ⟨_, new, apart⟩ := List.nodup_append.mp distinct
    have fresh : ∀ d' ∈ l.claimed, d'.name ≠ d.name := fun d' member =>
      apart _ (List.mem_map_of_mem member) _ List.mem_cons_self
    have other : ∀ d' ∈ rest, d'.name ≠ d.name := fun d' member equal =>
      (List.nodup_cons.mp new).1 (equal ▸ List.mem_map_of_mem member)
    have present : d.name ∈ r.ledger.names := by
      rw [claimed, (Ledger.names_add l owner (d :: rest)).mem_iff]
      simp
    obtain ⟨o, found⟩ := Option.isSome_iff_exists.mp ((contains_iff coherent d.name).mpr present)
    have left : (r.unregister d.name true).2.ledger = l.add owner rest := by
      rw [unregister_snd, removeName_ledger coherent found, claimed, Ledger.remove_add sound.inhabited fresh other]
    rw [List.map_cons, Filing.run, Filing.advance]
    exact ih (unregister_coherent coherent d.name true) left

theorem claiming_ledger {l : Ledger} (sound : l.Sound) (owner : OwnerId × String) (done todo : List Descriptor)
    (coherent : r.Coherent) (claimed : r.ledger = l.add owner done) :
    Prod.map id ledger (Filing.run everyone owner r (.claiming todo (done.map Descriptor.name))) =
      match Ledger.conflict? r.ledger.names todo with
      | some name => (.error (.duplicate name), l)
      | none => (.ok (), l.add owner (done ++ todo)) := by
  -- What is claimed already stays the same group's end, so the ledger from before is there at every step.
  induction todo generalizing r done with
  | nil =>
    rw [Filing.run, Filing.advance, Filing.run, Prod.map_apply, claimed, List.append_nil]
    rfl
  | cons d rest ih =>
    have registered := register_ledger coherent (some owner) d
    have kept := register_coherent coherent everyone (some owner) d
    rw [Ledger.register] at registered
    rw [Filing.run, Filing.advance, Ledger.conflict?]
    generalize r.register everyone (some owner) d = outcome at registered kept
    obtain ⟨answer, r'⟩ := outcome
    by_cases taken : d.name ∈ r.ledger.names
    · rw [if_pos taken] at registered ⊢
      obtain ⟨rfl, same⟩ := Prod.mk.inj registered
      exact releasing_ledger sound owner done _ kept (same.trans claimed)
    · rw [if_neg taken] at registered ⊢
      obtain ⟨rfl, same⟩ := Prod.mk.inj registered
      have grown : r'.ledger = l.add owner (done ++ [d]) := by
        rw [same, claimed, Ledger.add_add]
      have names : ∀ name, name ∈ r.ledger.names ++ [d.name] ↔ name ∈ r'.ledger.names := fun name => by
        rw [same, (Ledger.names_add r.ledger owner [d]).mem_iff]
        rfl
      have later := ih (done ++ [d]) kept grown
      rw [List.map_append] at later
      rw [Ledger.conflict?_congr names, List.append_cons done d rest]
      exact later

theorem registerTable_ledger (coherent : r.Coherent) (owner : OwnerId × String) (table : List Descriptor) :
    Prod.map id ledger (r.registerTable everyone owner table) = r.ledger.registerTable owner table :=
  claiming_ledger (ledger_sound coherent) owner [] table coherent (Ledger.add_nil owner).symm

end Registry

/-! ### Any calls -/

inductive Act where
  | register (owner : Option (OwnerId × String)) (d : Descriptor)
  | registerTable (owner : OwnerId × String) (table : List Descriptor)
  | unregister (name : String) (release : Bool)
  | unregisterOwner (owner : OwnerId)

inductive Answer where
  | claimed (outcome : Except Error Unit)
  | released (outcome : Except Error (Option Descriptor))
  | dismissed (count : Nat)

structure Book (σ : Type) where
  register : σ → Option (OwnerId × String) → Descriptor → Except Error Unit × σ
  registerTable : σ → OwnerId × String → List Descriptor → Except Error Unit × σ
  unregister : σ → String → Bool → Except Error (Option Descriptor) × σ
  unregisterOwner : σ → OwnerId → Nat × σ

namespace Book

def registry : Book Registry where
  register r := r.register everyone
  registerTable r := r.registerTable everyone
  unregister := Registry.unregister
  unregisterOwner := Registry.removeOwner

def ledger : Book Ledger where
  register := Ledger.register
  registerTable := Ledger.registerTable
  unregister := Ledger.unregister
  unregisterOwner := Ledger.unregisterOwner

section

variable {σ : Type} (b : Book σ)

def perform (s : σ) : Act → Answer × σ
  | .register owner d => Prod.map .claimed id (b.register s owner d)
  | .registerTable owner table => Prod.map .claimed id (b.registerTable s owner table)
  | .unregister name release => Prod.map .released id (b.unregister s name release)
  | .unregisterOwner owner => Prod.map .dismissed id (b.unregisterOwner s owner)

def run (s : σ) : List Act → List Answer × σ
  | [] => ([], s)
  | act :: rest =>
    let (answer, s) := b.perform s act
    let (answers, s) := run s rest
    (answer :: answers, s)

theorem run_snoc (s : σ) (acts : List Act) (act : Act) :
    (b.run s (acts ++ [act])).2 = (b.perform (b.run s acts).2 act).2 := by
  induction acts generalizing s with
  | nil => rfl
  | cons first rest ih => exact ih (b.perform s first).2

end

theorem perform_ledger {r : Registry} (coherent : r.Coherent) (act : Act) :
    Prod.map id Registry.ledger (registry.perform r act) = ledger.perform r.ledger act := by
  cases act with
  | register owner d => exact congrArg (Prod.map Answer.claimed id) (Registry.register_ledger coherent owner d)
  | registerTable owner table =>
    exact congrArg (Prod.map Answer.claimed id) (Registry.registerTable_ledger coherent owner table)
  | unregister name release =>
    exact congrArg (Prod.map Answer.released id) (Registry.unregister_ledger coherent name release)
  | unregisterOwner owner => exact congrArg (Prod.map Answer.dismissed id) (Registry.removeOwner_ledger coherent owner)

theorem perform_coherent {r : Registry} (coherent : r.Coherent) (act : Act) : (registry.perform r act).2.Coherent := by
  cases act with
  | register owner d => exact Registry.register_coherent coherent everyone owner d
  | registerTable owner table => exact Registry.registerTable_coherent coherent everyone owner table
  | unregister name release => exact Registry.unregister_coherent coherent name release
  | unregisterOwner owner => exact Registry.removeOwner_coherent coherent owner

theorem run_coherent {r : Registry} (coherent : r.Coherent) (acts : List Act) : (registry.run r acts).2.Coherent := by
  induction acts generalizing r with
  | nil => exact coherent
  | cons act rest ih => exact ih (perform_coherent coherent act)

theorem run_ledger {r : Registry} (coherent : r.Coherent) (acts : List Act) :
    Prod.map id Registry.ledger (registry.run r acts) = ledger.run r.ledger acts := by
  induction acts generalizing r with
  | nil => rfl
  | cons act rest ih =>
    simp only [run]
    rw [← perform_ledger coherent act, Prod.map_snd, ← ih (perform_coherent coherent act)]
    rfl

/-! ### The order of claims -/

/-- What a call can do to a ledger. -/
theorem perform_cases (l : Ledger) (act : Act) :
    (∃ owner ds, (ledger.perform l act).2 = l.add owner ds) ∨ (∃ name, (ledger.perform l act).2 = l.remove name) ∨
      ∃ owner, (ledger.perform l act).2 = l.erase owner := by
  have unchanged (owner : OwnerId × String) : ∃ owner ds, l = l.add owner ds := ⟨owner, [], (Ledger.add_nil owner).symm⟩
  cases act with
  | register owner d =>
    simp only [perform, ledger, Prod.map_snd, id]
    cases owner with
    | none => exact .inl (unchanged (0, ""))
    | some owner =>
      simp only [Ledger.register]
      split
      · exact .inl (unchanged owner)
      · exact .inl ⟨owner, [d], rfl⟩
  | registerTable owner table =>
    simp only [perform, ledger, Prod.map_snd, id, Ledger.registerTable]
    split
    · exact .inl (unchanged owner)
    · exact .inl ⟨owner, table, rfl⟩
  | unregister name release =>
    simp only [perform, ledger, Prod.map_snd, id, Ledger.unregister]
    split
    · exact .inl (unchanged (0, ""))
    · exact .inr (.inl ⟨name, rfl⟩)
  | unregisterOwner owner => exact .inr (.inr ⟨owner, rfl⟩)

/-- Groups only leave, or one begins after all others. -/
theorem perform_keys {l : Ledger} (sound : l.Sound) (act : Act) :
    (ledger.perform l act).2.keys.Sublist l.keys ∨
      ∃ o, o ∉ l.keys ∧ (ledger.perform l act).2.keys = l.keys ++ [o] := by
  rcases perform_cases l act with ⟨owner, ds, same⟩ | ⟨name, same⟩ | ⟨owner, same⟩
  · rw [same]
    exact Ledger.keys_add l owner ds
  · rw [same]
    exact .inl (Ledger.keys_remove l name)
  · rw [same]
    exact .inl (Ledger.keys_erase sound owner)

/-- Descriptors only leave a group, or some come after all others. -/
theorem perform_shown {l : Ledger} (sound : l.Sound) (act : Act) (owner : OwnerId) :
    ((ledger.perform l act).2.shown (some owner)).Sublist (l.shown (some owner)) ∨
      ∃ ds, (ledger.perform l act).2.shown (some owner) = l.shown (some owner) ++ ds := by
  rcases perform_cases l act with ⟨o, ds, same⟩ | ⟨name, same⟩ | ⟨o, same⟩
  · rw [same, Ledger.shown_add]
    split
    · exact .inr ⟨ds, rfl⟩
    · exact .inl (List.Sublist.refl _)
  · rw [same, Ledger.shown_remove sound]
    exact .inl List.filter_sublist
  · rw [same]
    exact .inl (Ledger.shown_erase sound o owner)

theorem reached_sound (acts : List Act) : (ledger.run {} acts).2.Sound := by
  have kept : (Prod.map id Registry.ledger (registry.run {} acts)).2.Sound :=
    Registry.ledger_sound (run_coherent Registry.empty_coherent acts)
  rwa [run_ledger Registry.empty_coherent acts] at kept

/-- Of two groups, the first was there before the second began, and has been there ever since. -/
theorem keys_order {o o' : OwnerId} (acts : List Act) (before : [o, o'].Sublist (ledger.run {} acts).2.keys) :
    ∃ n ≤ acts.length, (∀ m, n ≤ m → o ∈ (ledger.run {} (acts.take m)).2.keys) ∧
      o' ∉ (ledger.run {} (acts.take n)).2.keys := by
  induction acts using List.reverseRecOn with
  | nil => cases before
  | append_singleton acts act ih =>
    have here : o ∈ (ledger.run {} (acts ++ [act])).2.keys := before.subset List.mem_cons_self
    -- What was there since some moment before this call is there after it.
    have extend (n : Nat) (within : n ≤ acts.length) (since : ∀ m, n ≤ m → o ∈ (ledger.run {} (acts.take m)).2.keys)
        (absent : o' ∉ (ledger.run {} (acts.take n)).2.keys) :
        ∃ n ≤ (acts ++ [act]).length, (∀ m, n ≤ m → o ∈ (ledger.run {} ((acts ++ [act]).take m)).2.keys) ∧
          o' ∉ (ledger.run {} ((acts ++ [act]).take n)).2.keys := by
      refine ⟨n, by rw [List.length_append]; omega, fun m le => ?_, ?_⟩
      · rcases Nat.lt_or_ge acts.length m with late | early
        · rwa [List.take_of_length_le (by simpa using late)]
        · rw [List.take_append_of_le_length early]
          exact since m le
      · rwa [List.take_append_of_le_length within]
    rw [run_snoc] at before
    rcases perform_keys (reached_sound acts) act with fewer | ⟨x, new, last⟩
    · obtain ⟨n, within, since, absent⟩ := ih (before.trans fewer)
      exact extend n within since absent
    · rw [last] at before
      obtain ⟨front, back, split, old, tail⟩ := List.sublist_append_iff.mp before
      rcases List.sublist_singleton.mp tail with rfl | rfl
      · rw [List.append_nil] at split
        obtain ⟨n, within, since, absent⟩ := ih (split ▸ old)
        exact extend n within since absent
      · -- The second group begins with this call, so it was not there right before.
        obtain ⟨rfl, same⟩ := List.append_inj' (show [o] ++ [o'] = front ++ [x] from split) rfl
        obtain rfl := List.singleton_inj.mp same
        refine extend acts.length (Nat.le_refl _) (fun m le => ?_) (by rwa [List.take_length])
        rw [List.take_of_length_le le]
        exact old.subset List.mem_cons_self

end Book

/-- Whatever is called for living owners, a registry gives the answers of a ledger and shows what the ledger holds.
In the ledger no group is empty and no name has two descriptors, groups stand in the order in which they began, and
a group grows at its end only. A listing of everything has one row for each descriptor that is claimed and a row of
help for those that can be written, and it is made up of the listings of the groups in their order. -/
theorem registry_ledger (acts : List Act) :
    let r := Book.registry.run {} acts
    let l := Book.ledger.run {} acts
    (r.1 = l.1 ∧ r.2.owners = l.2.owners ∧ (∀ wanted radix, r.2.list everyone wanted radix = l.2.list wanted radix) ∧
      ∀ name, r.2.descriptor? name = l.2.find name) ∧
    l.2.Sound ∧
    (∀ o o', [o, o'].Sublist l.2.keys → ∃ n ≤ acts.length,
      (∀ m, n ≤ m → o ∈ (Book.ledger.run {} (acts.take m)).2.keys) ∧
      o' ∉ (Book.ledger.run {} (acts.take n)).2.keys) ∧
    (∀ act owner, let l' := (Book.ledger.perform l.2 act).2
      (l'.shown (some owner)).Sublist (l.2.shown (some owner)) ∨
      ∃ ds, l'.shown (some owner) = l.2.shown (some owner) ++ ds) ∧
    (∀ d, (Ledger.rows l.2.claimed).count (.entry d) = (if d ∈ l.2.claimed then 1 else 0) ∧
      (Ledger.rows l.2.claimed).count (.help d) = if d ∈ l.2.claimed ∧ d.access.canWrite then 1 else 0) ∧
    (∀ radix, l.2.text none radix = String.join (l.2.keys.map fun owner => l.2.text (some owner) radix)) ∧
    (l.2.shown none).length = (l.2.keys.map fun owner => (l.2.shown (some owner)).length).sum := by
  intro r l
  have coherent : r.2.Coherent := Book.run_coherent Registry.empty_coherent acts
  have sound : l.2.Sound := Book.reached_sound acts
  obtain ⟨answers, same⟩ : r.1 = l.1 ∧ r.2.ledger = l.2 := Prod.mk.inj (Book.run_ledger Registry.empty_coherent acts)
  refine ⟨⟨answers, ?_, ?_, ?_⟩, sound, fun o o' => Book.keys_order acts, Book.perform_shown sound, ?_,
    Ledger.text_none sound, Ledger.length_claimed sound⟩
  · rw [← same, Registry.ledger_owners]
  · intro wanted radix
    rw [← same]
    exact Registry.list_ledger coherent wanted radix
  · intro name
    rw [← same]
    exact Registry.descriptor?_ledger coherent name
  · intro d
    have distinct : l.2.claimed.Nodup := sound.names.of_map Descriptor.name
    rw [Ledger.count_entry, Ledger.count_help, distinct.count]
    refine ⟨rfl, ?_⟩
    by_cases writable : d.access.canWrite = true <;> simp [writable]

/-- An owner whose last name is released comes back last. -/
example : (Book.registry.run {} [.register (some (1, "cab")) { name := "CCON" },
    .register (some (2, "log")) { name := "LLEV" }, .unregister "CCON" true,
    .register (some (1, "cab")) { name := "CCON" }]).2.owners = ["log", "cab"] := by decide

end Switchboard.Attribute
