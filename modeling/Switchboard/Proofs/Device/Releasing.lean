import Mathlib.Data.List.Induction
import Switchboard.Proofs.Device.Refinement

/-!
What a guard takes with it. An entry does not tell who has entered it, so a guard that is dropped releases whatever
stands under one of its keys for its device, and leaves everything else. Main statement: `release_by_identity`.
-/

namespace Switchboard.Device

/-! ### What is found after a call -/

namespace Catalogue

variable {t : Catalogue} {device : DeviceId}

theorem lookup_filter (distinct : t.Distinct) (p : Key → DeviceId → Bool) (key : Key) :
    lookup (fun c => ⟨(t c).entries.filter fun e => p ⟨c, e.1⟩ e.2⟩) key = (t.lookup key).filter (p key) :=
  OrderedMap.find_filter (distinct key.deviceClass) (fun e => p ⟨key.deviceClass, e.1⟩ e.2) key.id

theorem lookup_update (c : Class) (ids : OrderedMap String DeviceId) (key : Key) :
    lookup (Function.update t c ids) key = if key.deviceClass = c then ids.get? key.id else t.lookup key := by
  unfold lookup
  by_cases same : key.deviceClass = c
  · rw [if_pos same, same, Function.update_self]
  · rw [if_neg same, Function.update_of_ne same]

/-- A device that has been registered is found under the key, and nothing else has changed. -/
theorem lookup_registered {key : Key} {takeOver : Bool} (registered : (t.register device key takeOver).1 = .ok ())
    (other : Key) : (t.register device key takeOver).2.lookup other = if other = key then some device else t.lookup other := by
  unfold register at registered ⊢
  split at registered
  · cases registered
  · rename_i free
    rw [if_neg free, lookup_update]
    by_cases sameClass : other.deviceClass = key.deviceClass
    · rw [if_pos sameClass]
      by_cases sameId : other.id = key.id
      · have same : other = key := by
          obtain ⟨_, _⟩ := other
          obtain ⟨_, _⟩ := key
          rw [Key.mk.injEq]
          exact ⟨sameClass, sameId⟩
        rw [if_pos same, sameId, OrderedMap.get?_insert_self]
      · rw [if_neg fun same => sameId (congrArg Key.id same), OrderedMap.get?_insert_other _ _ sameId, lookup, sameClass]
    · rw [if_neg sameClass, if_neg fun same => sameClass (congrArg Key.deviceClass same)]

/-- A device that is registered under another key does not matter to this one. -/
theorem lookup_register {other : DeviceId} {key key' : Key} {takeOver : Bool}
    (apart : (t.register other key' takeOver).1 = .ok () → key' ≠ key) :
    (t.register other key' takeOver).2.lookup key = t.lookup key := by
  cases answer : (t.register other key' takeOver).1 with
  | ok => rw [lookup_registered answer, if_neg (Ne.symm (apart answer))]
  | error e => rw [register_refused answer]

theorem lookup_unregister (distinct : t.Distinct) (device : DeviceId) (key other : Key) :
    (t.unregister device key).2.lookup other =
      (t.lookup other).filter fun found => !(other = key && found == device) := by
  rw [unregister_eq_filter distinct]
  exact lookup_filter distinct (fun other found => !(other = key && found == device)) other

theorem unregister_found {key : Key} (found : t.lookup key = some device) : (t.unregister device key).1 = .ok () := by
  unfold unregister
  exact congrArg Prod.fst (if_pos found)

theorem addInterface_answer {alive : DeviceId → Bool} {g : Guard} (awake : alive g.device = true) (key : Key)
    (takeOver : Bool) : (t.addInterface alive g key takeOver).1 = (t.register g.device key takeOver).1 ∧
      (t.addInterface alive g key takeOver).2.2 = (t.register g.device key takeOver).2 := by
  unfold addInterface
  rw [if_pos awake]
  split <;> rename_i result <;> rw [result] <;> exact ⟨rfl, rfl⟩

theorem addInterface_granted {alive : DeviceId → Bool} {g : Guard} {key : Key} {takeOver : Bool}
    (granted : (t.addInterface alive g key takeOver).1 = .ok ()) :
    (t.addInterface alive g key takeOver).2.1 = { g with keys := g.keys ++ [key] } := by
  unfold addInterface at granted ⊢
  split at granted
  · rename_i awake
    rw [if_pos awake]
    split at granted
    · rfl
    · cases granted
  · cases granted

theorem release_eq_filter (distinct : t.Distinct) (g : Guard) :
    t.release g = fun c => ⟨(t c).entries.filter fun e => !((⟨c, e.1⟩ : Key) ∈ g.keys && e.2 == g.device)⟩ := by
  obtain ⟨device, keys⟩ := g
  unfold release
  induction keys generalizing t with
  | nil => simp
  | cons key rest ih =>
    rw [List.foldl_cons, ih (unregister_distinct distinct device key), unregister_eq_filter distinct]
    funext c
    rw [List.filter_filter]
    congr 1
    apply List.filter_congr
    rintro ⟨id, found⟩ _
    by_cases same : found = device <;> by_cases here : (⟨c, id⟩ : Key) = key <;> simp [same, here]

theorem lookup_release (distinct : t.Distinct) (g : Guard) (key : Key) :
    (t.release g).lookup key = (t.lookup key).filter fun found => !(key ∈ g.keys && found == g.device) := by
  rw [release_eq_filter distinct]
  exact lookup_filter distinct (fun key found => !(key ∈ g.keys && found == g.device)) key

theorem lookup_lose (distinct : t.Distinct) (device : DeviceId) (key : Key) :
    (t.lose device).lookup key = (t.lookup key).filter fun found => found ≠ device :=
  lookup_filter distinct (fun _ found => found ≠ device) key

end Catalogue

/-- The guard is one for the device, and the key is one of its keys. -/
def Guard.Takes (g : Guard) (device : DeviceId) (key : Key) : Prop := g.device = device ∧ key ∈ g.keys

namespace Site

/-! ### Entries and what happens to them -/

section

variable {σ : Type} (k : Keeping σ) (ownKey : DeviceId → Key)

def entering (s : Site σ) : Act → Option (DeviceId × Key)
  | .register device key _ => some (device, key)
  | .attach device _ => some (device, ownKey device)
  | .addInterface place key _ => s.guards[place]?.map fun g => (g.device, key)
  | .unregister .. | .drop _ | .lose _ | .prune _ => none

/-- The act is a call that enters the device under the key, in whatever way. -/
def Enters (s : Site σ) (act : Act) (device : DeviceId) (key : Key) : Prop :=
  s.entering ownKey act = some (device, key) ∧ (s.perform k ownKey act).1 = some (.ok ())

/-- Guards apart, the act leaves the device its entry under the key: no device is entered there, this one
is not unregistered by a call, and it is not lost. -/
structure Spares (s : Site σ) (act : Act) (device : DeviceId) (key : Key) : Prop where
  unentered : ∀ other, ¬ s.Enters k ownKey act other key
  registered : act = .unregister device key → (s.perform k ownKey act).1 ≠ some (.ok ())
  awake : act ≠ .lose device

theorem spares_drop (s : Site σ) (place : Nat) (device : DeviceId) (key : Key) :
    s.Spares k ownKey (.drop place) device key where
  unentered _ entered := by cases entered.1
  registered same := by cases same
  awake same := by cases same

theorem spares_prune (s : Site σ) (c : Class) (device : DeviceId) (key : Key) :
    s.Spares k ownKey (.prune c) device key where
  unentered _ entered := by cases entered.1
  registered same := by cases same
  awake same := by cases same

/-- All the acts do. -/
def Undisturbed (device : DeviceId) (key : Key) (s : Site σ) : List Act → Prop
  | [] => True
  | act :: rest => s.Spares k ownKey act device key ∧ Undisturbed device key (s.perform k ownKey act).2 rest

def dropping (s : Site σ) : Act → Option Guard
  | .drop place => s.guards[place]?
  | _ => none

/-- The guards that are dropped by the acts, each as it is then. -/
def dropped (s : Site σ) : List Act → List Guard
  | [] => []
  | act :: rest => (s.dropping act).toList ++ dropped (s.perform k ownKey act).2 rest

end

def found (s : Site Directory) (key : Key) : Option DeviceId := s.store.lookup s.alive key

theorem found_live (s : Site Directory) (key : Key) : s.found key = s.live.store.lookup key := Directory.lookup_live key

/-! ### One act -/

section

variable {t : Site Catalogue} {ownKey : DeviceId → Key} {act : Act} {device : DeviceId} {key : Key}

theorem attached_attach (t : Site Catalogue) (device : DeviceId) (own : Key) (takeOver : Bool) :
    (t.attached (t.store.attach device own takeOver)).1 = some (t.store.register device own takeOver).1 ∧
      (t.attached (t.store.attach device own takeOver)).2.store = (t.store.register device own takeOver).2 := by
  unfold Catalogue.attach
  split <;> rename_i result <;> rw [result] <;> exact ⟨rfl, rfl⟩

theorem perform_spared (distinct : t.store.Distinct) (spares : t.Spares Keeping.catalogue ownKey act device key) :
    (t.perform Keeping.catalogue ownKey act).2.store.lookup key = some device ↔
      t.store.lookup key = some device ∧ ∀ g ∈ t.dropping act, ¬ g.Takes device key := by
  obtain ⟨unentered, registered, awake⟩ := spares
  cases act with
  | register other key' takeOver =>
    simp only [Enters, entering, perform, dropping] at unentered ⊢
    split
    · rename_i alive
      simp only [alive, called, Keeping.catalogue] at unentered ⊢
      rw [Catalogue.lookup_register fun succeeded same => unentered other ⟨by rw [same], by simp [succeeded]⟩]
      simp
    · simp
  | unregister other key' =>
    simp only [perform, dropping] at registered ⊢
    split
    · rename_i alive
      simp only [alive, called, Keeping.catalogue] at registered ⊢
      rw [Catalogue.lookup_unregister distinct, Option.filter_eq_some_iff]
      refine and_congr_right fun found => ?_
      have apart : ¬(key = key' ∧ device = other) := by
        rintro ⟨rfl, rfl⟩
        exact registered rfl (congrArg some (Catalogue.unregister_found found))
      simpa [-not_and, Decidable.not_and_iff_or_not] using apart
    · simp
  | attach other takeOver =>
    simp only [Enters, entering, perform, dropping] at unentered ⊢
    split
    · rename_i alive
      obtain ⟨answer, store⟩ := attached_attach t other (ownKey other) takeOver
      simp only [alive, Keeping.catalogue] at unentered ⊢
      rw [store, Catalogue.lookup_register fun succeeded same =>
        unentered other ⟨by rw [same], by rw [if_pos trivial, answer, succeeded]⟩]
      simp
    · simp
  | addInterface place key' takeOver =>
    simp only [Enters, entering, perform, dropping] at unentered ⊢
    split
    · simp
    · rename_i g found
      simp only [found, extended, Keeping.catalogue] at unentered ⊢
      by_cases alive : t.alive g.device = true
      · obtain ⟨answer, store⟩ := Catalogue.addInterface_answer (t := t.store) alive key' takeOver
        rw [store, Catalogue.lookup_register fun succeeded same =>
          unentered g.device ⟨by simp [same], by rw [answer, succeeded]⟩]
        simp
      · simp [Catalogue.addInterface, alive]
  | drop place =>
    simp only [perform, dropping]
    split
    · rename_i found
      simp [found]
    · rename_i g found
      simp only [found, Keeping.catalogue, Option.mem_some_iff, forall_eq', Guard.Takes]
      rw [Catalogue.lookup_release distinct, Option.filter_eq_some_iff]
      refine and_congr_right fun _ => ?_
      simp [-not_and, Decidable.not_and_iff_or_not, or_comm, eq_comm (a := device)]
  | lose other =>
    have apart : device ≠ other := fun same => awake (by rw [same])
    simp only [perform, dropping, Keeping.catalogue]
    rw [Catalogue.lookup_lose distinct, Option.filter_eq_some_iff]
    simp [apart]
  | prune c => simp [perform, dropping, Keeping.catalogue]

/-- A device is found under a key as soon as it has been entered there. -/
theorem perform_entered (entered : t.Enters Keeping.catalogue ownKey act device key) :
    (t.perform Keeping.catalogue ownKey act).2.store.lookup key = some device := by
  obtain ⟨aim, answer⟩ := entered
  cases act with
  | register other key' takeOver =>
    obtain ⟨rfl, rfl⟩ := Prod.mk.inj (Option.some.inj aim)
    simp only [perform] at answer ⊢
    split at answer
    · rename_i alive
      rw [if_pos alive]
      exact (Catalogue.lookup_registered (Option.some.inj answer) _).trans (if_pos rfl)
    · cases answer
  | attach other takeOver =>
    obtain ⟨rfl, rfl⟩ := Prod.mk.inj (Option.some.inj aim)
    simp only [perform] at answer ⊢
    split at answer
    · rename_i alive
      obtain ⟨same, store⟩ := attached_attach t other (ownKey other) takeOver
      rw [if_pos alive]
      show (t.attached (t.store.attach other (ownKey other) takeOver)).2.store.lookup _ = _
      rw [store]
      exact (Catalogue.lookup_registered (Option.some.inj (same.symm.trans answer)) _).trans (if_pos rfl)
    · cases answer
  | addInterface place key' takeOver =>
    obtain ⟨g, held, same⟩ := Option.map_eq_some_iff.mp aim
    obtain ⟨rfl, rfl⟩ := Prod.mk.inj same
    simp only [perform, held, extended, Keeping.catalogue] at answer ⊢
    by_cases alive : t.alive g.device = true
    · obtain ⟨same, store⟩ := Catalogue.addInterface_answer (t := t.store) alive key' takeOver
      rw [same] at answer
      rw [store]
      exact (Catalogue.lookup_registered (Option.some.inj answer) _).trans (if_pos rfl)
    · simp [Catalogue.addInterface, alive] at answer
  | unregister other key' => cases aim
  | drop place => cases aim
  | lose other => cases aim
  | prune c => cases aim

theorem held_attached {own : Key} {takeOver : Bool} {g : Guard}
    (held : g ∈ (t.attached (t.store.attach device own takeOver)).2.guards) :
    g ∈ t.guards ∨ g = ⟨device, [own]⟩ ∧ (t.store.register device own takeOver).1 = .ok () := by
  unfold Catalogue.attach at held
  split at held
  · rename_i result
    rcases List.mem_append.mp held with old | new
    · exact .inl old
    · exact .inr ⟨List.mem_singleton.mp new, by rw [result]⟩
  · exact .inl held

theorem held_extended {place : Nat} {before g : Guard} {takeOver : Bool} (found : t.guards[place]? = some before)
    (held : g ∈ (t.extended place (t.store.addInterface t.alive before key takeOver)).2.guards) :
    g ∈ t.guards ∨ g = { before with keys := before.keys ++ [key] } ∧
      (t.store.addInterface t.alive before key takeOver).1 = .ok () := by
  have outcome : g ∈ t.guards ∨ g = (t.store.addInterface t.alive before key takeOver).2.1 :=
    List.mem_or_eq_of_mem_set held
  cases answer : (t.store.addInterface t.alive before key takeOver).1 with
  | ok =>
    rw [Catalogue.addInterface_granted answer] at outcome
    exact outcome.imp_right fun same => ⟨same, rfl⟩
  | error e =>
    rw [Catalogue.addInterface_refused answer] at outcome
    exact .inl (outcome.elim id fun same => same ▸ List.mem_of_getElem? found)

/-- What a guard lists has been listed before, or is entered just now. -/
theorem perform_listed {g : Guard} (held : g ∈ (t.perform Keeping.catalogue ownKey act).2.guards) (listed : key ∈ g.keys) :
    (∃ g' ∈ t.guards, g'.Takes g.device key) ∨ t.Enters Keeping.catalogue ownKey act g.device key := by
  have old : g ∈ t.guards → ∃ g' ∈ t.guards, g'.Takes g.device key := fun present => ⟨g, present, rfl, listed⟩
  cases act with
  | attach other takeOver =>
    simp only [perform] at held
    split at held
    · rename_i alive
      rcases held_attached held with present | ⟨rfl, registered⟩
      · exact .inl (old present)
      · obtain rfl := List.mem_singleton.mp listed
        refine .inr ⟨rfl, ?_⟩
        rw [perform, if_pos alive]
        exact (attached_attach t other (ownKey other) takeOver).1.trans (congrArg some registered)
    · exact .inl (old held)
  | addInterface place key' takeOver =>
    cases found : t.guards[place]? with
    | none =>
      simp only [perform, found] at held
      exact .inl (old held)
    | some before =>
      simp only [perform, found] at held
      rcases held_extended found held with present | ⟨rfl, granted⟩
      · exact .inl (old present)
      · rcases List.mem_append.mp listed with earlier | new
        · exact .inl ⟨before, List.mem_of_getElem? found, rfl, earlier⟩
        · obtain rfl := List.mem_singleton.mp new
          refine .inr ⟨by simp [entering, found], ?_⟩
          simp only [perform, found, extended]
          exact congrArg some granted
  | drop place =>
    simp only [perform] at held
    split at held
    · exact .inl (old held)
    · exact .inl (old (List.mem_of_mem_eraseIdx held))
  | register other key' takeOver =>
    simp only [perform] at held
    split at held <;> exact .inl (old held)
  | unregister other key' =>
    simp only [perform] at held
    split at held <;> exact .inl (old held)
  | lose other => exact .inl (old held)
  | prune c => exact .inl (old held)

end

section

variable {s : Site Directory} {ownKey : DeviceId → Key} {act : Act} {device : DeviceId} {key : Key}

theorem live_perform (distinct : s.live.store.Distinct) (act : Act) :
    (s.perform Keeping.directory ownKey act).2.live = (s.live.perform Keeping.catalogue ownKey act).2 :=
  congrArg Prod.snd (perform_live ownKey distinct act)

theorem live_distinct (distinct : s.live.store.Distinct) (act : Act) :
    (s.perform Keeping.directory ownKey act).2.live.store.Distinct := by
  rw [live_perform distinct]
  exact perform_distinct ownKey distinct act

theorem enters_live (distinct : s.live.store.Distinct) :
    s.live.Enters Keeping.catalogue ownKey act device key ↔ s.Enters Keeping.directory ownKey act device key := by
  have entering : s.live.entering ownKey act = s.entering ownKey act := by cases act <;> rfl
  rw [Enters, Enters, entering, ← congrArg Prod.fst (perform_live ownKey distinct act)]

theorem spares_live (distinct : s.live.store.Distinct) (spares : s.Spares Keeping.directory ownKey act device key) :
    s.live.Spares Keeping.catalogue ownKey act device key where
  unentered other entered := spares.unentered other ((enters_live distinct).mp entered)
  registered same := by
    rw [← congrArg Prod.fst (perform_live ownKey distinct act)]
    exact spares.registered same
  awake := spares.awake

/-- An entry that is spared by an act stays, unless a guard for its device takes it. -/
theorem perform_stands (distinct : s.live.store.Distinct) (spares : s.Spares Keeping.directory ownKey act device key) :
    (s.perform Keeping.directory ownKey act).2.found key = some device ↔
      s.found key = some device ∧ ∀ g ∈ s.dropping act, ¬ g.Takes device key := by
  have dropping : s.dropping act = s.live.dropping act := by cases act <;> rfl
  rw [found_live, found_live, live_perform distinct, dropping]
  exact perform_spared distinct (spares_live distinct spares)

theorem run_stands (distinct : s.live.store.Distinct) {acts : List Act}
    (undisturbed : s.Undisturbed Keeping.directory ownKey device key acts) :
    (s.run Keeping.directory ownKey acts).2.found key = some device ↔
      s.found key = some device ∧ ∀ g ∈ s.dropped Keeping.directory ownKey acts, ¬ g.Takes device key := by
  induction acts generalizing s with
  | nil => simp [run, dropped]
  | cons act rest ih =>
    obtain ⟨spares, undisturbed⟩ := undisturbed
    have first := perform_stands distinct spares
    have later := ih (live_distinct distinct act) undisturbed
    simp only [Option.mem_def] at first
    simp only [run, dropped, List.mem_append, Option.mem_toList, or_imp, forall_and]
    rw [later, first, and_assoc]

theorem found_entered (distinct : s.live.store.Distinct) (entered : s.Enters Keeping.directory ownKey act device key) :
    (s.perform Keeping.directory ownKey act).2.found key = some device := by
  rw [found_live, live_perform distinct]
  exact perform_entered ((enters_live distinct).mpr entered)

theorem listed_before {g : Guard} (distinct : s.live.store.Distinct)
    (held : g ∈ (s.perform Keeping.directory ownKey act).2.guards) (listed : key ∈ g.keys) :
    (∃ g' ∈ s.guards, g'.Takes g.device key) ∨ s.Enters Keeping.directory ownKey act g.device key := by
  rw [← enters_live distinct]
  have shown : (s.perform Keeping.directory ownKey act).2.guards = (s.live.perform Keeping.catalogue ownKey act).2.guards :=
    congrArg Site.guards (live_perform distinct act)
  exact perform_listed (shown ▸ held) listed

end

/-! ### Runs -/

section

variable (ownKey : DeviceId → Key)

/-- What becomes of an empty directory. -/
def after (acts : List Act) : Site Directory := (run Keeping.directory ownKey { store := {} } acts).2

theorem run_append {σ : Type} (k : Keeping σ) (s : Site σ) (acts more : List Act) :
    (s.run k ownKey (acts ++ more)).2 = ((s.run k ownKey acts).2.run k ownKey more).2 := by
  induction acts generalizing s with
  | nil => rfl
  | cons act rest ih => exact ih _

theorem after_snoc (acts : List Act) (act : Act) :
    after ownKey (acts ++ [act]) = ((after ownKey acts).perform Keeping.directory ownKey act).2 :=
  run_append ownKey Keeping.directory _ acts [act]

theorem after_distinct (acts : List Act) : (after ownKey acts).live.store.Distinct := by
  have empty : Catalogue.Distinct fun _ => {} := fun _ => List.nodup_nil
  have shown : (after ownKey acts).live = (run Keeping.catalogue ownKey { store := fun _ => {} } acts).2 :=
    congrArg Prod.snd (run_live (s := { store := {} }) ownKey empty acts)
  rw [shown]
  exact run_distinct ownKey empty acts

/-- A guard has got every key that it lists by a call that entered its device there. -/
theorem guard_entered (acts : List Act) {g : Guard} (held : g ∈ (after ownKey acts).guards) {key : Key}
    (listed : key ∈ g.keys) : ∃ before act later, acts = before ++ act :: later ∧
      (after ownKey before).Enters Keeping.directory ownKey act g.device key := by
  induction acts using List.reverseRecOn generalizing g with
  | nil => cases held
  | append_singleton acts act ih =>
    rw [after_snoc] at held
    rcases listed_before (after_distinct ownKey acts) held listed with ⟨g', held', same, listed'⟩ | entered
    · obtain ⟨before, act', later, rfl, entered⟩ := ih held' listed'
      exact ⟨before, act', later ++ [act], by simp, same ▸ entered⟩
    · exact ⟨acts, act, [], rfl, entered⟩

end

/-- A guard that is dropped takes with it what stands under its keys for its device, and nothing else. What it lists
has been entered for its device by calls; but an entry stands after any further acts, if no device is entered there
anew, it is not unregistered by a call and its device lives on, exactly if none of the guards that are dropped
meanwhile is for the same device and lists the key. So what has been entered for another device is safe from a guard,
in whichever way, and what has been entered anew for the same device is not: not even if that was done through
another guard, which lists the key as its own from then on. -/
theorem release_by_identity (ownKey : DeviceId → Key) (acts : List Act) :
    let s := after ownKey acts
    (∀ place g, s.guards[place]? = some g → ∀ key device,
      (s.perform Keeping.directory ownKey (.drop place)).2.found key = some device ↔
        s.found key = some device ∧ ¬ g.Takes device key) ∧
    (∀ g ∈ s.guards, ∀ key ∈ g.keys, ∃ before act later, acts = before ++ act :: later ∧
      (after ownKey before).Enters Keeping.directory ownKey act g.device key) ∧
    ∀ before act later device key, acts = before ++ act :: later →
      (after ownKey before).Enters Keeping.directory ownKey act device key →
      let s' := after ownKey (before ++ [act])
      s'.Undisturbed Keeping.directory ownKey device key later →
      (s.found key = some device ↔ ∀ g ∈ s'.dropped Keeping.directory ownKey later, ¬ g.Takes device key) := by
  intro s
  refine ⟨fun place g held key device => ?_, fun g held key listed => guard_entered ownKey acts held listed, ?_⟩
  · rw [perform_stands (s := s) (after_distinct ownKey acts) (spares_drop ..)]
    simp only [dropping, held, Option.mem_some_iff, forall_eq']
  · rintro before act later device key rfl entered s' undisturbed
    have whole : s = (s'.run Keeping.directory ownKey later).2 := by
      simp only [s, s', after, ← run_append, List.append_assoc, List.singleton_append]
    have there : s'.found key = some device := by
      simp only [s', after_snoc]
      exact found_entered (after_distinct ownKey before) entered
    rw [whole, run_stands (after_distinct ownKey _) undisturbed]
    exact and_iff_right there

/-- Two receivers with a common uplink: the rear one takes the uplink over from the front one. -/
def takeover : List Act :=
  [.attach 0 false, .addInterface 0 ⟨.proxy, "uplink"⟩ false, .attach 1 false,
    .addInterface 1 ⟨.proxy, "uplink"⟩ true, .prune .proxy, .drop 0]

def receiver (device : DeviceId) : Key := ⟨.gps, if device = 0 then "front" else "rear"⟩

/-- The guard of the front receiver leaves the uplink to the rear one, although it lists it, and takes only what is its
own. -/
theorem release_by_identity_takeover :
    let before := after receiver (takeover.take 5)
    let s := after receiver takeover
    before.guards[0]? = some ⟨0, [⟨.gps, "front"⟩, ⟨.proxy, "uplink"⟩]⟩ ∧
    before.found ⟨.gps, "front"⟩ = some 0 ∧ s.found ⟨.gps, "front"⟩ ≠ some 0 ∧
    before.found ⟨.proxy, "uplink"⟩ = some 1 ∧ s.found ⟨.proxy, "uplink"⟩ = some 1 := by
  intro before s
  obtain ⟨_, _, stands⟩ := release_by_identity receiver takeover
  obtain ⟨takes, _, _⟩ := release_by_identity receiver (takeover.take 5)
  have entered : (after receiver (takeover.take 3)).Enters Keeping.directory receiver
      (.addInterface 1 ⟨.proxy, "uplink"⟩ true) 1 ⟨.proxy, "uplink"⟩ := ⟨rfl, rfl⟩
  refine ⟨rfl, rfl, fun found => ?_, rfl, ?_⟩
  · exact ((takes 0 _ rfl _ _).mp found).2 ⟨rfl, List.mem_cons_self⟩
  · refine (stands (takeover.take 3) _ _ _ _ rfl entered ⟨spares_prune .., spares_drop .., trivial⟩).mpr ?_
    intro g (member : g ∈ [(⟨0, [⟨.gps, "front"⟩, ⟨.proxy, "uplink"⟩]⟩ : Guard)])
    obtain rfl := List.mem_singleton.mp member
    rintro ⟨same, _⟩
    cases same

/-- A receiver that is attached once more loses the new entry to the guard of the old one, while its new guard still
lists the key. -/
theorem renewed_entry_released :
    let renewed : List Act := [.attach 0 false, .attach 0 true]
    let s := after receiver renewed
    let s' := after receiver (renewed ++ [.drop 0])
    (after receiver [.attach 0 false]).Enters Keeping.directory receiver (.attach 0 true) 0 ⟨.gps, "front"⟩ ∧
    s.guards = [⟨0, [⟨.gps, "front"⟩]⟩, ⟨0, [⟨.gps, "front"⟩]⟩] ∧ s.found ⟨.gps, "front"⟩ = some 0 ∧
    s'.guards = [⟨0, [⟨.gps, "front"⟩]⟩] ∧ s'.alive 0 = true ∧ s'.found ⟨.gps, "front"⟩ = none :=
  ⟨⟨rfl, rfl⟩, rfl, rfl, rfl, rfl, rfl⟩

end Site

end Switchboard.Device
