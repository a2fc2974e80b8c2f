import Switchboard.Proofs.Device.Releasing

/-!
Guards come and go without a trace. A device is attached, is given more keys, some of which are in use, and is
released again: nothing that is looked up afterwards differs from before, and meanwhile it is found under every key
that the guard lists. Main statement: `guard_round_trip`.
-/

namespace Switchboard.Device

/-! ### A device under more keys -/

namespace Catalogue

variable {t : Catalogue} {device : DeviceId}

/-- The device under some keys more, each at the end of its class. -/
def extend (t : Catalogue) (device : DeviceId) (keys : List Key) : Catalogue := fun c =>
  ⟨(t c).entries ++ (keys.filter fun key => key.deviceClass = c).map fun key => (key.id, device)⟩

theorem extend_extend (keys more : List Key) : (t.extend device keys).extend device more = t.extend device (keys ++ more) := by
  funext c
  simp only [extend, List.filter_append, List.map_append, List.append_assoc]

/-- Without an override, a key is free and the device comes last in its class, or it is in use and nothing happens. -/
theorem register_cases (t : Catalogue) (device : DeviceId) (key : Key) :
    (t.lookup key = none ∧ t.register device key false = (.ok (), t.extend device [key])) ∨
      t.lookup key ≠ none ∧ t.register device key false = (.error (.duplicate key), t) := by
  unfold register OrderedMap.contains lookup
  cases known : (t key.deviceClass).get? key.id with
  | some other => exact .inr ⟨Option.some_ne_none other, rfl⟩
  | none =>
    refine .inl ⟨rfl, Prod.ext rfl ?_⟩
    funext c
    by_cases same : c = key.deviceClass
    · subst same
      have last := OrderedMap.put_of_absent (OrderedMap.find_eq_none_iff.mp known) device
      simp [extend, OrderedMap.insert, last]
    · simp [extend, same, Ne.symm same]

theorem mem_extend {keys : List Key} {c : Class} {id : String} {found : DeviceId} :
    (id, found) ∈ (t.extend device keys c).entries ↔
      (id, found) ∈ (t c).entries ∨ ⟨c, id⟩ ∈ keys ∧ found = device := by
  unfold extend
  rw [List.mem_append]
  refine or_congr_right ?_
  simp only [List.mem_map, List.mem_filter, decide_eq_true_eq, Prod.mk.injEq]
  constructor
  · rintro ⟨key, ⟨present, rfl⟩, rfl, rfl⟩
    exact ⟨present, rfl⟩
  · rintro ⟨present, rfl⟩
    exact ⟨_, ⟨present, rfl⟩, rfl, rfl⟩

theorem lookup_extend {keys : List Key} (distinct : (t.extend device keys).Distinct) {key : Key} (listed : key ∈ keys) :
    (t.extend device keys).lookup key = some device :=
  (OrderedMap.find_eq_some_iff (distinct key.deviceClass)).mpr (mem_extend.mpr (.inr ⟨listed, rfl⟩))

/-- What has been added under some keys goes again if it is all that goes. -/
theorem filter_extend {keys : List Key} {p : Class → String × DeviceId → Bool}
    (old : ∀ c, ∀ e ∈ (t c).entries, p c e = true) (new : ∀ key ∈ keys, p key.deviceClass (key.id, device) = false) :
    (fun c => ⟨(t.extend device keys c).entries.filter (p c)⟩ : Catalogue) = t := by
  funext c
  have none : ((keys.filter fun key => key.deviceClass = c).map fun key => (key.id, device)).filter (p c) = [] := by
    simp only [List.filter_eq_nil_iff, List.mem_map, List.mem_filter, decide_eq_true_eq]
    rintro e ⟨key, ⟨listed, rfl⟩, rfl⟩
    simp [new key listed]
  unfold extend
  rw [List.filter_append, none, List.append_nil, List.filter_eq_self.mpr (old c)]

theorem release_extend {keys : List Key} (distinct : (t.extend device keys).Distinct) :
    (t.extend device keys).release ⟨device, keys⟩ = t := by
  rw [release_eq_filter distinct]
  refine filter_extend (fun c e member => ?_) (fun key listed => ?_)
  · -- An id that was in use has not been given out a second time.
    have apart : ⟨c, e.1⟩ ∉ keys := fun listed => by
      have ids := distinct c
      unfold extend OrderedMap.keys at ids
      rw [List.map_append] at ids
      have again : (e.1, device) ∈ (keys.filter fun key => key.deviceClass = c).map fun key => (key.id, device) :=
        List.mem_map.mpr ⟨⟨c, e.1⟩, List.mem_filter.mpr ⟨listed, by simp⟩, rfl⟩
      exact (List.nodup_append.mp ids).2.2 e.1 (List.mem_map_of_mem member) e.1 (List.mem_map.mpr ⟨_, again, rfl⟩) rfl
    simp [apart]
  · simp [listed]

theorem mem_iff_lookup (distinct : t.Distinct) {c : Class} {id : String} :
    (id, device) ∈ (t c).entries ↔ t.lookup ⟨c, id⟩ = some device :=
  (OrderedMap.find_eq_some_iff (distinct c)).symm

theorem lose_extend (distinct : t.Distinct) (alone : ∀ key, t.lookup key ≠ some device) (keys : List Key) :
    (t.extend device keys).lose device = t := by
  refine filter_extend (p := fun _ e => e.2 ≠ device) (fun c e member => ?_) (fun key _ => by simp)
  refine decide_eq_true fun same => alone ⟨c, e.1⟩ ?_
  exact (mem_iff_lookup distinct).mp (same ▸ member)

/-- A guard whose device has no entry takes nothing. -/
theorem release_alone (distinct : t.Distinct) {g : Guard} (alone : ∀ key, t.lookup key ≠ some g.device) :
    t.release g = t := by
  rw [release_eq_filter distinct]
  funext c
  rw [List.filter_eq_self.mpr]
  rintro ⟨id, found⟩ member
  have other : found ≠ g.device := fun same => alone ⟨c, id⟩ ((mem_iff_lookup distinct).mp (same ▸ member))
  simp [other]

end Catalogue

namespace Site

/-! ### Keys for a guard -/

/-- More keys for the guard at a place, none of them by an override. -/
def aliases (place : Nat) (keys : List Key) : List Act := keys.map fun key => .addInterface place key false

/-- The keys for which the answer was not a refusal. -/
def granted (keys : List Key) (answers : List (Option (Except Error Unit))) : List Key :=
  ((keys.zip answers).filter fun e => e.2.any Except.isOk).map Prod.fst

/-- Each key is granted or in use. -/
def Answered (keys : List Key) (answers : List (Option (Except Error Unit))) : Prop :=
  List.Forall₂ (fun key answer => answer = some (.ok ()) ∨ answer = some (.error (.duplicate key))) keys answers

section

variable {t : Site Catalogue} (ownKey : DeviceId → Key) {device : DeviceId} {place : Nat}

theorem perform_alias {g : Guard} (held : t.guards[place]? = some g) (awake : t.alive g.device = true) (key : Key) :
    t.perform Keeping.catalogue ownKey (.addInterface place key false) =
        (some (.ok ()), { t with store := t.store.extend g.device [key],
                                 guards := t.guards.set place { g with keys := g.keys ++ [key] } }) ∨
      t.perform Keeping.catalogue ownKey (.addInterface place key false) = (some (.error (.duplicate key)), t) := by
  simp only [perform, held, extended, Keeping.catalogue, Catalogue.addInterface, awake, if_true]
  rcases Catalogue.register_cases t.store g.device key with ⟨_, registered⟩ | ⟨_, refused⟩
  · rw [registered]
    exact .inl rfl
  · rw [refused]
    obtain ⟨within, rfl⟩ := List.getElem?_eq_some_iff.mp held
    exact .inr (by rw [List.set_getElem_self])

/-- The guard lists the keys that are granted, in the order of the calls, and the device comes last under each. -/
theorem run_aliases {base : Catalogue} {listed : List Key} (held : t.guards[place]? = some ⟨device, listed⟩)
    (store : t.store = base.extend device listed) (awake : t.alive device = true) (keys : List Key) :
    let outcome := t.run Keeping.catalogue ownKey (aliases place keys)
    let all := listed ++ granted keys outcome.1
    Answered keys outcome.1 ∧
      outcome.2 = { t with store := base.extend device all, guards := t.guards.set place ⟨device, all⟩ } := by
  induction keys generalizing t listed with
  | nil =>
    obtain ⟨within, same⟩ := List.getElem?_eq_some_iff.mp held
    refine ⟨.nil, ?_⟩
    show t = { t with store := base.extend device (listed ++ []), guards := t.guards.set place ⟨device, listed ++ []⟩ }
    rw [List.append_nil, ← store, ← same, List.set_getElem_self]
  | cons key rest ih =>
    rcases perform_alias ownKey held awake key with entered | refused
    · obtain ⟨within, _⟩ := List.getElem?_eq_some_iff.mp held
      have longer : t.store.extend device [key] = base.extend device (listed ++ [key]) := by
        rw [store, Catalogue.extend_extend]
      obtain ⟨answered, final⟩ := ih (t := { t with
        store := t.store.extend device [key], guards := t.guards.set place ⟨device, listed ++ [key]⟩ })
        (List.getElem?_set_self within) longer awake
      simp only [aliases, List.map_cons, run, entered] at answered final ⊢
      rw [List.set_set, List.append_assoc] at final
      exact ⟨.cons (.inl rfl) answered, final⟩
    · obtain ⟨answered, final⟩ := ih held store awake
      simp only [aliases, List.map_cons, run, refused] at answered final ⊢
      exact ⟨.cons (.inr rfl) answered, final⟩

/-- For a device that is gone, nothing is granted. -/
theorem run_aliases_gone {g : Guard} (held : t.guards[place]? = some g) (gone : t.alive g.device = false) (keys : List Key) :
    (t.run Keeping.catalogue ownKey (aliases place keys)).2 = t := by
  induction keys with
  | nil => rfl
  | cons key rest ih =>
    have refused : (t.perform Keeping.catalogue ownKey (.addInterface place key false)).2 = t := by
      simp only [perform, held, extended, Keeping.catalogue, Catalogue.addInterface, gone, Bool.false_eq_true, if_false]
      obtain ⟨within, rfl⟩ := List.getElem?_eq_some_iff.mp held
      rw [List.set_getElem_self]
    simp only [aliases, List.map_cons, run, refused]
    exact ih

/-! ### There and back -/

/-- A device that is attached, and is to have more keys. -/
def calls (device : DeviceId) (place : Nat) (keys : List Key) : List Act := .attach device false :: aliases place keys

/-- The site with one guard more, whose device comes last under its keys. -/
def guarded (t : Site Catalogue) (device : DeviceId) (keys : List Key) : Site Catalogue :=
  { t with store := t.store.extend device keys, guards := t.guards ++ [⟨device, keys⟩] }

theorem perform_attach (attached : (t.perform Keeping.catalogue ownKey (.attach device false)).1 = some (.ok ())) :
    t.alive device = true ∧
      t.perform Keeping.catalogue ownKey (.attach device false) = (some (.ok ()), t.guarded device [ownKey device]) := by
  simp only [perform] at attached ⊢
  by_cases awake : t.alive device = true
  · rw [if_pos awake] at attached ⊢
    simp only [Keeping.catalogue, Catalogue.attach] at attached ⊢
    rcases Catalogue.register_cases t.store device (ownKey device) with ⟨_, registered⟩ | ⟨_, refused⟩
    · rw [registered]
      exact ⟨awake, rfl⟩
    · rw [refused] at attached
      cases attached
  · rw [if_neg awake] at attached
    cases attached

theorem run_calls (attached : (t.perform Keeping.catalogue ownKey (.attach device false)).1 = some (.ok ()))
    (keys : List Key) :
    let outcome := t.run Keeping.catalogue ownKey (calls device t.guards.length keys)
    Answered keys outcome.1.tail ∧ outcome.2 = t.guarded device (ownKey device :: granted keys outcome.1.tail) := by
  obtain ⟨awake, first⟩ := perform_attach ownKey attached
  have held : (t.guarded device [ownKey device]).guards[t.guards.length]? = some ⟨device, [ownKey device]⟩ :=
    List.getElem?_concat_length
  obtain ⟨answered, final⟩ := run_aliases ownKey held rfl awake keys
  simp only [calls, run, first]
  refine ⟨answered, final.trans ?_⟩
  simp [guarded]

theorem drop_last (guards : List Guard) (g : Guard) :
    ({ t with guards := guards ++ [g] }.perform Keeping.catalogue ownKey (.drop guards.length)).2 =
      { t with store := t.store.release g, guards } := by
  have held : (guards ++ [g])[guards.length]? = some g := List.getElem?_concat_length
  have others : (guards ++ [g]).eraseIdx guards.length = guards := by simp [List.eraseIdx_append_of_length_le]
  simp only [perform, held, others]
  rfl

theorem drop_guarded {keys : List Key} (distinct : (t.guarded device keys).store.Distinct) :
    ((t.guarded device keys).perform Keeping.catalogue ownKey (.drop t.guards.length)).2 = t := by
  have dropped := drop_last (t := { t with store := t.store.extend device keys }) ownKey t.guards ⟨device, keys⟩
  rwa [Catalogue.release_extend distinct] at dropped

/-- A device that has no other entry and is lost takes its entries along, and its guard finds nothing to take. -/
theorem lose_guarded (distinct : t.store.Distinct) (alone : ∀ key, t.store.lookup key ≠ some device)
    (keys late : List Key) :
    ((t.guarded device keys).run Keeping.catalogue ownKey
      (.lose device :: aliases t.guards.length late ++ [.drop t.guards.length])).2 =
        { t with alive := fun d => t.alive d && d ≠ device } := by
  let left : Site Catalogue := { t with alive := fun d => t.alive d && d ≠ device }
  have lost : ((t.guarded device keys).perform Keeping.catalogue ownKey (.lose device)).2 =
      { left with guards := left.guards ++ [⟨device, keys⟩] } := by
    simp only [perform, guarded, Keeping.catalogue, left]
    rw [Catalogue.lose_extend distinct alone]
  have held : (left.guards ++ [⟨device, keys⟩])[t.guards.length]? = some ⟨device, keys⟩ := List.getElem?_concat_length
  have refused := run_aliases_gone (t := { left with guards := left.guards ++ [⟨device, keys⟩] }) ownKey held
    (by simp [left]) late
  rw [List.cons_append]
  simp only [run, lost, run_append, refused]
  refine (drop_last ownKey t.guards ⟨device, keys⟩).trans ?_
  rw [Catalogue.release_alone distinct alone]

end

/-! ### Sites that look alike -/

/-- Nothing that is looked up tells the sites apart. -/
structure Alike (s s' : Site Directory) : Prop where
  lookup : ∀ key, s.store.lookup s.alive key = s'.store.lookup s'.alive key
  lookupAs : ∀ isKind key, s.store.lookupAs s.alive isKind key = s'.store.lookupAs s'.alive isKind key
  first : ∀ c, s.store.first s.alive c = s'.store.first s'.alive c
  size : ∀ c, s.store.size s.alive c = s'.store.size s'.alive c
  isEmpty : s.store.isEmpty s.alive = s'.store.isEmpty s'.alive
  dump : ∀ nameOf wanted, s.store.dump s.alive nameOf wanted = s'.store.dump s'.alive nameOf wanted

theorem alike_of_live {s s' : Site Directory} (same : s.live.store = s'.live.store) : s.Alike s' where
  lookup key := by rw [s.shows_live.lookup, s'.shows_live.lookup, same]
  lookupAs isKind key := by rw [s.shows_live.lookupAs, s'.shows_live.lookupAs, same]
  first c := by rw [s.shows_live.first, s'.shows_live.first, same]
  size c := by rw [s.shows_live.size, s'.shows_live.size, same]
  isEmpty := by rw [s.shows_live.isEmpty, s'.shows_live.isEmpty, same]
  dump nameOf wanted := by rw [s.shows_live.dump, s'.shows_live.dump, same]

/-- A device that is attached without an override, wherever a directory stands, and given more keys without one: each
key is granted or in use, the guard lists its own key and those that are granted in the order of the calls, and the
device is found under all of them. When the guard is dropped, every lookup and listing is as before. So it is, if the
device had no other entry, when the device is lost first, at any point between the calls. -/
theorem guard_round_trip (ownKey : DeviceId → Key) (before : List Act) {device : DeviceId} (wanted : List Key)
    (attached : ((after ownKey before).perform Keeping.directory ownKey (.attach device false)).1 = some (.ok ())) :
    let s := after ownKey before
    let place := s.guards.length
    let held := s.run Keeping.directory ownKey (calls device place wanted)
    let released := (held.2.perform Keeping.directory ownKey (.drop place)).2
    let keys := ownKey device :: granted wanted held.1.tail
    Answered wanted held.1.tail ∧
    held.2.guards = s.guards ++ [⟨device, keys⟩] ∧ (∀ key ∈ keys, held.2.found key = some device) ∧
    released.Alike s ∧ released.guards = s.guards ∧ released.alive = s.alive ∧
    ((∀ key, s.found key ≠ some device) → ∀ early late, wanted = early ++ late →
      let left := (s.run Keeping.directory ownKey
        (calls device place early ++ .lose device :: aliases place late ++ [.drop place])).2
      left.Alike s ∧ left.guards = s.guards) := by
  intro s place held released keys
  have distinct : s.live.store.Distinct := after_distinct ownKey before
  have asked : (s.live.perform Keeping.catalogue ownKey (.attach device false)).1 = some (.ok ()) :=
    (congrArg Prod.fst (perform_live ownKey distinct _)).symm.trans attached
  obtain ⟨answers, shown⟩ := Prod.ext_iff.mp (run_live ownKey distinct (calls device place wanted))
  obtain ⟨answered, final⟩ := run_calls ownKey asked wanted
  rw [show (s.live.run Keeping.catalogue ownKey (calls device s.live.guards.length wanted)).1 = held.1 from answers.symm]
    at answered final
  have whole : held.2.live = s.live.guarded device keys := shown.trans final
  have kept : (s.live.guarded device keys).store.Distinct := by
    rw [← final]
    exact run_distinct ownKey distinct _
  have back : released.live = s.live := by
    simp only [released]
    rw [live_perform (whole ▸ kept), whole]
    exact drop_guarded ownKey kept
  refine ⟨answered, congrArg Site.guards whole, fun key listed => ?_, alike_of_live (congrArg Site.store back),
    show released.live.guards = s.live.guards from congrArg Site.guards back,
    show released.live.alive = s.live.alive from congrArg Site.alive back, ?_⟩
  · rw [found_live, whole]
    exact Catalogue.lookup_extend kept listed
  · intro alone early late _ left
    have nowhere : ∀ key, s.live.store.lookup key ≠ some device := fun key => by
      rw [← found_live]
      exact alone key
    have gone : left.live = { s.live with alive := fun d => s.alive d && d ≠ device } := by
      refine (congrArg Prod.snd (run_live ownKey distinct _)).trans ?_
      obtain ⟨_, begun⟩ := run_calls ownKey asked early
      rw [List.append_assoc, run_append]
      show ((s.live.run Keeping.catalogue ownKey (calls device s.live.guards.length early)).2.run _ _ _).2 = _
      rw [begun]
      exact lose_guarded ownKey distinct nowhere _ late
    have store : left.live.store = s.live.store := by rw [gone]
    have guards : left.live.guards = s.live.guards := by rw [gone]
    exact ⟨alike_of_live store, guards⟩

/-- An uplink that is in use, and one whose device is gone but has not been pruned. -/
def uplinks : List Act :=
  [.attach 1 false, .register 1 ⟨.proxy, "main"⟩ false, .register 2 ⟨.proxy, "spare"⟩ false, .lose 2]

/-- Keys for the front receiver: one of another device, one that it gets but not a second time, and a free one. -/
def outlets : List Key := [⟨.proxy, "main"⟩, ⟨.proxy, "spare"⟩, ⟨.proxy, "spare"⟩, ⟨.console, "nmea"⟩]

theorem guard_round_trip_uplinks :
    let s := after receiver uplinks
    let place := s.guards.length
    let held := (s.run Keeping.directory receiver (calls 0 place outlets)).2
    (s.perform Keeping.directory receiver (.attach 0 false)).1 = some (.ok ()) ∧ (∀ key, s.found key ≠ some 0) ∧
    held.guards = s.guards ++ [⟨0, [⟨.gps, "front"⟩, ⟨.proxy, "spare"⟩, ⟨.console, "nmea"⟩]⟩] ∧
    held.found ⟨.proxy, "spare"⟩ = some 0 ∧ (held.perform Keeping.directory receiver (.drop place)).2.Alike s ∧
    (s.run Keeping.directory receiver (calls 0 place outlets ++ [.lose 0, .drop place])).2.Alike s := by
  have attached : ((after receiver uplinks).perform Keeping.directory receiver (.attach 0 false)).1 = some (.ok ()) := rfl
  have alone : ∀ key, (after receiver uplinks).found key ≠ some 0 := by
    intro key here
    rw [found_live] at here
    have present := (Directory.mem_live.mp (OrderedMap.mem_of_find here)).1
    have entries : (after receiver uplinks).store.entries.map Entry.device = [1, 1, 2] := rfl
    have device : 0 ∈ (after receiver uplinks).store.entries.map Entry.device := List.mem_map_of_mem present
    rw [entries] at device
    simp at device
  have keys : receiver 0 :: granted outlets ((after receiver uplinks).run Keeping.directory receiver
      (calls 0 (after receiver uplinks).guards.length outlets)).1.tail =
      [⟨.gps, "front"⟩, ⟨.proxy, "spare"⟩, ⟨.console, "nmea"⟩] := by decide +kernel
  obtain ⟨_, listed, found, released, _, _, lost⟩ := guard_round_trip receiver uplinks outlets attached
  rw [keys] at listed found
  have spare := found ⟨.proxy, "spare"⟩ (by decide)
  obtain ⟨quiet, _⟩ := lost alone outlets [] (List.append_nil _).symm
  rw [List.append_assoc] at quiet
  exact ⟨attached, alone, listed, spare, released, quiet⟩

end Site

end Switchboard.Device
