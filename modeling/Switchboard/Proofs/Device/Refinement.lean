import Switchboard.Proofs.Device.Catalogue

/-!
Directories in use. Whatever is registered, released and lost, in whatever order, a directory answers and shows
what the catalogue of live devices does that is used in the same way. Main statement: `directory_refines`.
-/

namespace Switchboard.Device

/-! ### Sites -/

/-- What keeps the entries of devices, and what it does about a device that is gone. -/
structure Keeping (σ : Type) where
  register : (DeviceId → Bool) → σ → DeviceId → Key → Bool → Except Error Unit × σ
  unregister : (DeviceId → Bool) → σ → DeviceId → Key → Except Error Unit × σ
  attach : (DeviceId → Bool) → σ → DeviceId → Key → Bool → Except Error Guard × σ
  addInterface : (DeviceId → Bool) → σ → Guard → Key → Bool → Except Error Unit × Guard × σ
  release : (DeviceId → Bool) → σ → Guard → σ
  lose : σ → DeviceId → σ
  prune : (DeviceId → Bool) → σ → Class → σ

/-- A directory does not notice that a device is gone. -/
def Keeping.directory : Keeping Directory where
  register alive d := d.register alive
  unregister alive d := d.unregister alive
  attach alive d := d.attach alive
  addInterface alive d := d.addInterface alive
  release alive d := d.release alive
  lose d _ := d
  prune alive d := d.prune alive

/-- A catalogue has nothing to prune. -/
def Keeping.catalogue : Keeping Catalogue where
  register _ t := t.register
  unregister _ t := t.unregister
  attach _ t := t.attach
  addInterface alive t := t.addInterface alive
  release _ t := t.release
  lose t := t.lose
  prune _ t _ := t

inductive Act where
  | register (device : DeviceId) (key : Key) (takeOver : Bool)
  | unregister (device : DeviceId) (key : Key)
  | attach (device : DeviceId) (takeOver : Bool)
  /-- Adds a key to the guard at this place among the guards that are held. -/
  | addInterface (place : Nat) (key : Key) (takeOver : Bool)
  | drop (place : Nat)
  /-- The last handle of a device is let go. -/
  | lose (device : DeviceId)
  /-- Entries of a class whose device is gone are removed at no one's call. -/
  | prune (c : Class)

/-- The entries with the devices that are alive and the guards that are held. -/
structure Site (σ : Type) where
  store : σ
  alive : DeviceId → Bool := fun _ => true
  guards : List Guard := []

namespace Site

section

variable {σ : Type} (k : Keeping σ) (ownKey : DeviceId → Key)

def called (s : Site σ) (outcome : Except Error Unit × σ) : Option (Except Error Unit) × Site σ :=
  (some outcome.1, { s with store := outcome.2 })

def attached (s : Site σ) : Except Error Guard × σ → Option (Except Error Unit) × Site σ
  | (.ok g, store) => (some (.ok ()), { s with store, guards := s.guards ++ [g] })
  | (.error e, store) => (some (.error e), { s with store })

def extended (s : Site σ) (place : Nat) (outcome : Except Error Unit × Guard × σ) :
    Option (Except Error Unit) × Site σ :=
  (some outcome.1, { s with store := outcome.2.2, guards := s.guards.set place outcome.2.1 })

/-- The answer to an act that is a call, and the site after it. Who calls for a device holds it, so a device
that is gone is not called for; neither is a guard that nobody holds. -/
def perform (s : Site σ) : Act → Option (Except Error Unit) × Site σ
  | .register device key takeOver =>
    if s.alive device then s.called (k.register s.alive s.store device key takeOver) else (none, s)
  | .unregister device key =>
    if s.alive device then s.called (k.unregister s.alive s.store device key) else (none, s)
  | .attach device takeOver =>
    if s.alive device then s.attached (k.attach s.alive s.store device (ownKey device) takeOver) else (none, s)
  | .addInterface place key takeOver =>
    match s.guards[place]? with
    | none => (none, s)
    | some g => s.extended place (k.addInterface s.alive s.store g key takeOver)
  | .drop place =>
    match s.guards[place]? with
    | none => (none, s)
    | some g => (none, { s with store := k.release s.alive s.store g, guards := s.guards.eraseIdx place })
  | .lose device => (none, { s with store := k.lose s.store device, alive := fun d => s.alive d && d ≠ device })
  | .prune c => (none, { s with store := k.prune s.alive s.store c })

def run (s : Site σ) : List Act → List (Option (Except Error Unit)) × Site σ
  | [] => ([], s)
  | act :: rest =>
    let (answer, s) := s.perform k ownKey act
    let (answers, s) := s.run rest
    (answer :: answers, s)

end

/-! ### What a site shows -/

/-- Nothing that is looked up in the directory differs from the catalogue, and the guards are the same. -/
structure Shows (s : Site Directory) (t : Site Catalogue) : Prop where
  guards : s.guards = t.guards
  lookup : ∀ key, s.store.lookup s.alive key = t.store.lookup key
  lookupAs : ∀ isKind key, s.store.lookupAs s.alive isKind key = t.store.lookupAs isKind key
  first : ∀ c, s.store.first s.alive c = t.store.first c
  size : ∀ c, s.store.size s.alive c = t.store.size c
  isEmpty : s.store.isEmpty s.alive = t.store.isEmpty
  dump : ∀ nameOf wanted, s.store.dump s.alive nameOf wanted = t.store.dump nameOf wanted

/-- The site with the catalogue that its directory shows. -/
def live (s : Site Directory) : Site Catalogue := { s with store := s.store.live s.alive }

theorem shows_live (s : Site Directory) : s.Shows s.live where
  guards := rfl
  lookup := Directory.lookup_live
  lookupAs := Directory.lookupAs_live
  first := Directory.first_live
  size := Directory.size_live
  isEmpty := Directory.isEmpty_live
  dump := Directory.dump_live

/-! ### Acts -/

section

variable {t : Site Catalogue} (ownKey : DeviceId → Key)

theorem attached_distinct {outcome : Except Error Guard × Catalogue} (distinct : outcome.2.Distinct) :
    (t.attached outcome).2.store.Distinct := by
  obtain ⟨_ | _, _⟩ := outcome <;> exact distinct

theorem attached_refused {outcome : Except Error Guard × Catalogue} {e : Error}
    (refused : (t.attached outcome).1 = some (.error e)) :
    outcome.1 = .error e ∧ (t.attached outcome).2 = { t with store := outcome.2 } := by
  obtain ⟨_ | _, _⟩ := outcome
  · exact ⟨by simpa [attached] using refused, rfl⟩
  · cases refused

theorem perform_distinct (distinct : t.store.Distinct) (act : Act) :
    (t.perform Keeping.catalogue ownKey act).2.store.Distinct := by
  cases act with
  | register device key takeOver =>
    simp only [perform]
    split
    · exact Catalogue.register_distinct distinct device key takeOver
    · exact distinct
  | unregister device key =>
    simp only [perform]
    split
    · exact Catalogue.unregister_distinct distinct device key
    · exact distinct
  | attach device takeOver =>
    simp only [perform]
    split
    · exact attached_distinct (Catalogue.attach_distinct distinct takeOver)
    · exact distinct
  | addInterface place key takeOver =>
    simp only [perform]
    split
    · exact distinct
    · exact Catalogue.addInterface_distinct distinct t.alive _ takeOver
  | drop place =>
    simp only [perform]
    split
    · exact distinct
    · exact Catalogue.release_distinct distinct _
  | lose device => exact Catalogue.lose_distinct distinct device
  | prune c => exact distinct

/-- A call that is refused changes nothing, the guards included. -/
theorem perform_refused {act : Act} {e : Error}
    (refused : (t.perform Keeping.catalogue ownKey act).1 = some (.error e)) :
    (t.perform Keeping.catalogue ownKey act).2 = t := by
  cases act with
  | register device key takeOver =>
    simp only [perform] at refused ⊢
    split at refused
    · rename_i awake
      rw [if_pos awake]
      exact congrArg (fun store => { t with store }) (Catalogue.register_refused (Option.some.inj refused))
    · cases refused
  | unregister device key =>
    simp only [perform] at refused ⊢
    split at refused
    · rename_i awake
      rw [if_pos awake]
      exact congrArg (fun store => { t with store }) (Catalogue.unregister_refused (Option.some.inj refused))
    · cases refused
  | attach device takeOver =>
    simp only [perform] at refused ⊢
    split at refused
    · rename_i awake
      rw [if_pos awake]
      obtain ⟨failed, same⟩ := attached_refused refused
      rw [same]
      exact congrArg (fun store => { t with store }) (Catalogue.attach_refused failed)
    · cases refused
  | addInterface place key takeOver =>
    simp only [perform] at refused ⊢
    split at refused
    · cases refused
    · rename_i g found
      have same := Catalogue.addInterface_refused (Option.some.inj refused)
      have kept : t.guards.set place g = t.guards := by
        obtain ⟨within, rfl⟩ := List.getElem?_eq_some_iff.mp found
        exact List.set_getElem_self within
      simp only [extended, Keeping.catalogue, same, kept]
  | drop place =>
    simp only [perform] at refused
    split at refused <;> cases refused
  | lose device => cases refused
  | prune c => cases refused

end

section

variable {s : Site Directory} (ownKey : DeviceId → Key)

theorem attached_live (outcome : Except Error Guard × Directory) :
    ((s.attached outcome).1, (s.attached outcome).2.live) = s.live.attached (outcome.1, outcome.2.live s.alive) := by
  obtain ⟨_ | _, _⟩ := outcome <;> rfl

/-- Every act shows as the same act on the catalogue. -/
theorem perform_live (distinct : s.live.store.Distinct) (act : Act) :
    ((s.perform Keeping.directory ownKey act).1, (s.perform Keeping.directory ownKey act).2.live) =
      s.live.perform Keeping.catalogue ownKey act := by
  cases act with
  | register device key takeOver =>
    simp only [perform]
    by_cases awake : s.alive device = true
    · rw [if_pos awake, if_pos (c := s.live.alive device = true) awake]
      exact congrArg s.live.called (Directory.register_live awake distinct key takeOver)
    · rw [if_neg awake, if_neg (c := s.live.alive device = true) awake]
  | unregister device key =>
    simp only [perform]
    by_cases awake : s.alive device = true
    · rw [if_pos awake, if_pos (c := s.live.alive device = true) awake]
      exact congrArg s.live.called (Directory.unregister_live awake distinct key)
    · rw [if_neg awake, if_neg (c := s.live.alive device = true) awake]
  | attach device takeOver =>
    simp only [perform]
    by_cases awake : s.alive device = true
    · rw [if_pos awake, if_pos (c := s.live.alive device = true) awake, attached_live]
      exact congrArg s.live.attached (Directory.attach_live awake distinct (ownKey device) takeOver)
    · rw [if_neg awake, if_neg (c := s.live.alive device = true) awake]
  | addInterface place key takeOver =>
    have same : s.live.guards[place]? = s.guards[place]? := rfl
    simp only [perform, same]
    cases s.guards[place]? with
    | none => rfl
    | some g => exact congrArg (s.live.extended place) (Directory.addInterface_live distinct g key takeOver)
  | drop place =>
    have same : s.live.guards[place]? = s.guards[place]? := rfl
    simp only [perform, same]
    cases s.guards[place]? with
    | none => rfl
    | some g =>
      exact congrArg (fun store => (none, { s.live with store, guards := s.guards.eraseIdx place }))
        (Directory.release_live distinct g)
  | lose device =>
    exact congrArg (fun store => (none, ({ store, alive := fun d => s.alive d && d ≠ device, guards := s.guards } : Site _)))
      (Directory.lose_live device)
  | prune c => exact congrArg (fun store => (none, { s.live with store })) (Directory.prune_live c)

theorem run_distinct {t : Site Catalogue} (distinct : t.store.Distinct) (acts : List Act) :
    (t.run Keeping.catalogue ownKey acts).2.store.Distinct := by
  induction acts generalizing t with
  | nil => exact distinct
  | cons act rest ih => exact ih (perform_distinct ownKey distinct act)

theorem run_live (distinct : s.live.store.Distinct) (acts : List Act) :
    ((s.run Keeping.directory ownKey acts).1, (s.run Keeping.directory ownKey acts).2.live) =
      s.live.run Keeping.catalogue ownKey acts := by
  induction acts generalizing s with
  | nil => rfl
  | cons act rest ih =>
    have kept := perform_distinct ownKey distinct act
    have shown := perform_live ownKey distinct act
    simp only [run]
    rw [← shown] at kept ⊢
    rw [← ih kept]

end

/-- Whatever is called for, dropped and lost at a site, and whenever entries of devices that are gone are
pruned, a directory gives the answers and shows the entries of the catalogue that is treated in the same way.
The catalogue holds distinct ids of living devices, and a call that is refused changes nothing that is shown. -/
theorem directory_refines (ownKey : DeviceId → Key) (acts : List Act) :
    let s := ({ store := {} } : Site Directory).run Keeping.directory ownKey acts
    let t := ({ store := fun _ => {} } : Site Catalogue).run Keeping.catalogue ownKey acts
    s.1 = t.1 ∧ s.2.Shows t.2 ∧
    (∀ c, (t.2.store c).keys.Nodup ∧ ∀ device ∈ (t.2.store c).values, t.2.alive device = true) ∧
    ∀ act e, (s.2.perform Keeping.directory ownKey act).1 = some (.error e) →
      (s.2.perform Keeping.directory ownKey act).2.Shows t.2 := by
  intro s t
  have empty : Catalogue.Distinct fun _ => {} := fun _ => List.nodup_nil
  have distinct : t.2.store.Distinct := run_distinct ownKey empty acts
  obtain ⟨answers, same⟩ : s.1 = t.1 ∧ s.2.live = t.2 := by
    have shown : (s.1, s.2.live) = t := run_live (s := { store := {} }) ownKey empty acts
    rw [← shown]
    exact ⟨rfl, rfl⟩
  rw [← same] at distinct ⊢
  refine ⟨answers, s.2.shows_live, fun c => ⟨distinct c, fun device => Directory.live_values⟩, ?_⟩
  intro act e refused
  obtain ⟨answer, after⟩ := Prod.ext_iff.mp (perform_live ownKey distinct act)
  have kept : (s.2.perform Keeping.directory ownKey act).2.live = s.2.live :=
    after.trans (perform_refused ownKey (answer.symm.trans refused))
  rw [← kept]
  exact shows_live _

end Site

end Switchboard.Device
