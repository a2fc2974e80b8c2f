import Mathlib.Data.List.Nodup
import Mathlib.Data.List.TFAE
import Switchboard.Attribute.Console
import Switchboard.Proofs.OrderedMap

/-!
The registry's two tables, names and slots, say the same. `registry_coherent`: after any critical sections
in any order, with owners gone at any moment, every claimed name has one descriptor in its owner's slot and
every descriptor's name is claimed.
-/

namespace Switchboard.Attribute

/-! ### Claims -/

def Slot.claims (s : Slot) : List (String × OwnerId) := s.descriptors.map fun d => (d.name, s.owner)

theorem mem_slot_claims {s : Slot} {name : String} {owner : OwnerId} :
    (name, owner) ∈ s.claims ↔ s.owner = owner ∧ ∃ d ∈ s.descriptors, d.name = name := by
  unfold Slot.claims
  rw [List.mem_map]
  constructor
  · rintro ⟨d, member, same⟩
    exact ⟨congrArg Prod.snd same, d, member, congrArg Prod.fst same⟩
  · rintro ⟨rfl, d, member, rfl⟩
    exact ⟨d, member, rfl⟩

theorem mem_claims {slots : List Slot} {name : String} {owner : OwnerId} :
    (name, owner) ∈ slots.flatMap Slot.claims ↔ ∃ s ∈ slots, s.owner = owner ∧ ∃ d ∈ s.descriptors, d.name = name := by
  rw [List.mem_flatMap]
  constructor
  · rintro ⟨s, member, claim⟩
    exact ⟨s, member, mem_slot_claims.mp claim⟩
  · rintro ⟨s, member, claim⟩
    exact ⟨s, member, mem_slot_claims.mpr claim⟩

theorem claims_names (slots : List Slot) :
    (slots.flatMap Slot.claims).map Prod.fst = (slots.flatMap Slot.descriptors).map Descriptor.name := by
  induction slots with
  | nil => rfl
  | cons s rest ih =>
    rw [List.flatMap_cons, List.flatMap_cons, List.map_append, List.map_append, ih]
    simp [Slot.claims, Function.comp_def]

def Slot.without (name : String) (s : Slot) : Slot :=
  { s with descriptors := s.descriptors.filter fun d => d.name ≠ name }

namespace Registry

/-- The two tables agree, and nothing stands in them twice. -/
structure Coherent (r : Registry) : Prop where
  owners : (r.slots.map Slot.owner).Nodup
  inhabited : ∀ s ∈ r.slots, s.descriptors ≠ []
  agree : r.names.entries.Perm (r.slots.flatMap Slot.claims)
  distinct : ((r.slots.flatMap Slot.claims).map Prod.fst).Nodup

variable {r : Registry} {owner : OwnerId} {name : String}

theorem empty_coherent : Coherent {} := ⟨List.nodup_nil, nofun, List.Perm.refl _, List.nodup_nil⟩

theorem keys_nodup (coherent : r.Coherent) : (r.names.entries.map Prod.fst).Nodup :=
  (coherent.agree.map Prod.fst).nodup_iff.mpr coherent.distinct

theorem name_iff (coherent : r.Coherent) :
    r.names.get? name = some owner ↔ (name, owner) ∈ r.slots.flatMap Slot.claims := by
  unfold OrderedMap.get?
  rw [OrderedMap.find_eq_some_iff (keys_nodup coherent)]
  exact coherent.agree.mem_iff

theorem slot?_iff (coherent : r.Coherent) {s : Slot} : r.slot? owner = some s ↔ s ∈ r.slots ∧ s.owner = owner :=
  find?_key_iff Slot.owner coherent.owners

theorem eq_of_claims (coherent : r.Coherent) {o o' : OwnerId} (first : (name, o) ∈ r.slots.flatMap Slot.claims)
    (second : (name, o') ∈ r.slots.flatMap Slot.claims) : o = o' :=
  congrArg Prod.snd (List.inj_on_of_nodup_map coherent.distinct first second rfl)

/-! ### Removing owners -/

/-- The registry with some of its owners only. -/
def keep (p : OwnerId → Bool) (r : Registry) : Registry where
  names := ⟨r.names.entries.filter fun e => p e.2⟩
  slots := r.slots.filter fun s => p s.owner

theorem claims_keep (p : OwnerId → Bool) (slots : List Slot) :
    (slots.filter fun s => p s.owner).flatMap Slot.claims = (slots.flatMap Slot.claims).filter fun e => p e.2 := by
  induction slots with
  | nil => rfl
  | cons s rest ih =>
    rw [List.flatMap_cons, List.filter_append, ← ih]
    by_cases wanted : p s.owner = true
    · rw [List.filter_cons_of_pos (p := fun s : Slot => p s.owner) wanted, List.flatMap_cons]
      congr 1
      symm
      apply List.filter_eq_self.mpr
      rintro ⟨name, o⟩ claim
      rwa [← (mem_slot_claims.mp claim).1]
    · rw [List.filter_cons_of_neg (p := fun s : Slot => p s.owner) wanted]
      have none : (s.claims.filter fun e => p e.2) = [] := by
        apply List.filter_eq_nil_iff.mpr
        rintro ⟨name, o⟩ claim
        rwa [← (mem_slot_claims.mp claim).1]
      rw [none, List.nil_append]

theorem keep_coherent (coherent : r.Coherent) (p : OwnerId → Bool) : (r.keep p).Coherent where
  owners := coherent.owners.sublist (List.filter_sublist.map _)
  inhabited s member := coherent.inhabited s (List.mem_filter.mp member).1
  agree := by
    show (r.names.entries.filter _).Perm _
    rw [show (r.keep p).slots = r.slots.filter fun s => p s.owner from rfl, claims_keep]
    exact coherent.agree.filter _
  distinct := by
    rw [show (r.keep p).slots = r.slots.filter fun s => p s.owner from rfl, claims_keep]
    exact coherent.distinct.sublist (List.filter_sublist.map _)

theorem erase_all {entries : List (String × OwnerId)} (distinct : (entries.map Prod.fst).Nodup)
    (ds : List Descriptor) :
    (ds.foldl (fun names d => names.erase d.name) (⟨entries⟩ : OrderedMap String OwnerId)).entries =
      entries.filter fun e => ∀ d ∈ ds, e.1 ≠ d.name := by
  induction ds generalizing entries with
  | nil => exact (List.filter_eq_self.mpr (by simp)).symm
  | cons d rest ih =>
    have erased : (⟨entries⟩ : OrderedMap String OwnerId).erase d.name = ⟨entries.filter fun e => e.1 ≠ d.name⟩ :=
      congrArg OrderedMap.mk (OrderedMap.drop_eq_filter distinct d.name)
    rw [List.foldl_cons, erased, ih (distinct.sublist (List.filter_sublist.map _)), List.filter_filter]
    congr 1
    funext e
    simp [Bool.and_comm]

theorem removeOwner_eq (coherent : r.Coherent) (owner : OwnerId) :
    (r.removeOwner owner).2 = r.keep (· ≠ owner) := by
  have slots : r.slots.eraseP (fun s => s.owner == owner) = r.slots.filter fun s => s.owner ≠ owner :=
    eraseP_eq_filter Slot.owner coherent.owners owner
  unfold removeOwner keep
  cases found : r.slot? owner with
  | none =>
    have absent : ∀ s ∈ r.slots, s.owner ≠ owner := by simpa [slot?] using found
    have names : (r.names.entries.filter fun e => e.2 ≠ owner) = r.names.entries := by
      apply List.filter_eq_self.mpr
      rintro ⟨name, o⟩ member
      obtain ⟨s, present, rfl, _⟩ := mem_claims.mp (coherent.agree.mem_iff.mp member)
      simpa using absent s present
    rw [names, List.filter_eq_self.mpr (by simpa using absent)]
  | some slot =>
    obtain ⟨present, rfl⟩ := (slot?_iff coherent).mp found
    have names : (slot.descriptors.foldl (fun names d => names.erase d.name) r.names).entries =
        r.names.entries.filter fun e => e.2 ≠ slot.owner := by
      -- A name is the slot's exactly if it is claimed for the slot's owner.
      rw [erase_all (keys_nodup coherent)]
      apply List.filter_congr
      rintro ⟨name, o⟩ member
      have claim := coherent.agree.mem_iff.mp member
      rw [decide_eq_decide]
      constructor
      · rintro unnamed rfl
        obtain ⟨s, present', same, d, within, named⟩ := mem_claims.mp claim
        obtain rfl := List.inj_on_of_nodup_map coherent.owners present' present same
        exact unnamed d within named.symm
      · rintro other d within rfl
        exact other (eq_of_claims coherent claim (mem_claims.mpr ⟨slot, present, rfl, d, within, rfl⟩))
    rw [slots, ← names]

theorem removeOwner_coherent (coherent : r.Coherent) (owner : OwnerId) : (r.removeOwner owner).2.Coherent := by
  rw [removeOwner_eq coherent]
  exact keep_coherent coherent _

theorem reclaim_coherent (coherent : r.Coherent) (alive : OwnerId → Bool) : (r.reclaim alive).Coherent := by
  unfold reclaim
  generalize (r.slots.map Slot.owner).filter (fun o => !alive o) = gone
  induction gone generalizing r with
  | nil => exact coherent
  | cons o rest ih => exact ih (removeOwner_coherent coherent o)

theorem reclaim_of_alive {alive : OwnerId → Bool} (all : ∀ s ∈ r.slots, alive s.owner = true) :
    r.reclaim alive = r := by
  have none : (r.slots.map Slot.owner).filter (fun o => !alive o) = [] := by
    apply List.filter_eq_nil_iff.mpr
    intro o member
    obtain ⟨s, present, rfl⟩ := List.mem_map.mp member
    simpa using all s present
  rw [reclaim, none, List.foldl_nil]

/-! ### Removing a name -/

theorem slot_names_nodup (coherent : r.Coherent) {s : Slot} (member : s ∈ r.slots) :
    (s.descriptors.map Descriptor.name).Nodup := by
  have distinct := coherent.distinct
  rw [claims_names, List.map_flatMap] at distinct
  exact (List.nodup_flatMap.mp distinct).1 s member

/-- A claimed name has a slot, and a descriptor in it. -/
theorem filed_of_name (coherent : r.Coherent) (claimed : r.names.get? name = some owner) :
    ∃ s d, r.slot? owner = some s ∧ s.descriptors.find? (fun d => d.name == name) = some d := by
  obtain ⟨s, present, same, d, within, named⟩ := mem_claims.mp ((name_iff coherent).mp claimed)
  have found : (s.descriptors.find? fun d => d.name == name).isSome = true :=
    List.find?_isSome.mpr ⟨d, within, by simpa using named⟩
  obtain ⟨d', found⟩ := Option.isSome_iff_exists.mp found
  exact ⟨s, d', (slot?_iff coherent).mpr ⟨present, same⟩, found⟩

theorem claims_without (name : String) (slots : List Slot) :
    ((slots.map (Slot.without name)).filter fun s => !s.descriptors.isEmpty).flatMap Slot.claims =
      (slots.flatMap Slot.claims).filter fun e => e.1 ≠ name := by
  induction slots with
  | nil => rfl
  | cons s rest ih =>
    have head : (s.without name).claims = s.claims.filter fun e => e.1 ≠ name := by
      unfold Slot.claims Slot.without
      rw [List.filter_map]
      rfl
    rw [List.flatMap_cons, List.filter_append, ← ih, ← head, List.map_cons]
    cases left : (s.without name).descriptors with
    | nil => simp [left, Slot.claims]
    | cons d ds => simp [left]

/-- Removing a claimed name takes its entry and its descriptor away. -/
theorem removeName_eq (coherent : r.Coherent) (claimed : r.names.get? name = some owner) :
    (r.removeName name).2 =
      { names := r.names.erase name
        slots := (r.slots.map (Slot.without name)).filter fun s => !s.descriptors.isEmpty } := by
  obtain ⟨s, d, found, described⟩ := filed_of_name coherent claimed
  obtain ⟨present, rfl⟩ := (slot?_iff coherent).mp found
  have claim := (name_iff coherent).mp claimed
  have slots : (r.slots.map fun s' => if s'.owner == s.owner
      then { s with descriptors := s.descriptors.eraseP fun d => d.name == name } else s') =
      r.slots.map (Slot.without name) := by
    apply List.map_congr_left
    intro s' present'
    by_cases same : s'.owner = s.owner
    · obtain rfl := List.inj_on_of_nodup_map coherent.owners present' present same
      rw [if_pos (by simp), eraseP_eq_filter Descriptor.name (slot_names_nodup coherent present) name]
      rfl
    · rw [if_neg (by simpa using same)]
      have kept : s'.descriptors.filter (fun d => d.name ≠ name) = s'.descriptors := by
        apply List.filter_eq_self.mpr
        intro d' within
        have other : d'.name ≠ name := fun named =>
          same (eq_of_claims coherent (mem_claims.mpr ⟨s', present', rfl, d', within, named⟩) claim)
        simpa using other
      rw [Slot.without, kept]
  have found' : ({ r with names := r.names.erase name } : Registry).slot? s.owner = some s := found
  unfold removeName
  simp only [claimed, found', described, slots]

theorem removeName_coherent (coherent : r.Coherent) (name : String) : (r.removeName name).2.Coherent := by
  cases claimed : r.names.get? name with
  | none =>
    unfold removeName
    rw [claimed]
    exact coherent
  | some owner =>
    rw [removeName_eq coherent claimed]
    refine ⟨?_, ?_, ?_, ?_⟩
    · -- No owner is new, and a slot that is left empty goes.
      have same : (r.slots.map (Slot.without name)).map Slot.owner = r.slots.map Slot.owner := by
        rw [List.map_map]
        rfl
      exact (same ▸ coherent.owners).sublist (List.filter_sublist.map _)
    · intro s member
      simpa using (List.mem_filter.mp member).2
    · rw [claims_without]
      show (OrderedMap.drop r.names.entries name).Perm _
      rw [OrderedMap.drop_eq_filter (keys_nodup coherent)]
      exact coherent.agree.filter _
    · rw [claims_without]
      exact coherent.distinct.sublist (List.filter_sublist.map _)

theorem unregister_snd (r : Registry) (name : String) (release : Bool) :
    (r.unregister name release).2 = (r.removeName name).2 := by
  unfold unregister
  split <;> rename_i removed <;> rw [removed]

theorem unregister_coherent (coherent : r.Coherent) (name : String) (release : Bool) :
    (r.unregister name release).2.Coherent := by
  rw [unregister_snd]
  exact removeName_coherent coherent name

/-! ### Claiming a name -/

theorem file_claims (owner : OwnerId) (label : String) (d : Descriptor) (slots : List Slot) :
    ((file owner label d slots).flatMap Slot.claims).Perm (slots.flatMap Slot.claims ++ [(d.name, owner)]) := by
  induction slots with
  | nil => exact List.Perm.refl _
  | cons s rest ih =>
    by_cases same : s.owner = owner
    · subst same
      rw [file, if_pos rfl, List.flatMap_cons, List.flatMap_cons]
      have claims : Slot.claims { s with descriptors := s.descriptors ++ [d] } = s.claims ++ [(d.name, s.owner)] := by
        simp [Slot.claims]
      rw [claims, List.append_assoc, List.append_assoc]
      exact List.perm_append_comm.append_left s.claims
    · rw [file, if_neg same, List.flatMap_cons, List.flatMap_cons, List.append_assoc]
      exact ih.append_left s.claims

theorem file_owners (owner : OwnerId) (label : String) (d : Descriptor) (slots : List Slot) :
    (file owner label d slots).map Slot.owner =
      if owner ∈ slots.map Slot.owner then slots.map Slot.owner else slots.map Slot.owner ++ [owner] := by
  induction slots with
  | nil => rfl
  | cons s rest ih =>
    by_cases same : s.owner = owner
    · rw [file, if_pos same, if_pos (by rw [← same]; exact List.mem_cons_self), List.map_cons, List.map_cons]
    · rw [file, if_neg same, List.map_cons, List.map_cons, ih]
      by_cases present : owner ∈ rest.map Slot.owner
      · rw [if_pos present, if_pos (List.mem_cons_of_mem _ present)]
      · rw [if_neg present, if_neg, List.cons_append]
        exact List.not_mem_cons_of_ne_of_not_mem (Ne.symm same) present

theorem file_inhabited {owner : OwnerId} {label : String} {d : Descriptor} {slots : List Slot}
    (inhabited : ∀ s ∈ slots, s.descriptors ≠ []) : ∀ s ∈ file owner label d slots, s.descriptors ≠ [] := by
  induction slots with
  | nil => simp [file]
  | cons s rest ih =>
    obtain ⟨head, tail⟩ := List.forall_mem_cons.mp inhabited
    rw [file]
    split
    · exact List.forall_mem_cons.mpr ⟨by simp, tail⟩
    · exact List.forall_mem_cons.mpr ⟨head, ih tail⟩

theorem claim_coherent (coherent : r.Coherent) {d : Descriptor} (unclaimed : r.names.get? d.name = none)
    (owner : OwnerId) (label : String) :
    ({ names := r.names.insert d.name owner, slots := file owner label d r.slots } : Registry).Coherent := by
  have absent : d.name ∉ r.names.entries.map Prod.fst := OrderedMap.find_eq_none_iff.mp unclaimed
  have entries : (r.names.insert d.name owner).entries = r.names.entries ++ [(d.name, owner)] :=
    OrderedMap.put_of_absent absent owner
  have claims := file_claims owner label d r.slots
  refine ⟨?_, file_inhabited coherent.inhabited, ?_, ?_⟩
  · show ((file owner label d r.slots).map Slot.owner).Nodup
    rw [file_owners]
    split
    · exact coherent.owners
    · rename_i new
      rw [← List.concat_eq_append]
      exact List.Nodup.concat new coherent.owners
  · show (r.names.insert d.name owner).entries.Perm ((file owner label d r.slots).flatMap Slot.claims)
    rw [entries]
    exact (coherent.agree.append_right _).trans claims.symm
  · rw [(claims.map Prod.fst).nodup_iff, List.map_append, List.map_singleton, ← List.concat_eq_append]
    have new : d.name ∉ (r.slots.flatMap Slot.claims).map Prod.fst := fun member =>
      absent ((coherent.agree.map Prod.fst).mem_iff.mpr member)
    exact List.Nodup.concat new coherent.distinct

theorem register_coherent (coherent : r.Coherent) (alive : OwnerId → Bool) (owner : Option (OwnerId × String))
    (d : Descriptor) : (r.register alive owner d).2.Coherent := by
  have reclaimed := reclaim_coherent coherent alive
  unfold register
  match owner with
  | none => exact coherent
  | some (owner, label) =>
    show (if _ then _ else _ : Except Error Unit × Registry).2.Coherent
    split
    · exact reclaimed
    · rename_i unclaimed
      have none : (r.reclaim alive).names.get? d.name = none := by
        simpa [OrderedMap.contains] using unclaimed
      exact claim_coherent reclaimed none owner label

theorem filing_coherent (coherent : r.Coherent) (alive : OwnerId → Bool) (owner : OwnerId × String) (f : Filing) :
    (f.advance alive owner r).2.Coherent := by
  unfold Filing.advance
  split
  · exact coherent
  · rename_i d todo done
    have registered := register_coherent coherent alive (some owner) d
    split
    · rename_i result
      rwa [result] at registered
    · rename_i result
      rwa [result] at registered
  · exact coherent
  · exact unregister_coherent coherent _ true
  · exact coherent

theorem resolve_coherent (coherent : r.Coherent) (alive : OwnerId → Bool) (name : String) :
    (r.resolve alive name).2.Coherent := by
  unfold resolve
  split
  · exact coherent
  · split
    · exact coherent
    · exact removeOwner_coherent coherent _

theorem receive_coherent (coherent : r.Coherent) (alive : OwnerId → Bool) (line radix : String) :
    (r.receive alive line radix).2.Coherent := by
  unfold receive
  split
  · exact coherent
  · rename_i l parsed
    have resolved := resolve_coherent coherent alive l.name
    split
    · rename_i result
      rwa [result] at resolved
    · rename_i result
      rwa [result] at resolved

/-! ### Living owners -/

variable {alive : OwnerId → Bool}

theorem descriptor?_isSome (coherent : r.Coherent) (name : String) :
    (r.descriptor? name).isSome = true ↔ (r.names.get? name).isSome = true := by
  unfold descriptor?
  cases claimed : r.names.get? name with
  | none => simp
  | some owner =>
    obtain ⟨s, d, found, described⟩ := filed_of_name coherent claimed
    simp [found, described]

theorem resolve_isSome (coherent : r.Coherent) (all : ∀ s ∈ r.slots, alive s.owner = true) (name : String) :
    (r.resolve alive name).1.isSome = true ↔ (r.names.get? name).isSome = true := by
  unfold resolve
  cases claimed : r.names.get? name with
  | none => simp
  | some owner =>
    obtain ⟨s, d, found, _⟩ := filed_of_name coherent claimed
    obtain ⟨present, rfl⟩ := (slot?_iff coherent).mp found
    simp [found, all s present]

theorem listed_of_alive (all : ∀ s ∈ r.slots, alive s.owner = true) :
    r.listed alive none = r.slots.flatMap Slot.descriptors := by
  unfold listed
  rw [List.filter_eq_self.mpr]
  intro s present
  simpa using all s present

theorem mem_listed (coherent : r.Coherent) (all : ∀ s ∈ r.slots, alive s.owner = true) (name : String) :
    name ∈ (r.listed alive none).map Descriptor.name ↔ (r.names.get? name).isSome = true := by
  rw [listed_of_alive all, ← claims_names, List.mem_map, Option.isSome_iff_exists]
  constructor
  · rintro ⟨⟨_, owner⟩, claim, rfl⟩
    exact ⟨owner, (name_iff coherent).mpr claim⟩
  · rintro ⟨owner, claimed⟩
    exact ⟨(name, owner), (name_iff coherent).mp claimed, rfl⟩

theorem register_duplicate (all : ∀ s ∈ r.slots, alive s.owner = true) (owner : OwnerId × String) (d : Descriptor) :
    (r.register alive (some owner) d).1 = .error (.duplicate d.name) ↔ (r.names.get? d.name).isSome = true := by
  unfold register
  simp only [reclaim_of_alive all]
  unfold OrderedMap.contains
  split <;> simp_all

theorem size_eq_listed (coherent : r.Coherent) (all : ∀ s ∈ r.slots, alive s.owner = true) :
    r.size = (r.listed alive none).length := by
  have same := congrArg List.length (claims_names r.slots)
  rw [List.length_map, List.length_map] at same
  rw [listed_of_alive all, ← same]
  exact coherent.agree.length_eq

/-! ### Any use of the registry -/

/-- One critical section of a call, with the owners that are alive at that moment. A handler is run outside
the sections, so what it asks of the registry stands between them like the calls of other threads. -/
inductive Section where
  | register (alive : OwnerId → Bool) (owner : Option (OwnerId × String)) (d : Descriptor)
  /-- A table's registration, wherever it stands. -/
  | file (alive : OwnerId → Bool) (owner : OwnerId × String) (f : Filing)
  | unregister (name : String) (release : Bool)
  | unregisterOwner (owner : OwnerId)
  | dispatch (alive : OwnerId → Bool) (name : String)
  | execute (alive : OwnerId → Bool) (line radix : String)
  /-- A registration that finds no room for its name. -/
  | exhausted (alive : OwnerId → Bool)

def Section.perform (r : Registry) : Section → Registry
  | register alive owner d => (r.register alive owner d).2
  | file alive owner f => (f.advance alive owner r).2
  | unregister name release => (r.unregister name release).2
  | unregisterOwner owner => (r.removeOwner owner).2
  | dispatch alive name => (r.resolve alive name).2
  | execute alive line radix => (r.receive alive line radix).2
  | exhausted alive => r.reclaim alive

def after (sections : List Section) : Registry := sections.foldl Section.perform {}

theorem perform_coherent (coherent : r.Coherent) (call : Section) : (call.perform r).Coherent := by
  cases call with
  | register alive owner d => exact register_coherent coherent alive owner d
  | file alive owner f => exact filing_coherent coherent alive owner f
  | unregister name release => exact unregister_coherent coherent name release
  | unregisterOwner owner => exact removeOwner_coherent coherent owner
  | dispatch alive name => exact resolve_coherent coherent alive name
  | execute alive line radix => exact receive_coherent coherent alive line radix
  | exhausted alive => exact reclaim_coherent coherent alive

theorem performs_coherent (coherent : r.Coherent) (sections : List Section) :
    (sections.foldl Section.perform r).Coherent := by
  induction sections generalizing r with
  | nil => exact coherent
  | cons call rest ih => exact ih (perform_coherent coherent call)

/-- A table registered without interruption is registered section by section. -/
theorem filing_sections (alive : OwnerId → Bool) (owner : OwnerId × String) (r : Registry) (f : Filing) :
    ∃ sections : List Section, (Filing.run alive owner r f).2 = sections.foldl Section.perform r := by
  fun_induction Filing.run alive owner r f with
  | case1 r result => exact ⟨[], rfl⟩
  | case2 r todo done next ih =>
    obtain ⟨rest, same⟩ := ih
    exact ⟨.file alive owner (.claiming todo done) :: rest, same⟩
  | case3 r left e next ih =>
    obtain ⟨rest, same⟩ := ih
    exact ⟨.file alive owner (.releasing left e) :: rest, same⟩

theorem registerTable_coherent (coherent : r.Coherent) (alive : OwnerId → Bool) (owner : OwnerId × String)
    (table : List Descriptor) : (r.registerTable alive owner table).2.Coherent := by
  obtain ⟨sections, same⟩ := filing_sections alive owner r (.claiming table [])
  rw [registerTable, same]
  exact performs_coherent coherent sections

/-- Whatever is asked of a registry, in whatever order, and whichever owners are gone meanwhile: owners have
one slot each, no slot is empty, names and slots make the same claims, and no name is claimed twice, so that a
claimed name always has a slot and a descriptor to be removed with it. As long as all owners are alive, the
names that are described, resolved, listed and refused to others are the same, and the registry counts what a
listing counts. -/
theorem registry_coherent {r : Registry} {sections : List Section} (reached : r = after sections) :
    (r.slots.map Slot.owner).Nodup ∧
    (∀ s ∈ r.slots, s.descriptors ≠ []) ∧
    (r.names.entries.map Prod.fst).Nodup ∧
    (∀ name owner, (name, owner) ∈ r.names.entries ↔
      ∃ s ∈ r.slots, s.owner = owner ∧ ∃ d ∈ s.descriptors, d.name = name) ∧
    ((r.slots.flatMap Slot.descriptors).map Descriptor.name).Nodup ∧
    (∀ name owner, r.names.get? name = some owner → ∃ s d,
      ({ r with names := r.names.erase name } : Registry).slot? owner = some s ∧
      s.descriptors.find? (fun d => d.name == name) = some d) ∧
    ∀ alive : OwnerId → Bool, (∀ s ∈ r.slots, alive s.owner = true) →
      (∀ owner d, List.TFAE [(r.descriptor? d.name).isSome = true, (r.resolve alive d.name).1.isSome = true,
        d.name ∈ (r.listed alive none).map Descriptor.name,
        (r.register alive (some owner) d).1 = .error (.duplicate d.name)]) ∧
      ∀ radix, ∃ rows, r.list alive none radix = rows ++ total r.size := by
  have coherent : r.Coherent := by
    rw [reached]
    exact performs_coherent empty_coherent sections
  refine ⟨coherent.owners, coherent.inhabited, keys_nodup coherent, ?_, ?_, ?_, ?_⟩
  · intro name owner
    exact coherent.agree.mem_iff.trans mem_claims
  · rw [← claims_names]
    exact coherent.distinct
  · intro name owner claimed
    obtain ⟨s, d, found, described⟩ := filed_of_name coherent claimed
    exact ⟨s, d, found, described⟩
  · intro alive all
    refine ⟨fun owner d => ?_, fun radix => ?_⟩
    · apply List.tfae_of_forall ((r.names.get? d.name).isSome = true)
      simp only [List.forall_mem_cons]
      exact ⟨descriptor?_isSome coherent _, resolve_isSome coherent all _, mem_listed coherent all _,
        register_duplicate all owner d, nofun⟩
    · refine ⟨String.join ((r.listed alive none).map (row radix)), ?_⟩
      rw [list, size_eq_listed coherent all]

/-- A table is given back because one of its names is taken; later the owner of that name is gone, and another
one claims it. -/
def turnover : List Section :=
  [.register (fun _ => true) (some (1, "console")) { name := "CCON" },
    .register (fun _ => true) (some (1, "console")) { name := "CLOG" },
    .file (fun _ => true) (2, "log") (.claiming [{ name := "LLEV" }, { name := "CCON" }] []),
    .file (fun _ => true) (2, "log") (.claiming [{ name := "CCON" }] ["LLEV"]),
    .file (fun _ => true) (2, "log") (.releasing ["LLEV"] (.duplicate "CCON")),
    .unregister "CLOG" true,
    .dispatch (fun o => o ≠ 1) "CCON",
    .register (fun o => o ≠ 1) (some (3, "trace")) { name := "CCON" }]

theorem registry_coherent_turnover : ∃ r : Registry, r = after turnover ∧ r.names.entries = [("CCON", 3)] ∧
    (r.register (fun _ => true) (some (4, "other")) { name := "CCON" }).1 = .error (.duplicate "CCON") ∧
    ∃ rows, r.list (fun _ => true) none "" = rows ++ total 1 := by
  have entries : (after turnover).names.entries = [("CCON", 3)] := by decide
  obtain ⟨_, _, _, _, _, _, living⟩ := registry_coherent (r := after turnover) rfl
  obtain ⟨same, counts⟩ := living (fun _ => true) fun _ _ => rfl
  have described : ((after turnover).descriptor? "CCON").isSome = true := by decide
  have size : (after turnover).size = 1 := congrArg List.length entries
  refine ⟨after turnover, rfl, entries, ((same (4, "other") { name := "CCON" }).out 0 3).mp described, ?_⟩
  obtain ⟨rows, shown⟩ := counts ""
  exact ⟨rows, by rw [shown, size]⟩

end Registry

end Switchboard.Attribute
