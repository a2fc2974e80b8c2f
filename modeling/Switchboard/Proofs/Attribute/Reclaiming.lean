import Switchboard.Proofs.Attribute.Coherence

/-!
What owners that are gone leave in a registry. It does not matter to a request whether their names have been removed
already: each critical section does the same to a registry and to what the living owners have in it.
-/

namespace Switchboard.Attribute

namespace Registry

variable {r : Registry} {name : String}

/-! ### What some owners have registered -/

theorem keep_keep (p q : OwnerId → Bool) (r : Registry) : (r.keep p).keep q = r.keep fun o => q o && p o := by
  unfold keep
  rw [List.filter_filter, List.filter_filter]

theorem keep_congr (coherent : r.Coherent) {p q : OwnerId → Bool} (same : ∀ s ∈ r.slots, p s.owner = q s.owner) :
    r.keep p = r.keep q := by
  have names : (r.names.entries.filter fun e => p e.2) = r.names.entries.filter fun e => q e.2 := by
    apply List.filter_congr
    rintro ⟨name, o⟩ member
    obtain ⟨s, present, rfl, _⟩ := mem_claims.mp (coherent.agree.mem_iff.mp member)
    exact same s present
  rw [keep, keep, names, List.filter_congr same]

theorem keep_of_alive (coherent : r.Coherent) {alive : OwnerId → Bool} (all : ∀ s ∈ r.slots, alive s.owner = true) :
    r.keep alive = r := by
  have whole : r.keep (fun _ => true) = r := by simp [keep]
  exact (keep_congr coherent all).trans whole

theorem reclaim_eq (coherent : r.Coherent) (alive : OwnerId → Bool) : r.reclaim alive = r.keep alive := by
  have removed (gone : List OwnerId) : gone.foldl (fun r o => (r.removeOwner o).2) r = r.keep fun o => o ∉ gone := by
    -- The owners to be removed were counted in the registry from before, so the induction is on any owners.
    induction gone generalizing r with
    | nil => exact (keep_of_alive coherent (by simp)).symm
    | cons o rest ih =>
      rw [List.foldl_cons, ih (removeOwner_coherent coherent o), removeOwner_eq coherent, keep_keep]
      congr 1
      funext o'
      simp [Bool.and_comm]
  rw [reclaim, removed]
  apply keep_congr coherent
  intro s present
  have owner : s.owner ∈ r.slots.map Slot.owner := List.mem_map_of_mem present
  simp [owner]

theorem get?_keep (coherent : r.Coherent) (p : OwnerId → Bool) (name : String) :
    (r.keep p).names.get? name = (r.names.get? name).filter p := by
  ext owner
  rw [name_iff (keep_coherent coherent p), keep, claims_keep, List.mem_filter, ← name_iff coherent,
    Option.filter_eq_some_iff]

theorem slot?_keep (p : OwnerId → Bool) (r : Registry) (owner : OwnerId) :
    (r.keep p).slot? owner = if p owner then r.slot? owner else none := by
  unfold slot? keep
  rw [List.find?_filter]
  split
  · rename_i kept
    congr 1
    funext s
    by_cases same : s.owner = owner <;> simp [same, kept]
  · rename_i gone
    apply List.find?_eq_none.mpr
    intro s _
    by_cases same : s.owner = owner <;> simp [same, gone]

theorem removeOwner_keep (coherent : r.Coherent) {p : OwnerId → Bool} {owner : OwnerId} (kept : p owner = true) :
    Prod.map id (keep p) (r.removeOwner owner) = (r.keep p).removeOwner owner := by
  have count : (r.removeOwner owner).1 = ((r.keep p).removeOwner owner).1 := by
    unfold removeOwner
    rw [slot?_keep, if_pos kept]
    cases r.slot? owner <;> rfl
  have left : (r.removeOwner owner).2.keep p = ((r.keep p).removeOwner owner).2 := by
    rw [removeOwner_eq coherent, removeOwner_eq (keep_coherent coherent p), keep_keep, keep_keep]
    congr 1
    funext o
    exact Bool.and_comm _ _
  exact Prod.ext count left

/-! ### A name less -/

def without (name : String) (r : Registry) : Registry where
  names := ⟨r.names.entries.filter fun e => e.1 ≠ name⟩
  slots := (r.slots.map (Slot.without name)).filter fun s => !s.descriptors.isEmpty

theorem keep_without (p : OwnerId → Bool) (name : String) (r : Registry) :
    (r.without name).keep p = (r.keep p).without name := by
  unfold keep without
  congr 1
  · simp only [List.filter_filter, Bool.and_comm]
  · rw [List.filter_filter, List.filter_congr (fun s _ => Bool.and_comm _ _), ← List.filter_filter, List.filter_map]
    rfl

theorem without_of_unclaimed (coherent : r.Coherent) (unclaimed : r.names.get? name = none) : r.without name = r := by
  have absent : ∀ o, (name, o) ∉ r.slots.flatMap Slot.claims := fun o claim => by
    rw [← name_iff coherent, unclaimed] at claim
    cases claim
  have names : (r.names.entries.filter fun e => e.1 ≠ name) = r.names.entries := by
    refine List.filter_eq_self.mpr fun e member => decide_eq_true fun named => ?_
    exact absent e.2 (named ▸ coherent.agree.mem_iff.mp member)
  have slots : r.slots.map (Slot.without name) = r.slots := by
    refine (List.map_congr_left fun s present => ?_).trans (List.map_id r.slots)
    have kept : (s.descriptors.filter fun d => d.name ≠ name) = s.descriptors := by
      refine List.filter_eq_self.mpr fun d within => decide_eq_true fun named => ?_
      exact absent s.owner (mem_claims.mpr ⟨s, present, rfl, d, within, named⟩)
    rw [Slot.without, kept, id]
  have inhabited : (r.slots.filter fun s => !s.descriptors.isEmpty) = r.slots :=
    List.filter_eq_self.mpr fun s present => by simp [coherent.inhabited s present]
  rw [without, names, slots, inhabited]

theorem removeName_without (coherent : r.Coherent) (name : String) : (r.removeName name).2 = r.without name := by
  cases claimed : r.names.get? name with
  | none =>
    rw [without_of_unclaimed coherent claimed]
    unfold removeName
    rw [claimed]
  | some owner =>
    rw [removeName_eq coherent claimed, OrderedMap.erase, OrderedMap.drop_eq_filter (keys_nodup coherent)]
    rfl

theorem unregister_keep (coherent : r.Coherent) (p : OwnerId → Bool) (name : String) (release : Bool) :
    (r.unregister name release).2.keep p = ((r.keep p).unregister name release).2 := by
  rw [unregister_snd, unregister_snd, removeName_without coherent, removeName_without (keep_coherent coherent p),
    keep_without]

/-! ### Critical sections -/

variable {alive : OwnerId → Bool}

theorem file_owner {owner : OwnerId} {label : String} {d : Descriptor} {slots : List Slot} {s : Slot}
    (member : s ∈ file owner label d slots) : s.owner = owner ∨ s.owner ∈ slots.map Slot.owner := by
  have listed := List.mem_map_of_mem (f := Slot.owner) member
  rw [file_owners] at listed
  split at listed
  · exact .inr listed
  · exact (List.mem_append.mp listed).symm.imp_left List.mem_singleton.mp

/-- Who registers anything removes all that is gone before. -/
theorem register_keep (coherent : r.Coherent) {owner : Option (OwnerId × String)}
    (awake : ∀ o ∈ owner, alive o.1 = true) (d : Descriptor) :
    Prod.map id (keep alive) (r.register alive owner d) = (r.keep alive).register alive owner d := by
  match owner with
  | none => rfl
  | some (owner, label) =>
    have kept := keep_coherent coherent alive
    have all : ∀ s ∈ (r.keep alive).slots, alive s.owner = true := fun s member => (List.mem_filter.mp member).2
    have after := register_coherent kept alive (some (owner, label)) d
    unfold register at after ⊢
    simp only [reclaim_eq coherent, reclaim_of_alive all] at after ⊢
    split
    · -- Once the dead are reclaimed, both registries are one and the same.
      rw [Prod.map_apply, keep_of_alive kept all, id]
    · rename_i free
      rw [if_neg free] at after
      have still : ∀ s ∈ file owner label d (r.keep alive).slots, alive s.owner = true := by
        intro s member
        rcases file_owner member with rfl | old
        · exact awake _ rfl
        · obtain ⟨s', present, same⟩ := List.mem_map.mp old
          exact same ▸ all s' present
      rw [Prod.map_apply, keep_of_alive after still, id]

theorem advance_keep (coherent : r.Coherent) {owner : OwnerId × String} (awake : alive owner.1 = true) (f : Filing) :
    Prod.map id (keep alive) (f.advance alive owner r) = f.advance alive owner (r.keep alive) := by
  unfold Filing.advance
  split
  · rfl
  · rename_i d todo done
    have given : ∀ o ∈ some owner, alive o.1 = true := by
      rintro o ⟨⟩
      exact awake
    rw [← register_keep coherent given d]
    generalize r.register alive (some owner) d = outcome
    obtain ⟨_ | _, _⟩ := outcome <;> rfl
  · rfl
  · rename_i name left e
    rw [← unregister_keep coherent]
    rfl
  · rfl

theorem resolve_keep (coherent : r.Coherent) (name : String) :
    Prod.map id (keep alive) (r.resolve alive name) = (r.keep alive).resolve alive name := by
  unfold resolve
  rw [get?_keep coherent]
  cases claimed : r.names.get? name with
  | none => rfl
  | some owner =>
    obtain ⟨s, d, found, _⟩ := filed_of_name coherent claimed
    by_cases awake : alive owner = true
    · simp [awake, found, slot?_keep, Option.filter_some]
    · -- What is removed only now is not there for the living anyway.
      have gone : (r.removeOwner owner).2.keep alive = r.keep alive := by
        rw [removeOwner_eq coherent, keep_keep]
        congr 1
        funext o
        by_cases same : o = owner
        · simp [same, awake]
        · simp [same]
      simp [awake, gone, Option.filter_some]

theorem receive_keep (coherent : r.Coherent) (line radix : String) :
    Prod.map id (keep alive) (r.receive alive line radix) = (r.keep alive).receive alive line radix := by
  unfold receive
  split
  · rfl
  · rename_i l parsed
    rw [← resolve_keep coherent]
    generalize r.resolve alive l.name = outcome
    obtain ⟨_ | _, _⟩ := outcome <;> rfl

theorem resolve_awake {owner : OwnerId} (resolved : (r.resolve alive name).1 = some owner) : alive owner = true := by
  unfold resolve at resolved
  split at resolved
  · cases resolved
  · split at resolved
    · rename_i living
      cases resolved
      exact (Bool.and_eq_true _ _ ▸ living).2
    · cases resolved

theorem receive_awake {owner : OwnerId} {line radix : String} {l : Line}
    (received : (r.receive alive line radix).1 = .asks owner l) : alive owner = true := by
  unfold receive at received
  split at received
  · cases received
  · split at received
    · rename_i resolved
      cases received
      exact resolve_awake (congrArg Prod.fst resolved)
    · cases received

theorem listed_keep (r : Registry) (wanted : Option OwnerId) :
    (r.keep alive).listed alive wanted = r.listed alive wanted := by
  unfold listed keep
  rw [List.filter_filter]
  congr 2
  funext s
  cases alive s.owner <;> simp

/-! ### Names that nobody alive has -/

theorem resolve_unclaimed (coherent : r.Coherent) (unclaimed : (r.keep alive).names.get? name = none) :
    (r.resolve alive name).1 = none :=
  calc (r.resolve alive name).1
    _ = (Prod.map id (keep alive) (r.resolve alive name)).1 := rfl
    _ = ((r.keep alive).resolve alive name).1 := by rw [resolve_keep coherent]
    _ = none := by rw [resolve, unclaimed]

theorem register_unclaimed (coherent : r.Coherent) (owner : OwnerId × String) {d : Descriptor}
    (unclaimed : (r.keep alive).names.get? d.name = none) : (r.register alive (some owner) d).1 = .ok () := by
  have free : (r.keep alive).names.contains d.name = false := by
    rw [OrderedMap.contains, unclaimed]
    rfl
  simp only [register, reclaim_eq coherent, free, Bool.false_eq_true, if_false]

end Registry

end Switchboard.Attribute
