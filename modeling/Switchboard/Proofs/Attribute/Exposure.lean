import Switchboard.Context.Basic
import Switchboard.Proofs.Attribute.Reclaiming
import Switchboard.Proofs.Attribute.Serving

/-!
What a console lists is what it serves. `listed_is_served`: after a capability has registered its table, and whatever
is done with the registry then, a row of the table that a listing shows is the row that answers the lines with its
name, in the directions of its flags and with the help text under it.
-/

namespace Switchboard.Attribute

namespace Registry

variable {r r' : Registry} {alive : OwnerId → Bool} {owner : OwnerId × String} {o : OwnerId} {d : Descriptor}

/-! ### What owners have filed -/

def Files (r : Registry) (o : OwnerId) (d : Descriptor) : Prop := ∃ s ∈ r.slots, s.owner = o ∧ d ∈ s.descriptors

theorem mem_listed_some : d ∈ r.listed alive (some o) ↔ r.Files o d ∧ alive o = true := by
  unfold listed Files
  rw [List.mem_flatMap]
  constructor
  · rintro ⟨s, member, within⟩
    obtain ⟨present, wanted⟩ := List.mem_filter.mp member
    obtain ⟨rfl, awake⟩ : o = s.owner ∧ alive s.owner = true := by simpa using wanted
    exact ⟨⟨s, present, rfl, within⟩, awake⟩
  · rintro ⟨⟨s, present, rfl, within⟩, awake⟩
    exact ⟨s, List.mem_filter.mpr ⟨present, by simpa using awake⟩, within⟩

theorem mem_listed_none (files : r.Files o d) (awake : alive o = true) : d ∈ r.listed alive none := by
  obtain ⟨s, present, rfl, within⟩ := files
  exact List.mem_flatMap.mpr ⟨s, List.mem_filter.mpr ⟨present, by simpa using awake⟩, within⟩

theorem claimed_of_files (coherent : r.Coherent) (files : r.Files o d) : r.names.get? d.name = some o := by
  obtain ⟨s, present, same, within⟩ := files
  exact (name_iff coherent).mpr (mem_claims.mpr ⟨s, present, same, d, within, rfl⟩)

theorem resolves_of_files (coherent : r.Coherent) (files : r.Files o d) (awake : alive o = true) :
    r.Resolves alive d.name o := by
  have claimed := claimed_of_files coherent files
  obtain ⟨s, present, same, _⟩ := files
  exact ⟨claimed, ⟨s, present, same⟩, awake⟩

theorem files_keep (files : r.Files o d) (awake : alive o = true) : (r.keep alive).Files o d := by
  obtain ⟨s, present, rfl, within⟩ := files
  exact ⟨s, List.mem_filter.mpr ⟨present, awake⟩, rfl, within⟩

theorem file_files {d' : Descriptor} (owner : OwnerId × String) (slots : List Slot) :
    (∃ s ∈ file owner.1 owner.2 d slots, s.owner = o ∧ d' ∈ s.descriptors) ↔
      (∃ s ∈ slots, s.owner = o ∧ d' ∈ s.descriptors) ∨ owner.1 = o ∧ d' = d := by
  induction slots with
  | nil => simp [file]
  | cons s rest ih =>
    rw [file]
    split
    · rename_i same
      simp only [List.exists_mem_cons_iff, List.mem_append, List.mem_singleton, same]
      rw [and_or_left, or_right_comm]
    · rw [List.exists_mem_cons_iff, List.exists_mem_cons_iff, ih, or_assoc]

theorem register_files (coherent : r.Coherent) (registered : r.register alive (some owner) d = (.ok (), r')) :
    (r.keep alive).names.get? d.name = none ∧
      ∀ o d', r'.Files o d' ↔ (r.keep alive).Files o d' ∨ owner.1 = o ∧ d' = d := by
  unfold register at registered
  simp only [reclaim_eq coherent] at registered
  split at registered
  · cases registered
  · rename_i free
    cases registered
    exact ⟨by simpa [OrderedMap.contains] using free, fun o d' => file_files owner _⟩

/-! ### What a registered table leaves behind -/

theorem run_claim {todo : List Descriptor} {done : List String}
    (registered : r.register alive (some owner) d = (.ok (), r')) :
    Filing.run alive owner r (.claiming (d :: todo) done) =
      Filing.run alive owner r' (.claiming todo (done ++ [d.name])) := by
  rw [Filing.run, Filing.advance]
  simp only [registered]

theorem releasing_fails (r : Registry) (left : List String) (e : Error) :
    (Filing.run alive owner r (.releasing left e)).1 = .error e := by
  induction left generalizing r with
  | nil => rw [Filing.run, Filing.advance, Filing.run]
  | cons name left ih =>
    rw [Filing.run, Filing.advance]
    exact ih _

/-- After a claim that failed the others are given back, and the registration fails with it. -/
theorem run_refused {todo : List Descriptor} {done : List String} {e : Error}
    (registered : r.register alive (some owner) d = (.error e, r')) :
    (Filing.run alive owner r (.claiming (d :: todo) done)).1 = .error e := by
  rw [Filing.run, Filing.advance]
  simp only [registered]
  exact releasing_fails r' done e

/-- A table that was claimed to its end is filed as a whole, and no two of its rows have the same name. -/
theorem claiming_files (coherent : r.Coherent) (awake : alive owner.1 = true) {done todo : List Descriptor}
    (filed : ∀ d ∈ done, r.Files owner.1 d) (distinct : (done.map Descriptor.name).Nodup)
    (ran : Filing.run alive owner r (.claiming todo (done.map Descriptor.name)) = (.ok (), r')) :
    r'.Coherent ∧ (∀ d ∈ done ++ todo, r'.Files owner.1 d) ∧ ((done ++ todo).map Descriptor.name).Nodup := by
  induction todo generalizing r done with
  | nil =>
    rw [Filing.run, Filing.advance, Filing.run] at ran
    cases ran
    rw [List.append_nil]
    exact ⟨coherent, filed, distinct⟩
  | cons d rest ih =>
    have kept := register_coherent coherent alive (some owner) d
    rcases registered : r.register alive (some owner) d with ⟨result, r₁⟩
    rw [registered] at kept
    cases result with
    | error e =>
      have failed := congrArg Prod.fst ran
      rw [run_refused registered] at failed
      cases failed
    | ok =>
      rw [run_claim registered] at ran
      obtain ⟨free, step⟩ := register_files coherent registered
      have filed' : ∀ d' ∈ done ++ [d], r₁.Files owner.1 d' := by
        intro d' member
        rcases List.mem_append.mp member with old | new
        · exact (step _ _).mpr (.inl (files_keep (filed d' old) awake))
        · exact (step _ _).mpr (.inr ⟨rfl, List.mem_singleton.mp new⟩)
      have distinct' : ((done ++ [d]).map Descriptor.name).Nodup := by
        rw [List.map_append, List.map_singleton, ← List.concat_eq_append]
        refine List.Nodup.concat (fun member => ?_) distinct
        obtain ⟨d', old, same⟩ := List.mem_map.mp member
        have claimed := claimed_of_files (keep_coherent coherent alive) (files_keep (filed d' old) awake)
        rw [same, free] at claimed
        cases claimed
      rw [List.append_cons done d rest]
      refine ih kept filed' distinct' ?_
      rw [List.map_append]
      exact ran

theorem registerTable_files (coherent : r.Coherent) (awake : alive owner.1 = true) {table : List Descriptor}
    (registered : r.registerTable alive owner table = (.ok (), r')) :
    r'.Coherent ∧ (∀ d ∈ table, r'.Files owner.1 d) ∧ (table.map Descriptor.name).Nodup := by
  have none : ∀ d ∈ [], r.Files owner.1 d := nofun
  exact claiming_files coherent awake none List.nodup_nil registered

/-! ### Rows and the lines they answer -/

theorem first_of_distinct {table : List Descriptor} (distinct : (table.map Descriptor.name).Nodup)
    (member : d ∈ table) : ∃ i, First table d.name i d := by
  rcases first_or_missing table d.name with ⟨i, d', first⟩ | missing
  · obtain rfl : d' = d := List.inj_on_of_nodup_map distinct (List.mem_of_getElem? first.1) member first.2.1
    exact ⟨i, first⟩
  · exact absurd rfl (missing d member)

/-- A listed row stands in the text of the listing. -/
theorem list_of_mem {wanted : Option OwnerId} (shown : d ∈ r.listed alive wanted) (radix : String) :
    ∃ front back, r.list alive wanted radix = front ++ row radix d ++ back := by
  obtain ⟨before, after, split⟩ := List.append_of_mem shown
  refine ⟨String.join (before.map (row radix)), String.join (after.map (row radix)) ++
    total (r.listed alive wanted).length, ?_⟩
  rw [list, split]
  simp only [List.map_append, List.map_cons, String.join_append, String.join_cons, String.append_assoc]

end Registry

theorem reads_iff (a : Access) : 'R' ∈ a.flags.toList ↔ a.canRead = true := by
  cases a <;> decide

theorem writes_iff (a : Access) : 'W' ∈ a.flags.toList ↔ a.canWrite = true := by
  cases a <;> decide

def Request.line (name : String) : Request → Line
  | read => ⟨name, .read, none⟩
  | write value => ⟨name, .write, some value⟩
  | describe => ⟨name, .describe, none⟩

theorem request_line (name : String) (request : Request) : (request.line name).request = request := by
  cases request <;> rfl

theorem name_line (name : String) (request : Request) : (request.line name).name = name := by
  cases request <;> rfl

theorem wellFormed_line {name : String} {request : Request} (named : Named name)
    (plain : ∀ value, request = .write value → Plain value) : (request.line name).WellFormed := by
  refine ⟨by rwa [name_line], ?_, ?_⟩
  · cases request <;> simp [Request.line]
  · cases request with
    | write value =>
      rintro _ ⟨⟩
      exact plain value rfl
    | read | describe => exact nofun

/-- With the radix in front, or without it if that leaves no doubt, the line makes its request. -/
theorem parse_line {name radix line : String} {request : Request} (named : Named name)
    (plain : ∀ value, request = .write value → Plain value) (unindented : Unindented radix)
    (written : line = radix ++ name ++ request.suffix ∨
      line = name ++ request.suffix ∧ (radix.toList <+: line.toList → radix = "")) :
    Line.parse line radix = .ok (request.line name) := by
  have wellFormed := wellFormed_line named plain
  have render : (request.line name).render = name ++ request.suffix := by
    rw [Line.render, name_line, request_line]
  rcases written with rfl | ⟨rfl, other⟩
  · simpa [render, String.append_assoc] using Line.parse_render wellFormed unindented "" "" Text.blank_empty Text.blank_empty
  · simpa [render] using Line.parse_bare wellFormed (render ▸ other) "" "" Text.blank_empty Text.blank_empty

/-- A capability has registered its table with a registry that was in whatever state calls can bring it into, and is
alive after any calls that followed. All rows of the table were listed at first. Every row of it that is still listed
for the capability stands in the listings of the context, with the row's flags, and if `W` is among them with its help
text. It is the first and only row with its name, and if a line can ask for that name, a line that does so behind the
context's radix, or without it where no radix could be meant, goes to this capability as the request that it spells
and leaves the registry alone. The table answers a description with the help text, performs a read exactly if the
flags show `R` and a write exactly if they show `W`, and refuses the others. -/
theorem listed_is_served {c : Context} (unindented : Unindented c.config.radix) {before : List Registry.Section}
    {awake : OwnerId → Bool} {owner : OwnerId × String} {table : List Descriptor} {filed : Registry}
    (holding : awake owner.1 = true)
    (registered : (Registry.after before).registerTable awake owner table = (.ok (), filed))
    (later : List Registry.Section) (alive : OwnerId → Bool) (living : alive owner.1 = true) :
    let r := later.foldl Registry.Section.perform filed
    let radix := c.config.radix
    (∀ d ∈ table, d ∈ filed.listed awake (some owner.1)) ∧
    ∀ d ∈ table, d ∈ r.listed alive (some owner.1) →
      (∀ wanted ∈ [none, some owner.1], ∃ front back, r.list alive wanted radix = front ++
        (s!"{radix}{Text.column 10 d.name} {d.access.flags} {Text.column 40 d.description}\r\n" ++
          if 'W' ∈ d.access.flags.toList then s!"    {d.valuesHelp}\r\n" else "") ++ back) ∧
      ∃ i, First table d.name i d ∧ (∀ d' ∈ table, d'.name = d.name → d' = d) ∧
        (Named d.name → ∀ request line, (∀ value, request = .write value → Plain value) →
          (line = radix ++ d.name ++ request.suffix ∨
            line = d.name ++ request.suffix ∧ (radix.toList <+: line.toList → radix = "")) →
          r.receive alive line radix = (.asks owner.1 (request.line d.name), r) ∧
          (request.line d.name).request = request ∧
          route table d.name request = match request with
            | .describe => .answer d.valuesHelp
            | .read => if 'R' ∈ d.access.flags.toList then .perform i else .refuse (.modeNotSupported d.name)
            | .write _ => if 'W' ∈ d.access.flags.toList then .perform i else .refuse (.modeNotSupported d.name)) := by
  intro r radix
  obtain ⟨coherent, files, distinct⟩ :=
    Registry.registerTable_files (Registry.performs_coherent Registry.empty_coherent before) holding registered
  have coherent : r.Coherent := Registry.performs_coherent coherent later
  refine ⟨fun d member => Registry.mem_listed_some.mpr ⟨files d member, holding⟩, fun d member shown => ?_⟩
  obtain ⟨filed, _⟩ := Registry.mem_listed_some.mp shown
  obtain ⟨i, first⟩ := Registry.first_of_distinct distinct member
  refine ⟨fun wanted either => ?_, i, first, fun d' member' same => ?_, fun named request line plain written => ?_⟩
  · have listed : d ∈ r.listed alive wanted := by
      rcases List.mem_pair.mp either with rfl | rfl
      · exact Registry.mem_listed_none filed living
      · exact shown
    simpa only [Registry.row, writes_iff] using Registry.list_of_mem listed radix
  · exact List.inj_on_of_nodup_map distinct member' member same
  · have parsed := parse_line named plain unindented written
    have resolves := Registry.resolves_of_files coherent filed living
    refine ⟨Registry.receive_of_resolves parsed (by rwa [name_line]), request_line d.name request, ?_⟩
    rw [route_first first]
    cases request <;> simp only [Descriptor.route, reads_iff, writes_iff]

def modem : List Descriptor :=
  [{ name := "APN", access := .readWrite, description := "access point", valuesHelp := "<string>" },
    { name := "RST", access := .writeOnly, valuesHelp := "1" }, { name := "CSQ", description := "signal" }]

def modemFiled : Registry where
  names := ⟨[("CCON", 1), ("APN", 2), ("RST", 2), ("CSQ", 2)]⟩
  slots := [⟨1, "cab", [{ name := "CCON" }]⟩, ⟨2, "modem", modem⟩]

/-- One capability comes before the modem and is gone later, another one takes its name, and one name of the modem is
released. -/
theorem listed_is_served_modem :
    let c : Context := { devices := 0, attributes := 0, roster := 0, root := ⟨0, []⟩ }
    let before := [Registry.Section.register (fun _ => true) (some (1, "cab")) { name := "CCON" }]
    let later := [Registry.Section.register (fun o => o ≠ 1) (some (3, "trace")) { name := "CCON" },
      .unregister "RST" true]
    let r := later.foldl Registry.Section.perform modemFiled
    (Unindented c.config.radix ∧ Plain "internet" ∧ Named "APN" ∧
      (Registry.after before).registerTable (fun _ => true) (2, "modem") modem = (.ok (), modemFiled)) ∧
    (r.listed (fun o => o ≠ 1) (some 2)).map Descriptor.name = ["APN", "CSQ"] ∧
    r.receive (fun o => o ≠ 1) "$APN=internet" "$" = (.asks 2 ⟨"APN", .write, some "internet"⟩, r) ∧
    r.receive (fun o => o ≠ 1) "APN=?" "$" = (.asks 2 ⟨"APN", .describe, none⟩, r) ∧
    route modem "APN" .describe = .answer "<string>" ∧ route modem "APN" (.write "internet") = .perform 0 := by
  intro c before later r
  have unindented : Unindented "$" := by
    rintro _ ⟨⟩
    decide
  have plain : Plain "internet" := by
    refine ⟨?_, by decide⟩
    rintro _ ⟨⟩
    decide
  have fit : Line.nameIsFit "APN".toList = true := by decide
  have named : Named "APN" := by simpa using Line.named_of_fit fit (by decide)
  have registered : (Registry.after before).registerTable (fun _ => true) (2, "modem") modem =
      (.ok (), modemFiled) := by
    refine (Registry.run_claim rfl).trans ((Registry.run_claim rfl).trans ((Registry.run_claim rfl).trans ?_))
    rw [Registry.Filing.run, Registry.Filing.advance, Registry.Filing.run]
    rfl
  have listed : (r.listed (fun o => o ≠ 1) (some 2)).map Descriptor.name = ["APN", "CSQ"] := by decide
  obtain ⟨_, served⟩ := listed_is_served (c := c) unindented rfl registered later (fun o => o ≠ 1) rfl
  obtain ⟨_, i, first, _, answers⟩ := served modem[0] List.mem_cons_self (by decide)
  obtain rfl : i = 0 := (first_unique first ⟨rfl, rfl, fun j below => absurd below (Nat.not_lt_zero j)⟩).1
  obtain ⟨asked, _, described⟩ := answers named .describe "APN=?" (by rintro _ ⟨⟩) (.inr ⟨rfl, by decide⟩)
  obtain ⟨received, _, performed⟩ := answers named (.write "internet") "$APN=internet"
    (by rintro _ ⟨⟩; exact plain) (.inl rfl)
  exact ⟨⟨unindented, plain, named, registered⟩, listed, received, asked, described, performed⟩

end Switchboard.Attribute
