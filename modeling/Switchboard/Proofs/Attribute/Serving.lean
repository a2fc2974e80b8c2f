import Switchboard.Attribute.Console
import Switchboard.Attribute.Table
import Switchboard.Proofs.Attribute.Parsing

/-!
Lines served through tables. A registry hands a line to the owner of its name, and the owner's table decides what
comes of it. `line_access`: a line runs at most one action, once, and only the one of the first row with its name, of
a living owner, in a direction that the row allows. Whatever else a line asks leaves everything as it was.
-/

namespace Switchboard.Attribute

/-! ### Rows with actions -/

/-- A row of a table. All that capabilities hold is of type `σ`, and an action may change any of it. -/
structure Row (σ : Type) where
  descriptor : Descriptor
  action : Request → σ → Except Error String × σ

structure Invocation where
  owner : OwnerId
  row : Nat
  request : Request

/-- What a request comes to: its outcome, what capabilities hold after it, and the actions run for it. -/
structure Service (σ : Type) where
  outcome : Except Error String
  state : σ
  invoked : List Invocation := []

structure Execution (σ : Type) where
  response : Response
  registry : Registry
  state : σ
  invoked : List Invocation := []

variable {σ : Type}

def serve (rows : List (Row σ)) (owner : OwnerId) (name : String) (request : Request) (s : σ) : Service σ :=
  match route (rows.map Row.descriptor) name request with
  | .answer text => { outcome := .ok text, state := s }
  | .refuse e => { outcome := .error e, state := s }
  | .perform i =>
    match rows[i]? with
    | none => { outcome := .error (.notFound name), state := s }
    | some row =>
      let (outcome, s) := row.action request s
      { outcome, state := s, invoked := [⟨owner, i, request⟩] }

/-- A registry serves a line, when every owner answers through its table. -/
def Registry.execute (r : Registry) (alive : OwnerId → Bool) (tables : OwnerId → List (Row σ)) (line radix : String)
    (s : σ) : Execution σ :=
  match r.receive alive line radix with
  | (.answers response, r) => { response, registry := r, state := s }
  | (.asks owner l, r) =>
    let service := serve (tables owner) owner l.name l.request s
    { response := l.response service.outcome, registry := r, state := service.state, invoked := service.invoked }

/-! ### The row that decides -/

def First (table : List Descriptor) (name : String) (i : Nat) (d : Descriptor) : Prop :=
  table[i]? = some d ∧ d.name = name ∧ ∀ j < i, ∀ earlier, table[j]? = some earlier → earlier.name ≠ name

/-- A read of what is read, or a write of what is written. -/
def Access.Permits (a : Access) : Request → Prop
  | .read => a.canRead = true
  | .write _ => a.canWrite = true
  | .describe => False

section

variable {table : List Descriptor} {name : String} {i : Nat} {d : Descriptor}

theorem first_or_missing (table : List Descriptor) (name : String) :
    (∃ i d, First table name i d) ∨ ∀ d ∈ table, d.name ≠ name := by
  induction table with
  | nil => exact .inr nofun
  | cons head rest ih =>
    by_cases named : head.name = name
    · exact .inl ⟨0, head, rfl, named, nofun⟩
    · rcases ih with ⟨i, d, found, same, before⟩ | missing
      · refine .inl ⟨i + 1, d, found, same, fun j earlier d' present => ?_⟩
        cases j with
        | zero => cases present; exact named
        | succ j => exact before j (Nat.lt_of_succ_lt_succ earlier) d' present
      · exact .inr (List.forall_mem_cons.mpr ⟨named, missing⟩)

theorem findIdx?_first (first : First table name i d) : table.findIdx? (fun d => d.name == name) = some i := by
  obtain ⟨found, named, before⟩ := first
  obtain ⟨within, rfl⟩ := List.getElem?_eq_some_iff.mp found
  refine List.findIdx?_eq_some_iff_getElem.mpr ⟨within, by simpa using named, fun j earlier => ?_⟩
  simpa using before j earlier _ (List.getElem?_eq_getElem (Nat.lt_trans earlier within))

theorem first_unique {i' : Nat} {d' : Descriptor} (first : First table name i d) (first' : First table name i' d') :
    i = i' ∧ d = d' := by
  obtain rfl : i = i' := Option.some.inj ((findIdx?_first first).symm.trans (findIdx?_first first'))
  exact ⟨rfl, Option.some.inj (first.1.symm.trans first'.1)⟩

theorem route_first (first : First table name i d) (request : Request) :
    route table name request = d.route i request := by
  unfold route
  simp only [findIdx?_first first, first.1]

theorem route_missing (missing : ∀ d ∈ table, d.name ≠ name) (request : Request) :
    route table name request = .refuse (.notFound name) := by
  have none : table.findIdx? (fun d => d.name == name) = none := List.findIdx?_eq_none_iff.mpr (by simpa using missing)
  unfold route
  simp only [none]

end

/-! ### Serving one request -/

variable {rows : List (Row σ)} {owner : OwnerId} {name : String} {request : Request} {i : Nat} {row : Row σ} {s : σ}

theorem row_of_first {d : Descriptor} (first : First (rows.map Row.descriptor) name i d) :
    ∃ row, rows[i]? = some row ∧ row.descriptor = d :=
  Option.map_eq_some_iff.mp (List.getElem?_map.symm.trans first.1)

theorem serve_missing (missing : ∀ d ∈ rows.map Row.descriptor, d.name ≠ name) :
    serve rows owner name request s = { outcome := .error (.notFound name), state := s } := by
  unfold serve
  rw [route_missing missing]

theorem serve_describe (first : First (rows.map Row.descriptor) name i row.descriptor) :
    serve rows owner name .describe s = { outcome := .ok row.descriptor.valuesHelp, state := s } := by
  unfold serve
  rw [route_first first]
  rfl

theorem serve_permitted (found : rows[i]? = some row) (first : First (rows.map Row.descriptor) name i row.descriptor)
    (permitted : row.descriptor.access.Permits request) :
    serve rows owner name request s =
      { outcome := (row.action request s).1, state := (row.action request s).2, invoked := [⟨owner, i, request⟩] } := by
  have route : row.descriptor.route i request = .perform i := by
    cases request with
    | read | write => exact if_pos permitted
    | describe => exact permitted.elim
  unfold serve
  simp only [route_first first, route, found]

theorem serve_refused (first : First (rows.map Row.descriptor) name i row.descriptor) (asks : request ≠ .describe)
    (refused : ¬ row.descriptor.access.Permits request) :
    serve rows owner name request s = { outcome := .error (.modeNotSupported name), state := s } := by
  have route : row.descriptor.route i request = .refuse (.modeNotSupported name) := by
    rw [← first.2.1]
    cases request with
    | read | write => exact if_neg refused
    | describe => exact absurd rfl asks
  unfold serve
  simp only [route_first first, route]

/-! ### Serving one line -/

namespace Registry

variable {r : Registry} {alive : OwnerId → Bool} {line radix : String} {l : Line}

/-- The name is claimed by a living owner. -/
def Resolves (r : Registry) (alive : OwnerId → Bool) (name : String) (owner : OwnerId) : Prop :=
  r.names.get? name = some owner ∧ (∃ slot ∈ r.slots, slot.owner = owner) ∧ alive owner = true

theorem slot?_isSome : (r.slot? owner).isSome = true ↔ ∃ slot ∈ r.slots, slot.owner = owner := by
  simp [slot?, List.find?_isSome]

theorem resolve_of_resolves (resolves : r.Resolves alive name owner) : r.resolve alive name = (some owner, r) := by
  obtain ⟨claimed, placed, awake⟩ := resolves
  unfold resolve
  simp only [claimed, slot?_isSome.mpr placed, awake, Bool.and_self, if_true]

theorem resolve_of_unresolved (unresolved : ∀ owner, ¬ r.Resolves alive name owner) :
    (r.resolve alive name).1 = none := by
  unfold resolve
  cases claimed : r.names.get? name with
  | none => rfl
  | some owner =>
    have gone : ((r.slot? owner).isSome && alive owner) ≠ true := fun living => by
      obtain ⟨placed, awake⟩ := Bool.and_eq_true_iff.mp living
      exact unresolved owner ⟨claimed, slot?_isSome.mp placed, awake⟩
    simp only [gone]
    rfl

theorem receive_of_resolves (parsed : Line.parse line radix = .ok l) (resolves : r.Resolves alive l.name owner) :
    r.receive alive line radix = (.asks owner l, r) := by
  unfold receive
  simp only [parsed, resolve_of_resolves resolves]

theorem execute_malformed {e : Error} (unparsed : Line.parse line radix = .error e) (tables : OwnerId → List (Row σ)) :
    r.execute alive tables line radix s = { response := .malformed line e, registry := r, state := s } := by
  unfold execute receive
  simp only [unparsed]

theorem execute_unresolved (parsed : Line.parse line radix = .ok l)
    (unresolved : ∀ owner, ¬ r.Resolves alive l.name owner) (tables : OwnerId → List (Row σ)) :
    r.execute alive tables line radix s =
      { response := l.response (.error (.notFound l.name)), registry := (r.resolve alive l.name).2, state := s } := by
  have none := resolve_of_unresolved unresolved
  unfold execute receive
  simp only [parsed]
  generalize r.resolve alive l.name = outcome at none
  obtain ⟨_, _⟩ := outcome
  obtain rfl : _ = Option.none := none
  rfl

theorem execute_resolved (parsed : Line.parse line radix = .ok l) (resolves : r.Resolves alive l.name owner)
    (tables : OwnerId → List (Row σ)) :
    r.execute alive tables line radix s =
      let service := serve (tables owner) owner l.name l.request s
      { response := l.response service.outcome, registry := r, state := service.state,
        invoked := service.invoked } := by
  unfold execute
  rw [receive_of_resolves parsed resolves]

/-- The line asks the row for something it allows, and no row stands before it in the line's way. -/
structure Reaches (r : Registry) (alive : OwnerId → Bool) (tables : OwnerId → List (Row σ)) (line radix : String)
    (i : Invocation) (l : Line) (row : Row σ) : Prop where
  parsed : Line.parse line radix = .ok l
  resolves : r.Resolves alive l.name i.owner
  placed : (tables i.owner)[i.row]? = some row
  first : First ((tables i.owner).map Row.descriptor) l.name i.row row.descriptor
  permitted : row.descriptor.access.Permits l.request
  request : i.request = l.request

variable {tables : OwnerId → List (Row σ)} {i : Invocation}

theorem execute_reaches (reaches : r.Reaches alive tables line radix i l row) :
    r.execute alive tables line radix s =
      { response := l.response (row.action l.request s).1, registry := r, state := (row.action l.request s).2,
        invoked := [i] } := by
  obtain ⟨owner, place, request⟩ := i
  obtain ⟨parsed, resolves, placed, first, permitted, rfl⟩ := reaches
  rw [execute_resolved parsed resolves, serve_permitted placed first permitted]

theorem execute_quiet (unreached : ∀ i l row, ¬ r.Reaches alive tables line radix i l row) :
    (r.execute alive tables line radix s).invoked = [] ∧ (r.execute alive tables line radix s).state = s := by
  cases parsed : Line.parse line radix with
  | error e =>
    rw [execute_malformed parsed]
    exact ⟨rfl, rfl⟩
  | ok l =>
    by_cases claimed : ∃ owner, r.Resolves alive l.name owner
    · obtain ⟨owner, resolves⟩ := claimed
      rw [execute_resolved parsed resolves]
      rcases first_or_missing ((tables owner).map Row.descriptor) l.name with ⟨place, d, first⟩ | missing
      · obtain ⟨row, placed, rfl⟩ := row_of_first first
        have refused : ¬ row.descriptor.access.Permits l.request := fun permitted =>
          unreached ⟨owner, place, l.request⟩ l row ⟨parsed, resolves, placed, first, permitted, rfl⟩
        by_cases asks : l.request = .describe
        · rw [asks, serve_describe first]
          exact ⟨rfl, rfl⟩
        · rw [serve_refused first asks refused]
          exact ⟨rfl, rfl⟩
      · rw [serve_missing missing]
        exact ⟨rfl, rfl⟩
    · rw [execute_unresolved parsed (not_exists.mp claimed)]
      exact ⟨rfl, rfl⟩

theorem reaches_unique {i' : Invocation} {l' : Line} {row' : Row σ}
    (reaches : r.Reaches alive tables line radix i l row)
    (reaches' : r.Reaches alive tables line radix i' l' row') : i = i' := by
  obtain rfl : l = l' := Except.ok.inj (reaches.parsed.symm.trans reaches'.parsed)
  have owner : i.owner = i'.owner := Option.some.inj (reaches.resolves.1.symm.trans reaches'.resolves.1)
  have place : i.row = i'.row := (first_unique reaches.first (owner ▸ reaches'.first)).1
  have request : i.request = i'.request := reaches.request.trans reaches'.request.symm
  obtain ⟨_, _, _⟩ := i
  congr

theorem mem_invoked : i ∈ (r.execute alive tables line radix s).invoked ↔
    ∃ l row, r.Reaches alive tables line radix i l row := by
  by_cases reached : ∃ i l row, r.Reaches alive tables line radix i l row
  · -- The line that reaches a row runs its action and no other, and there is no other that it reaches.
    obtain ⟨i', l, row, reaches⟩ := reached
    rw [execute_reaches reaches, List.mem_singleton]
    constructor
    · rintro rfl
      exact ⟨l, row, reaches⟩
    · rintro ⟨l', row', reaches'⟩
      exact reaches_unique reaches' reaches
  · have quiet := (execute_quiet (s := s) fun i l row reaches => reached ⟨i, l, row, reaches⟩).1
    rw [quiet]
    exact iff_of_false nofun fun ⟨l, row, reaches⟩ => reached ⟨i, l, row, reaches⟩

end Registry

def Response.Reports (r : Response) (name : String) (e : Error) (label : String) : Prop :=
  r.name = name ∧ r.outcome = .error e ∧ r.wire = s!"{name}: ERROR {label}\r\n"

/-- Whatever a registry holds, whoever is alive, and whatever the tables and their actions are: a line runs at most
one action and that once. It runs the action of a row exactly if it is well formed, its name is claimed by a living
owner, the row is the first of the owner's rows with the name, and it reads what may be read or writes what may be
written; the action gets the mode and the value of the line, and its outcome is the response. A line that runs no
action changes nothing that capabilities hold. It is answered with the help text of the row if it asks for a
description, and else with an error that tells what was in the way. -/
theorem line_access (r : Registry) (alive : OwnerId → Bool) (tables : OwnerId → List (Row σ)) (line radix : String)
    (s : σ) :
    let x := r.execute alive tables line radix s
    let table owner := (tables owner).map Row.descriptor
    x.invoked.length ≤ 1 ∧
    (∀ i, i ∈ x.invoked ↔ ∃ l row, r.Reaches alive tables line radix i l row) ∧
    (∀ i l row, r.Reaches alive tables line radix i l row →
      x.response = l.response (row.action l.request s).1 ∧ x.state = (row.action l.request s).2) ∧
    (x.invoked = [] → x.state = s) ∧
    (∀ e, Line.parse line radix = .error e → x.response.Reports (String.ofList (Text.trim line.toList))
      (.malformed (String.ofList (Text.trim line.toList))) "malformed") ∧
    ∀ l, Line.parse line radix = .ok l →
      ((∀ owner, ¬ r.Resolves alive l.name owner) →
        x.response.Reports l.name (.notFound l.name) "not_found") ∧
      ∀ owner, r.Resolves alive l.name owner →
        ((∀ d ∈ table owner, d.name ≠ l.name) → x.response.Reports l.name (.notFound l.name) "not_found") ∧
        ∀ i d, First (table owner) l.name i d →
          (l.request = .describe → x.response = l.response (.ok d.valuesHelp)) ∧
          (l.request ≠ .describe → ¬ d.access.Permits l.request →
            x.response.Reports l.name (.modeNotSupported l.name) "mode_not_supported") := by
  intro x table
  refine ⟨?_, fun i => Registry.mem_invoked, ?_, ?_, ?_, ?_⟩
  · by_cases reached : ∃ i l row, r.Reaches alive tables line radix i l row
    · obtain ⟨i, l, row, reaches⟩ := reached
      have run : x = _ := Registry.execute_reaches reaches
      rw [run]
      exact Nat.le_refl 1
    · have quiet : x.invoked = [] :=
        (Registry.execute_quiet fun i l row reaches => reached ⟨i, l, row, reaches⟩).1
      rw [quiet]
      exact Nat.zero_le 1
  · intro i l row reaches
    have run : x = _ := Registry.execute_reaches reaches
    rw [run]
    exact ⟨rfl, rfl⟩
  · intro none
    refine (Registry.execute_quiet fun i l row reaches => ?_).2
    have run : i ∈ x.invoked := Registry.mem_invoked.mpr ⟨l, row, reaches⟩
    rw [none] at run
    cases run
  · intro e unparsed
    have answered : x = _ := Registry.execute_malformed unparsed tables
    rw [answered, Line.parse_error unparsed]
    exact ⟨rfl, rfl, rfl⟩
  · intro l parsed
    refine ⟨fun unresolved => ?_, fun owner resolves => ?_⟩
    · have answered : x = _ := Registry.execute_unresolved parsed unresolved tables
      rw [answered]
      exact ⟨rfl, rfl, rfl⟩
    · have served : x = _ := Registry.execute_resolved parsed resolves tables
      rw [served]
      refine ⟨fun missing => ?_, fun i d first => ?_⟩
      · rw [serve_missing missing]
        exact ⟨rfl, rfl, rfl⟩
      · obtain ⟨row, placed, rfl⟩ := row_of_first first
        refine ⟨fun asks => ?_, fun asks refused => ?_⟩
        · rw [asks, serve_describe first]
        · rw [serve_refused first asks refused]
          exact ⟨rfl, rfl, rfl⟩

end Switchboard.Attribute
