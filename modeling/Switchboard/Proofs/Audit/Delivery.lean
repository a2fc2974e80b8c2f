import Mathlib.Data.List.Basic
import Switchboard.Audit.Disk
import Switchboard.Audit.Trail

/-!
What a notification leaves in the sink of a trail and what it reports, whatever the sink takes at a time and wherever
it begins to fail. The calls on the sink are overheard: between two states of a sink, `Accounts` says what they have
brought into it and how they have ended. Main statement: `notify_accounts`.
-/

namespace Switchboard.Audit

/-! ### What a sink is asked -/

inductive Exchange where
  | written (bytes : List UInt8) (answer : Except String Nat)
  | flushed (answer : Except String Unit)

namespace Exchange

def taken : Exchange → List UInt8
  | written bytes (.ok n) => bytes.take n
  | _ => []

def failure? : Exchange → Option String
  | written _ (.error reason) => some reason
  | flushed (.error reason) => some reason
  | _ => none

end Exchange

/-- A sink that remembers all that it is asked. -/
structure Overheard (σ : Type) where
  sink : σ
  heard : List Exchange := []

variable {σ : Type} [Sink σ]

instance : Sink (Overheard σ) where
  content s := Sink.content s.sink
  write s bytes :=
    let (answer, sink) := Sink.write s.sink bytes
    (answer, ⟨sink, s.heard ++ [.written bytes answer]⟩)
  flush s :=
    let (answer, sink) := Sink.flush s.sink
    (answer, ⟨sink, s.heard ++ [.flushed answer]⟩)

/-! ### What a sink may do -/

/-- What writes and flushes may make of a sink. -/
inductive Later : σ → σ → Prop
  | now (s : σ) : Later s s
  | write {s s' : σ} (bytes : List UInt8) : Later s s' → Later s (Sink.write s' bytes).2
  | flush {s s' : σ} : Later s s' → Later s (Sink.flush s').2

/-- No write takes nothing, now or later: it takes at least one byte of what it is offered, or fails. -/
def Willing (s : σ) : Prop := ∀ s' bytes, Later s s' → bytes ≠ [] → (Sink.write s' bytes).1 ≠ .ok 0

/-- Nothing fails, now or later. -/
def Steady (s : σ) : Prop :=
  ∀ s', Later s s' → (∀ bytes reason, (Sink.write s' bytes).1 ≠ .error reason) ∧ (Sink.flush s').1 = .ok ()

theorem Later.trans {s s' s'' : σ} (first : Later s s') (second : Later s' s'') : Later s s'' := by
  induction second with
  | now => exact first
  | write bytes _ ih => exact ih.write bytes
  | flush _ ih => exact ih.flush

theorem Willing.later {s s' : σ} (willing : Willing s) (later : Later s s') : Willing s' :=
  fun s'' bytes onward => willing s'' bytes (later.trans onward)

theorem Steady.later {s s' : σ} (steady : Steady s) (later : Later s s') : Steady s' :=
  fun s'' onward => steady s'' (later.trans onward)

/-! ### Writing all of a text -/

def reasons : Except String Unit → List String
  | .ok () => []
  | .error reason => [reason]

/-- The calls `asked` have led from `s` to `s'`; they offer `bytes` from the front and end with `result`. -/
structure Accounts (s : σ) (bytes : List UInt8) (asked : List Exchange) (result : Except String Unit) (s' : σ) :
    Prop where
  later : Later s s'
  content : Sink.content s' = Sink.content s ++ asked.flatMap Exchange.taken
  part : asked.flatMap Exchange.taken <+: bytes
  whole : result = .ok () ↔ asked.flatMap Exchange.taken = bytes
  failures : asked.filterMap Exchange.failure? = reasons result
  unflushed : ∀ answer, Exchange.flushed answer ∉ asked
  steady : Steady s → result = .ok ()

section

variable {s s' s'' : σ} {bytes more : List UInt8} {asked asked' : List Exchange} {result : Except String Unit}
  {reason : String} {n : Nat}

theorem accounts_none (s : σ) : Accounts s [] [] (.ok ()) s := ⟨.now s, by simp, by simp, by simp, rfl, by simp, fun _ => rfl⟩

/-- The text that was to be written is taken in two parts. -/
theorem Accounts.append (first : Accounts s bytes asked (.ok ()) s') (second : Accounts s' more asked' result s'') :
    Accounts s (bytes ++ more) (asked ++ asked') result s'' where
  later := first.later.trans second.later
  content := by rw [second.content, first.content, List.flatMap_append, List.append_assoc]
  part := by
    rw [List.flatMap_append, first.whole.mp rfl]
    exact (List.prefix_append_right_inj _).mpr second.part
  whole := by rw [List.flatMap_append, first.whole.mp rfl, List.append_cancel_left_eq, second.whole]
  failures := by
    rw [List.filterMap_append, first.failures, second.failures]
    rfl
  unflushed answer member := (List.mem_append.mp member).elim (first.unflushed answer) (second.unflushed answer)
  steady steady := second.steady (steady.later first.later)

/-- What was to follow is not written. -/
theorem Accounts.broken (first : Accounts s bytes asked (.error reason) s') (more : List UInt8) :
    Accounts s (bytes ++ more) asked (.error reason) s' where
  later := first.later
  content := first.content
  part := first.part.trans (List.prefix_append bytes more)
  whole := by
    have short : asked.flatMap Exchange.taken ≠ bytes := fun whole => nomatch first.whole.mpr whole
    refine ⟨nofun, fun longer => absurd ?_ short⟩
    refine first.part.eq_of_length_le ?_
    rw [longer, List.length_append]
    exact Nat.le_add_right ..
  failures := first.failures
  unflushed := first.unflushed
  steady := first.steady

theorem later_of_write {answer : Except String Nat} (wrote : Sink.write s bytes = (answer, s')) : Later s s' := by
  have later : Later s (Sink.write s bytes).2 := .write bytes (.now s)
  rwa [wrote] at later

variable [LawfulSink σ]

theorem accounts_refused (offered : bytes ≠ []) (wrote : Sink.write s bytes = (.error reason, s')) :
    Accounts s bytes [.written bytes (.error reason)] (.error reason) s' where
  later := later_of_write wrote
  content := by
    have content := LawfulSink.write_content s bytes
    rwa [wrote] at content
  part := List.nil_prefix
  whole := ⟨nofun, fun whole => absurd whole.symm offered⟩
  failures := rfl
  unflushed := by simp
  steady steady := absurd (congrArg Prod.fst wrote) ((steady s (.now s)).1 bytes reason)

/-- What the first write has left is written by the calls after it. -/
theorem accounts_taken (wrote : Sink.write s bytes = (.ok n, s')) (rest : Accounts s' (bytes.drop n) asked result s'') :
    Accounts s bytes (.written bytes (.ok n) :: asked) result s'' where
  later := (later_of_write wrote).trans rest.later
  content := by
    have content := LawfulSink.write_content s bytes
    rw [wrote] at content
    rw [rest.content, content, List.append_assoc]
    rfl
  part := by
    have part := (List.prefix_append_right_inj (bytes.take n)).mpr rest.part
    rwa [List.take_append_drop] at part
  whole := by
    have both : bytes.take n ++ asked.flatMap Exchange.taken = bytes.take n ++ bytes.drop n ↔ result = .ok () := by
      rw [List.append_cancel_left_eq, rest.whole]
    rw [List.take_append_drop] at both
    exact both.symm
  failures := rest.failures
  unflushed := by simpa using rest.unflushed
  steady steady := rest.steady (steady.later (later_of_write wrote))

theorem writeAll_accounts (willing : Willing s) (bytes : List UInt8) :
    ∃ asked, Accounts s bytes asked (writeAll s bytes).1 (writeAll s bytes).2 ∧
      ∀ heard, writeAll (⟨s, heard⟩ : Overheard σ) bytes =
        ((writeAll s bytes).1, ⟨(writeAll s bytes).2, heard ++ asked⟩) := by
  fun_induction writeAll s bytes with
  | case1 s => exact ⟨[], accounts_none s, fun heard => by simp [writeAll]⟩
  | case2 s b rest reason s' wrote =>
    refine ⟨_, accounts_refused (List.cons_ne_nil b rest) wrote, fun heard => ?_⟩
    simp [writeAll, Sink.write, wrote]
  | case3 s b rest s' wrote =>
    exact absurd (congrArg Prod.fst wrote) (willing s _ (.now s) (List.cons_ne_nil b rest))
  | case4 s b rest n s' wrote ih =>
    obtain ⟨asked, accounts, overheard⟩ := ih (willing.later (later_of_write wrote))
    refine ⟨_, accounts_taken wrote accounts, fun heard => ?_⟩
    simp [writeAll, Sink.write, wrote, overheard]

end

/-! ### Notifications -/

def line (c : Command) : List UInt8 := utf8 (record c ++ ['\n'])

theorem line_eq (c : Command) : line c = utf8 (record c) ++ utf8 ['\n'] := by
  rw [line, utf8, List.flatMap_append]
  rfl

namespace Trail

/-- The same trail before a sink that remembers what it is asked. -/
def overheard (t : Trail σ) : Trail (Overheard σ) := ⟨t.accepts, ⟨t.sink, []⟩⟩

def exchanges (t : Trail σ) (c : Command) : List Exchange := (t.overheard.notify c).2.sink.heard

def notifyAll (t : Trail σ) : List Command → List (Except Dispatch.Error Unit) × Trail σ
  | [] => ([], t)
  | c :: cs =>
    let (result, t) := t.notify c
    let (results, t) := t.notifyAll cs
    (result :: results, t)

section

variable {t : Trail σ} {c : Command}

theorem notify_refused (outside : t.accepts.contains c.type = false) :
    t.notify c = (.error (.illegalCommand c.type t.accepts), t) := by
  simp [notify, Command.Range.accept, outside]

theorem notify_accepted (inside : t.accepts.contains c.type = true) :
    t.notify c = ((writeLine t.sink c).1.mapError (.handlerFailed "audit"), ⟨t.accepts, (writeLine t.sink c).2⟩) := by
  simp [notify, Command.Range.accept, inside]

theorem exchanges_refused (outside : t.accepts.contains c.type = false) : t.exchanges c = [] := by
  rw [exchanges, notify_refused (t := t.overheard) outside]
  rfl

theorem exchanges_accepted (inside : t.accepts.contains c.type = true) :
    t.exchanges c = (writeLine (⟨t.sink, []⟩ : Overheard σ) c).2.heard := by
  rw [exchanges, notify_accepted (t := t.overheard) inside]
  rfl

end

variable [LawfulSink σ] {s : σ} {t : Trail σ} {c : Command}

/-- Either not all of the line is taken, or the sink is flushed after it. -/
theorem writeLine_accounts (willing : Willing s) (c : Command) :
    (∃ asked reason s', Accounts s (line c) asked (.error reason) s' ∧ writeLine s c = (.error reason, s') ∧
      ∀ heard, writeLine (⟨s, heard⟩ : Overheard σ) c = (.error reason, ⟨s', heard ++ asked⟩)) ∨
    ∃ asked s', Accounts s (line c) asked (.ok ()) s' ∧ writeLine s c = Sink.flush s' ∧
      ∀ heard, writeLine (⟨s, heard⟩ : Overheard σ) c =
        ((Sink.flush s').1, ⟨(Sink.flush s').2, heard ++ asked ++ [.flushed (Sink.flush s').1]⟩) := by
  obtain ⟨asked, accounts, overheard⟩ := writeAll_accounts willing (utf8 (record c))
  rcases wrote : writeAll s (utf8 (record c)) with ⟨_ | _, s'⟩
  · rename_i reason
    simp only [wrote] at accounts overheard
    refine Or.inl ⟨asked, reason, s', line_eq c ▸ accounts.broken _, ?_, ?_⟩
    · simp [writeLine, wrote]
    · simp [writeLine, overheard]
  · simp only [wrote] at accounts overheard
    obtain ⟨asked', accounts', overheard'⟩ := writeAll_accounts (willing.later accounts.later) (utf8 ['\n'])
    rcases ended : writeAll s' (utf8 ['\n']) with ⟨_ | _, s''⟩
    · rename_i reason
      simp only [ended] at accounts' overheard'
      refine Or.inl ⟨asked ++ asked', reason, s'', line_eq c ▸ accounts.append accounts', ?_, ?_⟩
      · simp [writeLine, wrote, ended]
      · simp [writeLine, overheard, overheard']
    · simp only [ended] at accounts' overheard'
      refine Or.inr ⟨asked ++ asked', s'', line_eq c ▸ accounts.append accounts', ?_, ?_⟩
      · simp [writeLine, wrote, ended]
      · simp [writeLine, overheard, overheard', Sink.flush]

/-- Of a line a part from the front is taken; all of it is, and the sink is flushed after it, exactly if all is well. -/
theorem writeLine_told (willing : Willing s) (c : Command) : ∃ asked,
    (∀ heard, writeLine (⟨s, heard⟩ : Overheard σ) c = ((writeLine s c).1, ⟨(writeLine s c).2, heard ++ asked⟩)) ∧
    Sink.content (writeLine s c).2 = Sink.content s ++ asked.flatMap Exchange.taken ∧
    asked.flatMap Exchange.taken <+: line c ∧
    ((writeLine s c).1 = .ok () ↔ asked.flatMap Exchange.taken = line c ∧ .flushed (.ok ()) ∈ asked) ∧
    asked.filterMap Exchange.failure? = reasons (writeLine s c).1 := by
  rcases writeLine_accounts willing c with
    ⟨asked, reason, s', accounts, wrote, overheard⟩ | ⟨asked, s', accounts, wrote, overheard⟩
  · have partly : asked.flatMap Exchange.taken ≠ line c := fun whole => nomatch accounts.whole.mpr whole
    rw [wrote]
    exact ⟨asked, overheard, accounts.content, accounts.part, ⟨nofun, fun whole => absurd whole.1 partly⟩,
      accounts.failures⟩
  · have taken : (asked ++ [Exchange.flushed (Sink.flush s').1]).flatMap Exchange.taken = line c := by
      rw [List.flatMap_append, accounts.whole.mp rfl]
      exact List.append_nil _
    have failures :
        (asked ++ [Exchange.flushed (Sink.flush s').1]).filterMap Exchange.failure? = reasons (Sink.flush s').1 := by
      rw [List.filterMap_append, accounts.failures]
      cases (Sink.flush s').1 <;> rfl
    rw [wrote]
    refine ⟨asked ++ [.flushed (Sink.flush s').1], ?_, ?_, ?_, ?_, failures⟩
    · intro heard
      rw [overheard, List.append_assoc]
    · rw [LawfulSink.flush_content, accounts.content, accounts.whole.mp rfl, taken]
    · exact ⟨[], by rw [List.append_nil, taken]⟩
    · cases flushed : (Sink.flush s').1 with
      | ok => simp [← flushed, taken]
      | error reason => simp [accounts.unflushed]

theorem notify_steady (willing : Willing t.sink) (steady : Steady t.sink) (c : Command) :
    (t.notify c).1 = t.accepts.accept c ∧ (t.notify c).2.accepts = t.accepts ∧
    Later t.sink (t.notify c).2.sink ∧
    Sink.content (t.notify c).2.sink =
      Sink.content t.sink ++ if t.accepts.contains c.type then line c else [] := by
  cases inside : t.accepts.contains c.type with
  | false => simp [notify_refused inside, Command.Range.accept, inside, Later.now]
  | true =>
    rcases writeLine_accounts willing c with ⟨_, reason, _, accounts, _⟩ | ⟨asked, s', accounts, wrote, _⟩
    · cases accounts.steady steady
    · have flushed := (steady s' accounts.later).2
      rw [notify_accepted inside, wrote, flushed]
      refine ⟨?_, rfl, accounts.later.flush, ?_⟩
      · simp [Command.Range.accept, inside, Except.mapError]
      · rw [LawfulSink.flush_content, accounts.content, accounts.whole.mp rfl, if_pos rfl]

theorem notifyAll_steady (willing : Willing t.sink) (steady : Steady t.sink) (cs : List Command) :
    (t.notifyAll cs).1 = cs.map t.accepts.accept ∧
    Sink.content (t.notifyAll cs).2.sink =
      Sink.content t.sink ++ (cs.filter fun c => t.accepts.contains c.type).flatMap line := by
  induction cs generalizing t with
  | nil => simp [notifyAll]
  | cons c cs ih =>
    obtain ⟨result, same, later, content⟩ := notify_steady willing steady c
    obtain ⟨results, rest⟩ := ih (willing.later later) (steady.later later)
    rw [same] at results rest
    refine ⟨by simp [notifyAll, result, results], ?_⟩
    show Sink.content ((t.notify c).2.notifyAll cs).2.sink = _
    rw [rest, content, List.append_assoc, List.filter_cons]
    split <;> rfl

/-- Before any sink that takes at least one byte of what it is offered, or fails: a command outside the range is
refused and the sink is not asked for anything; of another command the sink takes a part from the front of its line.
All is well exactly when this is the whole line and the sink has been flushed after it; otherwise the sink has failed
once, and its reason is reported. If the sink never fails, what the commands leave in it and what is reported do not
depend on how much it takes at a time. Overhearing a sink makes no difference to it. -/
theorem notify_accounts : (∀ (t : Trail σ) (c : Command), Willing t.sink →
    (t.overheard.notify c).1 = (t.notify c).1 ∧ (t.overheard.notify c).2.sink.sink = (t.notify c).2.sink ∧
    (t.notify c).2.accepts = t.accepts ∧
    Sink.content (t.notify c).2.sink = Sink.content t.sink ++ (t.exchanges c).flatMap Exchange.taken ∧
    (t.accepts.contains c.type = false →
      t.notify c = (.error (.illegalCommand c.type t.accepts), t) ∧ t.exchanges c = []) ∧
    (t.accepts.contains c.type = true →
      (t.exchanges c).flatMap Exchange.taken <+: line c ∧
      ((t.notify c).1 = .ok () ↔
        (t.exchanges c).flatMap Exchange.taken = line c ∧ .flushed (.ok ()) ∈ t.exchanges c) ∧
      ∀ e, (t.notify c).1 = .error e →
        ∃ reason, e = .handlerFailed "audit" reason ∧ (t.exchanges c).filterMap Exchange.failure? = [reason])) ∧
    ∀ (t : Trail σ) (cs : List Command), Willing t.sink → Steady t.sink →
      (t.notifyAll cs).1 = cs.map t.accepts.accept ∧
      Sink.content (t.notifyAll cs).2.sink =
        Sink.content t.sink ++ (cs.filter fun c => t.accepts.contains c.type).flatMap line := by
  refine ⟨?_, fun t cs willing steady => notifyAll_steady willing steady cs⟩
  intro t c willing
  cases inside : t.accepts.contains c.type with
  | false =>
    have refused := notify_refused inside
    have overheard := notify_refused (t := t.overheard) inside
    have unasked := exchanges_refused inside
    rw [refused, overheard, unasked]
    exact ⟨rfl, rfl, rfl, (List.append_nil _).symm, fun _ => ⟨rfl, rfl⟩, nofun⟩
  | true =>
    obtain ⟨asked, overheard, content, part, whole, failures⟩ := writeLine_told willing c
    have heard : writeLine t.overheard.sink c = ((writeLine t.sink c).1, ⟨(writeLine t.sink c).2, asked⟩) := overheard []
    rw [notify_accepted inside, notify_accepted (t := t.overheard) inside, exchanges_accepted inside, overheard [], heard]
    refine ⟨rfl, rfl, rfl, content, nofun, fun _ => ⟨part, ?_, ?_⟩⟩
    · rw [List.nil_append, ← whole]
      cases (writeLine t.sink c).1 <;> simp [Except.mapError]
    · intro e failed
      cases result : (writeLine t.sink c).1 with
      | ok => simp [result, Except.mapError] at failed
      | error reason =>
        simp only [result, Except.mapError, Except.error.injEq] at failed
        rw [result] at failures
        exact ⟨reason, failed.symm, failures⟩

end Trail

/-! ### Disks -/

namespace Disk

variable {d d' : Disk}

theorem later_chunk (later : Later d d') : d'.chunk = d.chunk := by
  induction later with
  | now => rfl
  | write bytes _ ih =>
    rw [← ih]
    simp only [Sink.write, write]
    split <;> rfl
  | flush _ ih => exact ih

theorem willing (some : d.chunk ≠ some 0) : Willing d := by
  intro d' bytes later offered
  have limit := later_chunk later
  simp only [Sink.write, write]
  split
  · simp
  · have : bytes.length ≠ 0 := by simpa using offered
    cases chunk : d'.chunk with
    | none => simp; omega
    | some n =>
      have positive : n ≠ 0 := fun zero => some (by rw [← limit, chunk, zero])
      simp [positive]; omega

theorem steady (endless : d.writes = none) (flushes : d.failsFlush = false) : Steady d := by
  intro d' later
  have same : d'.writes = none ∧ d'.failsFlush = false := by
    induction later with
    | now => exact ⟨endless, flushes⟩
    | write bytes _ ih => simpa [Sink.write, write, ih.1] using ih.2
    | flush _ ih => exact ih
  constructor
  · intro bytes reason
    simp [Sink.write, write, same.1]
  · simp [Sink.flush, flush, same.2]

end Disk

namespace Trail

/-- A disk that takes five bytes at a time and is full after one write breaks off in the middle of the first word. On
disks that do not fill up the line stands whole, whether they take one byte at a time or all that they are offered. -/
theorem notify_accounts_full_disk :
    let full : Trail Disk := ⟨⟨1, 9⟩, { chunk := some 5, writes := some 1 }⟩
    let narrow : Trail Disk := ⟨⟨1, 9⟩, { chunk := some 1 }⟩
    let wide : Trail Disk := ⟨⟨1, 9⟩, {}⟩
    let c : Command := { type := 4, origin := "a\"b" }
    let d : Command := { type := 12 }
    Willing full.sink ∧ (full.notify c).1 = .error (.handlerFailed "audit" "disk full") ∧
    (full.exchanges c).flatMap Exchange.taken <+: line c ∧
    (full.exchanges c).filterMap Exchange.failure? = ["disk full"] ∧
    Willing narrow.sink ∧ Steady narrow.sink ∧ Willing wide.sink ∧ Steady wide.sink ∧
    (narrow.notifyAll [c, d, c]).1 = [.ok (), .error (.illegalCommand 12 ⟨1, 9⟩), .ok ()] ∧
    (wide.notifyAll [c, d, c]).1 = (narrow.notifyAll [c, d, c]).1 ∧
    Sink.content (narrow.notifyAll [c, d, c]).2.sink = line c ++ line c ∧
    Sink.content (wide.notifyAll [c, d, c]).2.sink = line c ++ line c := by
  intro full narrow wide c d
  have willing : Willing full.sink := Disk.willing (by decide)
  have inside : full.accepts.contains c.type = true := by decide
  have failed : (full.notify c).1 = .error (.handlerFailed "audit" "disk full") := by
    obtain ⟨rest, begins⟩ : ∃ rest, utf8 (record c) = 60 :: 99 :: 111 :: 109 :: 109 :: 97 :: rest := ⟨_, rfl⟩
    rw [notify_accepted inside]
    simp [writeLine, begins, writeAll, Sink.write, Disk.write, full, Except.mapError]
  obtain ⟨part, _, told⟩ := (notify_accounts.1 full c willing).2.2.2.2.2 inside
  obtain ⟨_, ⟨⟩, failures⟩ := told _ failed
  have narrowed : Willing narrow.sink ∧ Steady narrow.sink := ⟨Disk.willing (by decide), Disk.steady rfl rfl⟩
  have widened : Willing wide.sink ∧ Steady wide.sink := ⟨Disk.willing (by decide), Disk.steady rfl rfl⟩
  obtain ⟨narrowResults, narrowContent⟩ := notify_accounts.2 narrow [c, d, c] narrowed.1 narrowed.2
  obtain ⟨wideResults, wideContent⟩ := notify_accounts.2 wide [c, d, c] widened.1 widened.2
  have kept : ([c, d, c].filter fun c => narrow.accepts.contains c.type) = [c, c] := rfl
  have twice : [c, c].flatMap line = line c ++ line c := by simp
  have empty : Sink.content narrow.sink = [] ∧ Sink.content wide.sink = [] := ⟨rfl, rfl⟩
  rw [kept, twice, empty.1, List.nil_append] at narrowContent
  rw [show ([c, d, c].filter fun c => wide.accepts.contains c.type) = [c, c] from kept, twice, empty.2,
    List.nil_append] at wideContent
  exact ⟨willing, failed, part, failures, narrowed.1, narrowed.2, widened.1, widened.2, narrowResults,
    wideResults.trans narrowResults.symm, narrowContent, wideContent⟩

end Trail

end Switchboard.Audit
