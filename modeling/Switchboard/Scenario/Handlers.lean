import Switchboard.Scenario.Task

/-!
Handler steps of a scenario, and what a handler does when it is notified. A scripted handler performs
steps of its own on the thread that notifies it, so it may come back to the dispatcher it was called by.
-/

namespace Switchboard.Scenario

namespace HandlerKind

def accepts : HandlerKind → Command.Range
  | scripted s => s.spec.range
  | trail t => t.accepts
  | log => .all

def names : HandlerKind → HandlerName
  | scripted _ => .unnamed
  | trail _ => .one "audit"
  | log => .two "log" "log"

end HandlerKind

def Script.verdict (s : Script) (name : Name) (i : Nat) : Except Dispatch.Error Unit :=
  if i ∈ s.spec.failOn then .error (.handlerFailed "scripted" s!"{name} refused") else .ok ()

namespace World

def verdict (w : World) (v : Except Dispatch.Error Unit) : Next := ⟨w, .give (.verdict v), []⟩

/-! ### Notifications -/

/-- A scripted handler refuses what is out of its range; else it plays the script of this notification.
Events are accepted always and never fail. -/
def notifyScripted (w : World) (me : ThreadId) (h : HandlerId) (name : Name) (s : Script) (n : Notice) : Next :=
  let steps := (s.spec.script[s.accepted]?).getD []
  let counted := w.setHandler h (.scripted { s with accepted := s.accepted + 1 })
  match n with
  | .event e => ⟨counted.note me (.event name e.ordinal), .play h steps (.ok ()), []⟩
  | .command c =>
    match s.spec.range.accept c with
    | .error e => (w.note me (.rejected name c.type)).verdict (.error e)
    | .ok () =>
      ⟨counted.note me (.command name (Audit.text c)), .play h steps (s.verdict name s.accepted), []⟩

def notify (w : World) (me : ThreadId) (h : HandlerId) (n : Notice) : Next :=
  match w.handlers[h]? with
  | none => w.verdict (.error .notConfigured)
  | some o =>
    match o.kind, n with
    | .scripted s, n => w.notifyScripted me h o.name s n
    | .trail t, .command c =>
      let (result, t) := t.notify c
      (w.setHandler h (.trail t)).verdict result
    | .trail _, .event _ => w.verdict (.ok ())
    | .log, .command c => (w.note me (.commandSeen c)).verdict (.ok ())
    | .log, .event e => (w.note me (.eventSeen e.ordinal)).verdict (.ok ())

def play (w : World) (h : HandlerId) (v : Except Dispatch.Error Unit) : List Step → Next
  | [] => w.verdict v
  | s :: rest => ⟨w, .perform s, [.script h rest v]⟩

def played (w : World) (me : ThreadId) (h : HandlerId) (rest : List Step) (v : Except Dispatch.Error Unit)
    (a : Answer) : Next :=
  ⟨w.note me (.did ((w.handlers[h]?.map Handler.name).getD "") a), .play h rest v, []⟩

/-! ### Steps -/

def newHandler (w : World) (name : Name) (kind : HandlerKind) : Next :=
  { w with
    handlers := w.handlers ++ [({ name, kind } : Handler)]
    handlerNames := w.handlerNames.insert name w.handlers.length }.answer .done

def newTrail (w : World) (name : Name) (spec : DiskSpec) : Next :=
  let sink : Audit.Disk := { chunk := spec.chunk, writes := spec.writes, failsFlush := spec.failsFlush }
  w.newHandler name (.trail { accepts := spec.range, sink })

/-- Gives up the name of an audit trail. Its content is handed out if no dispatcher holds the trail. -/
def takeAudit (w : World) (name : Name) (h : HandlerId) (content : String) : Next :=
  let w := { w with handlerNames := w.handlerNames.erase name }
  w.answer (if w.handlerHeld h then .absent else .text content)

def performOnHandler (w : World) (name : Name) (h : HandlerId) (kind : HandlerKind) : HandlerStep → Next
  | .info => w.answer (.handler kind.names kind.accepts)
  | .notify c => ⟨w, .notify h (.command c), [.ofVerdict]⟩
  | .accept c => w.answer (.ofVerdict (kind.accepts.accept c))
  | .auditText =>
    match kind with
    | .trail t => w.answer (.text t.sink.text)
    | _ => w.answer (unknown "audit" name)
  | .auditTake =>
    match kind with
    | .trail t => w.takeAudit name h t.sink.text
    | _ => w.answer (unknown "audit" name)

def performHandler (w : World) (name : Name) (s : HandlerStep) : Next :=
  match w.handler? name with
  | none => w.answer (unknown "handler" name)
  | some (h, o) => w.performOnHandler name h o.kind s

end World

end Switchboard.Scenario
