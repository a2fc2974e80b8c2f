import Switchboard.Audit.Record
import Switchboard.Audit.Sink
import Switchboard.Dispatch.Error

/-!
Audit trails: handlers that append the record of every command they accept to a sink, one line each,
and flush it.
-/

namespace Switchboard

/-- A command outside the range is refused before anything else is done. -/
def Command.Range.accept (r : Command.Range) (c : Command) : Except Dispatch.Error Unit :=
  if r.contains c.type then .ok () else .error (.illegalCommand c.type r)

namespace Audit

def utf8 (text : List Char) : List UInt8 := text.flatMap String.utf8EncodeChar

structure Trail (σ : Type) where
  accepts : Command.Range := .all
  sink : σ

namespace Trail

variable {σ : Type} [Sink σ]

/-- Writes the record, then the line end, then flushes; the first failure ends it. -/
def writeLine (s : σ) (c : Command) : Except String Unit × σ :=
  match writeAll s (utf8 (record c)) with
  | (.error reason, s) => (.error reason, s)
  | (.ok (), s) =>
    match writeAll s (utf8 ['\n']) with
    | (.error reason, s) => (.error reason, s)
    | (.ok (), s) => Sink.flush s

def notify (t : Trail σ) (c : Command) : Except Dispatch.Error Unit × Trail σ :=
  match t.accepts.accept c with
  | .error e => (.error e, t)
  | .ok () =>
    let (result, sink) := writeLine t.sink c
    (result.mapError (Dispatch.Error.handlerFailed "audit"), { t with sink })

end Trail

end Audit

end Switchboard
