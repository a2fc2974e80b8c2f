import Switchboard.Audit.Sink

/-!
A disk: a sink with a limit on the bytes it takes at a time and on the writes it allows.
-/

namespace Switchboard.Audit

structure Disk where
  content : List UInt8 := []
  /-- The most bytes one write takes. -/
  chunk : Option Nat := none
  /-- How many more writes there is room for. -/
  writes : Option Nat := none
  failsFlush : Bool := false
deriving Repr

namespace Disk

def write (d : Disk) (bytes : List UInt8) : Except String Nat × Disk :=
  if d.writes = some 0 then (.error "disk full", d)
  else
    let n := min bytes.length (d.chunk.getD bytes.length)
    (.ok n, { d with content := d.content ++ bytes.take n, writes := d.writes.map (· - 1) })

def flush (d : Disk) : Except String Unit × Disk :=
  (if d.failsFlush then .error "flush failed" else .ok (), d)

instance : Sink Disk := ⟨content, write, flush⟩

instance : LawfulSink Disk where
  write_content d bytes := by
    simp only [Sink.content, Sink.write, write]
    split <;> simp
  write_le d bytes n h := by
    simp only [Sink.write, write] at h
    split at h
    · cases h
    · cases h
      exact Nat.min_le_left _ _
  flush_content d := rfl

/-- The content as text; a last character of which only some bytes were written shows as the
replacement character. -/
def text (d : Disk) : String :=
  go d.content 4
where
  go (bytes : List UInt8) : Nat → String
    | 0 => ""
    | spare + 1 =>
      match String.fromUTF8? bytes.toByteArray with
      | some s => if bytes.length < d.content.length then s.push '\ufffd' else s
      | none => go bytes.dropLast spare

end Disk

end Switchboard.Audit
