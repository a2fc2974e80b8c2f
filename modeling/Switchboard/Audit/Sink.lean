/-!
Sinks: where audit records are written, byte by byte. A sink may take less than it is offered, and
may fail at any write or at the flush.
-/

namespace Switchboard.Audit

class Sink (σ : Type) where
  content : σ → List UInt8
  /-- Takes some of the bytes from the front and tells how many, or fails with a reason. A write that was interrupted is
  made again before anything else is, and is not told of. -/
  write : σ → List UInt8 → Except String Nat × σ
  flush : σ → Except String Unit × σ

/-- A sink that tells the truth: what it takes is a prefix of what it was offered, and nothing else
changes its content. -/
class LawfulSink (σ : Type) [Sink σ] : Prop where
  write_content : ∀ (s : σ) (bytes : List UInt8),
    Sink.content (Sink.write s bytes).2 =
      Sink.content s ++ (match (Sink.write s bytes).1 with | .ok n => bytes.take n | .error _ => [])
  write_le : ∀ (s : σ) (bytes : List UInt8) (n : Nat), (Sink.write s bytes).1 = .ok n → n ≤ bytes.length
  flush_content : ∀ s : σ, Sink.content (Sink.flush s).2 = Sink.content s

/-- Offers what is left until all is taken. A write that takes nothing would never end, and fails. -/
def writeAll {σ : Type} [Sink σ] (s : σ) : List UInt8 → Except String Unit × σ
  | [] => (.ok (), s)
  | b :: rest =>
    match Sink.write s (b :: rest) with
    | (.error reason, s) => (.error reason, s)
    | (.ok 0, s) => (.error "failed to write whole buffer", s)
    | (.ok (n + 1), s) => writeAll s (rest.drop n)
termination_by bytes => bytes.length
decreasing_by simp only [List.length_drop, List.length_cons]; omega

end Switchboard.Audit
