import Switchboard.Scenario.Attributes
import Switchboard.Scenario.Workers

/-!
Context and token steps of a scenario. Shutting a context down terminates its workers one after the
other, and each is waited for. Dropping gives up the name; a context is shut down when its last handle
has gone.
-/

namespace Switchboard.Scenario

namespace World

/-- One section of a shutdown; the workers to terminate are held until that is done. -/
def advanceShutdown (w : World) (i : Nat) (s : Context.Shutdown) : Next :=
  match w.contexts[i]? with
  | none => w.answer (.count 0)
  | some o =>
    let (outcome, c, workforce) := s.advance o.context w.workforce
    let w := { w with workforce }.setContext i c
    match outcome with
    | .goes (.stopping ids count) => ⟨{ w with held := ids ++ w.held }, .shutDown i (.stopping ids count), []⟩
    | .goes s => ⟨w, .shutDown i s, []⟩
    | .terminates id s => ⟨w, .onWorker id .cancelling, [.stopping id i s]⟩
    | .ends count => w.answer (.count count)

def shutDown (w : World) (i : Nat) : Next := ⟨w, .shutDown i .claiming, []⟩

/-- One of the handles on a context has gone. With the last one the context is shut down and let go. -/
def releaseContext (w : World) (i : Nat) (v : Value) : Next :=
  if w.contextHeld i then ⟨w, .give v, []⟩
  else (w.shutDown i).under [.contextGone i, .thenGive v]

def markDropped (w : World) (i : Nat) : World :=
  { w with contexts := w.contexts.modify i fun o => { o with dropped := true } }

/-- Makes a context, with registries of its own where none is shared. -/
def makeContext (w : World) (config : Config) (devices attributes roster : Option Context) : World × Nat :=
  let (root, tokens) := w.workforce.tokens.issue
  let w := { w with workforce := { w.workforce with tokens } }
  let (devices, w) := match devices with
    | some c => (c.devices, w)
    | none => (w.directories.length, { w with directories := w.directories ++ [({} : Device.Directory)] })
  let (attributes, w) := match attributes with
    | some c => (c.attributes, w)
    | none => (w.registries.length, { w with registries := w.registries ++ [({} : Attribute.Registry)] })
  let (roster, w) := match roster with
    | some c => (c.roster, w)
    | none =>
      let (r, workforce) := w.workforce.addRoster
      (r, { w with workforce })
  let c : Context := { config, devices, attributes, roster, root }
  ({ w with contexts := w.contexts ++ [{ context := c }] }, w.contexts.length)

/-- Gives a new context its name; the context that had it has lost a handle after that. -/
def keepContext (w : World) (name : Name) (i : Nat) : Next :=
  let old := w.contextNames.get? name
  let w := { w with contextNames := w.contextNames.insert name i }
  match old with
  | some old => w.releaseContext old (.answer .done)
  | none => w.answer .done

def newContext (w : World) (name : Name) (config : Config) (devices attributes roster : Option Name) : Next :=
  let look n := (w.context? n).map Prod.snd
  match named "context" look devices, named "context" look attributes, named "context" look roster with
  | .ok devices, .ok attributes, .ok roster =>
    let (w, i) := w.makeContext config devices attributes roster
    w.keepContext name i
  | .error a, _, _ => w.answer a
  | _, .error a, _ => w.answer a
  | _, _, .error a => w.answer a

def newToken (w : World) (c : Context) (name : Name) : World :=
  let (t, tokens) := w.workforce.tokens.child c.root
  { w with workforce := { w.workforce with tokens }, tokens := w.tokens.insert name t }

def performToken (w : World) (name : Name) (s : TokenStep) : Next :=
  match w.tokens.get? name with
  | none => w.answer (unknown "token" name)
  | some t =>
    match s with
    | .cancel => { w with workforce := { w.workforce with tokens := w.workforce.tokens.cancel t } }.answer .done
    | .state => w.answer (.flag (w.workforce.tokens.isCancelled t))

def performOnContext (w : World) (name : Name) (i : Nat) (c : Context) : ContextStep → Next
  | .drop => { w with contextNames := w.contextNames.erase name }.answer .done
  | .config => w.answer (.config c.config)
  | .options => w.answer (.options c.workerOptions)
  | .shutDown => w.shutDown i
  | .isShuttingDown => w.answer (.flag (w.workforce.tokens.isCancelled c.root))
  | .execute line =>
    match w.registries[c.attributes]? with
    | some r => w.executeLine c.attributes r line c.config.radix
    | none => w.answer (unknown "context" name)
  | .list owner =>
    match w.registries[c.attributes]?, w.wanted owner with
    | some r, .ok owner => w.answer (.text (r.list w.ownerAlive (owner.map Prod.fst) c.config.radix))
    | some _, .error a => w.answer a
    | none, _ => w.answer (unknown "context" name)
  | .newToken token => (w.newToken c token).answer .done

def performContext (w : World) (name : Name) (s : ContextStep) : Next :=
  match w.context? name with
  | none => w.answer (unknown "context" name)
  | some (i, c) => w.using (.context i) fun w => w.performOnContext name i c s

end World

end Switchboard.Scenario
