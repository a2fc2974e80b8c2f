import Switchboard.Scenario.World

/-!
Device, directory and guard steps of a scenario. Each is over in one section of the directory it works
on.
-/

namespace Switchboard.Scenario

namespace World

/-- The directory a guard belongs to, if it is still there. -/
def homeOf (w : World) (g : GuardObject) : Option Device.Directory :=
  if w.directoryAlive g.home then w.directories[g.home]? else none

def releaseGuard (w : World) (g : GuardObject) : World :=
  match w.homeOf g with
  | some d => w.setDirectory g.home (d.release w.deviceAlive g.guard)
  | none => w

/-- Puts a guard under a name; the one that was there is released after that. -/
def keepGuard (w : World) (name : Name) (g : GuardObject) : World :=
  let old := w.guards.get? name
  let w := { w with guards := w.guards.insert name g }
  match old with
  | some old => w.releaseGuard old
  | none => w

def nameDevice (w : World) (name : Name) (d : Device.DeviceId) : World :=
  { w with deviceNames := w.deviceNames.insert name d }

def isKind (w : World) (kind : DeviceKind) (d : Device.DeviceId) : Bool :=
  (w.devices[d]?).any fun o => o.kind == kind

/-- A device that was looked up, kept under one more name if one is given. -/
def found (w : World) (keep : Option Name) : Option Device.DeviceId → Answer × World
  | none => (.absent, w)
  | some d => (w.deviceView d, match keep with | some name => w.nameDevice name d | none => w)

def ofResult : Except Device.Error Unit → Answer
  | .ok _ => .done
  | .error e => .ofDeviceError e

def performOnDirectory (w : World) (i : DirectoryId) (d : Device.Directory) : DirectoryStep → Answer × World
  | .register name key takeOver =>
    match w.device? name with
    | none => (unknown "device" name, w)
    | some (id, _) =>
      let (result, d) := d.register w.deviceAlive id key takeOver
      (ofResult result, w.setDirectory i d)
  | .unregister name key =>
    match w.device? name with
    | none => (unknown "device" name, w)
    | some (id, _) =>
      let (result, d) := d.unregister w.deviceAlive id key
      (ofResult result, w.setDirectory i d)
  | .lookup key keep => w.found keep (d.lookup w.deviceAlive key)
  | .first c keep => w.found keep (d.first w.deviceAlive c)
  | .lookupKind key kind => w.found none (d.lookupAs w.deviceAlive (w.isKind kind) key)
  | .size c => (.count (d.size w.deviceAlive c), w)
  | .isEmpty => (.flag (d.isEmpty w.deviceAlive), w)
  | .dump c =>
    let nameOf id := ((w.devices[id]?).map fun o => o.view.name).getD ""
    (.text (d.dump w.deviceAlive nameOf c), w)
  | .attach guard name takeOver =>
    match w.device? name with
    | none => (unknown "device" name, w)
    | some (id, o) =>
      match d.attach w.deviceAlive id o.view.key takeOver with
      | (.ok g, d) => (.done, (w.setDirectory i d).keepGuard guard ⟨i, g⟩)
      | (.error e, d) => (.ofDeviceError e, w.setDirectory i d)

def performDirectory (w : World) (context : Name) (s : DirectoryStep) : Answer × World :=
  match w.context? context with
  | none => (unknown "context" context, w)
  | some (_, c) =>
    match w.directories[c.devices]? with
    | none => (unknown "context" context, w)
    | some d => w.performOnDirectory c.devices d s

def newDevice (w : World) (name : Name) (key : Device.Key) (label : String) (kind : DeviceKind) : World :=
  let o : DeviceObject := { view := ⟨name, key, label⟩, kind }
  { w with devices := w.devices ++ [o] }.nameDevice name w.devices.length

def dropDevice (w : World) (name : Name) : World := { w with deviceNames := w.deviceNames.erase name }

def performOnGuard (w : World) (name : Name) (g : GuardObject) : GuardStep → Answer × World
  | .addInterface key takeOver =>
    match w.homeOf g with
    | none => (.ofDeviceError (.notFound key), w)
    | some d =>
      let (result, held, d) := d.addInterface w.deviceAlive g.guard key takeOver
      let w := w.setDirectory g.home d
      (ofResult result, { w with guards := w.guards.insert name { g with guard := held } })
  | .keys => (.keys g.guard.keys, w)
  | .drop => (.done, { w with guards := w.guards.erase name }.releaseGuard g)

def performGuard (w : World) (name : Name) (s : GuardStep) : Answer × World :=
  match w.guards.get? name with
  | none => (unknown "guard" name, w)
  | some g => w.performOnGuard name g s

end World

end Switchboard.Scenario
