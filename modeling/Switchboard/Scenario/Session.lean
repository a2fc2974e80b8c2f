import Switchboard.Scenario.Thread

/-!
Sessions: a scenario played from its first step to its last. The main thread moves first whenever it
can, then the workers' threads in the order in which they were started; the clock moves only when
nobody can.
-/

namespace Switchboard.Scenario

structure Session where
  world : World := {}
  workers : List Thread := []

namespace Session

/-- The threads of workers just started join the others; their bodies begin. -/
def launch (s : Session) : Session :=
  s.world.starting.foldl
    (fun s id =>
      let workforce := (s.world.workforce.proceed (threadOf id) id .beginning).2
      { world := { s.world with workforce := (workforce.proceed (threadOf id) id .taking).2 }
        workers := s.workers ++ [{ id := threadOf id, task := .body id }] })
    { s with world := { s.world with starting := [] } }

/-- The first of these threads that can move does. -/
def moveFirst (w : World) : List Thread → Option (World × List Thread)
  | [] => none
  | t :: rest =>
    match t.step w with
    | .moved w t => some (w, t :: rest)
    | .over w _ => some (w, rest)
    | .blocked =>
      match moveFirst w rest with
      | some (w, rest) => some (w, t :: rest)
      | none => none

def turn (s : Session) : Option Session :=
  (moveFirst s.world s.workers).map fun (world, workers) => launch { world, workers }

/-- Nobody can move: the clock goes to the next time at which somebody wakes. -/
def elapse (s : Session) (main : Thread) : Option Session :=
  match ((main :: s.workers).filterMap Thread.deadline?).min? with
  | some time => some { s with world := { s.world with now := max time s.world.now } }
  | none => none

def rest : Nat → Session → Session
  | 0, s => s
  | fuel + 1, s =>
    match s.turn with
    | some s => rest fuel s
    | none => s

def finish : Nat → Session → Thread → Answer × Session
  | 0, s, _ => (.fault "no end", s)
  | fuel + 1, s, main =>
    match main.step s.world with
    | .moved world main => finish fuel (launch { s with world }) main
    | .over world v =>
      (match v with | .answer a => a | _ => .fault "no answer", rest fuel { s with world })
    | .blocked =>
      match s.turn with
      | some s => finish fuel s main
      | none =>
        match s.elapse main with
        | some s => finish fuel s main
        | none => (.fault "deadlock", s)

/-- The moves after which a step is given up as endless: far more than there is time to make. -/
def patience : Nat := 1000000000000000

def perform (s : Session) (step : Step) : (Answer × List LogEntry) × Session :=
  let (a, s) := finish patience s { id := 0, task := .perform step }
  let (log, world) := s.world.takeLog 0
  ((a, log), { s with world })

def performAll (s : Session) : List Step → List (Answer × List LogEntry) × Session
  | [] => ([], s)
  | step :: steps =>
    let (shown, s) := s.perform step
    let (later, s) := s.performAll steps
    (shown :: later, s)

/-- A session begins with nothing but a context called `main`. -/
def start (config : Config) : Session :=
  { world := (({} : World).newContext "main" config none none none).world }

end Session

def play (config : Config) (steps : List Step) : List (Answer × List LogEntry) :=
  ((Session.start config).performAll steps).1

end Switchboard.Scenario
