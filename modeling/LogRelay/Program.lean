import LogRelay.CommandLine
import LogRelay.Metrics
import LogRelay.ProcessLog
import LogRelay.QueueManager
import LogRelay.Service
import LogRelay.Settings.File
import LogRelay.Termination

/-!
# The program

From the command line to the exit status.  A start reads the settings, checks them and starts the
service, or it ends: with a termination record and status 1, or with a failure that is not recorded.
Once started, the program advances step by step until the service ends.
-/

namespace LogRelay

/-- What is around the program apart from files and commands. -/
structure Ambience where
  environment : Environment
  host : Filter.HostName
  /-- The time, in seconds. -/
  now : Double
  /-- Whether the program can be told to stop by a signal. -/
  takesSignals : Bool

/-- The program while the service runs. -/
structure Program where
  log : LogSettings
  terminator : Terminator
  service : Service
  /-- The time at the start. -/
  started : Double

/-- How a start went. -/
inductive Start where
  | running (p : Program)
  /-- The program ended with a status. -/
  | ended (status : Nat)
  | failed (f : Failure)

/-- A start and what it left behind. -/
structure Launch where
  /-- The environment with the values of the settings file in it. -/
  environment : Environment
  /-- How notices are written, once that is known. -/
  log : Option LogSettings
  scene : Scene
  output : Text := []
  start : Start

namespace Program

/-- The status of a program that ends with a termination record. -/
def failureStatus : Nat := 1

/-- Ends with a termination record, or with the failure that breaks this off. -/
def record (t : Terminator) (message : Text)
    (scene : Scene) : Terminator × Scene × Except Failure Nat :=
  let (t, act) := t.terminate message
  match act scene with
  | .ok _ scene => (t, scene, .ok failureStatus)
  | .error f scene => (t, scene, .error f)

/-- Ends a start with a termination record. -/
def abort (t : Terminator) (message : Text) (scene : Scene) : Scene × Start :=
  match record t message scene with
  | (_, scene, .ok status) => (scene, .ended status)
  | (_, scene, .error f) => (scene, .failed f)

/-- The signals that stop the program. -/
def stopSignals : List Text := ["SIGTERM", "SIGINT"]

/-- The notices before the service starts. -/
def openingNotices (a : Ambience) (log : LogSettings) (s : Settings) (sources : List Source) :
    List Notice :=
  [.programStarting log.format (sources.map fun source => (source.name, source.path.text)),
    .pipelineReady log.format true, Service.readyNotice sources s.tail] ++
  if a.takesSignals then [] else stopSignals.map Notice.signalUnsupported

/-- What lines are judged by. -/
def context (log : LogSettings) (a : Ambience) : Pipeline.Context :=
  ⟨log.format, a.environment, a.host⟩

/-- Starts the service over some sources. -/
def startService (a : Ambience) (log : LogSettings) (t : Terminator) (s : Settings)
    (sources : List Source) (refusals : Refusals) (scene : Scene) : Launch :=
  let service := { Service.ofSources sources s.tail with refusals }
  let (service, r) := service.start ⟨scene.disk, context log a⟩
  let notices := scene.notices ++ openingNotices a log s sources ++ r.notices
  { environment := a.environment, log := some log, scene := { scene with notices },
    output := r.output, start := .running ⟨log, t, service, a.now⟩ }

/-- Looks up what is followed, and starts. -/
def startSources (o : Options) (a : Ambience) (log : LogSettings) (t : Terminator) (s : Settings)
    (refusals : Refusals) (scene : Scene) : Launch :=
  let name := o.qmgr.getD s.qmgrName
  let (ns, found) := QueueManager.errorDirectoryOf scene.disk name s.paths.mqsIni
  let scene :=
    { scene with notices := scene.notices ++ Settings.replacedNotices a.environment ++ ns }
  let launch (result : Scene × Start) : Launch :=
    { environment := a.environment, log := some log, scene := result.1, start := result.2 }
  match found with
  | .ok dir => startService a log t s (s.sources a.environment name o.fromStart dir) refusals scene
  | .error (.managerNotFound name ini) =>
    launch (abort t ("Error mirroring queue manager error logs: " ++
      (Failure.managerNotFound name ini).message) scene)
  | .error f => launch (scene, .failed f)

/-- Checks the settings, and starts. -/
def startChecked (o : Options) (a : Ambience) (s : Settings) (refusals : Refusals) (scene : Scene) :
    Launch :=
  let launch (log : Option LogSettings) (result : Scene × Start) : Launch :=
    { environment := a.environment, log, scene := result.1, start := result.2 }
  match s.logSettings o.name o.format with
  | .ok log =>
    let t : Terminator := { paths := s.paths, debug := log.debug }
    match s.validate with
    | .ok _ => startSources o a log t s refusals scene
    | .error f => launch (some log) (abort t f.message scene)
  | .error (.configuration m _) =>
    match s.logIn .basic o.name with
    | .ok log => launch (some log) (abort { paths := s.paths, debug := log.debug } m scene)
    | .error f => launch none (scene, .failed f)
  | .error f => launch none (scene, .failed f)

/-- Starts the program with some options. -/
def start (o : Options) (a : Ambience) (refusals : Refusals) (scene : Scene) : Launch :=
  match Settings.boot scene.disk a.environment with
  | (environment, .ok s) => startChecked o { a with environment } s refusals scene
  | (environment, .error f) => { environment, log := none, scene, start := .failed f }

/-! ### Running -/

/-- The totals at the end, as they are reported. -/
def totals (p : Program) (a : Ambience) : Notice :=
  .totals (({ tally := p.service.tally, started := p.started } : Metrics).summary a.now).2

/-- The end of the program after that of the service: a failure is recorded, and the totals are
reported in any case. -/
def conclude (p : Program) (a : Ambience) (e : Ended) (scene : Scene) :
    Terminator × Scene × Except Failure Nat :=
  let (t, scene, result) : Terminator × Scene × Except Failure Nat :=
    match e with
    | .stopped => (p.terminator, scene, .ok 0)
    | .failed (.source name cause) => record p.terminator (Failure.source name cause).message scene
    | .failed f => (p.terminator, scene, .error f)
  (t, { scene with notices := scene.notices ++ [p.totals a] }, result)

/-- What a step comes to. -/
structure Turn where
  program : Program
  scene : Scene
  output : Text
  /-- The status or failure the program ended with, if it did. -/
  result : Option (Except Failure Nat)

/-- Ends the program if the service has ended. -/
def settle (p : Program) (a : Ambience) (output : Text) (scene : Scene) : Turn :=
  match p.service.ended with
  | some e =>
    let (terminator, scene, result) := p.conclude a e scene
    ⟨{ p with terminator }, scene, output, some result⟩
  | none => ⟨p, scene, output, none⟩

/-- One poll of every followed log. -/
def advance (p : Program) (a : Ambience) (scene : Scene) : Turn :=
  let (service, r) := p.service.advance ⟨scene.disk, context p.log a⟩ []
  { p with service }.settle a r.output { scene with notices := scene.notices ++ r.notices }

/-- Stops the program. -/
def stop (p : Program) (a : Ambience) (scene : Scene) : Turn :=
  let (service, ns) := p.service.stop
  { p with service }.advance a { scene with notices := scene.notices ++ ns }

end Program

end LogRelay
