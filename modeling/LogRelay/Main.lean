import LogRelay.Program
import Std.Time

/-!
# Running the program

The outer layer: files, variables, the clock and the standard streams.  Before each poll the files
that matter are read into a `Disk`, where one that begins as before has grown and any other one is
new.  Diagnostic commands are not run here and count as refused.
-/

namespace LogRelay.Main

/-- A text for the system. -/
def systemText (t : Text) : String := t.toString?.getD ""

/-- Writes a text to a stream. -/
def put (stream : IO.FS.Stream) (t : Text) : IO Unit := do
  stream.write (ByteArray.mk (t.flatMap Utf8.encodePoint).toArray)
  stream.flush

/-- The time as it stands in the process log. -/
def stamp : IO Text := do
  let time := Std.Time.DateTime.ofTimestamp (← Std.Time.Timestamp.now) .UTC
  return time.format "uuuu-MM-dd'T'HH:mm:ss.SSSSSS'Z'"

/-- Writes notices to the standard error. -/
def report (log : Option LogSettings) (ns : List Notice) : IO Unit := do
  match log with
  | some log => put (← IO.getStderr) (ProcessLog.text log (← stamp) ns)
  | none => pure ()

/-- The variables that the program reads. -/
def variableNames : List Text :=
  let inGroup (group : Text) (names : List Text) : List Text := names.map fun n => group ++ n.upper
  [SettingsFile.pathVariable, Settings.replacedVariable, "LOG_FORMAT", "TAIL", "PATHS"] ++
    inGroup TailSettings.group TailSettings.names ++
    inGroup PathSettings.group PathSettings.names ++
    SettingsFile.mappings.map (·.variableName)

/-- The environment as far as the program reads it. -/
def environment : IO Environment := do
  variableNames.foldlM (fun env name => do
    match ← IO.getEnv (systemText name) with
    | some value => return env.set name value
    | none => return env) ⟨[]⟩

/-- The octets at a path, `none` within if that is a directory. -/
def contents (path : Text) : IO (Option (Option Bytes)) := do
  try
    return some (some (← IO.FS.readBinFile (systemText path)).toList)
  catch
    | .inappropriateType .. => return some none
    | _ => return none

/-- Takes over what is at a path. -/
def observe (disk : Disk) (path : Text) : IO Disk := do
  let update (r : Except Errno Disk) : Disk := r.toOption.getD disk
  let known := (disk.read path).toOption
  match ← contents path, known with
  | some (some bytes), some old =>
    if bytes = old then return disk
    else if old.isPrefixOf bytes then return update (disk.append path (bytes.drop old.length))
    else return update (disk.replace path bytes)
  | some (some bytes), none => return update (disk.makeParents path >>= (·.write path bytes))
  | some none, _ => return update (disk.makeDirectories (Path.ofText path))
  | none, _ => return update (disk.remove path)

/-- Takes over what is at some paths. -/
def observeAll (disk : Disk) (paths : List Text) : IO Disk := paths.foldlM observe disk

/-- The paths of the logs that a service follows. -/
def followedPaths (s : Service) : List Text := s.members.map (·.source.path.text)

/-- Takes over the list of queue managers, and the directory of the record for one that can be
written to. -/
def observeSettings (disk : Disk) (s : Settings) : IO Disk := do
  let disk ← observe disk s.paths.mqsIni.text
  return (disk.makeParents s.paths.terminationLog.text).toOption.getD disk

/-- Writes the termination record where the program left one. -/
def writeRecord (path : Path) (disk : Disk) : IO Unit := do
  match disk.read path.text with
  | .ok bytes =>
    try
      IO.FS.writeBinFile (systemText path.text) (ByteArray.mk bytes.toArray)
    catch _ => pure ()
  | .error _ => pure ()

/-- The milliseconds in some seconds. -/
def milliseconds (seconds : Double) : UInt32 :=
  match seconds.ratio? with
  | some (num, den) => (1000 * num / den).toNat.toUInt32
  | none => 0

/-- Polls until the program ends. -/
partial def loop (a : Ambience) (pollSeconds : Double) (t : Program.Turn) :
    IO (Except Failure Nat) := do
  put (← IO.getStdout) t.output
  report (some t.program.log) t.scene.notices
  match t.result with
  | some r =>
    writeRecord t.program.terminator.paths.terminationLog t.scene.disk
    return r
  | none =>
    IO.sleep (milliseconds pollSeconds)
    let disk ← observeAll t.scene.disk (followedPaths t.program.service)
    let now := Double.ofRatio false (← IO.monoMsNow) 1000
    let a := { a with now }
    loop a pollSeconds (t.program.advance a { t.scene with disk, notices := [] })

/-- Starts the program.  What a first start would follow is taken over before the one that
counts. -/
def launch (o : Options) (a : Ambience) (disk : Disk) : IO Launch := do
  let start (disk : Disk) : Launch :=
    Program.start o a .none { disk, runner := [.refused .permission] }
  match (start disk).start with
  | .running p => return start (← observeAll disk (followedPaths p.service))
  | _ => return start disk

/-- Runs the program with some options. -/
def run (o : Options) : IO (Except Failure Nat) := do
  let host : Filter.HostName := (← IO.getEnv "HOSTNAME").elim (.error ⟨.inputOutput, none⟩) (.ok ·)
  let a : Ambience := ⟨← environment, host, Double.ofRatio false (← IO.monoMsNow) 1000, false⟩
  let disk ← observeAll Disk.empty (SettingsFile.candidates a.environment)
  let settings := (Settings.boot disk a.environment).2.toOption
  let disk ← settings.elim (pure disk) (observeSettings disk)
  let l ← launch o a disk
  match l.start with
  | .running p =>
    let tail := settings.elim TailSettings.default (·.tail)
    loop { a with environment := l.environment } tail.pollSeconds (p.settle a l.output l.scene)
  | .ended status =>
    report l.log l.scene.notices
    settings.elim (pure ()) fun s => writeRecord s.paths.terminationLog l.scene.disk
    return .ok status
  | .failed f =>
    report l.log l.scene.notices
    return .error f

end LogRelay.Main

/-- The entry point. -/
def main (arguments : List String) : IO UInt32 := do
  match LogRelay.Options.parse (arguments.map LogRelay.Text.ofString) with
  | .error e =>
    LogRelay.Main.put (← IO.getStdout) e.output
    LogRelay.Main.put (← IO.getStderr) e.errors
    return e.status.toUInt32
  | .ok o =>
    match ← LogRelay.Main.run o with
    | .ok status => return status.toUInt32
    | .error f =>
      LogRelay.Main.put (← IO.getStderr) (f.kind ++ ": " ++ f.message ++ "\n")
      return 1
