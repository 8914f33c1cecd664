import LogRelay.Disk.Contents
import LogRelay.Notice
import LogRelay.Settings.Paths

/-!
# Termination

A fatal error is recorded in a file for whoever supervises the process, reported, and, if notices of
all levels are written, followed by diagnostics.  Only the first of several errors is recorded, and
neither an unwritable record nor a failing command keeps the rest from being done.
-/

namespace LogRelay

/-- A diagnostic command.  Its errors go to where its output goes, and its status does not
matter. -/
structure Command where
  words : List Text
  /-- Where it runs, if not where the relay does. -/
  directory : Option Text
  /-- The seconds it may take. -/
  timeout : Double
deriving DecidableEq

/-- What comes of a command. -/
inductive CommandResult where
  | output (bytes : Option Bytes)
  /-- The system did not run the command. -/
  | refused (e : Errno)
  /-- The command was ended after some seconds. -/
  | timedOut (seconds : Number)
  /-- The command could not be run to its end for another reason, which is given in words. -/
  | broken (error : Text)
  /-- A failure of another kind, which nothing holds up. -/
  | failed (f : Failure)

/-- What will come of the next commands; the last result stands for all later commands. -/
abbrev Runner := List CommandResult

/-- The result of the next command, and the runner after it. -/
def Runner.next : Runner → CommandResult × Runner
  | [] => (.output none, [])
  | [r] => (r, [r])
  | r :: rest => (r, rest)

/-- What is around a termination: the files, the commands run and the notices given. -/
structure Scene where
  disk : Disk
  runner : Runner
  commands : List Command := []
  notices : List Notice := []

/-- The one place where fatal errors end. -/
structure Terminator where
  paths : PathSettings
  debug : Bool
  /-- The first error, once there has been one. -/
  message? : Option Text := none

namespace Terminator

/-- Something done at termination, which a failure can break off. -/
abbrev Act := EStateM Failure Scene

/-- Gives a notice. -/
def notify (n : Notice) : Act Unit := modify fun s => { s with notices := s.notices ++ [n] }

/-- The permissions of the record. -/
def recordMode : Nat := 0o660

/-- Writes the record; a refusal of the system is only noted. -/
def writeRecord (path : Path) (t : Text) : Act Unit := do
  let s ← get
  let (disk, failure) := s.disk.putText path.text t recordMode
  set { s with disk }
  match failure with
  | none => return ()
  | some (.io e) => notify (.recordUnwritable path.text e.message)
  | some f => throw f

/-- Notes that a command failed, and takes its output for empty. -/
def note (command : Command) (error : Text) : Act Text := do
  notify (.commandFailed command.words error)
  return []

/-- The output of a command; one that is not there or takes too long has none. -/
def capture (command : Command) : Act Text := do
  let s ← get
  let (result, runner) := Runner.next s.runner
  set { s with runner, commands := s.commands ++ [command] }
  match result with
  | .output bytes => return Utf8.decode (bytes.getD [])
  | .refused e => note command (Failure.io ⟨e, command.words.head?⟩).message
  | .timedOut seconds => note command (Failure.timeout command.words seconds).message
  | .broken error => note command error
  | .failed f => throw f

/-- Reports the output of a command under a title. -/
def diagnose (title : Text) (command : Command) : Act Unit := do
  let output ← capture command
  notify (.diagnosticsOutput title output)

/-- Reports the output of commands, each under its title. -/
def diagnoseAll : List (Text × Command) → Act Unit
  | [] => return ()
  | (title, command) :: commands => do
    diagnose title command
    diagnoseAll commands

/-- The diagnostic commands, with their titles: a listing of each directory, then a summary of
failure reports. -/
def diagnosticCommands (paths : PathSettings) : List (Text × Command) :=
  let listing (dir : Text) : Text × Command :=
    (dir, ⟨["ls", "-l", dir], none, paths.diagnosticsTimeout⟩)
  let summary : Text × Command :=
    ("ffstsummary", ⟨[paths.ffstsummary.text], some paths.errorsDir.text, paths.diagnosticsTimeout⟩)
  paths.diagnosticDirs.map listing ++ [summary]

/-- Reports diagnostics, if notices of all levels are written. -/
def diagnostics (t : Terminator) : Act Unit := do
  if t.debug then
    notify .diagnosticsBegin
    diagnoseAll (diagnosticCommands t.paths)
    notify .diagnosticsEnd

/-- What is done about the first fatal error. -/
def record (t : Terminator) (message : Text) : Act Unit := do
  notify (.recordingTermination message)
  writeRecord t.paths.terminationLog message
  notify (.terminated message)
  t.diagnostics

/-- Ends with a fatal error.  The first one counts even if what is done about it breaks off. -/
def terminate (t : Terminator) (message : Text) : Terminator × Act Unit :=
  match t.message? with
  | some _ => (t, notify (.alreadyTerminated message))
  | none => ({ t with message? := some message }, t.record message)

end Terminator

end LogRelay
