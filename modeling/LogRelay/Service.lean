import LogRelay.Follower.Basic
import LogRelay.Pipeline
import LogRelay.Settings.Tail

/-!
# The service

All sources are followed side by side: in a step every follower takes one poll, in the order of the
sources.  The first follower that fails stops the others within the same step, and its failure
becomes that of the service; asked to stop, all followers end without another poll.
-/

namespace LogRelay

/-- How far following a source has come. -/
inductive Progress where
  | running
  | ended
  | failed (f : Failure)

/-- A source that is followed. -/
structure Member where
  follower : Follower
  progress : Progress

/-- The source of a member. -/
def Member.source (m : Member) : Source := m.follower.source

/-- Whether a member is still followed. -/
def Member.isRunning (m : Member) : Bool :=
  match m.progress with
  | .running => true
  | _ => false

/-- How the service ended. -/
inductive Ended where
  | stopped
  | failed (f : Failure)

/-- The running service. -/
structure Service where
  members : List Member
  /-- The calls of all followers that will be refused. -/
  refusals : Refusals
  /-- Whether the service was asked to stop. -/
  stopping : Bool
  /-- Whether it is the task itself that was cancelled. -/
  cancelled : Bool
  ended : Option Ended
  tally : Tally

/-- What happened in a part of a step. -/
structure Report where
  notices : List Notice := []
  /-- The texts that were written to the console, each in one piece. -/
  writes : List Text := []
  counters : List Counter := []

/-- One report after another. -/
def Report.append (a b : Report) : Report :=
  ⟨a.notices ++ b.notices, a.writes ++ b.writes, a.counters ++ b.counters⟩

/-- The text that reached the console. -/
def Report.output (r : Report) : Text := r.writes.flatten

namespace Service

/-- What there is around the service in a step. -/
structure Surroundings where
  disk : Disk
  context : Pipeline.Context

/-- A line is taken unless it cannot be written. -/
def taker (ctx : Pipeline.Context) (source : Source) : Taker := fun line =>
  match (Pipeline.process ctx source line).verdict with
  | .refused e => some (.unencodable e)
  | _ => none

/-- What an event of a follower leads to. -/
def reportEvent (ctx : Pipeline.Context) (f : Follower) (e : FollowEvent) : Report :=
  match e with
  | .line t | .lineRefused t =>
    let o := Pipeline.process ctx f.source t
    ⟨o.notices, o.writes, o.counters f.source⟩
  | e => ⟨(e.notice? f.source f.limit).toList, [], (e.counter? f.source).toList⟩

/-- What the events of a follower lead to. -/
def reportEvents (ctx : Pipeline.Context) (f : Follower) (es : List FollowEvent) : Report :=
  let rs := es.map (reportEvent ctx f)
  ⟨rs.flatMap (·.notices), rs.flatMap (·.writes), rs.flatMap (·.counters)⟩

/-- Ends the work on a member. -/
def finish (run : Run) (progress : Progress) : Member × Run :=
  let run := Follower.stop run
  (⟨run.follower, progress⟩, run)

/-- One poll of a member that is still followed, or its end. -/
def stepMember (sur : Surroundings) (stopping : Bool) (begun : List FollowEvent) (m : Member)
    (refusals : Refusals) : Member × Refusals × Report :=
  if !m.isRunning then (m, refusals, {})
  else
    let run : Run := { follower := m.follower, refusals, events := begun }
    let (m, run) :=
      if stopping then finish run .ended
      else
        let view := sur.disk.view m.source.path.text
        let p := Follower.poll view (taker sur.context m.source) run
        match p.ending with
        | .fails f => finish p.run (.failed f)
        | _ => (⟨p.run.follower, .running⟩, p.run)
    (m, run.refusals, reportEvents sur.context run.follower run.events.reverse)

/-- One poll of every member. -/
def stepMembers (sur : Surroundings) (stopping : Bool) (begun : List FollowEvent) :
    List Member → Refusals → List Member × Refusals × Report
  | [], refusals => ([], refusals, {})
  | m :: rest, refusals =>
    let (m, refusals, r) := stepMember sur stopping begun m refusals
    let (rest, refusals, r') := stepMembers sur stopping begun rest refusals
    (m :: rest, refusals, r.append r')

/-- The members whose failure counts, by name: of several with one name the last. -/
def tracked (members : List Member) : List (Text × Member) :=
  Json.collapse (members.map fun m => (m.source.name, m))

/-- The failures that count, with the names of the sources. -/
def failures (members : List Member) : List (Text × Failure) :=
  (tracked members).filterMap fun (name, m) =>
    match m.progress with
    | .failed f => some (name, f)
    | _ => none

/-- The service with its counters raised. -/
def count (s : Service) (r : Report) : Service := { s with tally := s.tally.raiseAll r.counters }

/-- What follows from the polls of a step. -/
def settle (sur : Surroundings) (s : Service) (r : Report) : Service × Report :=
  if s.stopping then
    if s.cancelled then ({ s with ended := some (.failed .cancelled) }, r)
    else ({ s with ended := some .stopped }, r.append { notices := [.serviceStopped] })
  else
    match failures s.members with
    | [] => (s, r)
    | (name, f) :: _ =>
      let (members, refusals, r') := stepMembers sur true [] s.members s.refusals
      let notices : List Notice := [.sourceFailed name f.message f.kind, .serviceStopping]
      let later : List Notice := (failures s.members).map fun (name, f) =>
        .failedWhileStopping name f.message
      ({ s with members, refusals, stopping := true, ended := some (.failed (.source name f)) },
        ((r.append { notices }).append r').append { notices := later })

/-- One poll of every member and what follows from it. -/
def advance (sur : Surroundings) (begun : List FollowEvent) (s : Service) : Service × Report :=
  if s.ended.isSome then (s, {})
  else
    let (members, refusals, r) := stepMembers sur s.stopping begun s.members s.refusals
    let (s, r) := settle sur { s with members, refusals } r
    (s.count r, r)

/-- The notice that a service is set up. -/
def readyNotice (sources : List Source) (settings : TailSettings) : Notice :=
  .serviceReady (sources.map (·.name)) settings.pollSeconds

/-- A service over some sources that has not polled yet. -/
def ofSources (sources : List Source) (settings : TailSettings) : Service where
  members := sources.map fun source => ⟨{ source, limit := settings.maxFailures }, .running⟩
  refusals := .none
  stopping := false
  cancelled := false
  ended := none
  tally := []

/-- Starts to follow all sources; without sources there is nothing to do. -/
def start (sur : Surroundings) (s : Service) : Service × Report :=
  let notices : List Notice := [.serviceStarted (tracked s.members).length]
  match s.members with
  | [] => ({ s with ended := some .stopped }, { notices })
  | _ =>
    let (s, r) := advance sur [.started] s
    (s, Report.append { notices } r)

/-- Asks the service to stop. -/
def stop (s : Service) : Service × List Notice :=
  ({ s with stopping := true }, if s.stopping then [] else [.serviceStopping])

/-- Cancels the service. -/
def cancel (s : Service) : Service × List Notice :=
  ({ s with stopping := true, cancelled := true }, if s.stopping then [] else [.serviceStopping])

/-- Whether the service runs. -/
def isRunning (s : Service) : Bool := s.ended.isNone

/-- How many followers are at work. -/
def active (s : Service) : Nat := (s.members.filter Member.isRunning).length

end Service

end LogRelay
