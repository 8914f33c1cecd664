import LogRelay.Notice
import LogRelay.Tally

/-!
# What a follower does

The events of following one file, in order: from them come the delivered lines, the notices and the
counters.
-/

namespace LogRelay

/-- Something that happens while a file is followed. -/
inductive FollowEvent where
  | started
  /-- Nothing is at the path. -/
  | awaiting
  | opened (offset : Nat)
  /-- A call was refused, for the `attempt`th time in a row. -/
  | refused (error : Text) (attempt : Nat)
  /-- The file is seen to be another one, or to be cut. -/
  | noticed (reason : Reopening)
  /-- Reading begins at the start again. -/
  | reopened (reason : Reopening)
  | line (text : Text)
  /-- A line was offered and could not be taken. -/
  | lineRefused (text : Text)
  | closeRefused (error : Text)
  | stopped

namespace FollowEvent

/-- The line that was delivered. -/
def line? : FollowEvent → Option Text
  | line t => some t
  | _ => none

/-- The counter that an event raises. -/
def counter? (source : Source) : FollowEvent → Option Counter
  | reopened reason => some (.fileReopens source.name reason.name)
  | _ => none

/-- The notice of an event, for a follower that gives up at `limit` failures. -/
def notice? (source : Source) (limit : Int) (e : FollowEvent) : Option Notice :=
  let path := source.path.text
  match e with
  | started => some (.followerStarting source.name path source.fromStart)
  | awaiting => some (.awaitingFile source.name path)
  | opened offset => some (.fileOpened source.name path offset)
  | refused error attempt => some (.accessFailed source.name path error attempt limit)
  | noticed reason => some (.fileReopened source.name path reason)
  | reopened _ | line _ | lineRefused _ => none
  | closeRefused error => some (.closeFailed path error)
  | stopped => some (.followerStopped source.name path)

end FollowEvent

end LogRelay
