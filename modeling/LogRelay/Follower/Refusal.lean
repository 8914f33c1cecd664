import LogRelay.Errno

/-!
# Refused calls

The calls a follower makes on its file can be refused by the operating system.  A schedule lists for
each kind of call what the next calls come to; calls behind the last one listed pass.
-/

namespace LogRelay

/-- The kinds of calls a follower makes. -/
inductive CallKind where
  | openFile
  /-- Reading the first octets, to recognise the file by. -/
  | readHead
  /-- Reading the next octets. -/
  | readNext
  | seek
  /-- Asking what is at the path. -/
  | stat
  /-- Closing, which is done even if it is refused. -/
  | close
deriving DecidableEq

/-- A call that was made, with the error it was refused with if it was. -/
structure Call where
  kind : CallKind
  refusal : Option Errno
deriving DecidableEq

/-- When calls of one kind are refused. -/
structure Refusal where
  /-- How many calls pass first. -/
  passing : Nat
  /-- How many calls are refused then. -/
  refused : Nat
  errno : Errno

/-- What the calls come to that a rule speaks of. -/
def Refusal.outcomes (r : Refusal) : List (Option Errno) :=
  List.replicate r.passing none ++ List.replicate r.refused (some r.errno)

/-- What the next calls of each kind come to: the errors they are refused with, where they are. -/
structure Refusals where
  next : CallKind → List (Option Errno)

namespace Refusals

/-- No call is refused. -/
def none : Refusals := ⟨fun _ => []⟩

/-- The schedule with other outcomes for the calls of a kind. -/
def schedule (rs : Refusals) (kind : CallKind) (outcomes : List (Option Errno)) : Refusals :=
  ⟨fun k => if k = kind then outcomes else rs.next k⟩

/-- Sets when calls of a kind are refused. -/
def set (rs : Refusals) (kind : CallKind) (r : Refusal) : Refusals := rs.schedule kind r.outcomes

/-- Makes a call of a kind: the error it is refused with, and the schedule after it. -/
def ask (rs : Refusals) (kind : CallKind) : Option Errno × Refusals :=
  match rs.next kind with
  | [] => (Option.none, rs)
  | outcome :: rest => (outcome, rs.schedule kind rest)

/-- How many of the calls that a look at how the open file begins consists of are listed. -/
def looks (rs : Refusals) : Nat := (rs.next .seek).length + (rs.next .readHead).length

end Refusals

end LogRelay
