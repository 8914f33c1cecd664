import LogRelay.Notice

/-!
# Counters

What is counted, by source and reason.  A `Tally` holds the counters that were raised at least once,
in the order of their first raising.
-/

namespace LogRelay

/-- A counter with its labels. -/
inductive Counter where
  | linesRead (source : Text)
  | linesEmitted (source : Text)
  | linesSuppressed (source reason : Text)
  | decodeFailures (source : Text)
  | fileReopens (source reason : Text)
deriving DecidableEq

namespace Counter

/-- The families of counters, in the order in which totals are listed. -/
def families : List Text :=
  ["lines_read", "lines_emitted", "lines_suppressed", "decode_failures", "file_reopens"]

/-- The family a counter belongs to. -/
def family : Counter → Text
  | linesRead _ => "lines_read"
  | linesEmitted _ => "lines_emitted"
  | linesSuppressed .. => "lines_suppressed"
  | decodeFailures _ => "decode_failures"
  | fileReopens .. => "file_reopens"

/-- The labels of a counter by name, in ascending order of the names. -/
def labels : Counter → List (Text × Text)
  | linesRead source | linesEmitted source | decodeFailures source => [("source", source)]
  | linesSuppressed source reason | fileReopens source reason =>
    [("reason", reason), ("source", source)]

end Counter

/-- The counters that were raised, with their values. -/
abbrev Tally := List (Counter × Nat)

namespace Tally

/-- Raises a counter by one. -/
def raise (c : Counter) : Tally → Tally
  | [] => [(c, 1)]
  | (d, n) :: rest => if d = c then (d, n + 1) :: rest else (d, n) :: raise c rest

/-- Raises several counters. -/
def raiseAll (t : Tally) (cs : List Counter) : Tally := cs.foldl (fun t c => t.raise c) t

/-- The value of a counter. -/
def count (t : Tally) (c : Counter) : Nat := (List.lookup c t).getD 0

/-- The total of a family: the whole number zero if none of its counters was raised. -/
def total (t : Tally) (family : Text) : Json :=
  match t.filter fun (c, _) => c.family == family with
  | [] => .int 0
  | counted => .float (.ofInt (counted.foldl (fun sum c => sum + c.2) 0 : Nat))

/-- The totals of all families, under the names they are reported by. -/
def totals (t : Tally) : List (Text × Json) :=
  Counter.families.map fun family => ("mqlogmirror_" ++ family, t.total family)

end Tally

end LogRelay
