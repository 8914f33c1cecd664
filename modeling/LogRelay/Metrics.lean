import LogRelay.Tally

/-!
# Metrics

The counters, the number of followers at work and the time since the start, as samples that are read
by name and labels (`Metrics.sample`), and the totals that are reported at the end
(`Metrics.summary`).
-/

namespace LogRelay

/-- What is measured. -/
structure Metrics where
  tally : Tally := []
  /-- How many followers are at work. -/
  active : Int := 0
  /-- The time at the start, in seconds. -/
  started : Double
  /-- The time since the start as it was last looked at. -/
  uptime : Double := .finite false 0 0

namespace Metrics

/-- What the names of all samples begin with. -/
def sampleStart : Text := "mqlogmirror_"

/-- The version of the service. -/
def version : Text := "0.1.0"

/-- The labels of the sample that describes the service, in ascending order of the names. -/
def serviceLabels : List (Text × Text) := [("service", "mqlogmirror"), ("version", version)]

/-- Raises a counter. -/
def raise (m : Metrics) (c : Counter) : Metrics := { m with tally := m.tally.raise c }

/-- All samples with their labels. -/
def samples (m : Metrics) : List (Text × List (Text × Text) × Double) :=
  let counted := m.tally.map fun (c, n) =>
    (sampleStart ++ c.family ++ ("_total" : Text), c.labels, Double.ofInt n)
  let single (name : Text) (labels : List (Text × Text)) (value : Double) :
      Text × List (Text × Text) × Double := (sampleStart ++ name, labels, value)
  counted ++ [single "tailers_active" [] (.ofInt m.active), single "uptime_seconds" [] m.uptime,
    single "service_info" serviceLabels (.ofInt 1)]

/-- The value of a sample; labels are given in ascending order of their names, and a sample that is
not there has the value zero.  A zero has no sign. -/
def sample (m : Metrics) (name : Text) (labels : List (Text × Text)) : Double :=
  match m.samples.find? fun (n, ls, _) => n == name && ls == labels with
  | some (_, _, value) => if value.isZero then .finite false 0 0 else value
  | none => .finite false 0 0

/-- The totals at a time. -/
def summary (m : Metrics) (now : Double) : Metrics × List (Text × Json) :=
  let uptime := now.sub m.started
  let time : Text × Json := ("uptime_seconds", .float uptime)
  ({ m with uptime }, m.tally.totals ++ [time])

end Metrics

end LogRelay
