import LogRelay.Filter
import LogRelay.Layout
import LogRelay.Tally

/-!
# From a line to the console

What becomes of one line: it is held back, written to the console, or cannot be written.  The
outcome lists everything that the line leaves behind, namely console text, notices and counters.
-/

namespace LogRelay.Pipeline

/-- What lines are judged by, apart from their source. -/
structure Context where
  format : Format
  environment : Environment
  host : Filter.HostName

/-- What becomes of a line. -/
inductive Verdict where
  | suppressed (reason : Suppression)
  | printed (text : Text)
  | refused (e : Utf8.EncodeError)

/-- What one line leaves behind. -/
structure Outcome where
  verdict : Verdict
  /-- Whether the line looked like a record and is none. -/
  decodeFailed : Bool
  notices : List Notice

/-- The failure of a line to be decoded, as it is reported. -/
def decodeNotices (source : Source) (line : Text) : Entry → List Notice
  | .undecodable reason => [.undecodable source.name (reason.message line) line]
  | _ => []

/-- The notice that the preferred layout was ruled out. -/
def layoutNotices (source : Source) (r : Layout.Rendering) : List Notice :=
  match r.fallback with
  | some e => [.layoutFallback source.name e.key]
  | none => []

/-- Writes a text to the console, if it can be encoded. -/
def write (text : Text) : Verdict :=
  match Utf8.firstSurrogates text with
  | some e => .refused e
  | none => .printed text

/-- Judges one line. -/
def process (ctx : Context) (source : Source) (line : Text) : Outcome :=
  let settings := FilterSettings.load ctx.environment
  match Filter.checkRaw settings line with
  | some reason => ⟨.suppressed reason, false, []⟩
  | none =>
    let entry := Entry.ofLine line
    let failures := decodeNotices source line entry
    let notices := failures ++ Filter.notices settings ctx.host source entry
    match Filter.checkDecoded settings ctx.host source entry with
    | some reason => ⟨.suppressed reason, !failures.isEmpty, notices⟩
    | none =>
      let r := Layout.render ctx.format line entry
      ⟨write r.text, !failures.isEmpty, notices ++ layoutNotices source r⟩

namespace Outcome

/-- The console text of a line, with its line end. -/
def output (o : Outcome) : Text :=
  match o.verdict with
  | .printed text => text ++ "\n"
  | _ => []

/-- What is written to the console for a line, in one piece. -/
def writes (o : Outcome) : List Text :=
  match o.verdict with
  | .printed _ => [o.output]
  | _ => []

/-- The counters a line raises. -/
def counters (o : Outcome) (source : Source) : List Counter :=
  .linesRead source.name ::
    ((if o.decodeFailed then [.decodeFailures source.name] else []) ++
      match o.verdict with
      | .suppressed reason => [.linesSuppressed source.name reason.name]
      | .printed _ => [.linesEmitted source.name]
      | .refused _ => [])

end Outcome

end LogRelay.Pipeline
