import LogRelay.Environment
import LogRelay.Text.Digit

/-!
# The command line

Options may be abbreviated as long as it is clear which one is meant, and give their value behind an
equals sign or as the next argument.  `Options.parse` reads the arguments; instead of options they
may lead to an `Exit`, with the help text or with what is wrong.
-/

namespace LogRelay

/-- What the program is called in its own texts. -/
def programName : Text := "mqlogmirror"

/-- What the command line asks for. -/
structure Options where
  /-- The queue manager whose log is followed, instead of the one in the settings. -/
  qmgr : Option Text := none
  fromStart : Bool := false
  /-- The name of the process in its log. -/
  name : Text := programName
  /-- The console format, instead of the one in the settings. -/
  format : Option Text := none
deriving DecidableEq

/-- An option. -/
inductive Flag where
  | help
  | qmgr
  | fromStart
  | name
  | format
deriving DecidableEq

namespace Flag

/-- All options. -/
def all : List Flag := [help, qmgr, fromStart, name, format]

/-- The long spelling of an option. -/
def long : Flag → Text
  | help => "--help"
  | qmgr => "--qmgr"
  | fromStart => "--from-start"
  | name => "--name"
  | format => "--format"

/-- How an option is called in error messages. -/
def title : Flag → Text
  | help => "-h/--help"
  | f => f.long

/-- Whether an option has a value. -/
def takesValue : Flag → Bool
  | help | fromStart => false
  | _ => true

end Flag

/-- What is wrong with a command line. -/
inductive UsageError where
  /-- An abbreviation of several options. -/
  | ambiguous (argument : Text) (flags : List Flag)
  /-- An option without its value. -/
  | missingValue (f : Flag)
  /-- A value for an option that has none. -/
  | ignoredValue (f : Flag) (value : Text)
  | unrecognized (arguments : List Text)
deriving DecidableEq

/-- What a command line leads to instead of options. -/
inductive Exit where
  | help
  | usage (e : UsageError)
deriving DecidableEq

/-- The wording of what is wrong. -/
def UsageError.message : UsageError → Text
  | ambiguous argument flags =>
    "ambiguous option: " ++ argument ++ " could match " ++
      Text.joinWith ", " (flags.map Flag.long)
  | missingValue f => "argument " ++ f.title ++ ": expected one argument"
  | ignoredValue f value => "argument " ++ f.title ++ ": ignored explicit argument " ++ value.quoted
  | unrecognized arguments => "unrecognized arguments: " ++ Text.joinWith " " arguments

namespace Exit

/-- The synopsis of the command line. -/
def synopsis : Text :=
  "usage: mqlogmirror [-h] [--qmgr QMGR] [--from-start] [--name NAME]\n" ++
  "                   [--format FORMAT]\n"

/-- The help text. -/
def helpText : Text :=
  synopsis ++ "\nMirror MQ, htpasswd and web server logs to standard output\n\noptions:\n" ++
  "  -h, --help       show this help message and exit\n" ++
  "  --qmgr QMGR      Queue manager whose error log is mirrored (default:\n" ++
  "                   MQ_QMGR_NAME)\n" ++
  "  --from-start     Replay the queue manager error log from its start\n" ++
  "  --name NAME      Process name recorded in log output\n" ++
  "  --format FORMAT  Console format, overriding MQ_LOGGING_CONSOLE_FORMAT\n"

/-- The exit status. -/
def status : Exit → Nat
  | help => 0
  | usage _ => 2

/-- What is written to the standard output. -/
def output : Exit → Text
  | help => helpText
  | usage _ => []

/-- What is written to the standard error. -/
def errors : Exit → Text
  | help => []
  | usage e => synopsis ++ programName ++ ": error: " ++ e.message ++ "\n"

end Exit

/-- What an argument is, taken by itself. -/
inductive Argument where
  /-- An option, with its value if that stands behind an equals sign. -/
  | flag (f : Flag) (value : Option Text)
  /-- The short spelling of help with more letters behind it, or behind its equals sign. -/
  | shortHelp (more : Text)
  /-- What looks like an option but is none. -/
  | unknown
  | plain
  /-- The mark behind which there are no options. -/
  | mark
deriving DecidableEq

namespace Argument

/-- A text without the line feed that it may end with. -/
def withoutLineFeed (t : Text) : Text :=
  if t.getLast? == some ('\n' : CodePoint) then t.dropLast else t

/-- Whether a text is a negative number, in the digits of any script; one line feed may end it. -/
def isNegativeNumber (t : Text) : Bool :=
  match withoutLineFeed t with
  | [] => false
  | sign :: body =>
    sign = '-' &&
      match cutFirst ('.' : CodePoint) body with
      | none => !body.isEmpty && body.all Text.isAnyDigit
      | some (whole, places) =>
        whole.all Text.isAnyDigit && !places.isEmpty && places.all Text.isAnyDigit

/-- What a text that begins with a dash is if it is no option. -/
def notFlag (t : Text) : Argument :=
  if isNegativeNumber t || t.contains (' ' : CodePoint) then .plain else .unknown

/-- What a text is that begins with two dashes: the option it is the beginning of. -/
def ofLong (t : Text) : Except UsageError Argument :=
  let (spelling, value) : Text × Option Text :=
    match cutFirst ('=' : CodePoint) t with
    | some (a, b) => (a, some b)
    | none => (t, none)
  match Flag.all.find? fun f => f.long == spelling with
  | some f => .ok (.flag f value)
  | none =>
    match Flag.all.filter fun f => spelling.isPrefixOf f.long with
    | [] => .ok (notFlag t)
    | [f] => .ok (.flag f value)
    | flags => .error (.ambiguous t flags)

/-- What an argument is. -/
def ofText (t : Text) : Except UsageError Argument :=
  match t with
  | a :: b :: rest =>
    if a = '-' then
      if b = '-' then if rest.isEmpty then .ok .mark else ofLong t
      else if b = 'h' then
        match rest with
        | [] => .ok (.flag .help none)
        | c :: value =>
          if c = '=' then
            .ok (if value.isEmpty then .flag .help (some []) else .shortHelp value)
          else .ok (.shortHelp rest)
      else .ok (notFlag t)
    else .ok .plain
  | _ => .ok .plain

/-- What the arguments are; behind the mark all are plain. -/
def classify : List Text → Except UsageError (List (Text × Argument))
  | [] => .ok []
  | t :: rest =>
    match ofText t with
    | .error e => .error e
    | .ok .mark => .ok ((t, .mark) :: rest.map fun t => (t, .plain))
    | .ok a =>
      match classify rest with
      | .error e => .error e
      | .ok more => .ok ((t, a) :: more)

/-- What the letters behind the short spelling of help leave over: each may be that spelling
again. -/
def ignoredLetters? (letters : Text) : Option Text :=
  match letters.dropWhile (· == ('h' : CodePoint)) with
  | [] => none
  | rest => some rest

end Argument

namespace Options

/-- Sets what an option with a value is for. -/
def assign (o : Options) (f : Flag) (value : Text) : Options :=
  match f with
  | .qmgr => { o with qmgr := some value }
  | .name => { o with name := value }
  | .format => { o with format := some value }
  | .help | .fromStart => o

/-- Reads arguments from left to right; `extra` holds those that are not recognised, in reverse. -/
def read (o : Options) (extra : List Text) : List (Text × Argument) → Except Exit Options
  | [] => if extra.isEmpty then .ok o else .error (.usage (.unrecognized extra.reverse))
  | (_, .flag f (some value)) :: rest =>
    if f.takesValue then read (o.assign f value) extra rest
    else .error (.usage (.ignoredValue f value))
  | (_, .flag .help none) :: _ => .error .help
  | (_, .flag .fromStart none) :: rest => read { o with fromStart := true } extra rest
  | (_, .flag f none) :: (value, .plain) :: rest => read (o.assign f value) extra rest
  | (_, .flag f none) :: _ => .error (.usage (.missingValue f))
  | (_, .shortHelp more) :: _ =>
    match Argument.ignoredLetters? more with
    | some value => .error (.usage (.ignoredValue .help value))
    | none => .error .help
  | (t, _) :: rest => read o (t :: extra) rest

/-- The options that some arguments give. -/
def parse (arguments : List Text) : Except Exit Options :=
  match Argument.classify arguments with
  | .error e => .error (.usage e)
  | .ok classified => read {} [] classified

end Options

end LogRelay
