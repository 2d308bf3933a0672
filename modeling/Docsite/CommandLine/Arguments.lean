import Docsite.Log
import Docsite.Text.Search

/-!
# Docsite.CommandLine.Arguments

What the words of a command line ask for.

A word that begins with a dash is an option unless it is a lone dash, a negative number,
or has a space in it without naming an option; after `--` no word is one.  Options may be
cut short as long as one option alone begins that way, and the value of an option is the
next word or what follows an equals sign.  The words are read in order, and the first
that does not fit, or that asks for the version or for help, settles the outcome.
-/

namespace Docsite.CommandLine

/-- What the program is asked to do. -/
structure Arguments where
  outputDir : String
  source : String := "node_modules/stylelint"
  keepGoing : Bool := false
  logLevel : Log.Level := .warning
  logFile : Option String := none
  trace : Bool := false
  deriving DecidableEq, Repr

/-- What a command line comes to. -/
inductive Reading where
  | run (arguments : Arguments)
  | showVersion
  | showHelp
  /-- The words do not fit. -/
  | usage
  deriving DecidableEq, Repr

/-- The options. -/
inductive Flag where
  | help
  | source
  | keepGoing
  | logLevel
  | logFile
  | trace
  | version
  deriving DecidableEq, Repr

/-- The words that name options. -/
def flagNames : List (String × Flag) :=
  [("-h", .help), ("--help", .help), ("--source", .source), ("--keep-going", .keepGoing),
   ("--log-level", .logLevel), ("--log-file", .logFile), ("--trace", .trace),
   ("--version", .version)]

/-- Does the option have a value? -/
def Flag.takesValue : Flag → Bool
  | .source | .logLevel | .logFile => true
  | .help | .keepGoing | .trace | .version => false

/-! ## words -/

/-- What a word is. -/
inductive Word where
  | plain (text : String)
  /-- The mark behind which no word is an option. -/
  | endOfOptions
  /-- An option, with the value in the same word if there is one. -/
  | option (flag : Flag) (value : Option String)
  /-- A word that looks like an option and names none. -/
  | unknown
  deriving DecidableEq, Repr

/-- Digits with at most one point among them, and a digit last. -/
def looksNegative (s : List Char) : Bool :=
  match s with
  | '-' :: ds =>
    match ds.dropWhile Char.isDigit with
    | [] => !ds.isEmpty
    | '.' :: fs => !fs.isEmpty && fs.all Char.isDigit
    | _ => false
  | _ => false

/-- The name and the value of a word that is cut at its first equals sign. -/
def splitValue (s : List Char) : List Char × Option (List Char) :=
  match s.dropWhile (· != '=') with
  | _ :: value => (s.takeWhile (· != '='), some value)
  | [] => (s, none)

/-- The options that a word may stand for, with its value: those that begin with it, or
the option of its first two characters with the rest as value. -/
def candidates (s : List Char) : List Word :=
  match s with
  | '-' :: '-' :: _ =>
    let (name, value) := splitValue s
    (flagNames.filter fun (n, _) => name.isPrefixOf n.toList).map fun (_, flag) =>
      .option flag (value.map String.ofList)
  | _ =>
    flagNames.filterMap fun (n, flag) =>
      if n.toList = s.take 2 then some (.option flag (some (.ofList (s.drop 2))))
      else if s.isPrefixOf n.toList then some (.option flag none)
      else none

/-- What a word before `--` is; nothing if it may stand for several options. -/
def word? (text : String) : Option Word :=
  let s := text.toList
  match s with
  | [] => some (.plain text)
  | ['-'] => some (.plain text)
  | '-' :: _ =>
    match flagNames.lookup text with
    | some flag => some (.option flag none)
    | none =>
      let exactly : Option Word :=
        match splitValue s with
        | (name, some value) =>
          (flagNames.lookup (.ofList name)).map fun flag => .option flag (some (.ofList value))
        | (_, none) => none
      match exactly, candidates s with
      | some w, _ => some w
      | none, [w] => some w
      | none, _ :: _ => none
      | none, [] =>
        if looksNegative s || s.contains ' ' then some (.plain text) else some .unknown
  | _ => some (.plain text)

/-- What the words of a command line are; nothing if one of them is ambiguous. -/
def words? : List String → Option (List Word)
  | [] => some []
  | "--" :: rest => some (.endOfOptions :: rest.map .plain)
  | text :: rest =>
    match word? text, words? rest with
    | some w, some ws => some (w :: ws)
    | _, _ => none

/-! ## reading -/

/-- What has been read so far. -/
structure Progress where
  outputDir : Option String := none
  /-- A word was met that fits nowhere. -/
  extra : Bool := false
  source : String := "node_modules/stylelint"
  keepGoing : Bool := false
  logLevel : Log.Level := .warning
  logFile : Option String := none
  trace : Bool := false

/-- The outcome when no word is left. -/
def Progress.finish (p : Progress) : Reading :=
  match p.outputDir, p.extra with
  | some outputDir, false =>
    .run ⟨outputDir, p.source, p.keepGoing, p.logLevel, p.logFile, p.trace⟩
  | _, _ => .usage

/-- Take a word that is no option. -/
def Progress.takePlain (p : Progress) (text : String) : Progress :=
  match p.outputDir with
  | none => { p with outputDir := some text }
  | some _ => { p with extra := true }

/-- Take the value of an option; nothing if the option does not have such a value. -/
def Progress.takeValue? (p : Progress) (flag : Flag) (value : String) : Option Progress :=
  match flag with
  | .source => some { p with source := value }
  | .logLevel => (Log.Level.ofName? value).map fun level => { p with logLevel := level }
  | .logFile => some { p with logFile := some value }
  | .help | .keepGoing | .trace | .version => none

/-- Take an option without a value, or the outcome that it settles. -/
def Progress.takeFlag (p : Progress) : Flag → Except Reading Progress
  | .keepGoing => .ok { p with keepGoing := true }
  | .trace => .ok { p with trace := true }
  | .version => .error .showVersion
  | .help => .error .showHelp
  | .source | .logLevel | .logFile => .error .usage

/-- The words behind the end of the options: one is the output directory if there is none
yet, and every further one is too many. -/
def Progress.takeRest (p : Progress) (ws : List Word) : Progress :=
  ws.foldl (fun p w => match w with
    | .plain text => p.takePlain text
    | _ => p) p

/-- Read the words in order. -/
def Progress.read (p : Progress) : List Word → Reading
  | [] => p.finish
  | .plain text :: ws => (p.takePlain text).read ws
  | .endOfOptions :: ws => (p.takeRest ws).finish
  | .unknown :: ws => { p with extra := true }.read ws
  | .option flag none :: ws =>
    if flag.takesValue then
      match ws with
      | .plain value :: ws =>
        match p.takeValue? flag value with
        | some p => p.read ws
        | none => .usage
      | _ => .usage
    else
      match p.takeFlag flag with
      | .ok p => p.read ws
      | .error reading => reading
  | .option flag (some value) :: ws =>
    match p.takeValue? flag value with
    | some p => p.read ws
    | none => if flag = .help ∧ value.toList.all (· == 'h') ∧ value ≠ "" then .showHelp else .usage

/-- What a command line comes to. -/
def read (args : List String) : Reading :=
  match words? args with
  | some ws => Progress.read {} ws
  | none => .usage

end Docsite.CommandLine
