/-!
# Docsite.Log

The records that a run leaves behind.

A record has a level, the component that wrote it, and a message.  How records look as
lines is up to the one who shows them.
-/

namespace Docsite.Log

/-- The importance of a record, from the least to the greatest. -/
inductive Level where
  | debug
  | info
  | warning
  | error
  | critical
  deriving DecidableEq, Repr

/-- The name of a level. -/
def Level.name : Level → String
  | .debug => "DEBUG"
  | .info => "INFO"
  | .warning => "WARNING"
  | .error => "ERROR"
  | .critical => "CRITICAL"

/-- The levels in order. -/
def Level.rank : Level → Nat
  | .debug => 0
  | .info => 1
  | .warning => 2
  | .error => 3
  | .critical => 4

/-- The level with a name. -/
def Level.ofName? (name : String) : Option Level :=
  [Level.debug, .info, .warning, .error, .critical].find? (·.name == name)

/-- The parts of the program that write records. -/
inductive Component where
  | commandLine
  | generator
  | pipeline
  | passes
  | reader
  | frontMatter
  deriving DecidableEq, Repr

/-- The name of a component in a log. -/
def Component.name : Component → String
  | .commandLine => "md2docusaurus.cli"
  | .generator => "md2docusaurus.generator"
  | .pipeline => "md2docusaurus.transforms.pipeline"
  | .passes => "md2docusaurus.transforms.builtin"
  | .reader => "md2docusaurus.parsers.markdown"
  | .frontMatter => "md2docusaurus.utils.metadata"

/-- One record. -/
structure Record where
  level : Level
  component : Component
  message : String
  deriving DecidableEq, Repr

/-- How records are shown: the level and the message, or also the time and the
component. -/
inductive Layout where
  | brief
  | traced (time : String)
  deriving DecidableEq, Repr

/-- A record as a line, without a line feed at its end. -/
def Record.line (r : Record) : Layout → String
  | .brief => r.level.name ++ ": " ++ r.message
  | .traced time =>
    "[" ++ time ++ "] [" ++ r.level.name ++ "] [" ++ r.component.name ++ "] " ++ r.message

end Docsite.Log
