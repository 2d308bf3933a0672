import Docsite.Files.Path
import Docsite.Files.Utf8
import Docsite.Text.Quoted

/-!
# Docsite.Fault

What can go wrong, by cause.

A `Cause` is a failure of something outside: the file system, the decoding of a file, a
rewriter or a pass that the caller gave.  A `Fault` is a failure of a conversion; it may have a
cause, and it may name the file or the pass that it is about.  The class of a fault
settles the exit code of the program.
-/

namespace Docsite

open Files (Path)

/-! ## causes -/

/-- Why the file system refuses an operation. -/
inductive FileRefusal where
  | notFound
  | exists
  | notDirectory
  | isDirectory
  | invalidArgument
  deriving DecidableEq, Repr

namespace FileRefusal

/-- The number by which the system knows the refusal. -/
def code : FileRefusal → Nat
  | notFound => 2
  | .exists => 17
  | notDirectory => 20
  | isDirectory => 21
  | invalidArgument => 22

/-- The wording of the refusal. -/
def message : FileRefusal → String
  | notFound => "No such file or directory"
  | .exists => "File exists"
  | notDirectory => "Not a directory"
  | isDirectory => "Is a directory"
  | invalidArgument => "Invalid argument"

/-- The class of the refusal. -/
def className : FileRefusal → String
  | notFound => "FileNotFoundError"
  | .exists => "FileExistsError"
  | notDirectory => "NotADirectoryError"
  | isDirectory => "IsADirectoryError"
  | invalidArgument => "OSError"

end FileRefusal

/-- A failure outside the conversion. -/
inductive Cause where
  /-- The file system refused an operation on a path, which is shown as given. -/
  | file (refusal : FileRefusal) (shown : String)
  | decoding (error : Files.Utf8.DecodeError)
  /-- The tokenizer refused the text. -/
  | tokenizer (message : String)
  /-- A rewriter refused a URL. -/
  | rewriter (message : String)
  /-- A pass of the caller's own raised something. -/
  | raised (className message : String)
  deriving DecidableEq, Repr

/-- The wording of a cause. -/
def Cause.message : Cause → String
  | .file refusal shown => "[Errno " ++ toString refusal.code ++ "] " ++ refusal.message ++ ": " ++ shown
  | .decoding error => error.message
  | .tokenizer message => message
  | .rewriter message => message
  | .raised _ message => message

/-- The class of a cause. -/
def Cause.className : Cause → String
  | .file refusal _ => refusal.className
  | .decoding _ => "UnicodeDecodeError"
  | .tokenizer _ => "ValueError"
  | .rewriter _ => "RuntimeError"
  | .raised className _ => className

/-- A refusal that shows its path in quotes. -/
def Cause.onPath (refusal : FileRefusal) (path : String) : Cause :=
  .file refusal (.ofList (Text.quoted path.toList))

/-! ## faults -/

/-- The classes of faults. -/
inductive FaultClass where
  | general
  | file
  | parsing
  | missingTitle
  | transform
  | rendering
  | outputWrite
  deriving DecidableEq, Repr

namespace FaultClass

/-- The name of a class. -/
def name : FaultClass → String
  | general => "Md2DocusaurusError"
  | file => "FileError"
  | parsing => "ParsingError"
  | missingTitle => "MissingTitleError"
  | transform => "TransformError"
  | rendering => "RenderingError"
  | outputWrite => "OutputWriteError"

/-- A class and those it belongs to, the nearest first. -/
def ancestry : FaultClass → List FaultClass
  | general => [general]
  | file => [file, general]
  | parsing => [parsing, general]
  | missingTitle => [missingTitle, parsing, general]
  | transform => [transform, general]
  | rendering => [rendering, general]
  | outputWrite => [outputWrite, rendering, general]

/-- Do faults of the class name a file? -/
def namesFile : FaultClass → Bool
  | file | parsing | missingTitle | outputWrite => true
  | general | transform | rendering => false

/-- Do faults of the class name a pass? -/
def namesPass (c : FaultClass) : Bool := c == transform

/-- The exit code of a run that ends with a fault of the class. -/
def exitCode (c : FaultClass) : Nat :=
  if c.ancestry.contains file then 4
  else if c.ancestry.contains parsing then 6
  else if c.ancestry.contains rendering then 7
  else 1

end FaultClass

/-- A failed conversion. -/
inductive Fault where
  | sourceMissing (source : Path)
  | unreadable (source : Path) (cause : Cause)
  | logFile (path : String) (cause : Cause)
  | untokenized (cause : Cause)
  /-- The page, whose file may be known, has no title line. -/
  | missingTitle (file : Option String)
  | passFailed (pass : String) (cause : Cause)
  /-- A pass answered with something that is no document. -/
  | passAnswer (pass : String) (className : String)
  | resetFailed (output : Path) (cause : Cause)
  | writeFailed (destination : Path) (cause : Cause)
  | copyFailed (image destination : Path) (cause : Cause)
  /-- A fault with a wording of its own, perhaps about a file or a pass. -/
  | worded (faultClass : FaultClass) (message : String) (subject : Option String)
  deriving DecidableEq, Repr

namespace Fault

/-- The class of a fault. -/
def faultClass : Fault → FaultClass
  | sourceMissing _ | unreadable _ _ | logFile _ _ => .file
  | untokenized _ => .parsing
  | missingTitle _ => .missingTitle
  | passFailed _ _ | passAnswer _ _ => .transform
  | resetFailed _ _ | writeFailed _ _ | copyFailed _ _ _ => .outputWrite
  | worded c _ _ => c

/-- The wording of a fault. -/
def message : Fault → String
  | sourceMissing source => "Source directory not found: " ++ source.toString
  | unreadable source cause => "Failed to read " ++ source.toString ++ ": " ++ cause.message
  | logFile path cause => "Cannot open log file " ++ path ++ ": " ++ cause.message
  | untokenized cause => "Failed to tokenize Markdown: " ++ cause.message
  | missingTitle file =>
    "No top-level heading found"
      ++ (match file with
        | none | some "" => ""
        | some path => " in " ++ path)
  | passFailed pass cause => "Transform " ++ pass ++ " failed: " ++ cause.message
  | passAnswer pass className =>
    "Transform " ++ pass ++ " must return Document, got " ++ className
  | resetFailed output cause =>
    "Failed to reset output directory " ++ output.toString ++ ": " ++ cause.message
  | writeFailed destination cause =>
    "Failed to write " ++ destination.toString ++ ": " ++ cause.message
  | copyFailed image _ cause => "Failed to copy image " ++ image.toString ++ ": " ++ cause.message
  | worded _ message _ => message

/-- The failure outside that a fault goes back to. -/
def cause? : Fault → Option Cause
  | unreadable _ cause | logFile _ cause | untokenized cause | passFailed _ cause
  | resetFailed _ cause | writeFailed _ cause | copyFailed _ _ cause => some cause
  | sourceMissing _ | missingTitle _ | passAnswer _ _ | worded _ _ _ => none

/-- The file or the pass that a fault names. -/
def subject? : Fault → Option String
  | sourceMissing source | unreadable source _ => some source.toString
  | logFile path _ => some path
  | untokenized _ => none
  | missingTitle file => file
  | passFailed pass _ | passAnswer pass _ => some pass
  | resetFailed output _ => some output.toString
  | writeFailed destination _ => some destination.toString
  | copyFailed _ destination _ => some destination.toString
  | worded _ _ subject => subject

/-- The exit code of a run that ends with the fault. -/
def exitCode (f : Fault) : Nat := f.faultClass.exitCode

end Fault

end Docsite
