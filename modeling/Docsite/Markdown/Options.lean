/-!
# Docsite.Markdown.Options

How Markdown is read and how it is written.

Options change in steps: each step names the fields that it changes, and a step whose
outcome is not allowed leaves the options as they were (`WritingOptions.afterSteps`).
-/

namespace Docsite.Markdown

/-! ## reading -/

/-- Which extensions of the plain syntax are read. -/
structure ReadingOptions where
  tables : Bool := true
  strikethrough : Bool := true
  taskItems : Bool := true
  deriving DecidableEq, Repr

/-- New values for some of the reading options. -/
structure ReadingChange where
  tables : Option Bool := none
  strikethrough : Option Bool := none
  taskItems : Option Bool := none
  deriving DecidableEq, Repr

/-- The options after a change. -/
def ReadingOptions.change (o : ReadingOptions) (c : ReadingChange) : ReadingOptions where
  tables := c.tables.getD o.tables
  strikethrough := c.strikethrough.getD o.strikethrough
  taskItems := c.taskItems.getD o.taskItems

/-- The names of the extensions that are read, in the order in which they are loaded. -/
def ReadingOptions.extensions (o : ReadingOptions) : List String :=
  (if o.strikethrough then ["strikethrough"] else [])
    ++ (if o.tables then ["table"] else []) ++ (if o.taskItems then ["task_lists"] else [])

/-! ## writing -/

/-- The marks that a text is written with. -/
structure WritingOptions where
  /-- Put a backslash before characters that would be read as Markdown. -/
  escapeSpecial : Bool := true
  /-- What stands on both sides of emphasized text. -/
  emphasis : String := "*"
  /-- The bullets of lists, one for each depth, starting again after the last. -/
  bullets : String := "-"
  /-- What a code fence is made of. -/
  fence : String := "`"
  /-- The least number of marks in a code fence. -/
  fenceMin : Int := 3
  deriving DecidableEq, Repr

/-- New values for some of the writing options. -/
structure WritingChange where
  escapeSpecial : Option Bool := none
  emphasis : Option String := none
  bullets : Option String := none
  fence : Option String := none
  fenceMin : Option Int := none
  deriving DecidableEq, Repr

/-- Why writing options are not allowed. -/
inductive OptionFault where
  | noBullets
  | fenceTooShort (least : Int)
  deriving DecidableEq, Repr

/-- The wording of a fault. -/
def OptionFault.message : OptionFault → String
  | .noBullets => "bullet_symbols must contain at least one character"
  | .fenceTooShort least => "code_fence_min must be at least 3, got " ++ toString least

/-- The options with some fields replaced. -/
def WritingOptions.replace (o : WritingOptions) (c : WritingChange) : WritingOptions where
  escapeSpecial := c.escapeSpecial.getD o.escapeSpecial
  emphasis := c.emphasis.getD o.emphasis
  bullets := c.bullets.getD o.bullets
  fence := c.fence.getD o.fence
  fenceMin := c.fenceMin.getD o.fenceMin

/-- The options themselves if they have a bullet and fences of at least three marks. -/
def WritingOptions.check (o : WritingOptions) : Except OptionFault WritingOptions :=
  if o.bullets.isEmpty then .error .noBullets
  else if o.fenceMin < 3 then .error (.fenceTooShort o.fenceMin)
  else .ok o

/-- The options after a change, if they are allowed. -/
def WritingOptions.change (o : WritingOptions) (c : WritingChange) :
    Except OptionFault WritingOptions :=
  (o.replace c).check

/-- The answers to a sequence of changes; a change that is refused changes nothing. -/
def WritingOptions.steps (o : WritingOptions) :
    List WritingChange → List (Except OptionFault WritingOptions)
  | [] => []
  | c :: cs =>
    match o.change c with
    | .ok o' => .ok o' :: o'.steps cs
    | .error e => .error e :: o.steps cs

/-- The options in force after a sequence of changes. -/
def WritingOptions.afterSteps (o : WritingOptions) (cs : List WritingChange) : WritingOptions :=
  cs.foldl (fun o c => (o.change c).toOption.getD o) o

/-- The answers to a sequence of changes of the reading options. -/
def ReadingOptions.steps (o : ReadingOptions) : List ReadingChange → List ReadingOptions
  | [] => []
  | c :: cs => o.change c :: (o.change c).steps cs

end Docsite.Markdown
