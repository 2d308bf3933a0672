import Docsite.Markdown.Render

/-!
# Docsite.Markdown.Writer

A writer that is used for one document after another.

The writer keeps its output, the depth of the lists around it and the place of texts from node to
node, and changes them on its way through a document: a container writes what is inside it into
an output of its own and puts it into the output around it with its marks; a list counts itself
while its items are written; a heading and a table row say so while their texts are written.
Before each document the writer starts afresh.

What it writes is what `render` says (`Docsite.Proofs.Markdown.Writer`).
-/

namespace Docsite.Markdown

open Document

/-- What a writer keeps from node to node. -/
structure Writer where
  /-- What is written so far, in the container at hand. -/
  output : List Char := []
  /-- The number of lists around the node at hand. -/
  depth : Nat := 0
  place : Place := {}
  deriving DecidableEq, Repr

namespace Writer

/-! ## steps -/

/-- Write a text behind the output. -/
def emit (text : List Char) : StateM Writer Unit :=
  modify fun w => { w with output := w.output ++ text }

/-- Begin a new output. -/
def clear : StateM Writer Unit := modify fun w => { w with output := [] }

/-- Say whether the texts that follow are in a heading. -/
def setHeading (inHeading : Bool) : StateM Writer Unit :=
  modify fun w => { w with place := { w.place with inHeading := inHeading } }

/-- Say whether the texts that follow are in a table cell. -/
def setCell (inCell : Bool) : StateM Writer Unit :=
  modify fun w => { w with place := { w.place with inCell := inCell } }

/-- Do something with outputs of its own, and come back to the output as it was. -/
def aside {α : Type} (act : StateM Writer α) : StateM Writer α := do
  let saved := (← get).output
  let a ← act
  modify fun w => { w with output := saved }
  pure a

/-! ## nodes -/

mutual

/-- Write a node behind the output. -/
def visit (o : WritingOptions) : Node → StateM Writer Unit
  | .leaf l => do emit (writeLeaf o (← get).place l)
  | .branch .root kids => do
    emit (joinBlocks (spacing false) (← aside (visitApart o kids)))
  | .branch (.heading level) kids => do
    setHeading true
    let content ← aside (visitInline o kids)
    setHeading false
    emit (List.replicate level.toNat '#' ++ ' ' :: content)
  | .branch .quote kids => do
    emit (quoteLines (joinBlocks (spacing false) (← aside (visitApart o kids))))
  | .branch (.list ordered start tight) kids => do
    let bullet := bulletAt o (← get).depth
    modify fun w => { w with depth := w.depth + 1 }
    let bodies ← visitItems o tight kids
    modify fun w => { w with depth := w.depth - 1 }
    emit ((spacing tight).intercalate (placeItems ordered start bullet 0 bodies))
  | .branch (.item task) kids => do
    let body := joinBlocks (spacing true) (← aside (visitApart o kids))
    emit (placeItem ['-', ' '] (taskBox task ++ body))
  | .branch (.table alignments) kids => do
    emit (Text.unlines (tableLines alignments (← visitRows o kids)))
  | .branch (.row _) kids => do
    setCell true
    let cells ← visitCells o kids
    setCell false
    emit (tableLine cells)
  | .branch .paragraph kids => do emit (← aside (visitInline o kids))
  | .branch (.cell _) kids => do emit (← aside (visitInline o kids))
  | .branch .emphasis kids => do
    let content ← aside (visitInline o kids)
    emit (o.emphasis.toList ++ content ++ o.emphasis.toList)
  | .branch .strong kids => do
    emit ('*' :: '*' :: (← aside (visitInline o kids)) ++ ['*', '*'])
  | .branch .strikethrough kids => do
    emit ('~' :: '~' :: (← aside (visitInline o kids)) ++ ['~', '~'])
  | .branch (.link url title) kids => do
    emit (linkAround (← aside (visitInline o kids)) url title)

/-- Write nodes behind each other. -/
def visitAll (o : WritingOptions) : List Node → StateM Writer Unit
  | [] => pure ()
  | n :: ns => do
    visit o n
    visitAll o ns

/-- Write nodes behind each other into a new output. -/
def visitInline (o : WritingOptions) (ns : List Node) : StateM Writer (List Char) := do
  clear
  visitAll o ns
  pure (← get).output

/-- Write nodes, each into a new output. -/
def visitApart (o : WritingOptions) : List Node → StateM Writer (List (List Char))
  | [] => pure []
  | n :: ns => do
    clear
    visit o n
    let text := (← get).output
    let texts ← visitApart o ns
    pure (text :: texts)

/-- Write the bodies of the items of a list.  What is no item stands for a body of its own. -/
def visitItems (o : WritingOptions) (tight : Bool) : List Node → StateM Writer (List (List Char))
  | [] => pure []
  | .branch (.item task) kids :: ns => do
    let body := joinBlocks (spacing tight) (← aside (visitApart o kids))
    let bodies ← visitItems o tight ns
    pure ((taskBox task ++ body) :: bodies)
  | n :: ns => do
    let body ← aside do
      clear
      visit o n
      pure (← get).output
    let bodies ← visitItems o tight ns
    pure (body :: bodies)

/-- Write the cells of the rows of a table.  What is no row counts as a row without cells. -/
def visitRows (o : WritingOptions) : List Node → StateM Writer (List (List (List Char)))
  | [] => pure []
  | .branch (.row _) kids :: ns => do
    setCell true
    let cells ← visitCells o kids
    setCell false
    let rows ← visitRows o ns
    pure (cells :: rows)
  | _ :: ns => do
    let rows ← visitRows o ns
    pure ([] :: rows)

/-- Write the contents of the cells of a row.  What is no cell is left out. -/
def visitCells (o : WritingOptions) : List Node → StateM Writer (List (List Char))
  | [] => pure []
  | .branch (.cell _) kids :: ns => do
    let cell ← aside (visitInline o kids)
    let cells ← visitCells o ns
    pure (cell :: cells)
  | _ :: ns => visitCells o ns

end

/-! ## documents -/

/-- Write a document from the start. -/
def renderNext (o : WritingOptions) (n : Node) : StateM Writer String := do
  set ({} : Writer)
  visit o n
  let text := (← get).output
  clear
  pure (.ofList (tidy text))

/-- Write documents one after another. -/
def renderEach (o : WritingOptions) (documents : List Node) : StateM Writer (List String) :=
  documents.mapM (renderNext o)

end Writer

end Docsite.Markdown
