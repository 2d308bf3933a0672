import Docsite.Document.Kind
import Docsite.Document.Matcher
import Docsite.Tree.Walk

/-!
# Docsite.Document.Script

Visitors given by rules, with a transcript of what they saw.

A script is a list of rules.  At each visit the first rule that applies acts and the
others do nothing; if none applies the walk proceeds.  A rule says which visits it is
for, how often it may act, what it does to the siblings or to the visited node, and how
the walk goes on.  The transcript has a limit, and the visit after the last one that fits
stops the walk.
-/

namespace Docsite.Document

/-- The value of a field of a node. -/
inductive FieldValue where
  | nothing
  | text (s : String)
  | number (n : Int)
  | flag (b : Bool)
  | nodes (ns : List Node)
  | alignments (as : List (Option String))

/-- A text or nothing. -/
def FieldValue.text? : FieldValue → Option (Option String)
  | .text s => some (some s)
  | .nothing => some none
  | _ => none

/-- A leaf with one field replaced; what is no field of it changes nothing. -/
def Leaf.set (field : String) (value : FieldValue) : Leaf → Leaf
  | .text old =>
    match field, value with
    | "content", .text s => .text s
    | _, _ => .text old
  | .inlineCode old =>
    match field, value with
    | "content", .text s => .inlineCode s
    | _, _ => .inlineCode old
  | .htmlBlock old =>
    match field, value with
    | "content", .text s => .htmlBlock s
    | _, _ => .htmlBlock old
  | .htmlInline old =>
    match field, value with
    | "content", .text s => .htmlInline s
    | _, _ => .htmlInline old
  | .codeBlock content language =>
    match field, value, value.text? with
    | "content", .text s, _ => .codeBlock s language
    | "language", _, some s => .codeBlock content s
    | _, _, _ => .codeBlock content language
  | .image url alt title =>
    match field, value, value.text? with
    | "url", .text s, _ => .image s alt title
    | "alt_text", .text s, _ => .image url s title
    | "title", _, some s => .image url alt s
    | _, _, _ => .image url alt title
  | .lineBreak => .lineBreak
  | .thematicBreak => .thematicBreak

/-- The status with a name. -/
def TaskStatus.ofName? (name : String) : Option TaskStatus :=
  if name = "checked" then some .checked
  else if name = "unchecked" then some .unchecked
  else none

/-- A branch with one field replaced; what is no field of it changes nothing. -/
def Branch.set (field : String) (value : FieldValue) (b : Branch) : Branch :=
  match b, field, value with
  | .heading _, "level", .number n => .heading n
  | .list _ start tight, "ordered", .flag f => .list f start tight
  | .list ordered _ tight, "start", .number n => .list ordered n tight
  | .list ordered start _, "tight", .flag f => .list ordered start f
  | .item _, "task_status", .text s => .item (TaskStatus.ofName? s)
  | .item _, "task_status", .nothing => .item none
  | .table _, "alignments", .alignments as => .table as
  | .row _, "is_header", .flag f => .row f
  | .cell _, "alignment", .text s => .cell (some s)
  | .cell _, "alignment", .nothing => .cell none
  | .link _ title, "url", .text s => .link s title
  | .link url _, "title", .text s => .link url (some s)
  | .link url _, "title", .nothing => .link url none
  | _, _, _ => b

/-- A node with one field replaced, its list of children included. -/
def setField (field : String) (value : FieldValue) : Node → Node
  | .leaf l => .leaf (l.set field value)
  | .branch b kids =>
    match value with
    | .nodes ns => .branch b (if b.kind.childrenField? == some field then ns else kids)
    | value => .branch (b.set field value) kids

namespace Script

/-- One thing that a rule does.  Offsets count from the index of the visit. -/
inductive Action where
  | insert (offset : Int) (nodes : List Node)
  | delete (offset count : Int)
  | replace (offset count : Int) (nodes : List Node)
  /-- Take the sibling at an offset out and put it in again at a position. -/
  | move (offset place : Int)
  | append (nodes : List Node)
  | prepend (nodes : List Node)
  | clear
  | set (field : String) (value : FieldValue)

/-- How the walk goes on after a rule. -/
inductive Advice where
  | proceed
  | skip
  | exit
  | index (n : Int)
  /-- An index counted from that of the visit; the root counts as zero. -/
  | relative (n : Int)
  deriving DecidableEq, Repr

/-- Which visits a rule is for; what is absent does not matter. -/
structure Condition where
  kind : Option String := none
  text : Option String := none
  index : Option (Option Int) := none
  parent : Option (Option String) := none
  deriving DecidableEq, Repr

/-- A rule of a script. -/
structure Rule where
  condition : Condition := {}
  /-- How often the rule may still act, if there is a limit. -/
  times : Option Int := none
  actions : List Action := []
  advice : Advice := .proceed

/-- One visit as the transcript has it.  The siblings are those after the visit. -/
structure Step where
  node : String
  index : Option Nat
  parent : Option Kind
  siblings : Option (List String)
  deriving DecidableEq, Repr

/-- A list of siblings with one of them marked. -/
abbrev Family := List (Slot Leaf Branch)

/-- Does a condition hold of a visit? -/
def Condition.holds (c : Condition) (n : Node) (spot : Option (Spot Leaf Branch)) : Bool :=
  c.kind.all (· == n.kind.tag) && c.text.all (· == Node.textContent n)
    && c.index.all (· == spot.map fun s => (s.index : Int))
    && c.parent.all (· == spot.map fun s => s.parent.kind.tag)

/-- Replace the part of a list between two positions; positions beyond the list stand for
its end, negative ones count from its end. -/
def splice (xs : Family) (start : Nat) (stop : Int) (new : Family) : Family :=
  let stop := if stop < 0 then (stop + xs.length).toNat else stop.toNat
  xs.take start ++ new ++ xs.drop (max start stop)

/-- The position of an offset from the index of a visit. -/
def position (spot : Spot Leaf Branch) (offset : Int) : Nat := (spot.index + offset).toNat

/-- What an action does to the list of siblings. -/
def Action.onFamily (spot : Spot Leaf Branch) (xs : Family) : Action → Family
  | .insert offset ns => splice xs (position spot offset) (position spot offset) (ns.map .sibling)
  | .delete offset count =>
    splice xs (position spot offset) (position spot offset + count) []
  | .replace offset count ns =>
    splice xs (position spot offset) (position spot offset + count) (ns.map .sibling)
  | .move offset place =>
    let start := position spot offset
    match xs[start]? with
    | none => xs
    | some slot =>
      let others := xs.eraseIdx start
      splice others (if place < 0 then (place + others.length).toNat else place.toNat)
        (if place < 0 then (place + others.length).toNat else place.toNat) [slot]
  | .append _ | .prepend _ | .clear | .set _ _ => xs

/-- What an action does to the visited node. -/
def Action.onNode (n : Node) : Action → Node
  | .append ns => n.withChildren (n.children ++ ns)
  | .prepend ns => n.withChildren (ns ++ n.children)
  | .clear => n.withChildren []
  | .set field value => setField field value n
  | .insert _ _ | .delete _ _ | .replace _ _ _ | .move _ _ => n

/-- The signal that an advice stands for. -/
def Advice.signal (spot : Option (Spot Leaf Branch)) : Advice → Signal Unit
  | .proceed => .proceed
  | .skip => .skip
  | .exit => .exit
  | .index n => .resumeAt n
  | .relative n => .resumeAt ((spot.map (·.index)).getD 0 + n)

/-- The first rule that applies to a visit, and the rules with its use counted. -/
def select (n : Node) (spot : Option (Spot Leaf Branch)) :
    List Rule → Option (Rule × List Rule)
  | [] => none
  | r :: rs =>
    if r.times.all (0 < ·) && Condition.holds r.condition n spot then
      some (r, { r with times := r.times.map (· - 1) } :: rs)
    else (select n spot rs).map fun (chosen, rest) => (chosen, r :: rest)

/-- The rules that are left, and the transcript so far with the last step first. -/
structure State where
  rules : List Rule
  steps : List Step := []

/-- The visitor of a script.  It fails when the transcript is full. -/
def visitor (limit : Nat) : Visitor Leaf Branch State Unit := fun s n spot =>
  let family := (spot.map Spot.family).getD []
  if limit ≤ s.steps.length then ⟨s, n, family, .fail ()⟩
  else
    let (actions, advice, rules) :=
      match select n spot s.rules with
      | some (r, rules) => (r.actions, r.advice, rules)
      | none => ([], .proceed, s.rules)
    let node := actions.foldl Action.onNode n
    let family := (spot.map fun spot => actions.foldl (Action.onFamily spot) family).getD []
    let step : Step :=
      { node := Node.caption n
        index := spot.map (·.index)
        parent := spot.map (·.parent.kind)
        siblings := spot.map fun _ => family.map fun slot => Node.caption (slot.fill node) }
    ⟨⟨rules, step :: s.steps⟩, node, family, Advice.signal spot advice⟩

/-- The nodes that an action can add. -/
def Action.added : Action → List Node
  | .insert _ ns | .replace _ _ ns | .append ns | .prepend ns | .set _ (.nodes ns) => ns
  | _ => []

/-- Steps enough for the walk of a script: between two visits the walk sees every node at
most once. -/
def enoughSteps (limit : Nat) (rules : List Rule) (n : Node) : Nat :=
  let added := Tree.sizeAll (rules.flatMap fun r => r.actions.flatMap Action.added)
  (limit + 2) * (2 * (n.size + (limit + 1) * added) + 2)

/-- Walk through a document with a script. -/
def run (limit : Nat) (test : Matcher) (rules : List Rule) (n : Node) :
    Walked State Node Unit :=
  n.walk (Visitor.only (fun m => test.accepts m) (visitor limit)) (enoughSteps limit rules n) ⟨rules, []⟩

end Script

end Docsite.Document
