/-!
# Docsite.Text.Search

Finding and replacing a piece of text inside another.

All searches go from left to right and take occurrences as they come, so two
occurrences that overlap count once.
-/

namespace Docsite.Text

/-- Replace the leftmost occurrence of `old`, if there is one. -/
def replaceFirst (old new : List Char) : List Char → List Char
  | [] => if old.isEmpty then new else []
  | c :: cs =>
    if old.isPrefixOf (c :: cs) then new ++ (c :: cs).drop old.length
    else c :: replaceFirst old new cs

/-- Replace the occurrences of `old`, after passing over the next `skip` characters. -/
def replaceFrom (old new : List Char) : Nat → List Char → List Char
  | _, [] => []
  | skip + 1, _ :: cs => replaceFrom old new skip cs
  | 0, c :: cs =>
    if old.isPrefixOf (c :: cs) then new ++ replaceFrom old new (old.length - 1) cs
    else c :: replaceFrom old new 0 cs

/-- Replace every occurrence of `old`; the empty text occurs before every character and
at the end. -/
def replaceAll (old new s : List Char) : List Char :=
  if old.isEmpty then new ++ s.flatMap (fun c => c :: new) else replaceFrom old new 0 s

/-- Cut a text at every occurrence of a character. -/
def splitAt (sep : Char) : List Char → List (List Char)
  | [] => [[]]
  | c :: cs =>
    if c = sep then [] :: splitAt sep cs
    else
      match splitAt sep cs with
      | [] => [[c]]
      | w :: ws => (c :: w) :: ws

@[simp] theorem splitAt_separator (sep : Char) (cs : List Char) :
    splitAt sep (sep :: cs) = [] :: splitAt sep cs := by
  simp [splitAt]

/-- What remains after the first of the words that begins the text. -/
def stripFirst? (words : List (List Char)) (s : List Char) : Option (List Char) :=
  words.findSome? fun w => if w.isPrefixOf s then some (s.drop w.length) else none

/-- The length of the run at the start of a text: `stem` once, then `last` at least once. -/
def runLength (stem : List Char) (last : Char) (s : List Char) : Nat :=
  if stem.isPrefixOf s then
    match ((s.drop stem.length).takeWhile (· == last)).length with
    | 0 => 0
    | n + 1 => stem.length + n + 1
  else 0

/-- The longest run found from left to right, after passing over `skip` characters. -/
def longestRunFrom (stem : List Char) (last : Char) : Nat → List Char → Nat
  | _, [] => 0
  | skip + 1, _ :: cs => longestRunFrom stem last skip cs
  | 0, c :: cs =>
    let n := runLength stem last (c :: cs)
    max n (longestRunFrom stem last (n - 1) cs)

/-- The length of the longest run of `mark` in a text.  A run of a mark of several
characters is the mark with its last character repeated. -/
def longestRun (mark s : List Char) : Nat :=
  match mark.getLast? with
  | none => 0
  | some last => longestRunFrom mark.dropLast last 0 s

end Docsite.Text
