import Docsite.Markdown.Reference

/-!
# Docsite.Markdown.RawHtml

Pieces of HTML in a Markdown text.

Each reader takes the text from the place where its piece begins and answers with what
follows the piece.  Which piece begins is settled by the first characters after `<`; tag
names and attributes are read as HTML spells them, without a list of the tags there are.
-/

namespace Docsite.Markdown.RawHtml

/-- What follows the first occurrence of a word. -/
def after? (word : String) : List Char → Option (List Char)
  | [] => none
  | c :: cs =>
    if word.toList.isPrefixOf (c :: cs) then some ((c :: cs).drop word.length) else after? word cs

/-- Is the character a letter of ASCII? -/
def isLetter (c : Char) : Bool := c.isAlpha

/-! ## tags -/

/-- Does the character belong to a tag name, behind its first letter? -/
def isTagChar (c : Char) : Bool := c.isAlphanum || c == '-'

/-- A tag name and what follows it. -/
def tagName? (s : List Char) : Option (List Char × List Char) :=
  match s with
  | c :: _ => if isLetter c then some (s.takeWhile isTagChar, s.dropWhile isTagChar) else none
  | [] => none

/-- Does an attribute name begin with the character? -/
def isAttributeStart (c : Char) : Bool := isLetter c || c == '_' || c == ':'

/-- Does the character belong to an attribute name? -/
def isAttributeChar (c : Char) : Bool := c.isAlphanum || "_.:-".toList.contains c

/-- Does the character belong to a value without quotes? -/
def isBareValueChar (c : Char) : Bool := !isAsciiSpace c && !"\"'=<>\x60".toList.contains c

/-- What follows an attribute value. -/
def afterValue? (s : List Char) : Option (List Char) :=
  match s with
  | '"' :: cs => after? "\"" cs
  | '\'' :: cs => after? "'" cs
  | c :: _ => if isBareValueChar c then some (s.dropWhile isBareValueChar) else none
  | [] => none

/-- What follows an equals sign and a value, white space around the sign included. -/
def afterAssignment? (s : List Char) : Option (List Char) :=
  match s.dropWhile isAsciiSpace with
  | '=' :: cs => afterValue? (cs.dropWhile isAsciiSpace)
  | _ => none

/-- What follows an attribute with the white space before it. -/
def afterAttribute? (s : List Char) : Option (List Char) :=
  match s.dropWhile isAsciiSpace with
  | c :: cs =>
    if (s.head?.any isAsciiSpace) && isAttributeStart c then
      let rest := cs.dropWhile isAttributeChar
      some ((afterAssignment? rest).getD rest)
    else none
  | [] => none

/-- What follows all attributes, of which there are at most `fuel`. -/
def afterAttributes : Nat → List Char → List Char
  | 0, s => s
  | fuel + 1, s =>
    match afterAttribute? s with
    | some rest => afterAttributes fuel rest
    | none => s

/-- What follows an opening tag, after its `<`. -/
def afterOpeningTag? (s : List Char) : Option (List Char) :=
  match tagName? s with
  | none => none
  | some (_, rest) =>
    match (afterAttributes rest.length rest).dropWhile isAsciiSpace with
    | '>' :: cs => some cs
    | '/' :: '>' :: cs => some cs
    | _ => none

/-- What follows a closing tag, after its `</`. -/
def afterClosingTag? (s : List Char) : Option (List Char) :=
  match tagName? s with
  | none => none
  | some (_, rest) =>
    match rest.dropWhile isAsciiSpace with
    | '>' :: cs => some cs
    | _ => none

/-! ## pieces inside a paragraph -/

/-- What follows a comment, after its `<!--`. -/
def afterComment? (s : List Char) : Option (List Char) :=
  match s with
  | '>' :: cs => some cs
  | '-' :: '>' :: cs => some cs
  | cs => after? "-->" cs

/-- What follows a piece of HTML, after its `<`: a tag, a comment, a processing
instruction, a declaration or character data. -/
def afterPiece? (s : List Char) : Option (List Char) :=
  match s with
  | '/' :: cs => afterClosingTag? cs
  | '?' :: cs => after? "?>" cs
  | '!' :: '-' :: '-' :: cs => afterComment? cs
  | '!' :: '[' :: 'C' :: 'D' :: 'A' :: 'T' :: 'A' :: '[' :: cs => after? "]]>" cs
  | '!' :: c :: cs => if isLetter c then after? ">" cs else none
  | cs => afterOpeningTag? cs

/-! ## blocks -/

/-- Where a block of HTML ends. -/
inductive BlockEnd where
  /-- With the line in which one of the words is. -/
  | withWord (words : List String)
  /-- Before a blank line. -/
  | beforeBlank
  deriving DecidableEq, Repr

/-- Does a line, in which case does not matter, hold one of the words that end a block? -/
def BlockEnd.isIn (line : List Char) : BlockEnd → Bool
  | .withWord words => words.any fun w => (after? w (line.map Char.toLower)).isSome
  | .beforeBlank => false

/-- The tags whose contents are no markup. -/
def verbatimTags : List String := ["script", "pre", "style", "textarea"]

/-- The tags that begin a block wherever they begin a line. -/
def blockTags : List String :=
  ["address", "article", "aside", "base", "basefont", "blockquote", "body", "caption", "center",
   "col", "colgroup", "dd", "details", "dialog", "dir", "div", "dl", "dt", "fieldset",
   "figcaption", "figure", "footer", "form", "frame", "frameset", "h1", "h2", "h3", "h4", "h5",
   "h6", "head", "header", "hr", "html", "iframe", "legend", "li", "link", "main", "menu",
   "menuitem", "nav", "noframes", "ol", "optgroup", "option", "p", "param", "search", "section",
   "summary", "table", "tbody", "td", "tfoot", "th", "thead", "title", "tr", "track", "ul"]

/-- A tag name in lower case, and whether what follows it may follow a name in the first
line of a block. -/
def blockTag? (s : List Char) : Option (String × List Char) :=
  (tagName? s).map fun (name, rest) => (.ofList (name.map Char.toLower), rest)

/-- May the text follow the name of a tag that begins a block? -/
def endsTagName (selfClosing : Bool) (s : List Char) : Bool :=
  match s with
  | [] => true
  | '/' :: '>' :: _ => selfClosing
  | c :: _ => c == '>' || isAsciiSpace c

/-- The end of a block that begins with a line, after its `<`, if a block begins there
in any place. -/
def strongStart? (s : List Char) : Option BlockEnd :=
  match s with
  | '?' :: _ => some (.withWord ["?>"])
  | '!' :: '-' :: '-' :: _ => some (.withWord ["-->"])
  | '!' :: '[' :: 'C' :: 'D' :: 'A' :: 'T' :: 'A' :: '[' :: _ => some (.withWord ["]]>"])
  | '!' :: c :: _ => if isLetter c then some (.withWord [">"]) else none
  | '/' :: cs =>
    match blockTag? cs with
    | some (name, rest) =>
      if blockTags.contains name && endsTagName true rest then some .beforeBlank else none
    | none => none
  | cs =>
    match blockTag? cs with
    | some (name, rest) =>
      if verbatimTags.contains name && endsTagName false rest then
        some (.withWord (verbatimTags.map fun tag => "</" ++ tag ++ ">"))
      else if blockTags.contains name && endsTagName true rest then some .beforeBlank
      else none
    | none => none

/-- Does the line, after its `<`, hold one whole tag and nothing else?  Such a line
begins a block where no paragraph is open. -/
def isLoneTag (s : List Char) : Bool :=
  let rest? :=
    match s with
    | '/' :: cs => afterClosingTag? cs
    | cs => afterOpeningTag? cs
  rest?.any fun rest => rest.all isAsciiSpace

end Docsite.Markdown.RawHtml
