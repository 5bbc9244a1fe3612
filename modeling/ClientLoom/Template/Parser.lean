import ClientLoom.Template.Library
import ClientLoom.Template.Operand

/-!
# Reading of templates

Tags stand in double braces: a path shows a value, `#if` and `#each` open a part, `else` divides it
and `/if` and `/each` close it.  A tag that opens, divides or closes a part and stands alone on its
line takes the line with it: the blanks in front of it, those behind it and the line end.  A
backslash in front of the braces makes them plain text.
-/

namespace ClientLoom.Template

/-- The head of a part: its kind by name, and what it is about. -/
structure BlockHead where
  name : List Char
  operand : Option Operand

/-- A tag. -/
inductive TemplateTag
  | part (node : TemplateNode)
  | opening (head : BlockHead)
  /-- What follows stands for the part if it does not hold; with a head it is a part itself. -/
  | otherwise (head : Option BlockHead)
  | closing (name : List Char)

/-- The tag opens, divides or closes a part. -/
def TemplateTag.isBlock : TemplateTag → Bool
  | .part _ => false
  | .opening _ | .otherwise _ | .closing _ => true

/-- A template cut at its tags: the text in front, and every tag with the text behind it. -/
structure Pieces (τ : Type) where
  head : List Char
  tail : List (τ × List Char)

/-- Whether a text or the inside of a tag is being read, and its characters in reverse. -/
inductive PieceMode
  | text (chars : List Char)
  | tag (chars : List Char)

/-- A text in front of a tag. -/
def Pieces.behind (chars : List Char) (pieces : Pieces (List Char)) : Pieces (List Char) :=
  { pieces with head := chars.reverse }

/-- Cuts a template at its tags; a tag that is not closed fails.  A backslash in front of the braces
is dropped and makes them text, two pairs of them if there are two; of several backslashes one is
dropped and the tag stays. -/
def cut : PieceMode → List Char → Option (Pieces (List Char))
  | .text ('\\' :: '\\' :: before), '{' :: '{' :: rest =>
    (cut (.tag []) rest).map (Pieces.behind ('\\' :: before))
  | .text ('\\' :: before), '{' :: '{' :: '{' :: '{' :: rest =>
    cut (.text ('{' :: '{' :: '{' :: '{' :: before)) rest
  | .text ('\\' :: before), '{' :: '{' :: rest => cut (.text ('{' :: '{' :: before)) rest
  | .text chars, '{' :: '{' :: rest => (cut (.tag []) rest).map (Pieces.behind chars)
  | .text chars, c :: rest => cut (.text (c :: chars)) rest
  | .text chars, [] => some ⟨chars.reverse, []⟩
  | .tag chars, '}' :: '}' :: rest =>
    (cut (.text []) rest).map fun pieces =>
      ⟨[], (chars.reverse, pieces.head) :: pieces.tail⟩
  | .tag chars, c :: rest => cut (.tag (c :: chars)) rest
  | .tag _, [] => none

/-- A blank inside a tag. -/
def isTagBlank (c : Char) : Bool :=
  c == ' ' || c == '\t' || c == '\n' || c == '\r'

/-- Drops the blanks at the front. -/
def skipTagBlanks (text : List Char) : List Char :=
  text.dropWhile isTagBlank

/-- The operands of a whole text, at most so many. -/
def operands? : Nat → List Char → Option (List Operand)
  | 0, text => if text.isEmpty then some [] else none
  | count + 1, text =>
    if text.isEmpty then some []
    else do
      let (operand, rest) ← operand? text
      let operands ← operands? count (skipTagBlanks rest)
      pure (operand :: operands)

/-- A name of a helper and the operands behind it. -/
def call? (text : List Char) : Option (List Char × List Operand) :=
  let name := text.takeWhile fun c => isNameChar c || c == '/'
  if !continuesName text then none
  else (operands? text.length (skipTagBlanks (text.drop name.length))).map fun operands =>
    (name, operands)

/-- The head of a part. -/
def head? (text : List Char) : Option BlockHead :=
  (call? text).map fun (name, operands) => ⟨name, operands.head?⟩

/-- The words that show something of their own where no operand follows them; most of them ask for
one. -/
def reserved? (word : List Char) : Option TemplateNode :=
  if ["log", "raw"].any (·.toList = word) then some (.text "")
  else if word = "and".toList then some (.text "true")
  else if word = "or".toList then some (.text "false")
  else if ["if", "unless", "each", "with", "lookup", "eq", "ne", "gt", "gte", "lt", "lte", "not",
    "len"].any (·.toList = word) then some .fails
  else none

/-- The part that a tag without a sign shows. -/
def shown? (text : List Char) : Option TemplateNode :=
  match path? text with
  | some (operand, rest) =>
    if (skipTagBlanks rest).isEmpty then
      some ((reserved? (text.take (text.length - rest.length))).getD (.value operand))
    else (call? text).map fun _ => .fails
  | none => none

/-- The tag that divides a part, after its sign. -/
def otherwise? (text : List Char) : Option TemplateTag :=
  if text.isEmpty then some (.otherwise none)
  else (head? text).map fun head => .otherwise (some head)

/-- The tag of the text in its braces. -/
def tag? (content : List Char) : Option TemplateTag :=
  match skipTagBlanks content with
  | '#' :: rest => (head? (skipTagBlanks rest)).map .opening
  | '/' :: rest =>
    match call? (skipTagBlanks rest) with
    | some (name, []) => some (.closing name)
    | _ => none
  | '^' :: rest => otherwise? (skipTagBlanks rest)
  | text =>
    let divided := (afterWord? "else".toList text).bind fun rest => otherwise? (skipTagBlanks rest)
    divided.or ((shown? text).map .part)

/-- A blank within a line. -/
def isLineBlank (c : Char) : Bool :=
  c == ' ' || c == '\t'

/-- A line end. -/
def isLineEnd (c : Char) : Bool :=
  c == '\n' || c == '\r'

/-- Drops the blanks at the end. -/
def dropBlanksAtEnd (text : List Char) : List Char :=
  (text.reverse.dropWhile isLineBlank).reverse

/-- Nothing but blanks stands between the start of a line and the end of the text. -/
def endsAtLineStart (isFirst : Bool) (text : List Char) : Bool :=
  match (dropBlanksAtEnd text).getLast? with
  | some c => isLineEnd c
  | none => isFirst

/-- Nothing but blanks stands between the start of the text and the end of a line. -/
def startsAtLineEnd (isLast : Bool) (text : List Char) : Bool :=
  match (text.dropWhile isLineBlank).head? with
  | some c => isLineEnd c
  | none => isLast && text.isEmpty

/-- Drops the rest of a line. -/
def dropLine (text : List Char) : List Char :=
  match text.dropWhile isLineBlank with
  | '\r' :: '\n' :: rest => rest
  | '\n' :: rest => rest
  | rest => rest

/-- The parts of a template in order: texts trimmed around tags that stand alone on their line.
`before` is the text in front of the tags, already trimmed at its start; `raw` is that text as it
was written. -/
def trim (isFirst : Bool) (raw before : List Char) :
    List (TemplateTag × List Char) → List (List Char ⊕ TemplateTag)
  | [] => [.inl before]
  | (tag, after) :: rest =>
    let alone := tag.isBlock && endsAtLineStart isFirst raw && startsAtLineEnd rest.isEmpty after
    if alone then .inl (dropBlanksAtEnd before) :: .inr tag :: trim false after (dropLine after) rest
    else .inl before :: .inr tag :: trim false after after rest

/-- A part under way. -/
structure OpenBlock where
  head : BlockHead
  /-- What stands in front of the part, in reverse. -/
  outside : List TemplateNode
  /-- The body of the part, once the part is divided. -/
  body : Option (List TemplateNode) := none
  /-- The part stands for another one that does not hold, and ends with it. -/
  chained : Bool := false

/-- The node of a kind of part. -/
def BlockHead.node (head : BlockHead) (body : List TemplateNode)
    (otherwise : Option (List TemplateNode)) : TemplateNode :=
  match head.operand with
  | none => .fails
  | some operand =>
    if head.name = "if".toList then .when operand body otherwise
    else if head.name = "unless".toList then .when operand (otherwise.getD []) (some body)
    else if head.name = "each".toList then .each operand body otherwise
    else .fails

/-- The node of a part that ends with these nodes. -/
def OpenBlock.node (block : OpenBlock) (nodes : List TemplateNode) : TemplateNode :=
  match block.body with
  | none => block.head.node nodes none
  | some body => block.head.node body (some nodes)

/-- Closes the innermost part of a name, with all parts that stand for it: the parts around it, and
the nodes of the innermost of them in reverse. -/
def closeBlock (name : List Char) :
    List OpenBlock → List TemplateNode → Option (List OpenBlock × List TemplateNode)
  | [], _ => none
  | block :: outer, nodes =>
    let node := block.node nodes.reverse
    if block.chained then closeBlock name outer [node]
    else if block.head.name = name then some (outer, node :: block.outside)
    else none

/-- Divides the innermost part, which may be divided once; with a head, what follows is a part that
stands for it. -/
def divideBlock (head : Option BlockHead) (nodes : List TemplateNode) :
    List OpenBlock → Option (List OpenBlock)
  | [] => none
  | block :: outer =>
    if block.body.isSome then none
    else
      let divided := { block with body := some nodes.reverse } :: outer
      match head with
      | none => some divided
      | some head => some ({ head, outside := [], chained := true } :: divided)

/-- Puts texts and tags together; `nodes` are those of the innermost part so far, in reverse. -/
def assemble (blocks : List OpenBlock) (nodes : List TemplateNode) :
    List (List Char ⊕ TemplateTag) → Option Template
  | [] => if blocks.isEmpty then some nodes.reverse else none
  | .inl text :: rest =>
    if text.isEmpty then assemble blocks nodes rest
    else assemble blocks (.text (String.ofList text) :: nodes) rest
  | .inr (.part node) :: rest => assemble blocks (node :: nodes) rest
  | .inr (.opening head) :: rest => assemble ({ head, outside := nodes } :: blocks) [] rest
  | .inr (.otherwise head) :: rest => do
    let blocks ← divideBlock head nodes blocks
    assemble blocks [] rest
  | .inr (.closing name) :: rest => do
    let (blocks, nodes) ← closeBlock name blocks nodes
    assemble blocks nodes rest

/-- The template of a text. -/
def ofText? (text : String) : Option Template := do
  let pieces ← cut (.text []) text.toList
  let tail ← pieces.tail.mapM fun piece => (tag? piece.1).map fun tag => (tag, piece.2)
  assemble [] [] (trim true pieces.head pieces.head tail)

/-- Adds the template of a text under a name, or puts it in the place of the earlier one. -/
def Library.register (library : Library) (name text : String) : Outcome Library :=
  match ofText? text with
  | some template => .ok ⟨library.templates.put name template⟩
  | none => .error (.badTemplate name)

end ClientLoom.Template
