import ClientLoom.Diff.Compact

/-!
# Unified diffs

A diff shows the changed lines with three equal lines around them.  Changes with at most six equal
lines between them share a hunk.
-/

namespace ClientLoom.Diff

/-- A run of equal lines, or a change of some old lines into some new lines. -/
inductive Block
  | same (old new size : Nat)
  | change (old oldSize new newSize : Nat)

namespace Block

/-- Where the block begins in the old text. -/
def oldStart : Block → Nat
  | .same old _ _ => old
  | .change old _ _ _ => old

/-- Where the block begins in the new text. -/
def newStart : Block → Nat
  | .same _ new _ => new
  | .change _ _ new _ => new

/-- Where the block ends in the old text. -/
def oldStop : Block → Nat
  | .same old _ size => old + size
  | .change old oldSize _ _ => old + oldSize

/-- Where the block ends in the new text. -/
def newStop : Block → Nat
  | .same _ new size => new + size
  | .change _ _ new newSize => new + newSize

/-- Adds an edit to blocks, the last one first. -/
def push (blocks : List Block) (e : Edit) : List Block :=
  match e.kind, blocks with
  | .keep, .same old new size :: rest => .same old new (size + e.size) :: rest
  | .keep, _ => .same e.old e.new e.size :: blocks
  | .delete, .change old oldSize new newSize :: rest =>
    .change (if oldSize = 0 then e.old else old) (oldSize + e.size) new newSize :: rest
  | .delete, _ => .change e.old e.size e.new 0 :: blocks
  | .insert, .change old oldSize new newSize :: rest =>
    .change old oldSize (if newSize = 0 then e.new else new) (newSize + e.size) :: rest
  | .insert, _ => .change e.old 0 e.new e.size :: blocks

/-- The blocks of a script. -/
def ofEdits (edits : List Edit) : List Block :=
  (edits.foldl push []).reverse

end Block

/-- The number of equal lines around a change. -/
def contextSize : Nat := 3

/-- Equal lines in front of the first change. -/
def trimFirst : List Block → List Block
  | .same old new size :: rest =>
    let offset := size - contextSize
    .same (old + offset) (new + offset) (size - offset) :: rest
  | blocks => blocks

/-- Equal lines behind the last change. -/
def trimLast (blocks : List Block) : List Block :=
  match blocks.reverse with
  | .same old new size :: rest => (.same old new (min size contextSize) :: rest).reverse
  | _ => blocks

/-- Blocks that are shown together. -/
abbrev Hunk := List Block

/-- The hunk shows a change. -/
def Hunk.hasChange (hunk : Hunk) : Bool :=
  match hunk with
  | [] | [.same _ _ _] => false
  | _ => true

/-- Finished hunks in reverse, and the current one in reverse. -/
structure Grouping where
  finished : List Hunk := []
  current : List Block := []

/-- Adds a block; a long run of equal lines ends the hunk and begins the next. -/
def Grouping.push (g : Grouping) (block : Block) : Grouping :=
  match block with
  | .same old new size =>
    if 2 * contextSize < size then
      let offset := size - contextSize
      { finished := (Block.same old new contextSize :: g.current).reverse :: g.finished
        current := [.same (old + offset) (new + offset) contextSize] }
    else { g with current := block :: g.current }
  | .change _ _ _ _ => { g with current := block :: g.current }

/-- The hunks of a diff. -/
def hunks (blocks : List Block) : List Hunk :=
  let grouping := (trimLast (trimFirst blocks)).foldl Grouping.push {}
  let last := grouping.current.reverse
  grouping.finished.reverse ++ if Hunk.hasChange last then [last] else []

/-- A line range of a hunk: its first line, and its size unless that is one.  An empty range begins
at the line before it. -/
def renderRange (start stop : Nat) : String :=
  let size := stop - start
  if size = 1 then toString (start + 1)
  else if size = 0 then toString start ++ ",0"
  else toString (start + 1) ++ "," ++ toString size

/-- The ranges of a hunk. -/
def Hunk.header (hunk : Hunk) : String :=
  match hunk.head?, hunk.getLast? with
  | some first, some last =>
    "@@ -" ++ renderRange first.oldStart last.oldStop ++ " +" ++
      renderRange first.newStart last.newStop ++ " @@\n"
  | _, _ => ""

/-- A line with its mark; a last line without line end gets one and a remark. -/
def renderLine (mark : String) (line : String) : String :=
  mark ++ line ++ if isTerminated line then "" else "\n\\ No newline at end of file\n"

/-- The lines of a text from a place on, each with a mark. -/
def renderLines (mark : String) (lines : Array String) (start size : Nat) : String :=
  String.join ((lines.extract start (start + size)).toList.map (renderLine mark))

/-- The lines of a block: deleted ones before inserted ones. -/
def Block.render (sides : Sides) : Block → String
  | .same old _ size => renderLines " " sides.old old size
  | .change old oldSize new newSize =>
    renderLines "-" sides.old old oldSize ++ renderLines "+" sides.new new newSize

/-- The text of a hunk. -/
def Hunk.render (sides : Sides) (hunk : Hunk) : String :=
  hunk.header ++ String.join (hunk.map (Block.render sides))

/-- The diff from the current text of a file, if it exists, to a new text. -/
def unified (path : String) (current : Option String) (generated : String) : String :=
  let sides : Sides := ⟨linesOf (current.getD ""), linesOf generated⟩
  let parts := (hunks (Block.ofEdits (compact sides sides.script))).map (Hunk.render sides)
  let before := if current.isSome then "a/" ++ path else "/dev/null"
  if parts.isEmpty then ""
  else "--- " ++ before ++ "\n+++ b/" ++ path ++ "\n" ++ String.join parts

end ClientLoom.Diff
