import ClientLoom.Diff.Edit

/-!
# Compact edit scripts

An insertion may slide over equal lines without a change of meaning.  Every edit is moved up as far
as it goes and then down as far as it goes, and joins the edits of its kind that it meets.
-/

namespace ClientLoom.Diff

namespace Edit

/-- Where the lines of the old text end. -/
def oldStop (e : Edit) : Nat := if e.kind = .insert then e.old else e.old + e.size

/-- Where the lines of the new text end. -/
def newStop (e : Edit) : Nat := if e.kind = .delete then e.new else e.new + e.size

/-- The number of lines of the new text. -/
def newSize (e : Edit) : Nat := if e.kind = .delete then 0 else e.size

/-- The edit moved up. -/
def up (e : Edit) (n : Nat) : Edit := { e with old := e.old - n, new := e.new - n }

/-- The edit moved down. -/
def down (e : Edit) (n : Nat) : Edit := { e with old := e.old + n, new := e.new + n }

/-- More lines at the end. -/
def grow (e : Edit) (n : Nat) : Edit := { e with size := e.size + n }

/-- Fewer lines at the end. -/
def shrink (e : Edit) (n : Nat) : Edit := { e with size := e.size - n }

end Edit

/-- An edit with the edits before it, the nearest first, and those after it. -/
structure Focus where
  before : List Edit
  edit : Edit
  after : List Edit

/-- An edit in front of others, if it has any lines. -/
def consNonempty (e : Edit) (rest : List Edit) : List Edit :=
  if e.size = 0 then rest else e :: rest

/-- A bound on the number of moves through a list of edits. -/
def weight (edits : List Edit) : Nat :=
  edits.foldr (fun e total => e.size + 1 + total) 0

namespace Focus

/-- Adds kept lines in front of what follows the edit. -/
def keepAfter (f : Focus) (run : Edit) : List Edit :=
  match f.after with
  | next :: rest =>
    if next.kind = .keep then (next.up run.size).grow run.size :: rest else run :: next :: rest
  | [] => [run]

/-- Adds kept lines behind what precedes the edit. -/
def keepBefore (f : Focus) (run : Edit) : List Edit :=
  match f.before with
  | last :: rest => if last.kind = .keep then last.grow run.size :: rest else run :: last :: rest
  | [] => [run]

/-- Moves the edit up, at most so many times. -/
def riseWithin (sides : Sides) : Nat → Focus → Focus
  | 0, f => f
  | moves + 1, f =>
    match f.before with
    | [] => f
    | last :: before =>
      if last.kind = .keep then
        let n := commonSuffix sides.old sides.new (min last.size f.edit.newSize)
          last.oldStop f.edit.newStop
        if n = 0 then
          if last.size = 0 then riseWithin sides moves { f with before } else f
        else
          riseWithin sides moves
            { before := consNonempty (last.shrink n) before
              edit := f.edit.up n
              after := f.keepAfter ⟨.keep, last.oldStop - n, f.edit.newStop - n, n⟩ }
      else if last.kind = f.edit.kind then
        riseWithin sides moves { f with before, edit := last.grow f.edit.size }
      else riseWithin sides moves { f with before, after := last :: f.after }

/-- Moves the edit down, at most so many times. -/
def sinkWithin (sides : Sides) : Nat → Focus → Focus
  | 0, f => f
  | moves + 1, f =>
    match f.after with
    | [] => f
    | next :: after =>
      if next.kind = .keep then
        let n := commonPrefix sides.old sides.new (min next.size f.edit.newSize)
          next.old f.edit.new
        if n = 0 then
          if next.size = 0 then sinkWithin sides moves { f with after } else f
        else
          sinkWithin sides moves
            { before := f.keepBefore ⟨.keep, next.old, f.edit.new, n⟩
              edit := f.edit.down n
              after := consNonempty ((next.down n).shrink n) after }
      else if next.kind = f.edit.kind then
        sinkWithin sides moves { f with edit := f.edit.grow next.size, after }
      else sinkWithin sides moves { f with before := next :: f.before, after }

/-- Moves the edit up and then down. -/
def settle (sides : Sides) (f : Focus) : Focus :=
  let risen := f.riseWithin sides (weight f.before)
  risen.sinkWithin sides (weight risen.after)

end Focus

/-- Settles the edits of one kind, at most so many edits in all. -/
def settleWithin (sides : Sides) (kind : EditKind) : Nat → List Edit → List Edit → List Edit
  | 0, before, after => before.reverse ++ after
  | _ + 1, before, [] => before.reverse
  | count + 1, before, e :: after =>
    if e.kind = kind then
      let f := Focus.settle sides ⟨before, e, after⟩
      settleWithin sides kind count (f.edit :: f.before) f.after
    else settleWithin sides kind count (e :: before) after

/-- Settles the deletions and then the insertions of a script. -/
def compact (sides : Sides) (edits : List Edit) : List Edit :=
  let settled := settleWithin sides .delete (weight edits) [] edits
  settleWithin sides .insert (weight settled) [] settled

end ClientLoom.Diff
