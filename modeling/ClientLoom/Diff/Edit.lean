import ClientLoom.Diff.Lines

/-!
# Edit scripts

The lines of an old and a new text are aligned by divide and conquer: the equal lines at both ends
of a window are kept, and the rest is divided at a point that lies on a shortest edit script.  The
point is found by searching from both ends, one edit at a time, until the two searches meet.
-/

namespace ClientLoom.Diff

/-- What becomes of a run of lines. -/
inductive EditKind
  | keep
  | delete
  | insert
deriving DecidableEq

/-- A run of lines that is kept, deleted or inserted, and where it begins in the two texts. -/
structure Edit where
  kind : EditKind
  old : Nat
  new : Nat
  size : Nat

/-- The lines of two texts. -/
structure Sides where
  old : Array String
  new : Array String

/-- A part of the old text against a part of the new text. -/
structure Window where
  oldStart : Nat
  oldStop : Nat
  newStart : Nat
  newStop : Nat

namespace Window

/-- The number of old lines. -/
def oldSize (w : Window) : Nat := w.oldStop - w.oldStart

/-- The number of new lines. -/
def newSize (w : Window) : Nat := w.newStop - w.newStart

end Window

/-- How far a search has come on every diagonal, in old lines.  After `d` edits there are `d + 1`
entries; entry `i` belongs to the diagonal `2 * i - d`. -/
abbrev Front := Array Nat

namespace Front

/-- Where entry `i` begins after one more edit: a line further from one neighbour, or level with
the other if that is ahead. -/
def entry (front : Front) (i : Nat) : Nat :=
  let left := front.getD (i - 1) 0
  let right := front.getD i 0
  if i = 0 ∨ (i ≠ front.size ∧ left < right) then right else left + 1

/-- The new line that belongs to an old line on the diagonal of entry `i`. -/
def partner (edits i x : Nat) : Nat := x + edits - 2 * i

/-- The front after one more edit; `slide x y` is the number of equal lines that follow. -/
def advance (front : Front) (slide : Nat → Nat → Nat) : Front :=
  let edits := front.size
  ((List.range (edits + 1)).map fun i =>
    let x := front.entry i
    x + slide x (partner edits i x)).toArray

/-- The entry of the opposite search on the diagonal of entry `i`, if that search reached it. -/
def opposite? (other : Front) (shift : Int) (edits i : Nat) : Option Nat :=
  let diagonal : Int := shift - (2 * (i : Int) - edits)
  let reach : Int := (other.size : Int) - 1
  if diagonal.natAbs ≤ reach then other[((diagonal + reach) / 2).toNat]? else none

/-- The entry with the greatest number at which two searches over `size` old lines meet. -/
def meeting? (front other : Front) (shift : Int) (size : Nat) : Option Nat :=
  let edits := front.size - 1
  (List.range front.size).reverse.find? fun i =>
    match opposite? other shift edits i with
    | some x => decide (size ≤ front.getD i 0 + x)
    | none => false

end Front

namespace Sides

/-- The equal lines that follow `x` old and `y` new lines of a window. -/
def slideDown (sides : Sides) (w : Window) (x y : Nat) : Nat :=
  commonPrefix sides.old sides.new (min (w.oldSize - x) (w.newSize - y))
    (w.oldStart + x) (w.newStart + y)

/-- The equal lines before the last `x` old and `y` new lines of a window. -/
def slideUp (sides : Sides) (w : Window) (x y : Nat) : Nat :=
  commonSuffix sides.old sides.new (min (w.oldSize - x) (w.newSize - y))
    (w.oldStop - x) (w.newStop - y)

/-- Searches from both ends for at most so many edits each; where the searches meet. -/
def searchMiddle (sides : Sides) (w : Window) : Nat → Front → Front → Option (Nat × Nat)
  | 0, _, _ => none
  | rounds + 1, down, up =>
    let edits := down.size
    let shift : Int := (w.oldSize : Int) - w.newSize
    let down' := down.advance (sides.slideDown w)
    let met := if shift % 2 = 1 then down'.meeting? up shift w.oldSize else none
    match met with
    | some i =>
      let x := down.entry i
      some (w.oldStart + x, w.newStart + Front.partner edits i x)
    | none =>
      let up' := up.advance (sides.slideUp w)
      let met := if shift % 2 = 0 then up'.meeting? down' shift w.oldSize else none
      match met with
      | some i =>
        let x := up'.getD i 0
        some (w.oldStop - x, w.newStop - Front.partner edits i x)
      | none => searchMiddle sides w rounds down' up'

/-- A point of a window on a shortest edit script. -/
def middle? (sides : Sides) (w : Window) : Option (Nat × Nat) :=
  sides.searchMiddle w ((w.oldSize + w.newSize + 1) / 2 + 1) #[] #[]

/-- Kept lines, if there are any. -/
def keepRun (old new size : Nat) : List Edit :=
  if size = 0 then [] else [⟨.keep, old, new, size⟩]

/-- The edits of a window without equal lines at its ends; `divide` finds those of a smaller
window. -/
def edits (sides : Sides) (divide : Window → List Edit) (w : Window) : List Edit :=
  let delete : Edit := ⟨.delete, w.oldStart, w.newStart, w.oldSize⟩
  let insert : Edit := ⟨.insert, w.oldStart, w.newStart, w.newSize⟩
  if w.oldSize = 0 ∧ w.newSize = 0 then []
  else if w.newSize = 0 then [delete]
  else if w.oldSize = 0 then [insert]
  else
    match sides.middle? w with
    | some (x, y) =>
      divide { w with oldStop := x, newStop := y } ++
        divide { w with oldStart := x, newStart := y }
    | none => [delete, insert]

/-- The edits of a window, divided at most so many times. -/
def scriptWithin (sides : Sides) : Nat → Window → List Edit
  | 0, _ => []
  | depth + 1, w =>
    let front := sides.slideDown w 0 0
    let inner := { w with oldStart := w.oldStart + front, newStart := w.newStart + front }
    let back := sides.slideUp inner 0 0
    let inner := { inner with oldStop := w.oldStop - back, newStop := w.newStop - back }
    keepRun w.oldStart w.newStart front ++ sides.edits (scriptWithin sides depth) inner ++
      keepRun inner.oldStop inner.newStop back

/-- The edits that turn the old text into the new one. -/
def script (sides : Sides) : List Edit :=
  sides.scriptWithin (sides.old.size + sides.new.size + 1)
    ⟨0, sides.old.size, 0, sides.new.size⟩

end Sides

end ClientLoom.Diff
