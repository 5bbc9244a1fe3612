import ClientLoom.Error

/-!
# Tags

A text may carry a tag: an opening `<kind>`, a payload and a closing `</kind>`, kind and payload
non-empty and free of line breaks.  Of all ways to split a text at a tag, the one with the shortest
text in front counts; among those the longest kind, and among those the longest payload.
-/

namespace ClientLoom

/-- A character that ends a line. -/
def isLineBreak (c : Char) : Bool :=
  c == '\n' || c == '\r' || c == '\u2028' || c == '\u2029'

/-- The number of bytes of characters in UTF-8. -/
def byteLength (cs : List Char) : Nat :=
  cs.foldr (fun c size => c.utf8Size + size) 0

/-- A text split at a tag. -/
structure TagSplit where
  before : List Char
  kind : List Char
  payload : List Char
  after : List Char

namespace TagSplit

/-- The closing tag of a kind. -/
def closing (kind : List Char) : List Char :=
  '<' :: '/' :: (kind ++ ['>'])

/-- The text that was split. -/
def text (split : TagSplit) : List Char :=
  split.before ++ '<' :: split.kind ++ '>' :: split.payload ++ closing split.kind ++ split.after

/-- The ways to end a kind with a `>` on this line: the kind and what follows, the longest first. -/
def openings : List Char → List (List Char × List Char)
  | [] => []
  | c :: rest =>
    if isLineBreak c then []
    else
      let longer := (openings rest).map fun opening => (c :: opening.1, opening.2)
      if c = '>' then longer ++ [([], rest)] else longer

/-- The last place on this line where the closing tag stands: what is in front of it and what
follows it. -/
def lastClosing (tag : List Char) : List Char → Option (List Char × List Char)
  | [] => none
  | c :: rest =>
    if isLineBreak c then none
    else
      match lastClosing tag rest with
      | some (payload, after) => some (c :: payload, after)
      | none =>
        if tag.isPrefixOf (c :: rest) then some ([], (c :: rest).drop tag.length) else none

/-- A tag whose kind and what follows it are given. -/
def ofOpening? (opening : List Char × List Char) : Option TagSplit :=
  if opening.1.isEmpty then none
  else
    match lastClosing (closing opening.1) opening.2 with
    | some (payload, after) =>
      if payload.isEmpty then none else some ⟨[], opening.1, payload, after⟩
    | none => none

/-- The split that counts. -/
def find? : List Char → Option TagSplit
  | [] => none
  | c :: rest =>
    match if c = '<' then (openings rest).findSome? ofOpening? else none with
    | some split => some split
    | none => (find? rest).map fun split => { split with before := c :: split.before }

end TagSplit

/-- A tag found in a text, with the byte offsets where it starts and stops. -/
structure Tag where
  kind : String
  payload : String
  start : Nat
  stop : Nat

namespace Tag

/-- The tag of a split. -/
def ofSplit (split : TagSplit) : Tag :=
  let start := byteLength split.before
  { kind := String.ofList split.kind
    payload := String.ofList split.payload
    start := start
    stop := start + 2 + byteLength split.kind + byteLength split.payload +
      byteLength (TagSplit.closing split.kind) }

/-- The tag of a text. -/
def find? (text : String) : Option Tag :=
  (TagSplit.find? text.toList).map ofSplit

/-- The tag is the whole text. -/
def covers (tag : Tag) (text : String) : Bool :=
  tag.start == 0 && tag.stop == byteLength text.toList

end Tag

/-- The kinds of tags with a meaning. -/
inductive TagKind
  | raw
  | cookie
  | localStorage
  | sessionStorage
deriving DecidableEq

namespace TagKind

/-- The kind as it is written. -/
def name : TagKind → String
  | .raw => "raw"
  | .cookie => "cookie"
  | .localStorage => "localStorage"
  | .sessionStorage => "sessionStorage"

/-- The kind of a name. -/
def ofName? (name : String) : Option TagKind :=
  if name = "raw" then some .raw
  else if name = "cookie" then some .cookie
  else if name = "localStorage" then some .localStorage
  else if name = "sessionStorage" then some .sessionStorage
  else none

/-- The kind of a tag; `field` is the place of the tag in messages. -/
def parse (name field : String) : Outcome TagKind :=
  match ofName? name with
  | some kind => .ok kind
  | none => .error (.unsupportedTag name field)

/-- The helper of the client that looks the payload up, for the kinds that read a store. -/
def lookup? : TagKind → Option String
  | .raw => none
  | .cookie => some "getFromCookie"
  | .localStorage => some "getFromLocalStorage"
  | .sessionStorage => some "getFromSessionStorage"

end TagKind

end ClientLoom
