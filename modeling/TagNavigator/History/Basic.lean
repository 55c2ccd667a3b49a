import TagNavigator.Text.Basic

/-!
# Histories of jumps

A history remembers, for each jump to a tag, the name of the tag and the position where the jump
started. Its index points just past the entry of the latest jump; steps to older positions lower it
and jumps raise it. A jump discards the entries above the index, and, if the history is full, its
oldest entry. A jump that is refused leaves the history as it was.

The module knows no buffers. It works on any editor that tells its position, resolves tags, moves to
positions and shows notices.
-/

namespace TagNavigator

/-- A place to return to: the number of a buffer, or none, a line and a column. -/
structure Position where
  buffer : Option Int
  line : Int
  column : Int
  deriving DecidableEq, Repr

/-- A jump that was made: the tag, and where it started. -/
structure HistoryEntry where
  tagName : Text
  origin : Position
  deriving DecidableEq, Repr

/-- A bounded history of jumps. -/
structure History where
  capacity : Nat
  entries : List HistoryEntry
  /-- The number of entries below the current place in the history. -/
  index : Nat
  deriving DecidableEq, Repr

/-- What comes of resolving a tag. -/
inductive Resolution (ε : Type) where
  /-- The editor is at the tag. -/
  | made
  /-- The editor is where it was. -/
  | refused (notice : Text)
  /-- Resolving the tag broke off. -/
  | broken (e : ε)
  deriving DecidableEq, Repr

/-- What a history needs of an editor with states `σ` and faults `ε`. -/
structure Editor (σ ε : Type) where
  position : σ → Position
  /-- Goes to a tag. It is told the history as it stands while the jump is under way. -/
  resolve : History → Text → σ → Resolution ε × σ
  /-- Goes to a position, or gives the reason why it stays. -/
  goTo : Position → σ → Option Text × σ
  /-- Shows a notice. -/
  notify : Text → σ → σ

/-- What comes of an operation on a history: whether the editor moved, unless a fault broke the
operation off, the history, and the state of the editor. -/
structure Moved (σ ε : Type) where
  result : Except ε Bool
  history : History
  state : σ

namespace History

/-- The number of jumps that a history remembers unless told otherwise. -/
def defaultCapacity : Int := 20

/-- The notice when there is no older entry. -/
def bottomNotice : Text := "at bottom of tag stack".toList

/-- The notice when there is no newer entry. -/
def topNotice : Text := "at top of tag stack".toList

/-- The notice when there are no entries. -/
def emptyNotice : Text := "tag stack empty".toList

/-- A history without entries, which remembers at least one jump. -/
def start (capacity : Int) : History := ⟨(max 1 capacity).toNat, [], 0⟩

/-- A history of the same capacity, with the same entries and the same index. -/
def copy (h : History) : History :=
  { start h.capacity with entries := h.entries, index := h.index }

variable {σ ε : Type}

/-- The history with the entries above the index replaced by one entry. The oldest entry makes room
if the history is full. -/
def record (h : History) (e : HistoryEntry) : History :=
  let kept := h.entries.take h.index
  if h.capacity ≤ kept.length then { h with entries := kept.drop 1 ++ [e], index := h.index - 1 }
  else { h with entries := kept ++ [e] }

/-- Goes to the tag of the entry with the given number, in the history `h`. If the tag is refused,
the history is `before`. -/
def jump (ed : Editor σ ε) (before h : History) (number : Nat) (tagName : Text) (s : σ) :
    Moved σ ε :=
  match ed.resolve h tagName s with
  | (.made, s') => ⟨.ok true, { h with index := number + 1 }, s'⟩
  | (.refused notice, s') => ⟨.ok false, before, ed.notify notice s'⟩
  | (.broken e, s') => ⟨.error e, h, s'⟩

/-- Goes again to the tag of the entry `count - 1` above the index, and remembers the position of
the editor in that entry. Beyond the last entry the last one is meant. -/
def newer (ed : Editor σ ε) (count : Int) (h : History) (s : σ) : Moved σ ε :=
  match h.entries.getLast? with
  | none => ⟨.ok false, h, ed.notify emptyNotice s⟩
  | some last =>
    let wanted : Int := h.index + count - 1
    if wanted < 0 then ⟨.ok false, { h with index := 0 }, ed.notify bottomNotice s⟩
    else
      let beyond : Bool := h.entries.length ≤ wanted
      let number := if beyond then h.entries.length - 1 else wanted.toNat
      let s := if beyond then ed.notify topNotice s else s
      let entry := (h.entries[number]?).getD last
      let entries := h.entries.set number { entry with origin := ed.position s }
      jump ed h { h with entries := entries } number entry.tagName s

/-- Goes to a tag and remembers where the editor was. Without a name it goes again to a newer
entry. -/
def push (ed : Editor σ ε) (tagName : Text) (count : Int) (h : History) (s : σ) : Moved σ ε :=
  if tagName.isEmpty then newer ed count h s
  else
    let h' := h.record ⟨tagName, ed.position s⟩
    jump ed h h' (h'.entries.length - 1) tagName s

/-- Goes to the position that is remembered by the given entry. -/
def back (ed : Editor σ ε) (h : History) (number : Nat) (s : σ) : Moved σ ε :=
  match h.entries[number]? with
  | none => ⟨.ok false, h, ed.notify topNotice s⟩
  | some entry =>
    match ed.goTo entry.origin s with
    | (none, s') => ⟨.ok true, { h with index := number }, s'⟩
    | (some notice, s') => ⟨.ok false, h, ed.notify notice s'⟩

/-- Returns to the position of the entry `count` below the index; to the oldest one if there are
not so many. -/
def older (ed : Editor σ ε) (count : Int) (h : History) (s : σ) : Moved σ ε :=
  if h.entries.isEmpty then ⟨.ok false, h, ed.notify emptyNotice s⟩
  else
    let wanted : Int := h.index - count
    if wanted < 0 then
      let s := ed.notify bottomNotice s
      if h.index = 0 then ⟨.ok false, h, s⟩ else back ed h 0 s
    else back ed h wanted.toNat s

/-- The first line of a listing. -/
def listingHeader : Text := "  # TO tag      FROM line in file".toList

/-- The line of a listing for an entry whose file has the given name. -/
def listingRow (current : Bool) (number : Nat) (e : HistoryEntry) (file : Text) : Text :=
  (if current then '>' else ' ') :: Text.padLeft 2 (Text.ofNat number)
    ++ ' ' :: Text.padRight 15 e.tagName
    ++ ' ' :: Text.padLeft 4 (Text.ofInt e.origin.line) ++ [' ', ' '] ++ file

/-- A line for every entry whose file still has a name, with a mark at the index. -/
def listing (h : History) (fileName : Option Int → Option Text) : List Text :=
  let rows := h.entries.zipIdx.filterMap fun (e, i) =>
    (fileName e.origin.buffer).map (listingRow (i == h.index) (i + 1) e)
  listingHeader :: rows ++ (if h.index = h.entries.length then [['>']] else [])

end History

end TagNavigator
