import Feedkeeper.Position

/-!
# Cursors

How far this device has advanced through the feed: the index of the next event, and the id of the
event just before it, the *anchor*. A window is requested from one event before the cursor, so
that its first event can be compared with the anchor (`windowStart`, `matchesAnchor`).
`normalized` repairs a stored cursor in which only one of the two parts says "start".
-/

namespace Feedkeeper

/-- The position just after the last event that this device advanced past. -/
structure Cursor where
  nextIndex : Nat
  lastEventId : String
  deriving DecidableEq, Repr

namespace Cursor

/-- The position before any event. -/
def start : Cursor := ⟨0, ""⟩

/-- Whether the cursor is before all events. -/
def isStart (cursor : Cursor) : Bool :=
  cursor.nextIndex == 0

/-- The offset of the first event to request: the anchor, once there is one. -/
def windowStart (cursor : Cursor) : Nat :=
  cursor.nextIndex - 1

/-- Whether a window whose first event has the id `first?` lines up with the cursor. -/
def matchesAnchor (cursor : Cursor) (first? : Option String) : Bool :=
  cursor.isStart || first? == some cursor.lastEventId

/-- The cursor after `count` more events, the last of them `lastId`; `none` on overflow. -/
def advance? (cursor : Cursor) (count : Nat) (lastId : String) : Option Cursor :=
  (Position.add? cursor.nextIndex count).map (⟨·, lastId⟩)

/-- A stored cursor of which one part says "start" counts as the start. -/
def normalized (cursor : Cursor) : Cursor :=
  if cursor.nextIndex = 0 ∨ cursor.lastEventId = "" then start else cursor

/-- The two parts of the cursor agree on whether it is at the start. -/
def Coherent (cursor : Cursor) : Prop :=
  cursor.nextIndex = 0 ↔ cursor.lastEventId = ""

/-- A repaired cursor is coherent. -/
theorem coherent_normalized (cursor : Cursor) : cursor.normalized.Coherent := by
  unfold normalized
  split
  · simp [Coherent, start]
  · rename_i h
    simp only [not_or] at h
    simp [Coherent, h.1, h.2]

/-- Repairing twice is repairing once. -/
@[simp] theorem normalized_normalized (cursor : Cursor) :
    cursor.normalized.normalized = cursor.normalized := by
  unfold normalized
  split <;> simp_all [start]

end Cursor

end Feedkeeper
