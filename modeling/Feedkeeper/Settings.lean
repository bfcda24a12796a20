/-!
# Settings

The intervals and sizes that the loops run with. Intervals are in milliseconds.
-/

namespace Feedkeeper

/-- How the loops run. -/
structure Settings where
  /-- The wait between feed windows when offline or when nothing new arrived. -/
  pollInterval : Nat := 2000
  /-- The wait between looks at the gate while logged out. -/
  loginInterval : Nat := 25
  /-- How many feed events one window asks for. -/
  windowSize : Nat := 24
  /-- The key that the cursor is stored under. -/
  cursorKey : String := "keria-notification-marker"
  /-- The wait between passes over the watched operations. -/
  operationInterval : Nat := 250
  deriving DecidableEq, Repr

end Feedkeeper
