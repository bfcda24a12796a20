import Feedkeeper.Script

/-!
# The inbox

What the application does with notices: list them, find those about a group, mark one read or
unread, delete one. Following the feed never deletes a notice.
-/

namespace Feedkeeper

namespace Inbox

open Script (ask)

/-- All notices. -/
def all : Attempt (List Notice) :=
  .store (ask .allNotices)

/-- The notices about a group. -/
def about (group : String) : Attempt (List Notice) :=
  .store (ask (.noticesAbout group))

/-- Marks a notice read or unread. -/
def setRead (id : String) (read : Bool) : Attempt Unit := do
  match ← Attempt.store (ask (.findNotice id)) with
  | none => throw (.noSuchNotice id)
  | some notice => Attempt.store (ask (.updateNotice { notice with read }))

/-- Deletes the notice with the id, if there is one. -/
def delete (id : String) : Attempt Unit :=
  .store (ask (.deleteNotice id))

end Inbox

end Feedkeeper
