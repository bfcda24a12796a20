import Feedkeeper.Proofs.Outside

/-!
# Calls and changes interleaved

While a procedure runs, the world may change between any two of its calls
(`Script.Interleaves`). What changes around the feed loop is the feed : events are appended to it
and withdrawn from it (`Outside.Changes`). `Outside.exists_calls` : an interleaving is told by the
calls that were made, each of which was answered as its own time allowed.
-/

namespace Feedkeeper

namespace Script

variable {α W : Type} {b : Behavior W} {change : W → W → Prop}

/-- From the first script and state, some calls lead to where the second script is left to do in the
second state, which may have been changed otherwise at any point. -/
inductive Interleaves (b : Behavior W) (change : W → W → Prop) :
    Script α → W → Script α → W → Prop where
  | here (script : Script α) (w : W) : Interleaves b change script w script w
  | called {c : Call} {next : c.Answer → Script α} {w w' : W} {answer : c.Answer}
      {rest : Script α} (allowed : b.allows w c answer)
      (interleaves : Interleaves b change (next answer) (b.after w c answer) rest w') :
      Interleaves b change (call c next) w rest w'
  | changed {script rest : Script α} {w w₁ w' : W} (changes : change w w₁)
      (interleaves : Interleaves b change script w₁ rest w') :
      Interleaves b change script w rest w'

/-- A script is run alone in one of its interleavings. -/
theorem Reaches.interleaves {s t : Script α} {w w' : W} (h : Reaches b s w t w') :
    Interleaves b change s w t w' := by
  induction h with
  | here => exact .here _ _
  | next allowed _ ih => exact .called allowed ih

/-- A property that every answer and every change keeps is kept along an interleaving. -/
theorem Interleaves.keeps {I : W → Prop} {s t : Script α} {w w' : W}
    (h : Interleaves b change s w t w') (start : I w)
    (called : ∀ {w c answer}, I w → b.allows w c answer → I (b.after w c answer))
    (changed : ∀ {w w'}, I w → change w w' → I w') : I w' := by
  induction h with
  | here => exact start
  | called allowed _ ih => exact ih (called start allowed)
  | changed changes _ ih => exact ih (changed start changes)

/-- An interleaving of a script that ends makes the first call of it, after some changes. -/
theorem Interleaves.exists_called {I : W → Prop} {c : Call} {next : c.Answer → Script α} {w w' : W}
    {value : α} (h : Interleaves b change (call c next) w (done value) w') (start : I w)
    (changed : ∀ {w w'}, I w → change w w' → I w') : ∃ w₁ answer, I w₁ ∧ b.allows w₁ c answer ∧
      Interleaves b change (next answer) (b.after w₁ c answer) (done value) w' := by
  generalize hs : call c next = script at h
  generalize ht : done value = rest at h
  induction h with
  | here =>
    cases hs
    cases ht
  | called allowed interleaves =>
    cases hs
    exact ⟨_, _, start, allowed, ht ▸ interleaves⟩
  | changed changes _ ih => exact ih (changed start changes) hs ht

/-- Where nothing is left to do there are changes only. -/
theorem Interleaves.of_done {I : W → Prop} {w w' : W} {value value' : α}
    (h : Interleaves b change (done value) w (done value') w') (start : I w)
    (changed : ∀ {w w'}, I w → change w w' → I w') : value' = value ∧ I w' := by
  generalize hs : done value = script at h
  generalize ht : done value' = rest at h
  induction h with
  | here =>
    cases hs
    cases ht
    exact ⟨rfl, start⟩
  | called => cases hs
  | changed changes _ ih => exact ih (changed start changes) hs ht

end Script

open Script

namespace Outside

/-- A change of the feed that no call makes : an event is appended that is `new`, or events behind
the first `upto` are withdrawn. -/
inductive Changes (new : Outside → Event → Prop) (upto : Nat) : Outside → Outside → Prop where
  | append {o : Outside} (event : Event) (unknown : new o event) :
      Changes new upto o
        { o with appended := o.appended ++ [event], feed := o.feed ++ [event] }
  | withdraw {o : Outside} (kept : List Event) (sublist : kept.Sublist (o.feed.drop upto)) :
      Changes new upto o { o with feed := o.feed.take upto ++ kept }

variable {new : Outside → Event → Prop} {upto : Nat} {o o' : Outside}

theorem Changes.trail_eq (changes : Changes new upto o o') : o'.trail = o.trail := by
  cases changes <;> rfl

theorem Changes.cursors_eq (changes : Changes new upto o o') : o'.cursors = o.cursors := by
  cases changes <;> rfl

variable {α : Type} {p : Outside → (c : Call) → c.Answer → Prop} {script rest : Script α}

/-- The trail of an interleaving grows by the calls of the script, and each of them was made at a
point on the way. -/
theorem exists_calls (h : Interleaves (limited p) (Changes new upto) script o rest o') :
    ∃ calls, Traces script calls rest ∧ o'.trail = o.trail ++ calls ∧
      ∀ answered ∈ calls, ∃ next o₁,
        Interleaves (limited p) (Changes new upto) script o (.call answered.call next) o₁ ∧
        (limited p).allows o₁ answered.call answered.answer ∧
        Interleaves (limited p) (Changes new upto) (next answered.answer)
          (o₁.after answered.call answered.answer) rest o' := by
  induction h with
  | here script o =>
    exact ⟨[], .here _, (List.append_nil _).symm, fun _ h => by cases h⟩
  | @called c next o o' answer rest allowed interleaves ih =>
    obtain ⟨calls, traces, trail, made⟩ := ih
    refine ⟨⟨c, answer⟩ :: calls, .next traces, by simp [trail], ?_⟩
    refine List.forall_mem_cons.2 ⟨⟨next, o, .here _ _, allowed, interleaves⟩, fun answered h => ?_⟩
    obtain ⟨next', o₁, before, allowed', after⟩ := made answered h
    exact ⟨next', o₁, .called allowed before, allowed', after⟩
  | changed changes _ ih =>
    obtain ⟨calls, traces, trail, made⟩ := ih
    refine ⟨calls, traces, changes.trail_eq ▸ trail, fun answered h => ?_⟩
    obtain ⟨next, o₁, before, allowed, after⟩ := made answered h
    exact ⟨next, o₁, .changed changes before, allowed, after⟩

end Outside

end Feedkeeper
