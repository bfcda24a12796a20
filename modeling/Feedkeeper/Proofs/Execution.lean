import Feedkeeper.Script
import Mathlib.Data.List.Basic

/-!
# Executions of scripts

`Script.run` runs a script against one way of answering its calls. Here a call may be answered in
any of the ways that a `Behavior` allows, so a statement about all executions covers every pattern
of failures. An execution may be looked at in these ways :

* `Script.Reaches` : from a script and a state, the script that is left and the state, after some of
  the calls were made; `Script.Ends` if nothing is left but a value;
* `Script.Traces` : the calls that were made and their answers, the states left out;
* `Script.Records` : what holds of the value and the calls, however these are answered;
* `Script.Ensures` : what holds of the value and the last state, however the calls are answered.

`reaches_iff` says that a trace whose calls may be answered so is an execution, `ensures_iff` that
the last is about all executions that end, and `ensures_bind`, `records_bind` and their kin take a
procedure apart along its steps. `ends_run` : running a script is one way in which it ends.
-/

namespace Feedkeeper

/-- A call with what it was answered. -/
structure Answered where
  call : Call
  answer : call.Answer

/-- How calls may turn out in states of type `W`. -/
structure Behavior (W : Type) where
  /-- Whether the call may be answered so. -/
  allows : W → (c : Call) → c.Answer → Prop
  /-- The state once the call was answered so. -/
  after : W → (c : Call) → c.Answer → W

namespace Script

variable {α β W : Type} {b : Behavior W}

/-- From the first script and state, some calls lead to where the second script is left to do in the
second state. -/
inductive Reaches (b : Behavior W) : Script α → W → Script α → W → Prop where
  | here (script : Script α) (w : W) : Reaches b script w script w
  | next {c : Call} {next : c.Answer → Script α} {w w' : W} {answer : c.Answer}
      {rest : Script α} (allowed : b.allows w c answer)
      (reaches : Reaches b (next answer) (b.after w c answer) rest w') :
      Reaches b (call c next) w rest w'

/-- The script can end with the value in the second state. -/
def Ends (b : Behavior W) (script : Script α) (w : W) (value : α) (w' : W) : Prop :=
  Reaches b script w (done value) w'

/-- The script can end. -/
def CanEnd (b : Behavior W) (script : Script α) (w : W) : Prop :=
  ∃ value w', Ends b script w value w'

/-- The calls made between the first script and the second, with their answers. -/
inductive Traces : Script α → List Answered → Script α → Prop where
  | here (script : Script α) : Traces script [] script
  | next {c : Call} {next : c.Answer → Script α} {answer : c.Answer} {trail : List Answered}
      {rest : Script α} (traces : Traces (next answer) trail rest) :
      Traces (call c next) (⟨c, answer⟩ :: trail) rest

/-- However its calls are answered, the script ends with a value and in a state of which `Q`
holds. -/
def Ensures (b : Behavior W) : Script α → (α → W → Prop) → W → Prop
  | done value, Q, w => Q value w
  | call c next, Q, w =>
    ∀ answer, b.allows w c answer → Ensures b (next answer) Q (b.after w c answer)

/-! ## Reaching a point of a script -/

theorem Reaches.trans {s t u : Script α} {w w' w'' : W} (h : Reaches b s w t w')
    (h' : Reaches b t w' u w'') : Reaches b s w u w'' := by
  induction h with
  | here => exact h'
  | next allowed _ ih => exact .next allowed (ih h')

/-- A property that every answer keeps is kept along a script. -/
theorem Reaches.keeps {I : W → Prop} {s t : Script α} {w w' : W} (h : Reaches b s w t w')
    (start : I w) (step : ∀ {w c answer}, I w → b.allows w c answer → I (b.after w c answer)) :
    I w' := by
  induction h with
  | here => exact start
  | next allowed _ ih => exact ih (step start allowed)

/-- What may happen if less is allowed may happen. -/
theorem Reaches.mono {b' : Behavior W} {s t : Script α} {w w' : W} (h : Reaches b' s w t w')
    (after : b'.after = b.after)
    (allows : ∀ {w c answer}, b'.allows w c answer → b.allows w c answer) :
    Reaches b s w t w' := by
  induction h with
  | here => exact .here _ _
  | next allowed _ ih => exact .next (allows allowed) (after ▸ ih)

/-- A call may be given any answer that is allowed. -/
theorem Reaches.call {c : Call} {next : c.Answer → Script α} {w w' : W} {rest : Script α}
    (answer : c.Answer) (allowed : b.allows w c answer)
    (h : Reaches b (next answer) (b.after w c answer) rest w') :
    Reaches b (Script.call c next) w rest w' :=
  .next allowed h

/-- What follows a script begins where the script ends. -/
theorem Ends.bind {s : Script α} {f : α → Script β} {w w' w'' : W} {value : α} {result : β}
    (h : Ends b s w value w') (h' : Ends b (f value) w' result w'') :
    Ends b (s >>= f) w result w'' := by
  change Ends b (Script.bind s f) w result w''
  induction s generalizing w with
  | done v =>
    cases h
    exact h'
  | call c next ih =>
    cases h with
    | next allowed h => exact .next allowed (ih _ h)

/-- Running a script with answers that are allowed is one way in which it may end. -/
theorem ends_run (answer : (c : Call) → W → c.Answer)
    (allowed : ∀ c w, b.allows w c (answer c w)) (script : Script α) (w : W) :
    Ends b script w (run (fun c w => (answer c w, b.after w c (answer c w))) script w).1
      (run (fun c w => (answer c w, b.after w c (answer c w))) script w).2 := by
  induction script generalizing w with
  | done value => exact .here _ _
  | call c next ih => exact .next (allowed c w) (ih _ _)

theorem canEnd_pure (value : α) (w : W) : CanEnd b (pure value) w :=
  ⟨value, w, .here _ _⟩

theorem CanEnd.ask_bind {c : Call} {f : c.Answer → Script α} {w : W} (answer : c.Answer)
    (allowed : b.allows w c answer) (h : CanEnd b (f answer) (b.after w c answer)) :
    CanEnd b (ask c >>= f) w := by
  obtain ⟨value, w', ends⟩ := h
  exact ⟨value, w', .next allowed ends⟩

theorem CanEnd.bind {s : Script α} {f : α → Script β} {w : W} (h : CanEnd b s w)
    (h' : ∀ value w', CanEnd b (f value) w') : CanEnd b (s >>= f) w := by
  obtain ⟨value, w', ends⟩ := h
  obtain ⟨result, w'', ends'⟩ := h' value w'
  exact ⟨result, w'', ends.bind ends'⟩

/-! ## Traces -/

@[simp] theorem traces_done {value : α} {trail : List Answered} {rest : Script α} :
    Traces (done value) trail rest ↔ trail = [] ∧ rest = done value := by
  constructor
  · intro h
    cases h
    exact ⟨rfl, rfl⟩
  · rintro ⟨rfl, rfl⟩
    exact .here _

/-- A trace of a call is empty, or begins with the call and its answer. -/
theorem traces_call {c : Call} {next : c.Answer → Script α} {trail : List Answered}
    {rest : Script α} : Traces (call c next) trail rest ↔ trail = [] ∧ rest = call c next ∨
      ∃ answer trail', trail = ⟨c, answer⟩ :: trail' ∧ Traces (next answer) trail' rest := by
  constructor
  · intro h
    cases h with
    | here => exact Or.inl ⟨rfl, rfl⟩
    | next h => exact Or.inr ⟨_, _, rfl, h⟩
  · rintro (⟨rfl, rfl⟩ | ⟨answer, trail', rfl, h⟩)
    · exact .here _
    · exact .next h

/-- No call leads nowhere. -/
theorem traces_nil {script rest : Script α} : Traces script [] rest ↔ rest = script := by
  constructor
  · rintro ⟨⟩
    rfl
  · rintro rfl
    exact .here _

/-- A trace passes through every point on its way. -/
theorem Traces.split {script rest : Script α} {first second : List Answered}
    (h : Traces script (first ++ second) rest) :
    ∃ middle, Traces script first middle ∧ Traces middle second rest := by
  induction first generalizing script with
  | nil => exact ⟨script, .here _, h⟩
  | cons answered first ih =>
    cases h with
    | next h =>
      obtain ⟨middle, h₁, h₂⟩ := ih h
      exact ⟨middle, .next h₁, h₂⟩

/-- However its calls are answered, the script makes only calls of which `p` holds. -/
def Confined (p : Answered → Prop) : Script α → Prop
  | done _ => True
  | call c next => ∀ answer, p ⟨c, answer⟩ ∧ Confined p (next answer)

theorem Traces.confined {p : Answered → Prop} {script rest : Script α} {trail : List Answered}
    (h : Traces script trail rest) (confined : script.Confined p) :
    ∀ answered ∈ trail, p answered := by
  induction h with
  | here => exact fun _ made => by cases made
  | next _ ih => exact List.forall_mem_cons.2 ⟨(confined _).1, ih (confined _).2⟩

/-- However its calls are answered, the script ends with a value after calls of which `Q` holds. -/
def Records (script : Script α) (Q : α → List Answered → Prop) : Prop :=
  ∀ value calls, Traces script calls (done value) → Q value calls

theorem records_done {Q : α → List Answered → Prop} {value : α} :
    Records (done value) Q ↔ Q value [] := by
  refine ⟨fun h => h value [] (.here _), fun h value' calls traces => ?_⟩
  obtain ⟨rfl, heq⟩ := traces_done.1 traces
  cases heq
  exact h

/-- A script records its first call, and then what follows on the answer. -/
theorem records_call {c : Call} {next : c.Answer → Script α} {Q : α → List Answered → Prop} :
    Records (call c next) Q ↔
      ∀ answer, Records (next answer) fun value calls => Q value (⟨c, answer⟩ :: calls) := by
  constructor
  · exact fun h answer value calls traces => h value _ (.next traces)
  · rintro h value calls traces
    obtain ⟨-, heq⟩ | ⟨answer, calls', rfl, traces'⟩ := traces_call.1 traces
    · cases heq
    · exact h answer value calls' traces'

/-- A call is recorded with its answer. -/
theorem records_ask {c : Call} {Q : c.Answer → List Answered → Prop} :
    Records (ask c) Q ↔ ∀ answer, Q answer [⟨c, answer⟩] :=
  records_call.trans (forall_congr' fun _ => records_done)

/-- A sequence records what its first part does, and then its second. -/
theorem records_bind {s : Script α} {f : α → Script β} {Q : β → List Answered → Prop} :
    Records (s >>= f) Q ↔
      Records s fun value calls => Records (f value) fun result calls' =>
        Q result (calls ++ calls') := by
  change Records (bind s f) Q ↔ _
  induction s generalizing Q with
  | done value =>
    rw [records_done]
    exact Iff.rfl
  | call c next ih =>
    rw [records_call]
    exact records_call.trans (forall_congr' fun answer => ih answer)

theorem Records.mono {Q R : α → List Answered → Prop} {script : Script α} (h : Records script Q)
    (imp : ∀ value calls, Q value calls → R value calls) : Records script R :=
  fun value calls traces => imp value calls (h value calls traces)

/-! ### Attempts -/

/-- After an error the rest of an attempt makes no calls. -/
theorem records_run_bind {attempt : Attempt α} {f : α → Attempt β}
    {Q : Except RoutingError β → List Answered → Prop} :
    Records (attempt >>= f).run Q ↔ Records attempt.run fun result calls =>
      match result with
      | .ok value => Records (f value).run fun result' calls' => Q result' (calls ++ calls')
      | .error error => Q (.error error) calls := by
  rw [ExceptT.run_bind, records_bind]
  constructor <;> refine fun h => h.mono ?_ <;> rintro (error | value) calls h
  · exact List.append_nil calls ▸ records_done.1 h
  · exact h
  · refine records_done.2 ?_
    rw [List.append_nil]
    exact h
  · exact h

/-- Taking the answer of a script under another error makes no further call. -/
theorem records_run_mapError {ε : Type} {f : ε → RoutingError} {script : Script (Except ε α)}
    {Q : Except RoutingError α → List Answered → Prop} :
    Records (ExceptT.mk do return (← script).mapError f : Attempt α).run Q ↔
      Records script fun answer calls => Q (answer.mapError f) calls := by
  refine records_bind.trans ?_
  constructor <;> refine fun h => h.mono fun answer calls h => ?_
  · exact List.append_nil calls ▸ records_done.1 h
  · exact records_done.2 ((List.append_nil calls).symm ▸ h)

theorem records_run_store {script : Script (Except Fault α)}
    {Q : Except RoutingError α → List Answered → Prop} : Records (Attempt.store script).run Q ↔
      Records script fun answer calls => Q (answer.mapError .store) calls :=
  records_run_mapError

/-! ## Executions and their calls -/

end Script

namespace Behavior

variable {W : Type}

/-- Whether all calls may be answered so, one after another. -/
def AllowsAll (b : Behavior W) : W → List Answered → Prop
  | _, [] => True
  | w, answered :: rest =>
    b.allows w answered.call answered.answer ∧
      b.AllowsAll (b.after w answered.call answered.answer) rest

/-- The state once all calls were answered so. -/
def replay (b : Behavior W) (w : W) (calls : List Answered) : W :=
  calls.foldl (fun w answered => b.after w answered.call answered.answer) w

theorem replay_append (b : Behavior W) (w : W) (first second : List Answered) :
    b.replay w (first ++ second) = b.replay (b.replay w first) second :=
  List.foldl_append

theorem allowsAll_append {b : Behavior W} {w : W} {first second : List Answered} :
    b.AllowsAll w (first ++ second) ↔
      b.AllowsAll w first ∧ b.AllowsAll (b.replay w first) second := by
  induction first generalizing w with
  | nil => exact (and_iff_right trivial).symm
  | cons answered first ih =>
    rw [List.cons_append, AllowsAll, AllowsAll, ih, and_assoc]
    exact Iff.rfl

end Behavior

namespace Script

variable {α β W : Type} {b : Behavior W}

/-- An execution is a trace of calls that may be answered so, one after another. -/
theorem reaches_iff {s t : Script α} {w w' : W} :
    Reaches b s w t w' ↔
      ∃ calls, Traces s calls t ∧ b.AllowsAll w calls ∧ b.replay w calls = w' := by
  constructor
  · intro h
    induction h with
    | here => exact ⟨[], .here _, trivial, rfl⟩
    | next allowed _ ih =>
      obtain ⟨calls, traces, all, replayed⟩ := ih
      exact ⟨_ :: calls, .next traces, ⟨allowed, all⟩, replayed⟩
  · rintro ⟨calls, traces, all, rfl⟩
    induction traces generalizing w with
    | here => exact .here _ _
    | next _ ih => exact .next all.1 (ih all.2)

/-! ## What a script ensures -/

theorem Ensures.mono {Q R : α → W → Prop} {script : Script α} {w : W}
    (h : Ensures b script Q w) (imp : ∀ value w', Q value w' → R value w') :
    Ensures b script R w := by
  induction script generalizing w with
  | done value => exact imp _ _ h
  | call c next ih => exact fun answer allowed => ih answer (h answer allowed)

/-- What a script ensures is what holds of all executions that end. -/
theorem ensures_iff {Q : α → W → Prop} {script : Script α} {w : W} :
    Ensures b script Q w ↔ ∀ value w', Ends b script w value w' → Q value w' := by
  induction script generalizing w with
  | done value =>
    constructor
    · rintro h value' w' hr
      cases hr
      exact h
    · exact fun h => h _ _ (.here _ _)
  | call c next ih =>
    constructor
    · rintro h value w' hr
      cases hr with
      | next allowed hr => exact (ih _).1 (h _ allowed) value w' hr
    · exact fun h answer allowed =>
        (ih answer).2 fun value w' hr => h value w' (.next allowed hr)

theorem Ensures.ends {Q : α → W → Prop} {script : Script α} {w w' : W} {value : α}
    (h : Ensures b script Q w) (ends : Ends b script w value w') : Q value w' :=
  ensures_iff.1 h value w' ends

@[simp] theorem ensures_done {Q : α → W → Prop} {value : α} {w : W} :
    Ensures b (done value) Q w ↔ Q value w :=
  Iff.rfl

@[simp] theorem ensures_pure {Q : α → W → Prop} {value : α} {w : W} :
    Ensures b (pure value) Q w ↔ Q value w :=
  Iff.rfl

@[simp] theorem ensures_ask {c : Call} {Q : c.Answer → W → Prop} {w : W} :
    Ensures b (ask c) Q w ↔ ∀ answer, b.allows w c answer → Q answer (b.after w c answer) :=
  Iff.rfl

/-- A sequence ensures what its first part leads to. -/
@[simp] theorem ensures_bind {Q : β → W → Prop} {script : Script α} {f : α → Script β} {w : W} :
    Ensures b (script >>= f) Q w ↔
      Ensures b script (fun value w' => Ensures b (f value) Q w') w := by
  change Ensures b (bind script f) Q w ↔ _
  induction script generalizing w with
  | done value => exact Iff.rfl
  | call c next ih => exact forall₂_congr fun answer _ => ih answer

/-- A call is made before what follows it. -/
theorem ensures_ask_bind {c : Call} {Q : α → W → Prop} {f : c.Answer → Script α} {w : W} :
    Ensures b (ask c >>= f) Q w ↔
      ∀ answer, b.allows w c answer → Ensures b (f answer) Q (b.after w c answer) :=
  Iff.rfl

/-! ## Attempts -/

/-- After an error the rest of an attempt is left out. -/
@[simp] theorem ensures_run_bind {Q : Except RoutingError β → W → Prop} {attempt : Attempt α}
    {f : α → Attempt β} {w : W} :
    Ensures b (attempt >>= f).run Q w ↔ Ensures b attempt.run (fun result w' =>
      match result with
      | .ok value => Ensures b (f value).run Q w'
      | .error error => Q (.error error) w') w := by
  rw [ExceptT.run_bind, ensures_bind]
  constructor <;> refine fun h => h.mono ?_ <;> rintro (error | value) w' h <;> exact h

@[simp] theorem ensures_run_pure {Q : Except RoutingError α → W → Prop} {value : α} {w : W} :
    Ensures b (pure value : Attempt α).run Q w ↔ Q (.ok value) w :=
  Iff.rfl

@[simp] theorem ensures_run_lift {Q : Except RoutingError α → W → Prop} {script : Script α}
    {w : W} : Ensures b (ExceptT.lift script : Attempt α).run Q w ↔
      Ensures b script (fun value w' => Q (.ok value) w') w := by
  rw [ExceptT.run_lift, map_eq_pure_bind, ensures_bind]
  rfl

@[simp] theorem ensures_run_store {Q : Except RoutingError α → W → Prop}
    {script : Script (Except Fault α)} {w : W} : Ensures b (Attempt.store script).run Q w ↔
      Ensures b script (fun answer w' => Q (answer.mapError .store) w') w :=
  ensures_bind

@[simp] theorem ensures_run_action {Q : Except RoutingError α → W → Prop}
    {script : Script (Except Fault α)} {w : W} : Ensures b (Attempt.action script).run Q w ↔
      Ensures b script (fun answer w' => Q (answer.mapError .action) w') w :=
  ensures_bind

@[simp] theorem ensures_run_transport {Q : Except RoutingError α → W → Prop}
    {script : Script (Except TransportFailure α)} {w : W} :
    Ensures b (Attempt.transport script).run Q w ↔
      Ensures b script (fun answer w' => Q (answer.mapError .transport) w') w :=
  ensures_bind

end Script

end Feedkeeper
