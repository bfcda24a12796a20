import Feedkeeper.Proofs.Effects
import Mathlib.Data.List.Nodup

/-!
# The budget of a routing

A routing saves, announces, acknowledges and joins at most once each, in this order, and has no
other effect. `Routing.Budget` says so of its calls, together with what its result tells about
them : if it comes out well, an event that is not consumed was acknowledged ; if it fails, it may
be tried again, and the event was acknowledged only if the join failed. `route_within_budget` :
every routing keeps to this, however its calls are answered.
-/

namespace Feedkeeper

open Script

namespace Routing

/-- The effects that a routing may have, in the order in which it may have them. -/
def effectOrder : List Call.Kind :=
  [.saveNotice, .announceNotice, .acknowledge, .joinAuthorization]

/-- What a routing of the event that ended with the result may have called. -/
structure Budget (event : Event) (result : Except RoutingError Verdict) (calls : List Answered) :
    Prop where
  once : ∀ kind ∈ effectOrder, calls.countP (·.call.kind? == some kind) ≤ 1
  /-- Nothing else has an effect, and these come in order. -/
  order : ((calls.filter Answered.isEffect).map (·.call.kind?)).Sublist (effectOrder.map some)
  consumed : event.consumed = true → ∀ answered ∈ calls, answered.isEffect = true →
    answered.call.kind? = some .joinAuthorization
  acknowledged : ∀ verdict, result = .ok verdict → event.consumed = false →
    calls.filter (·.call.kind? == some .acknowledge) = [⟨.acknowledge event.id, .ok ()⟩]
  unjoined : ∀ fault, result = .error (.action fault) →
    (∃ request, ⟨.joinAuthorization request, .error fault⟩ ∈ calls) ∧
      (event.consumed = true ∨ ⟨.acknowledge event.id, .ok ()⟩ ∈ calls)
  unacknowledged : ∀ error, result = .error error → (∀ fault, error ≠ .action fault) →
    ∀ id, ⟨.acknowledge id, .ok ()⟩ ∉ calls
  transient : ∀ error, result = .error error → error.isTransient = true
  /-- With `order`, a notice is saved before it is announced. -/
  saved : ∀ notice, ⟨.announceNotice notice, ()⟩ ∈ calls → ⟨.saveNotice notice, .ok ()⟩ ∈ calls
  /-- With `order`, the event is acknowledged before the join, now or by an earlier routing. -/
  settled : ∀ request answer, ⟨.joinAuthorization request, answer⟩ ∈ calls →
    event.consumed = true ∨ ⟨.acknowledge event.id, .ok ()⟩ ∈ calls

variable {event : Event} {result : Except RoutingError Verdict} {calls effects : List Answered}
  {answered : Answered} {kind : Call.Kind}

/-! ## The effects among the calls -/

theorem isEffect_of_mem_effectOrder (has : answered.call.kind? = some kind)
    (mem : kind ∈ effectOrder) : answered.isEffect = true := by
  unfold Answered.isEffect
  split <;> first | rfl | (cases has <;> exact absurd mem (by decide))

/-- The calls of a kind are the effects of that kind. -/
theorem filter_kind (mem : kind ∈ effectOrder) : calls.filter (·.call.kind? == some kind) =
    (calls.filter Answered.isEffect).filter (·.call.kind? == some kind) := by
  rw [List.filter_filter]
  refine List.filter_congr fun answered _ => ?_
  rw [Bool.eq_iff_iff, Bool.and_eq_true]
  exact ⟨fun h => ⟨h, isEffect_of_mem_effectOrder (beq_iff_eq.1 h) mem⟩, And.left⟩

/-! ## What the effects keep to -/

theorem Effects.order (h : Effects event result effects) :
    (effects.map (·.call.kind?)).Sublist (effectOrder.map some) := by
  cases h <;> exact List.isSublist_iff_sublist.1 rfl

theorem Effects.once (h : Effects event result effects) (kind : Call.Kind) :
    effects.countP (·.call.kind? == some kind) ≤ 1 := by
  have le := h.order.count_le (some kind)
  rw [List.count, List.countP_map] at le
  exact Nat.le_trans le (List.nodup_iff_count_le_one.1 (by decide) (some kind))

theorem Effects.joins_of_consumed (h : Effects event result effects)
    (consumed : event.consumed = true) :
    ∀ answered ∈ effects, answered.call.kind? = some .joinAuthorization := by
  cases h <;> simp_all [Call.kind?]

theorem Effects.acknowledged_of_ok {verdict : Verdict} (h : Effects event (.ok verdict) effects)
    (unconsumed : event.consumed = false) :
    effects.filter (·.call.kind? == some .acknowledge) = [⟨.acknowledge event.id, .ok ()⟩] := by
  cases h with
  | spared consumed | joinedLater consumed => exact absurd consumed (by simp [unconsumed])
  | acknowledged | joined | noticed => rfl

theorem Effects.of_action {fault : Fault} (h : Effects event (.error (.action fault)) effects) :
    (∃ request, ⟨.joinAuthorization request, .error fault⟩ ∈ effects) ∧
      (event.consumed = true ∨ ⟨.acknowledge event.id, .ok ()⟩ ∈ effects) := by
  cases h with
  | failed fromLookup => exact fromLookup.elim
  | @unjoined request => exact ⟨⟨request, by simp⟩, .inr (by simp)⟩
  | @unjoinedLater request _ consumed => exact ⟨⟨request, by simp⟩, .inl consumed⟩

theorem Effects.not_acknowledged {error : RoutingError} (h : Effects event (.error error) effects)
    (other : ∀ fault, error ≠ .action fault) (id : String) :
    ⟨.acknowledge id, .ok ()⟩ ∉ effects := by
  cases h with
  | unjoined | unjoinedLater => exact absurd rfl (other _)
  | failed | unacknowledged | unsaved | unfinished => simp

theorem Effects.isTransient {error : RoutingError} (h : Effects event (.error error) effects) :
    error.isTransient = true := by
  cases h with
  | failed fromLookup => cases error <;> first | rfl | exact fromLookup.elim
  | _ => rfl

theorem Effects.saved {notice : Notice} (h : Effects event result effects)
    (announced : ⟨.announceNotice notice, ()⟩ ∈ effects) :
    ⟨.saveNotice notice, .ok ()⟩ ∈ effects := by
  cases h <;> simp_all

theorem Effects.settled {request : Group.Request} {answer : Except Fault Unit}
    (h : Effects event result effects) (joined : ⟨.joinAuthorization request, answer⟩ ∈ effects) :
    event.consumed = true ∨ ⟨.acknowledge event.id, .ok ()⟩ ∈ effects := by
  cases h <;> simp_all

end Routing

/-- However its calls are answered, a routing keeps to the budget. -/
theorem route_within_budget (event : Event) :
    (Routing.route event).run.Records (Routing.Budget event) := by
  refine (Routing.records_route event).mono fun result calls effects => ?_
  have made {answered : Answered} (isEffect : answered.isEffect = true) :
      answered ∈ calls ↔ answered ∈ calls.filter Answered.isEffect :=
    ⟨fun mem => List.mem_filter.2 ⟨mem, isEffect⟩, List.mem_of_mem_filter⟩
  exact {
    once := fun kind mem => by
      rw [List.countP_eq_length_filter, Routing.filter_kind mem, ← List.countP_eq_length_filter]
      exact effects.once kind
    order := effects.order
    consumed := fun consumed answered mem isEffect =>
      effects.joins_of_consumed consumed answered ((made isEffect).1 mem)
    acknowledged := by
      rintro verdict rfl unconsumed
      rw [Routing.filter_kind (by decide)]
      exact effects.acknowledged_of_ok unconsumed
    unjoined := by
      rintro fault rfl
      obtain ⟨⟨request, failed⟩, consumed⟩ := effects.of_action
      exact ⟨⟨request, (made rfl).2 failed⟩, consumed.imp_right (made rfl).2⟩
    unacknowledged := by
      rintro error rfl other id mem
      exact effects.not_acknowledged other id ((made rfl).1 mem)
    transient := by
      rintro error rfl
      exact effects.isTransient
    saved := fun notice mem => (made rfl).2 (effects.saved ((made rfl).1 mem))
    settled := fun request answer mem =>
      (effects.settled ((made rfl).1 mem)).imp_right (made rfl).2 }

end Feedkeeper
