import Feedkeeper.Testbed.Basic
import Mathlib.Data.List.Basic

/-!
# Shutdown signals

A signal that was given stays given. Services can give the current signal and make another one the
current one (`Signals.Changes`), and so they do not reach a signal that is only given along with
another : such an heir is given if and only if the other one is (`Signals.Heir`), whatever services
do (`Signals.Changes.heir`).
-/

namespace Feedkeeper

namespace Testbed

namespace Signals

variable {signals signals' : Signals} {signal other parent child : Nat}

/-! ## Giving a signal -/

@[simp] theorem current_give (signals : Signals) (signal : Nat) :
    (signals.give signal).current = signals.current := by
  rw [give]
  split <;> rfl

@[simp] theorem next_give (signals : Signals) (signal : Nat) :
    (signals.give signal).next = signals.next := by
  rw [give]
  split <;> rfl

@[simp] theorem heirs_give (signals : Signals) (signal : Nat) :
    (signals.give signal).heirs = signals.heirs := by
  rw [give]
  split <;> rfl

/-- What is given once a signal is given. -/
theorem mem_given_give_iff : other ∈ (signals.give signal).given ↔ other ∈ signals.given ∨
    signal ∉ signals.given ∧ (other = signal ∨ (signal, other) ∈ signals.heirs) := by
  rw [give]
  split
  · rename_i given
    simp [List.contains_iff_mem.1 given]
  · rename_i fresh
    have fresh : signal ∉ signals.given := fun mem => fresh (List.contains_iff_mem.2 mem)
    have heirs : other ∈ (signals.heirs.filter (·.1 == signal)).map (·.2) ↔
        (signal, other) ∈ signals.heirs := by
      simp [List.mem_map, List.mem_filter]
    simp only [List.cons_append, List.mem_cons, List.mem_append, heirs]
    tauto

theorem mem_given_give_self (signals : Signals) (signal : Nat) :
    signal ∈ (signals.give signal).given :=
  mem_given_give_iff.2 ((em _).imp_right fun fresh => ⟨fresh, .inl rfl⟩)

theorem given_subset_give (signals : Signals) (signal : Nat) :
    signals.given ⊆ (signals.give signal).given :=
  fun _ mem => mem_given_give_iff.2 (.inl mem)

/-- A signal that was given need not be given again. -/
theorem give_of_mem (given : signal ∈ signals.given) : signals.give signal = signals := by
  rw [give, if_pos (List.contains_iff_mem.2 given)]

/-! ## Numbers in use -/

/-- All numbers in use are below the next one. -/
structure Sound (signals : Signals) : Prop where
  current : signals.current < signals.next
  given : ∀ signal ∈ signals.given, signal < signals.next
  heirs : ∀ signal heir, (signal, heir) ∈ signals.heirs →
    signal < signals.next ∧ heir < signals.next

namespace Sound

theorem give (sound : signals.Sound) (inUse : signal < signals.next) :
    (signals.give signal).Sound where
  current := by simpa using sound.current
  given other mem := by
    rw [next_give]
    rcases mem_given_give_iff.1 mem with mem | ⟨-, rfl | mem⟩
    · exact sound.given other mem
    · exact inUse
    · exact (sound.heirs signal other mem).2
  heirs := by simpa using sound.heirs

theorem renew (sound : signals.Sound) :
    Sound { signals with current := signals.next, next := signals.next + 1 } where
  current := Nat.lt_succ_self _
  given signal mem := Nat.lt_succ_of_lt (sound.given signal mem)
  heirs signal heir mem :=
    (sound.heirs signal heir mem).imp Nat.lt_succ_of_lt Nat.lt_succ_of_lt

end Sound

/-! ## Heirs -/

/-- Who gives a new heir : the signal that bears it, and all that give that one. -/
theorem mem_heirs_bear_iff {source heir : Nat} : (source, heir) ∈ (signals.bear signal).heirs ↔
    (source, heir) ∈ signals.heirs ∨
      heir = signals.next ∧ (source = signal ∨ (source, signal) ∈ signals.heirs) := by
  have sources : source ∈ signal :: (signals.heirs.filter (·.2 == signal)).map (·.1) ↔
      source = signal ∨ (source, signal) ∈ signals.heirs := by
    simp [List.mem_map, List.mem_filter]
  rw [bear, List.mem_append, or_comm, ← sources]
  simp only [List.mem_map, Prod.mk.injEq]
  constructor
  · rintro (mem | ⟨_, mem, rfl, rfl⟩)
    · exact .inl mem
    · exact .inr ⟨rfl, mem⟩
  · rintro (mem | ⟨rfl, mem⟩)
    · exact .inl mem
    · exact .inr ⟨source, mem, rfl, rfl⟩

theorem mem_given_bear_iff : other ∈ (signals.bear signal).given ↔ other ∈ signals.given ∨
    other = signals.next ∧ signal ∈ signals.given := by
  rw [bear]
  by_cases given : signal ∈ signals.given
  · rw [if_pos (List.contains_iff_mem.2 given), List.mem_cons]
    tauto
  · rw [if_neg fun mem => given (List.contains_iff_mem.1 mem)]
    tauto

theorem Sound.bear (sound : signals.Sound) (inUse : signal < signals.next) :
    (signals.bear signal).Sound where
  current := Nat.lt_succ_of_lt sound.current
  given other mem := by
    rcases mem_given_bear_iff.1 mem with mem | ⟨rfl, -⟩
    · exact Nat.lt_succ_of_lt (sound.given other mem)
    · exact Nat.lt_succ_self _
  heirs source heir mem := by
    rcases mem_heirs_bear_iff.1 mem with mem | ⟨rfl, rfl | mem⟩
    · exact (sound.heirs source heir mem).imp Nat.lt_succ_of_lt Nat.lt_succ_of_lt
    · exact ⟨Nat.lt_succ_of_lt inUse, Nat.lt_succ_self _⟩
    · exact ⟨Nat.lt_succ_of_lt (sound.heirs source signal mem).1, Nat.lt_succ_self _⟩

/-- The second signal is given whenever the first is, and in no other way. -/
structure Heir (parent child : Nat) (signals : Signals) : Prop where
  parent_lt : parent < signals.next
  child_lt : child < signals.next
  parent_ne : parent ≠ child
  current_ne : signals.current ≠ child
  sources : ∀ source,
    (source, child) ∈ signals.heirs ↔ source = parent ∨ (source, parent) ∈ signals.heirs
  given : child ∈ signals.given ↔ parent ∈ signals.given

/-- The signal that is born is an heir. -/
theorem Sound.heir (sound : signals.Sound) (inUse : parent < signals.next) :
    Heir parent signals.next (signals.bear parent) where
  parent_lt := Nat.lt_succ_of_lt inUse
  child_lt := Nat.lt_succ_self _
  parent_ne := Nat.ne_of_lt inUse
  current_ne := Nat.ne_of_lt sound.current
  sources source := by
    have unused : (source, signals.next) ∉ signals.heirs := fun mem =>
      Nat.lt_irrefl _ (sound.heirs source _ mem).2
    have old : parent ≠ signals.next := Nat.ne_of_lt inUse
    simp only [mem_heirs_bear_iff]
    tauto
  given := by
    have unused : signals.next ∉ signals.given := fun mem => Nat.lt_irrefl _ (sound.given _ mem)
    have old : parent ≠ signals.next := Nat.ne_of_lt inUse
    simp only [mem_given_bear_iff]
    tauto

namespace Heir

/-- Any signal may be given but the heir itself. -/
theorem give (heir : Heir parent child signals) (differs : signal ≠ child) :
    Heir parent child (signals.give signal) where
  parent_lt := by simpa using heir.parent_lt
  child_lt := by simpa using heir.child_lt
  parent_ne := heir.parent_ne
  current_ne := by simpa using heir.current_ne
  sources := by simpa using heir.sources
  given := by
    have same := heir.given
    have along := heir.sources signal
    have apart : ¬child = signal := fun same => differs same.symm
    simp only [mem_given_give_iff]
    tauto

theorem renew (heir : Heir parent child signals) :
    Heir parent child { signals with current := signals.next, next := signals.next + 1 } where
  parent_lt := Nat.lt_succ_of_lt heir.parent_lt
  child_lt := Nat.lt_succ_of_lt heir.child_lt
  parent_ne := heir.parent_ne
  current_ne := (Nat.ne_of_lt heir.child_lt).symm
  sources := heir.sources
  given := heir.given

theorem bear (heir : Heir parent child signals) (signal : Nat) :
    Heir parent child (signals.bear signal) where
  parent_lt := Nat.lt_succ_of_lt heir.parent_lt
  child_lt := Nat.lt_succ_of_lt heir.child_lt
  parent_ne := heir.parent_ne
  current_ne := heir.current_ne
  sources source := by
    have along := heir.sources source
    have apart : child ≠ signals.next := Nat.ne_of_lt heir.child_lt
    have apart' : parent ≠ signals.next := Nat.ne_of_lt heir.parent_lt
    simp only [mem_heirs_bear_iff]
    tauto
  given := by
    have same := heir.given
    have apart : child ≠ signals.next := Nat.ne_of_lt heir.child_lt
    have apart' : parent ≠ signals.next := Nat.ne_of_lt heir.parent_lt
    simp only [mem_given_bear_iff]
    tauto

end Heir

/-! ## What services change -/

/-- The second signals are the first after services gave current ones and renewed them. -/
inductive Changes (before : Signals) : Signals → Prop where
  | refl : Changes before before
  | shutDown {after : Signals} (h : Changes before after) :
    Changes before (after.give after.current)
  | renew {after : Signals} (h : Changes before after) :
    Changes before { after with current := after.next, next := after.next + 1 }

namespace Changes

theorem trans {signals'' : Signals} (h : Changes signals signals')
    (h' : Changes signals' signals'') : Changes signals signals'' := by
  induction h' with
  | refl => exact h
  | shutDown _ ih => exact .shutDown ih
  | renew _ ih => exact .renew ih

theorem given_subset (h : Changes signals signals') : signals.given ⊆ signals'.given := by
  induction h with
  | refl => exact List.Subset.refl _
  | shutDown _ ih => exact List.Subset.trans ih (given_subset_give _ _)
  | renew _ ih => exact ih

theorem sound (h : Changes signals signals') (sound : signals.Sound) : signals'.Sound := by
  induction h with
  | refl => exact sound
  | shutDown _ ih => exact ih.give ih.current
  | renew _ ih => exact ih.renew

theorem heir (h : Changes signals signals') (heir : Heir parent child signals) :
    Heir parent child signals' := by
  induction h with
  | refl => exact heir
  | shutDown _ ih => exact ih.give ih.current_ne
  | renew _ ih => exact ih.renew

theorem next_le (h : Changes signals signals') : signals.next ≤ signals'.next := by
  induction h with
  | refl => exact Nat.le_refl _
  | shutDown _ ih => simpa using ih
  | renew _ ih => exact Nat.le_succ_of_le ih

end Changes

end Signals

variable {bed : Testbed} {signal : Nat}

theorem isShutDown_iff : bed.isShutDown signal = true ↔ signal ∈ bed.signals.given :=
  List.contains_iff_mem

/-- A signal that is given is given. -/
@[simp] theorem isShutDown_signal_self (bed : Testbed) (signal : Nat) :
    (bed.signal signal).isShutDown signal = true :=
  isShutDown_iff.2 (Signals.mem_given_give_self _ _)

end Testbed

end Feedkeeper
