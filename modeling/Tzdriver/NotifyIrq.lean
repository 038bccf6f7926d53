import Mathlib.Algebra.BigOperators.Group.Finset.Basic
import Mathlib.Algebra.Order.BigOperators.Group.Finset
import Mathlib.Data.Fintype.Basic
import Tzdriver.NotifyTable

/-!
# Notifications while the TEE goes on

The notify table with the TEE filling entries at any time and raising the interrupt after that.
`tc_secure_notify` queues the first of its eight works that is not queued already; a work that starts
to run can be queued again. The handler looks at one work at a time while others run.

`unraised` says that the TEE has written since it last raised the interrupt and `irq` that the interrupt
waits for its handler. `posted` is bookkeeping: the entries the TEE has filled.
-/

namespace NotifyTable

open Function ActionSystem

def nWork : Nat := 8

/-- The index with what the handler of the type is given. -/
abbrev Item (Ctx : Type*) := Nat × Option Handler × Ctx

structure IrqState (Ctx : Type*) where
  base : State (Fin nWork) Ctx
  pending : Fin nWork → Bool := fun _ => false
  unraised : Bool := false
  irq : Bool := false
  handler : Option Nat := none
  posted : List (Item Ctx) := []

section Steps

variable {Ctx : Type*} (affinity : Bool) (count : Nat)

def IrqState.start (table : Nat → Entry Ctx) (counters : Meta) : IrqState Ctx :=
  { base := init table counters }

end Steps

/-! ## Nothing is forgotten -/

section Coverage

variable {Ctx : Type*} {affinity : Bool} {count : Nat} {s s' : IrqState Ctx}

/-- A work will be queued or is queued. -/
def Coming (s : IrqState Ctx) : Prop :=
  s.unraised = true ∨ s.irq = true ∨ s.handler = some 0 ∨ ∃ w, s.pending w = true

end Coverage

/-! ## Each notification once -/

section Account

variable {Ctx : Type*} (affinity : Bool) (count : Nat)

def Entry.item (i : Nat) (e : Entry Ctx) : Item Ctx := (i, handlerOf affinity e.entryType, e.context)

def Entry.waiting (i : Nat) (e : Entry Ctx) : Multiset (Item Ctx) :=
  if e.filled then {e.item affinity i} else 0

def Worker.held : Worker Ctx → Multiset (Item Ctx)
  | .holding i copy => {copy.item affinity i}
  | _ => 0

def Event.item : Event Ctx → Multiset (Item Ctx)
  | .dispatched i h context => {(i, some h, context)}
  | _ => 0

variable {affinity count} {s s' : IrqState Ctx} {M ι X : Type*}

end Account

/-! ## Runs -/

section Runs

variable {Ctx : Type*} {affinity : Bool} {count : Nat} {s : IrqState Ctx}

/-- The TEE has raised the interrupt after its last write, and the driver has nothing to do. -/
structure Quiet (s : IrqState Ctx) : Prop where
  raised : s.unraised = false
  noIrq : s.irq = false
  noHandler : s.handler = none
  noPending : ∀ w, s.pending w = false
  ended : ∀ w, s.base.workers w = .idle ∨ s.base.workers w = .ended

theorem Quiet.idle (quiet : Quiet s) {P : Fin nWork → Prop}
    (busy : ∀ w, P w → s.base.workers w ≠ .idle ∧ s.base.workers w ≠ .ended) :
    ¬ (Coming s ∨ ∃ w, P w) := by
  rintro ((unraised | irq | first | ⟨w, pending⟩) | ⟨w, working⟩)
  · rw [quiet.raised] at unraised
    cases unraised
  · rw [quiet.noIrq] at irq
    cases irq
  · rw [quiet.noHandler] at first
    cases first
  · rw [quiet.noPending] at pending
    cases pending
  · rcases quiet.ended w with idle | ended
    · exact (busy w working).1 idle
    · exact (busy w working).2 ended

end Runs

end NotifyTable
