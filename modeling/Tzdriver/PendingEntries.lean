import Mathlib.Logic.Function.Basic

/-!
# Pending entries

`core/smc_smp.c`: a thread that sends an SMC puts an entry for itself into `g_pending_head`, and the
notify workers look entries up by thread id, store to them and wake their threads, while these may
be leaving already. An entry belongs to everybody who counts in `users`; the one who takes the counter to
zero frees it. Each section under `g_pend_lock`, each operation on an atomic and each `kfree` is a step
of its own.

A worker in `tc_notify_set_affinity` holds one entry while `smc_wakeup_ca` looks up another, so a thread
has two frames for what it found besides the one for its own entry. `fault` is set by an access to an
entry that is freed, by a `list_del` of one that is not in the list and by a counter below zero. The
CPU masks of the entries are left out.
-/

namespace PendingEntries

open Function

abbrev EntryPtr := Nat

/-- `struct pending_entry`. -/
structure Entry (Thread : Type*) where
  task : Thread
  users : Nat
  run : Nat

/-- The local variables that point to an entry. -/
inductive Frame where
  | own
  | outer
  | inner
  deriving DecidableEq, Repr

/-- What a frame does with its entry. A `found` entry was looked up for that thread id. -/
inductive Use where
  | idle
  | linked (pe : EntryPtr)
  | unlinked (pe : EntryPtr)
  | found (pe : EntryPtr) (pid : Int)
  | freeing (pe : EntryPtr)
  deriving DecidableEq, Repr

/-- The entry the frame has. -/
def Use.ref : Use → Option EntryPtr
  | .linked pe | .unlinked pe | .found pe _ | .freeing pe => some pe
  | .idle => none

structure Sys (Thread : Type*) where
  entries : EntryPtr → Option (Entry Thread)
  gPendingHead : List EntryPtr
  taskUsage : Thread → Nat
  uses : Thread × Frame → Use
  fault : Bool

inductive Act (Thread : Type*) where
  | initPendingEntry (t : Thread) (pe : EntryPtr)
  | clearRun (t : Thread)
  | listDel (t : Thread)
  | findPendingEntry (r : Thread × Frame) (pid : Int)
  | wake (r : Thread × Frame) (which : Nat)
  | putPendingEntry (r : Thread × Frame)
  | kfree (r : Thread × Frame)
  | foreachPendingEntry (word : Nat)
  deriving DecidableEq, Repr

section Model

variable {Thread : Type*} [DecidableEq Thread] (pid : Thread → Int)

def Sys.init : Sys Thread := ⟨fun _ => none, [], fun _ => 0, fun _ => .idle, false⟩

def Sys.setUse (s : Sys Thread) (r : Thread × Frame) (u : Use) : Sys Thread :=
  { s with uses := update s.uses r u }

def Sys.setEntry (s : Sys Thread) (pe : EntryPtr) (x : Option (Entry Thread)) : Sys Thread :=
  { s with entries := update s.entries pe x }

def Sys.broken (s : Sys Thread) : Sys Thread := { s with fault := true }

/-- `atomic_set(&pe->run, which)`. -/
def Sys.setRun (s : Sys Thread) (which : Nat) (pe : EntryPtr) : Sys Thread :=
  match s.entries pe with
  | none => s.broken
  | some x => s.setEntry pe (some { x with run := which })

/-- The loop of `find_pending_entry`; `none`: it reads an entry or a task that is gone. -/
def Sys.search (s : Sys Thread) (wanted : Int) : List EntryPtr → Option (Option EntryPtr)
  | [] => some none
  | pe :: rest =>
    match s.entries pe with
    | none => none
    | some x =>
      if s.taskUsage x.task = 0 then none
      else if pid x.task = wanted then some (some pe)
      else s.search wanted rest

/-- `init_pending_entry`, where `kzalloc` returns `pe`. -/
def Sys.initPendingEntry (s : Sys Thread) (t : Thread) (pe : EntryPtr) : Sys Thread :=
  { s with
    entries := update s.entries pe (some ⟨t, 1, 0⟩)
    gPendingHead := s.gPendingHead ++ [pe]
    taskUsage := update s.taskUsage t (s.taskUsage t + 1)
    uses := update s.uses (t, .own) (.linked pe) }

/-- `find_pending_entry`. -/
def Sys.findPendingEntry (s : Sys Thread) (r : Thread × Frame) (wanted : Int) : Sys Thread :=
  match s.search pid wanted s.gPendingHead with
  | none => s.broken
  | some none => s
  | some (some pe) =>
    match s.entries pe with
    | none => s.broken
    | some x => (s.setEntry pe (some { x with users := x.users + 1 })).setUse r (.found pe wanted)

/-- `put_pending_entry` up to the test. -/
def Sys.putPendingEntry (s : Sys Thread) (r : Thread × Frame) (pe : EntryPtr) : Sys Thread :=
  match s.entries pe with
  | none => s.broken
  | some x =>
    match x.users with
    | 0 => s.broken
    | n + 1 => (s.setEntry pe (some { x with users := n })).setUse r
        (if n = 0 then .freeing pe else .idle)

/-- The end of `put_pending_entry`. -/
def Sys.kfree (s : Sys Thread) (r : Thread × Frame) (pe : EntryPtr) : Sys Thread :=
  match s.entries pe with
  | none => s.broken
  | some x =>
    match s.taskUsage x.task with
    | 0 => s.broken
    | n + 1 => { (s.setEntry pe none).setUse r .idle with
        taskUsage := update s.taskUsage x.task n }

def step (s : Sys Thread) : Act Thread → Option (Sys Thread)
  | .initPendingEntry t pe =>
    if s.uses (t, .own) = .idle ∧ s.entries pe = none then some (s.initPendingEntry t pe) else none
  | .clearRun t =>
    match s.uses (t, .own) with
    | .linked pe => some (s.setRun 0 pe)
    | _ => none
  | .listDel t =>
    match s.uses (t, .own) with
    | .linked pe =>
      if (s.entries pe).isSome ∧ pe ∈ s.gPendingHead then
        some { s.setUse (t, .own) (.unlinked pe) with gPendingHead := s.gPendingHead.erase pe }
      else some s.broken
    | _ => none
  | .findPendingEntry r wanted =>
    if r.2 ≠ .own ∧ s.uses r = .idle then some (s.findPendingEntry pid r wanted) else none
  | .wake r which =>
    match s.uses r with
    | .found pe _ => some (s.setRun which pe)
    | _ => none
  | .putPendingEntry r =>
    match s.uses r with
    | .found pe _ | .unlinked pe => some (s.putPendingEntry r pe)
    | _ => none
  | .kfree r =>
    match s.uses r with
    | .freeing pe => some (s.kfree r pe)
    | _ => none
  | .foreachPendingEntry word => some (s.gPendingHead.foldl (fun s pe => s.setRun word pe) s)

end Model

end PendingEntries
