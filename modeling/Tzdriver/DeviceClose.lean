import Tzdriver.AgentList
import Tzdriver.SessionCounts

/-!
# Closing a device file

`tc_client_close` in `core/tc_client_driver.c` over the session tables of `SessionManager`
and the agents of `AgentList`. A teecd that exits takes a path of its own, which leaves the
sessions alone; everybody else goes through `tc_ns_client_close`, where a kernel thread
closes the sessions while other calls go on, and the device is freed by the step that ends
it. Without unclosed sessions, or when the thread cannot be created, the device is freed at
once.

`del_dev_node` takes the device off a list that is not modelled, and the two ways in which
the record itself is freed are both `Heap.freeDev`.
-/

namespace DeviceClose

open Function ActionSystem AgentList RefLedger
open SessionManager hiding Sys Act step

variable {Dev Uuid Tid : Type*}

/-- Who closes the file: `g_teecd_task` with uid 0, a task with `PF_EXITING`, and whether
`kthread_create` succeeds. -/
structure Closer where
  teecd : Bool := false
  exiting : Bool := false
  kthread : Bool := true
  deriving DecidableEq, Repr

structure Sys (Dev Uuid Tid : Type*) where
  tables : SessionManager.Sys Dev Uuid Tid
  agents : Agents Dev

def Sys.init : Sys Dev Uuid Tid := ⟨SessionManager.Sys.init, {}⟩

inductive Act (Dev Uuid Tid : Type*) where
  | table (a : SessionManager.Act Dev Uuid Tid)
  | agent (a : AgentList.Act Dev)
  | close (t : Tid) (d : Dev) (closer : Closer)
  deriving DecidableEq, Repr

section Model

/-- The device of the thread that is at the end of `close_session_thread_fn`. -/
def finishing (s : SessionManager.Sys Dev Uuid Tid) (t : Tid) : Option Dev :=
  match s.threads t with
  | .fdSlot d =>
    match s.heap.closing d with
    | some index => if index < servicesMaxCount then none else some d
    | none => none
  | _ => none

def ifExistUnclosedSession (m : Heap Dev Uuid Tid) (d : Dev) : Bool :=
  (List.finRange servicesMaxCount).any fun i =>
    (m.services d i).any fun v => !(m.sessionList v).isEmpty

/-- Teecd exits and the file is one of its own. -/
def Closer.daemon (closer : Closer) : Bool := closer.teecd && closer.exiting

variable [DecidableEq Dev]

/-- `free_dev`. -/
def Sys.freeDev (s : Sys Dev Uuid Tid) (d : Dev) (list : List (Agent Dev)) : Sys Dev Uuid Tid where
  tables := { s.tables with heap := s.tables.heap.freeDev d }
  agents := { s.agents with list := teeAgentClearDevOwner d list }

/-- `teec_daemon_close`. -/
def Sys.teecDaemonClose (s : Sys Dev Uuid Tid) (d : Dev) : Sys Dev Uuid Tid :=
  { s with tables := { s.tables with heap := s.tables.heap.freeDev d } }

variable [DecidableEq Uuid] [DecidableEq Tid]

/-- The branches of `tc_client_close`. -/
def tcClientClose (s : Sys Dev Uuid Tid) (t : Tid) (d : Dev) (closer : Closer) :
    Option (Sys Dev Uuid Tid) :=
  if closer.daemon then
    if isSystemAgent d s.agents.list then
      some (s.freeDev d (respondFor true d s.agents.list))
    else some (s.teecDaemonClose d)
  else if ifExistUnclosedSession s.tables.heap d && closer.kthread then
    (SessionManager.step s.tables (.release t d)).map fun tables => { s with tables := tables }
  else some (s.freeDev d (respondFor false d s.agents.list))

def step (s : Sys Dev Uuid Tid) : Act Dev Uuid Tid → Option (Sys Dev Uuid Tid)
  | .table (.release _ _) => none
  | .table (.run t env) =>
    (SessionManager.step s.tables (.run t env)).map fun tables =>
      { tables := tables
        agents := match finishing s.tables t with
          | some d => { s.agents with
              list := teeAgentClearDevOwner d (respondFor false d s.agents.list) }
          | none => s.agents }
  | .table a => (SessionManager.step s.tables a).map fun tables => { s with tables := tables }
  | .agent (.register owner id uid size) =>
    -- an ioctl on a file that is open
    if owner.all fun d => (s.tables.heap.calls d).isSome && (s.tables.heap.closing d).isNone then
      (agentStep s.agents (.register owner id uid size)).map fun agents =>
        { s with agents := agents }
    else none
  | .agent a => (agentStep s.agents a).map fun agents => { s with agents := agents }
  -- no call on the file is in progress
  | .close t d closer =>
    if s.tables.threads t = .idle ∧ s.tables.heap.calls d = some 0 ∧
        s.tables.heap.closing d = none ∧ ∀ n ∈ s.agents.pending, n.owner ≠ some d then
      tcClientClose s t d closer
    else none

/-- The device that the step frees. -/
def frees (s : Sys Dev Uuid Tid) : Act Dev Uuid Tid → Option Dev
  | .table (.run t _) => finishing s.tables t
  | .close _ d closer =>
    if closer.daemon || !(ifExistUnclosedSession s.tables.heap d && closer.kthread) then some d
    else none
  | _ => none

/-- What the step needs in order to leave nothing of `d` behind. -/
def CleanFor (s : Sys Dev Uuid Tid) (d : Dev) : Act Dev Uuid Tid → Prop
  | .close _ _ closer =>
    (∀ i, s.tables.heap.services d i = none) ∧ Releasable closer.daemon d s.agents.list
  | _ => Releasable false d s.agents.list

def Clean (s : Sys Dev Uuid Tid) (a : Act Dev Uuid Tid) : Prop :=
  ∀ d ∈ frees s a, CleanFor s d a

instance (s : Sys Dev Uuid Tid) (d : Dev) (a : Act Dev Uuid Tid) : Decidable (CleanFor s d a) :=
  match a with
  | .close _ _ _ => inferInstanceAs (Decidable (_ ∧ _))
  | .table _ | .agent _ => inferInstanceAs (Decidable (Releasable _ _ _))

instance (s : Sys Dev Uuid Tid) (a : Act Dev Uuid Tid) : Decidable (Clean s a) :=
  inferInstanceAs (Decidable (∀ d ∈ frees s a, CleanFor s d a))

end Model

end DeviceClose
