import Mathlib.Logic.Function.Basic
import Tzdriver.ActionSystem

/-!
# Services and sessions

`core/session_manager.c`: the services on `g_service_list`, the sessions on each service's
`session_list`, and the table of services that each device file refers to. The heap is
kept by field, so that `usage v` is `v->usage`; the object `v` is allocated when `usage v`
is not `none`, and `kzalloc` returns pointers that were never used before. `calls d` is the
number of calls in progress on the device file `d`, which is what keeps the file from
being released, and is `none` when the device is not open.

A call's position is its `Pc`. One step is one section under `g_service_list_lock` or
`session_lock`, one update of an atomic counter, or one piece of code under `service_lock`
between two such steps; `service_lock` and `operation_lock` are held across steps and are
part of the heap. `ta_session_lock` only delays steps and is left out. `tc_client_call` has
no effect on the tables. The lookups it makes through `tc_find_session_by_uuid` take and
drop the same references as `tc_ns_send_cmd` does and are not listed apart.

A step that could reach a freed object sets `fault`, which the driver does not have.
-/

namespace SessionManager

open Function

abbrev servicesMaxCount : Nat := 32
def maxRefCount : Nat := 255

abbrev ServicePtr := Nat
abbrev SessionPtr := Nat

/-- What is left to do after `del_service_from_dev`. -/
inductive Undo where
  | noSession
  | freeSession (e : SessionPtr)
  | close
  deriving DecidableEq, Repr

/-- The position in `tc_ns_open_session` (`open…`), `del_service_from_dev` (`del…`),
`tc_ns_close_session` (`close…`), `tc_ns_send_cmd` (`send…`) and
`close_session_thread_fn` (`fd…`). -/
inductive Pc (Dev Uuid : Type*) where
  | idle
  | openLookup (d : Dev) (u : Uuid)
  | openAdd (d : Dev) (u : Uuid) (v : ServicePtr)
  | openPut (d : Dev) (v : ServicePtr)
  | openAlloc (d : Dev) (v : ServicePtr)
  | openLock (d : Dev) (v : ServicePtr) (e : SessionPtr)
  | openCall (d : Dev) (v : ServicePtr) (e : SessionPtr)
  | openUnlock (d : Dev) (v : ServicePtr) (e : SessionPtr)
  | openFree (d : Dev) (e : SessionPtr)
  | delService (d : Dev) (v : ServicePtr) (k : Undo)
  | delPut (d : Dev) (v : ServicePtr) (k : Undo)
  | closeLock (d : Dev) (v : ServicePtr) (id : Nat)
  | closeFind (d : Dev) (v : ServicePtr) (id : Nat)
  | closeCall (d : Dev) (v : ServicePtr) (e : SessionPtr)
  | closePut (d : Dev) (v : ServicePtr) (e : SessionPtr)
  | closePutOpen (d : Dev) (v : ServicePtr) (e : SessionPtr)
  | closeUnlock (d : Dev) (v : ServicePtr)
  | closePutService (d : Dev) (v : ServicePtr)
  | sendFind (d : Dev) (v : ServicePtr) (id : Nat)
  | sendPutService (d : Dev) (v : ServicePtr) (e : Option SessionPtr)
  | sendCall (d : Dev) (e : SessionPtr)
  | fdSlot (d : Dev)
  | fdLock (d : Dev) (v : ServicePtr)
  | fdFind (d : Dev) (v : ServicePtr)
  | fdPut (d : Dev) (v : ServicePtr) (e : SessionPtr)
  | fdPutOpen (d : Dev) (v : ServicePtr) (e : SessionPtr)
  | fdPutService (d : Dev) (v : ServicePtr)
  deriving DecidableEq, Repr

structure Heap (Dev Uuid Tid : Type*) where
  -- struct tc_ns_service
  uuid : ServicePtr → Option Uuid
  usage : ServicePtr → Option Nat
  sessionList : ServicePtr → List SessionPtr
  operationLock : ServicePtr → Option Tid
  serviceList : List ServicePtr
  nextService : ServicePtr
  -- struct tc_ns_session
  sessionId : SessionPtr → Nat
  sessionUsage : SessionPtr → Option Nat
  owner : SessionPtr → Option Dev
  nextSession : SessionPtr
  -- struct tc_ns_dev_file
  services : Dev → Fin servicesMaxCount → Option ServicePtr
  serviceRef : Dev → Fin servicesMaxCount → Nat
  serviceLock : Dev → Option Tid
  calls : Dev → Option Nat
  closing : Dev → Option Nat
  fault : Bool

structure Sys (Dev Uuid Tid : Type*) where
  heap : Heap Dev Uuid Tid
  threads : Tid → Pc Dev Uuid

def Heap.init {Dev Uuid Tid : Type*} : Heap Dev Uuid Tid where
  uuid := fun _ => none
  usage := fun _ => none
  sessionList := fun _ => []
  operationLock := fun _ => none
  serviceList := []
  nextService := 0
  sessionId := fun _ => 0
  sessionUsage := fun _ => none
  owner := fun _ => none
  nextSession := 0
  services := fun _ _ => none
  serviceRef := fun _ _ => 0
  serviceLock := fun _ => none
  calls := fun _ => none
  closing := fun _ => none
  fault := false

def Sys.init {Dev Uuid Tid : Type*} : Sys Dev Uuid Tid := ⟨Heap.init, fun _ => .idle⟩

/-- What a call meets outside the driver: whether `kzalloc` succeeds, and the session id
with which the TEE opens the session, if it does. -/
structure Env where
  alloc : Bool := true
  opened : Option Nat := none
  deriving DecidableEq, Repr

inductive Act (Dev Uuid Tid : Type*) where
  | openDev (d : Dev)
  | openSession (t : Tid) (d : Dev) (u : Uuid)
  | closeSession (t : Tid) (d : Dev) (u : Uuid) (id : Nat)
  | sendCmd (t : Tid) (d : Dev) (u : Uuid) (id : Nat)
  | release (t : Tid) (d : Dev)
  | run (t : Tid) (env : Env)
  deriving DecidableEq, Repr

section Model

variable {Dev Uuid Tid : Type*} [DecidableEq Dev] [DecidableEq Uuid] [DecidableEq Tid]

namespace Heap

omit [DecidableEq Dev] [DecidableEq Uuid] [DecidableEq Tid] in
/-- The services that `d` still refers to: `close_session_thread_fn` drops the references
of its table one by one and does not clear the entries. -/
def slot (m : Heap Dev Uuid Tid) (d : Dev) (i : Fin servicesMaxCount) : Option ServicePtr :=
  match m.closing d with
  | none => m.services d i
  | some index => if i.val < index then none else m.services d i

def getService (m : Heap Dev Uuid Tid) (v : ServicePtr) : Heap Dev Uuid Tid :=
  match m.usage v with
  | none => { m with fault := true }
  | some n => { m with usage := update m.usage v (some (n + 1)) }

def putServiceStruct (m : Heap Dev Uuid Tid) (v : ServicePtr) : Heap Dev Uuid Tid :=
  match m.usage v with
  | none | some 0 => { m with fault := true }
  | some (n + 1) =>
    { m with
      usage := update m.usage v (if n = 0 then none else some n)
      serviceList := if n = 0 then m.serviceList.erase v else m.serviceList }

def getSession (m : Heap Dev Uuid Tid) (e : SessionPtr) : Heap Dev Uuid Tid :=
  match m.sessionUsage e with
  | none => { m with fault := true }
  | some n => { m with sessionUsage := update m.sessionUsage e (some (n + 1)) }

def putSessionStruct (m : Heap Dev Uuid Tid) (e : SessionPtr) : Heap Dev Uuid Tid :=
  match m.sessionUsage e with
  | none | some 0 => { m with fault := true }
  | some (n + 1) =>
    { m with sessionUsage := update m.sessionUsage e (if n = 0 then none else some n) }

def setOperationLock (m : Heap Dev Uuid Tid) (v : ServicePtr) (l : Option Tid) :
    Heap Dev Uuid Tid :=
  { m with operationLock := update m.operationLock v l }

def setServiceLock (m : Heap Dev Uuid Tid) (d : Dev) (l : Option Tid) : Heap Dev Uuid Tid :=
  { m with serviceLock := update m.serviceLock d l }

def setRef (m : Heap Dev Uuid Tid) (d : Dev) (i : Fin servicesMaxCount) (n : Nat) :
    Heap Dev Uuid Tid :=
  { m with serviceRef := update m.serviceRef d (update (m.serviceRef d) i n) }

def setEntry (m : Heap Dev Uuid Tid) (d : Dev) (i : Fin servicesMaxCount)
    (v : Option ServicePtr) (n : Nat) : Heap Dev Uuid Tid :=
  { m.setRef d i n with services := update m.services d (update (m.services d) i v) }

def enter (m : Heap Dev Uuid Tid) (d : Dev) : Heap Dev Uuid Tid :=
  { m with calls := update m.calls d ((m.calls d).map (· + 1)) }

def leave (m : Heap Dev Uuid Tid) (d : Dev) : Heap Dev Uuid Tid :=
  { m with calls := update m.calls d ((m.calls d).map (· - 1)) }

omit [DecidableEq Dev] [DecidableEq Tid] in
/-- The loop of `tc_ref_service_in_dev` and `tc_find_service_in_dev`. -/
def findUuid (m : Heap Dev Uuid Tid) (d : Dev) (u : Uuid) : Option (Fin servicesMaxCount) :=
  (List.finRange servicesMaxCount).find? fun i => (m.services d i).any fun v => m.uuid v = some u

omit [DecidableEq Dev] [DecidableEq Uuid] [DecidableEq Tid] in
/-- The loop of `del_service_from_dev`. -/
def findService (m : Heap Dev Uuid Tid) (d : Dev) (v : ServicePtr) :
    Option (Fin servicesMaxCount) :=
  (List.finRange servicesMaxCount).find? fun i => m.services d i = some v

omit [DecidableEq Dev] [DecidableEq Uuid] [DecidableEq Tid] in
/-- The loop of `add_service_to_dev`. -/
def findEmpty (m : Heap Dev Uuid Tid) (d : Dev) : Option (Fin servicesMaxCount) :=
  (List.finRange servicesMaxCount).find? fun i => (m.services d i).isNone

omit [DecidableEq Uuid] [DecidableEq Tid] in
def tcFindSessionWithowner (m : Heap Dev Uuid Tid) (v : ServicePtr) (id : Nat) (d : Dev) :
    Option SessionPtr :=
  (m.sessionList v).find? fun e => m.sessionId e = id ∧ m.owner e = some d

omit [DecidableEq Uuid] [DecidableEq Tid] in
/-- The first session of `d`, as `tc_find_and_del_session` searches for it. -/
def findOwned (m : Heap Dev Uuid Tid) (v : ServicePtr) (d : Dev) : Option SessionPtr :=
  (m.sessionList v).find? fun e => m.owner e = some d

def listDel (m : Heap Dev Uuid Tid) (v : ServicePtr) (e : SessionPtr) : Heap Dev Uuid Tid :=
  { m with sessionList := update m.sessionList v ((m.sessionList v).erase e) }

/-- `tc_ns_service_init`. -/
def tcNsServiceInit (m : Heap Dev Uuid Tid) (u : Uuid) : Heap Dev Uuid Tid :=
  { m with
    nextService := m.nextService + 1
    uuid := update m.uuid m.nextService (some u)
    usage := update m.usage m.nextService (some 1)
    sessionList := update m.sessionList m.nextService []
    operationLock := update m.operationLock m.nextService none
    serviceList := m.serviceList ++ [m.nextService] }

/-- `kzalloc` of a session. -/
def newSession (m : Heap Dev Uuid Tid) : Heap Dev Uuid Tid :=
  { m with
    nextSession := m.nextSession + 1
    sessionId := update m.sessionId m.nextSession 0
    sessionUsage := update m.sessionUsage m.nextSession (some 0)
    owner := update m.owner m.nextSession none }

def kfreeSession (m : Heap Dev Uuid Tid) (e : SessionPtr) : Heap Dev Uuid Tid :=
  { m with sessionUsage := update m.sessionUsage e none }

def initNewSessNode (m : Heap Dev Uuid Tid) (d : Dev) (v : ServicePtr) (e : SessionPtr)
    (id : Nat) : Heap Dev Uuid Tid :=
  { m with
    sessionId := update m.sessionId e id
    sessionUsage := update m.sessionUsage e (some 1)
    owner := update m.owner e (some d)
    sessionList := update m.sessionList v (m.sessionList v ++ [e]) }

def openDev (m : Heap Dev Uuid Tid) (d : Dev) : Heap Dev Uuid Tid :=
  { m with
    services := update m.services d fun _ => none
    serviceRef := update m.serviceRef d fun _ => 0
    serviceLock := update m.serviceLock d none
    calls := update m.calls d (some 0)
    closing := update m.closing d none }

/-- `free_dev`: the record is cleared and freed. -/
def freeDev (m : Heap Dev Uuid Tid) (d : Dev) : Heap Dev Uuid Tid :=
  { m with
    services := update m.services d fun _ => none
    serviceRef := update m.serviceRef d fun _ => 0
    serviceLock := update m.serviceLock d none
    calls := update m.calls d none
    closing := update m.closing d none }

def setClosing (m : Heap Dev Uuid Tid) (d : Dev) (index : Nat) : Heap Dev Uuid Tid :=
  { m with closing := update m.closing d (some index) }

omit [DecidableEq Dev] [DecidableEq Uuid] [DecidableEq Tid] in
/-- A freed service, or one with a freed session on its list. -/
def badService (m : Heap Dev Uuid Tid) (v : ServicePtr) : Bool :=
  (m.usage v).isNone || (m.sessionList v).any fun e => (m.sessionUsage e).isNone

omit [DecidableEq Dev] [DecidableEq Uuid] [DecidableEq Tid] in
/-- A freed device, or one that refers to a bad service. -/
def badDev (m : Heap Dev Uuid Tid) (d : Dev) : Bool :=
  (m.calls d).isNone ||
    (List.finRange servicesMaxCount).any fun i => (m.slot d i).any fun v => m.badService v

end Heap

namespace Pc

def dev : Pc Dev Uuid → Option Dev
  | idle => none
  | openLookup d _ | openAdd d _ _ | openPut d _ | openAlloc d _ | openLock d _ _
  | openCall d _ _ | openUnlock d _ _ | openFree d _ | delService d _ _ | delPut d _ _
  | closeLock d _ _ | closeFind d _ _ | closeCall d _ _ | closePut d _ _ | closePutOpen d _ _
  | closeUnlock d _ | closePutService d _ | sendFind d _ _ | sendPutService d _ _
  | sendCall d _ | fdSlot d | fdLock d _ | fdFind d _ | fdPut d _ _ | fdPutOpen d _ _
  | fdPutService d _ => some d

/-- The service that the call still has a pointer to. -/
def service : Pc Dev Uuid → Option ServicePtr
  | idle | openLookup _ _ | openFree _ _ | sendCall _ _ | fdSlot _ => none
  | openAdd _ _ v | openPut _ v | openAlloc _ v | openLock _ v _ | openCall _ v _
  | openUnlock _ v _ | delService _ v _ | delPut _ v _ | closeLock _ v _ | closeFind _ v _
  | closeCall _ v _ | closePut _ v _ | closePutOpen _ v _ | closeUnlock _ v
  | closePutService _ v | sendFind _ v _ | sendPutService _ v _ | fdLock _ v | fdFind _ v
  | fdPut _ v _ | fdPutOpen _ v _ | fdPutService _ v => some v

/-- The session that the call still has a pointer to. -/
def session : Pc Dev Uuid → Option SessionPtr
  | openLock _ _ e | openCall _ _ e | openUnlock _ _ e | openFree _ e | closeCall _ _ e
  | closePut _ _ e | closePutOpen _ _ e | sendCall _ e | fdPut _ _ e | fdPutOpen _ _ e
  | delService _ _ (.freeSession e) | delPut _ _ (.freeSession e) => some e
  | sendPutService _ _ e => e
  | _ => none

end Pc

omit [DecidableEq Dev] [DecidableEq Uuid] [DecidableEq Tid] in
/-- The next step of the call could reach a freed object. -/
def Heap.bad (m : Heap Dev Uuid Tid) (pc : Pc Dev Uuid) : Bool :=
  pc.dev.any m.badDev || pc.service.any m.badService ||
    pc.session.any (fun e => (m.sessionUsage e).isNone) || m.serviceList.any m.badService

/-- The end of `del_service_from_dev`. -/
def afterDel (m : Heap Dev Uuid Tid) (d : Dev) (v : ServicePtr) :
    Undo → Heap Dev Uuid Tid × Pc Dev Uuid
  | .noSession => (m.leave d, .idle)
  | .freeSession e => (m, .openFree d e)
  | .close => (m, .closeUnlock d v)

/-- One step of the call at `pc`; `none` while a lock it wants is taken. -/
def run (m : Heap Dev Uuid Tid) (t : Tid) (env : Env) :
    Pc Dev Uuid → Option (Heap Dev Uuid Tid × Pc Dev Uuid)
  | .idle => none
  | .openLookup d u =>
    match m.serviceList.find? fun v => m.uuid v = some u with
    | some v => some (m.getService v, .openAdd d u v)
    | none =>
      if env.alloc then some (m.tcNsServiceInit u, .openAdd d u m.nextService)
      else some ((m.setServiceLock d none).leave d, .idle)
  | .openAdd d _ v =>
    match m.findEmpty d with
    | some i =>
      some ((m.setEntry d i (some v) 1).setServiceLock d none, .openAlloc d v)
    | none => some (m.setServiceLock d none, .openPut d v)
  | .openPut d v => some ((m.putServiceStruct v).leave d, .idle)
  | .openAlloc d v =>
    if env.alloc then some (m.newSession, .openLock d v m.nextSession)
    else some (m, .delService d v .noSession)
  | .openLock d v e =>
    if m.operationLock v = none then some (m.setOperationLock v (some t), .openCall d v e)
    else none
  | .openCall d v e =>
    match env.opened with
    | some id => some (m.initNewSessNode d v e id, .openUnlock d v e)
    | none => some (m.setOperationLock v none, .delService d v (.freeSession e))
  | .openUnlock d v _ => some ((m.setOperationLock v none).leave d, .idle)
  | .openFree d e => some ((m.kfreeSession e).leave d, .idle)
  | .delService d v k =>
    if m.serviceLock d = none then
      match m.findService d v with
      | some i =>
        if m.serviceRef d i = 0 then some (afterDel m d v k)
        else if m.serviceRef d i - 1 = 0 then
          some ((m.setEntry d i none 0).setServiceLock d (some t), .delPut d v k)
        else some (afterDel (m.setRef d i (m.serviceRef d i - 1)) d v k)
      | none => some (afterDel m d v k)
    else none
  | .delPut d v k => some (afterDel ((m.putServiceStruct v).setServiceLock d none) d v k)
  | .closeLock d v id =>
    if m.operationLock v = none then some (m.setOperationLock v (some t), .closeFind d v id)
    else none
  | .closeFind d v id =>
    match m.tcFindSessionWithowner v id d with
    | some e => some (m.getSession e, .closeCall d v e)
    | none => some (m, .closeUnlock d v)
  | .closeCall d v e => some (m.listDel v e, .closePut d v e)
  | .closePut d v e => some (m.putSessionStruct e, .closePutOpen d v e)
  | .closePutOpen d v e => some (m.putSessionStruct e, .delService d v .close)
  | .closeUnlock d v => some (m.setOperationLock v none, .closePutService d v)
  | .closePutService d v => some ((m.putServiceStruct v).leave d, .idle)
  | .sendFind d v id =>
    match m.tcFindSessionWithowner v id d with
    | some e => some (m.getSession e, .sendPutService d v (some e))
    | none => some (m, .sendPutService d v none)
  | .sendPutService d v (some e) => some (m.putServiceStruct v, .sendCall d e)
  | .sendPutService d v none => some ((m.putServiceStruct v).leave d, .idle)
  | .sendCall d e => some ((m.putSessionStruct e).leave d, .idle)
  | .fdSlot d =>
    match m.closing d with
    | none => none
    | some index =>
      if h : index < servicesMaxCount then
        match m.services d ⟨index, h⟩ with
        | some v =>
          if m.sessionList v = [] then some (m.setClosing d (index + 1), .fdSlot d)
          else some (m, .fdLock d v)
        | none => some (m.setClosing d (index + 1), .fdSlot d)
      else some (m.freeDev d, .idle)
  | .fdLock d v =>
    if m.operationLock v = none then some (m.setOperationLock v (some t), .fdFind d v)
    else none
  | .fdFind d v =>
    match m.findOwned v d with
    | some e => some ((m.getSession e).listDel v e, .fdPut d v e)
    | none => some (m.setOperationLock v none, .fdPutService d v)
  | .fdPut d v e => some (m.putSessionStruct e, .fdPutOpen d v e)
  | .fdPutOpen d v e => some (m.putSessionStruct e, .fdFind d v)
  | .fdPutService d v =>
    match m.closing d with
    | none => none
    | some index => some ((m.putServiceStruct v).setClosing d (index + 1), .fdSlot d)

omit [DecidableEq Tid] in
theorem run_idle (m : Heap Dev Uuid Tid) (t : Tid) (env : Env) :
    run m t env .idle = none := by
  simp only [run]

/-- The first section of `find_service`. -/
def startOpen (m : Heap Dev Uuid Tid) (t : Tid) (d : Dev) (u : Uuid) :
    Heap Dev Uuid Tid × Pc Dev Uuid :=
  match m.findUuid d u with
  | some i =>
    if m.serviceRef d i = maxRefCount then (m, .idle)
    else match m.services d i with
      | some v => ((m.setRef d i ((m.serviceRef d i + 1) % 256)).enter d, .openAlloc d v)
      | none => (m, .idle)
  | none => ((m.setServiceLock d (some t)).enter d, .openLookup d u)

/-- `get_service`, and the call's next position when it has found one. -/
def startFound (m : Heap Dev Uuid Tid) (d : Dev) (u : Uuid) (next : ServicePtr → Pc Dev Uuid) :
    Heap Dev Uuid Tid × Pc Dev Uuid :=
  match (m.findUuid d u).bind (m.services d) with
  | some v => ((m.getService v).enter d, next v)
  | none => (m, .idle)

def Sys.go (s : Sys Dev Uuid Tid) (t : Tid) (next : Heap Dev Uuid Tid × Pc Dev Uuid) :
    Sys Dev Uuid Tid :=
  ⟨next.1, update s.threads t next.2⟩

/-- A call may start in an idle thread, on an open device, when `service_lock` is free. -/
def Sys.mayStart (s : Sys Dev Uuid Tid) (t : Tid) (d : Dev) : Prop :=
  s.threads t = .idle ∧ (s.heap.calls d).isSome ∧ s.heap.closing d = none ∧
    s.heap.serviceLock d = none

instance (s : Sys Dev Uuid Tid) (t : Tid) (d : Dev) : Decidable (s.mayStart t d) :=
  inferInstanceAs (Decidable (_ ∧ _ ∧ _ ∧ _))

def Sys.setFault (s : Sys Dev Uuid Tid) : Sys Dev Uuid Tid :=
  { s with heap := { s.heap with fault := true } }

def step (s : Sys Dev Uuid Tid) : Act Dev Uuid Tid → Option (Sys Dev Uuid Tid)
  | .openDev d =>
    if s.heap.calls d = none then some { s with heap := s.heap.openDev d } else none
  | .openSession t d u =>
    if s.mayStart t d then
      if s.heap.badDev d then some s.setFault else some (s.go t (startOpen s.heap t d u))
    else none
  | .closeSession t d u id =>
    if s.mayStart t d then
      if s.heap.badDev d then some s.setFault
      else some (s.go t (startFound s.heap d u (.closeLock d · id)))
    else none
  | .sendCmd t d u id =>
    if s.mayStart t d then
      if s.heap.badDev d then some s.setFault
      else some (s.go t (startFound s.heap d u (.sendFind d · id)))
    else none
  -- the last reference to the file is gone: no call on the device is in progress
  | .release t d =>
    if s.threads t = .idle ∧ s.heap.calls d = some 0 ∧ s.heap.closing d = none then
      some (s.go t (s.heap.setClosing d 0, .fdSlot d))
    else none
  | .run t env =>
    if s.heap.bad (s.threads t) then some s.setFault
    else (run s.heap t env (s.threads t)).map (s.go t)

end Model

end SessionManager
