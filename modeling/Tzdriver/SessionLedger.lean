import Tzdriver.RefLedger
import Tzdriver.SessionManager

/-!
# What the calls in progress hold

Each position of a call stands for the references and locks it holds (`Held`). Four
ledgers account for the counters of the session manager: `usage` of a service, `usage` of a
session, `service_ref` of a device's table entry, and the calls in progress on a device.
The invariant says that the four ledgers balance, and what each lock protects. Every
operation of the driver on a counter, a list or a table changes one or two references;
this module shows for each of them that the invariant is kept.
-/

namespace SessionManager

open Function RefLedger ActionSystem

/-- How far `close_session_thread_fn` is with the table entry it looks at. -/
inductive FdStage where
  | scan
  | chosen (v : ServicePtr)
  | busy (v : ServicePtr)
  | finished (v : ServicePtr)
  deriving DecidableEq, Repr

structure Held (Dev Uuid : Type*) where
  callDev : Option Dev := none
  fd : Option (Dev × FdStage) := none
  /-- a reference that `get_service` or `tc_ns_service_init` has counted in `usage` -/
  service : Option ServicePtr := none
  /-- the reference of a table entry that `del_service_from_dev` has cleared -/
  handed : Option ServicePtr := none
  /-- a reference counted in `service_ref` -/
  devRef : Option (Dev × ServicePtr) := none
  session : Option SessionPtr := none
  /-- the reference of a session list, after `list_del` -/
  taken : Option SessionPtr := none
  /-- a session that is not yet published -/
  priv : Option SessionPtr := none
  opLock : Option ServicePtr := none
  devLock : Option Dev := none
  absent : Option (Dev × Uuid) := none
  found : Option (ServicePtr × Uuid) := none
  listed : Option (Dev × ServicePtr × SessionPtr) := none

inductive SvcRef (Dev Tid : Type*) where
  | slot (d : Dev) (i : Fin servicesMaxCount)
  | call (t : Tid)
  | handed (t : Tid)
  deriving DecidableEq

inductive SessRef (Tid : Type*) where
  | listed (v : ServicePtr) (e : SessionPtr)
  | call (t : Tid)
  | taken (t : Tid)
  deriving DecidableEq

inductive DevRef (Tid : Type*) where
  | session (v : ServicePtr) (e : SessionPtr)
  | call (t : Tid)
  deriving DecidableEq

variable {Dev Uuid Tid : Type*}

def Undo.held (d : Dev) (v : ServicePtr) : Undo → Held Dev Uuid
  | .noSession => { callDev := some d }
  | .freeSession e => { callDev := some d, priv := some e }
  | .close => { callDev := some d, service := some v, opLock := some v }

def Pc.held : Pc Dev Uuid → Held Dev Uuid
  | idle => {}
  | openLookup d u => { callDev := some d, devLock := some d, absent := some (d, u) }
  | openAdd d u v =>
    { callDev := some d, devLock := some d, absent := some (d, u), service := some v
      found := some (v, u) }
  | openPut d v => { callDev := some d, service := some v }
  | openAlloc d v => { callDev := some d, devRef := some (d, v) }
  | openLock d v e => { callDev := some d, devRef := some (d, v), priv := some e }
  | openCall d v e =>
    { callDev := some d, devRef := some (d, v), priv := some e, opLock := some v }
  | openUnlock d v e => { callDev := some d, opLock := some v, listed := some (d, v, e) }
  | openFree d e => { callDev := some d, priv := some e }
  | delService d v k => { k.held d v with devRef := some (d, v) }
  | delPut d v k => { k.held d v with handed := some v, devLock := some d }
  | closeLock d v _ => { callDev := some d, service := some v }
  | closeFind d v _ => { callDev := some d, service := some v, opLock := some v }
  | closeCall d v e =>
    { callDev := some d, service := some v, opLock := some v, session := some e
      listed := some (d, v, e) }
  | closePut d v e =>
    { callDev := some d, service := some v, opLock := some v, session := some e
      taken := some e, devRef := some (d, v) }
  | closePutOpen d v e =>
    { callDev := some d, service := some v, opLock := some v, taken := some e
      devRef := some (d, v) }
  | closeUnlock d v => { callDev := some d, service := some v, opLock := some v }
  | closePutService d v => { callDev := some d, service := some v }
  | sendFind d v _ => { callDev := some d, service := some v }
  | sendPutService d v e => { callDev := some d, service := some v, session := e }
  | sendCall d e => { callDev := some d, session := some e }
  | fdSlot d => { fd := some (d, .scan) }
  | fdLock d v => { fd := some (d, .chosen v) }
  | fdFind d v => { fd := some (d, .busy v), opLock := some v }
  | fdPut d v e =>
    { fd := some (d, .busy v), opLock := some v, session := some e, taken := some e }
  | fdPutOpen d v e => { fd := some (d, .busy v), opLock := some v, taken := some e }
  | fdPutService d v => { fd := some (d, .finished v) }

/-- Facts about `Held` that hold at every position. -/
structure Held.Shape (x : Held Dev Uuid) : Prop where
  devRef : ∀ d v, x.devRef = some (d, v) → x.callDev = some d
  devLock : ∀ d, x.devLock = some d → x.callDev = some d
  listed : ∀ d v e, x.listed = some (d, v, e) → x.callDev = some d ∧ x.opLock = some v
  absent : ∀ d u, x.absent = some (d, u) → x.devLock = some d
  found : ∀ v u, x.found = some (v, u) → x.service = some v
  pinned : ∀ v, x.opLock = some v → x.service = some v ∨ (∃ d, x.devRef = some (d, v)) ∨
    (∃ d e, x.listed = some (d, v, e)) ∨ ∃ d, x.fd = some (d, .busy v)

theorem Pc.held_shape (pc : Pc Dev Uuid) : pc.held.Shape := by
  cases pc with
  | delService d v k | delPut d v k =>
    cases k <;> constructor <;> simp [Pc.held, Undo.held]
  | _ => constructor <;> simp [Pc.held]

def Held.fdDev (x : Held Dev Uuid) : Option Dev := x.fd.map Prod.fst

section Ledgers

variable (m : Heap Dev Uuid Tid) (h : Tid → Held Dev Uuid)

def svcRef : SvcRef Dev Tid → Option ServicePtr
  | .slot d i => m.slot d i
  | .call t => (h t).service
  | .handed t => (h t).handed

def sessRef : SessRef Tid → Option SessionPtr
  | .listed v e => if e ∈ m.sessionList v then some e else none
  | .call t => (h t).session
  | .taken t => (h t).taken

/-- A device that is being closed is left out of the books. -/
def openOwner (e : SessionPtr) : Option Dev :=
  (m.owner e).filter fun d => (m.closing d).isNone

def devRef : DevRef Tid → Option (Dev × ServicePtr)
  | .session v e => if e ∈ m.sessionList v then (openOwner m e).map (·, v) else none
  | .call t => (h t).devRef

def devCount (k : Dev × ServicePtr) : Option Nat :=
  if (m.closing k.1).isNone then (m.findService k.1 k.2).map (m.serviceRef k.1) else none

def callRef (t : Tid) : Option Dev := (h t).callDev

end Ledgers

/-- What the stage of `close_session_thread_fn` says about the device. -/
def FdOk (m : Heap Dev Uuid Tid) (d : Dev) (index : Nat) : FdStage → Prop
  | .scan => True
  | .chosen v | .busy v => ∃ i : Fin servicesMaxCount, i.val = index ∧ m.services d i = some v
  | .finished v => (∃ i : Fin servicesMaxCount, i.val = index ∧ m.services d i = some v) ∧
      ∀ e ∈ m.sessionList v, m.owner e ≠ some d

structure HeldOk (m : Heap Dev Uuid Tid) (t : Tid) (x : Held Dev Uuid) : Prop where
  op : ∀ v, x.opLock = some v → m.operationLock v = some t
  lock : ∀ d, x.devLock = some d → m.serviceLock d = some t
  priv : ∀ e, x.priv = some e → m.sessionUsage e = some 0
  listed : ∀ d v e, x.listed = some (d, v, e) → e ∈ m.sessionList v ∧ m.owner e = some d
  absent : ∀ d u, x.absent = some (d, u) → ∀ i w, m.services d i = some w → m.uuid w ≠ some u
  found : ∀ v u, x.found = some (v, u) → m.uuid v = some u
  fd : ∀ d st, x.fd = some (d, st) → ∃ index, m.closing d = some index ∧ FdOk m d index st

structure Threads (m : Heap Dev Uuid Tid) (h : Tid → Held Dev Uuid) : Prop where
  held : ∀ t, HeldOk m t (h t)
  shape : ∀ t, (h t).Shape
  privX : Exclusive Held.priv h
  fdX : Exclusive Held.fdDev h

/-- The entry in work has lost sessions already. -/
def FdStage.worksOn (st : FdStage) (v : ServicePtr) : Prop := st = .busy v ∨ st = .finished v

/-- The progress of closing `d`: every entry that still counts has a session of `d`, apart
from the one in work. -/
def Closing (m : Heap Dev Uuid Tid) (h : Tid → Held Dev Uuid) (d : Dev) (index : Nat) : Prop :=
  ∃ t st, (h t).fd = some (d, st) ∧ ∀ (i : Fin servicesMaxCount) v, index ≤ i.val →
    m.services d i = some v → st.worksOn v ∨ ∃ e ∈ m.sessionList v, m.owner e = some d

/-- `g_service_list` has every allocated service once, and one for each uuid. -/
structure ServicesOk (list : List ServicePtr) (usage : ServicePtr → Option Nat)
    (uuid : ServicePtr → Option Uuid) (next : ServicePtr) : Prop where
  listed : ∀ v, v ∈ list ↔ ∃ n, usage v = some n
  nodup : list.Nodup
  used : ∀ v, usage v ≠ some 0
  fresh : ∀ v n, usage v = some n → v < next
  uuid : ∀ v w n k, usage v = some n → usage w = some k → uuid v = uuid w → v = w

structure Inv (m : Heap Dev Uuid Tid) (h : Tid → Held Dev Uuid) : Prop where
  noFault : m.fault = false
  svc : Balanced (svcRef m h) m.usage
  sess : Balanced (sessRef m h) m.sessionUsage
  dev : Balanced (devRef m h) (devCount m)
  call : Balanced (callRef h) m.calls
  threads : Threads m h
  services : ServicesOk m.serviceList m.usage m.uuid m.nextService
  freshSession : ∀ e n, m.sessionUsage e = some n → e < m.nextSession
  slots : ∀ d i j v, m.services d i = some v → m.services d j = some v → i = j
  refs : ∀ d i v, m.closing d = none → m.services d i = some v →
    0 < m.serviceRef d i ∧ m.serviceRef d i ≤ maxRefCount
  nodup : ∀ v, (m.sessionList v).Nodup
  apart : ∀ v w, ∀ e ∈ m.sessionList v, e ∈ m.sessionList w → v = w
  owned : ∀ v, ∀ e ∈ m.sessionList v, ∃ d, m.owner e = some d ∧ ∀ index,
    m.closing d = some index →
      ∃ i : Fin servicesMaxCount, index ≤ i.val ∧ m.services d i = some v
  gone : ∀ d, m.calls d = none → m.closing d = none ∧ ∀ i, m.services d i = none
  closing : ∀ d index, m.closing d = some index →
    m.calls d = some 0 ∧ index ≤ servicesMaxCount ∧ Closing m h d index

namespace ServicesOk

variable {list : List ServicePtr} {usage : ServicePtr → Option Nat}
  {uuid : ServicePtr → Option Uuid} {next v : ServicePtr} {n : Nat}

theorem get (ok : ServicesOk list usage uuid next) (counted : usage v = some n) :
    ServicesOk list (update usage v (some (n + 1))) uuid next := by
  have alive : ∀ w k, update usage v (some (n + 1)) w = some k → ∃ k, usage w = some k := by
    intro w k hk
    by_cases hw : w = v
    · exact ⟨n, by rw [hw, counted]⟩
    · exact ⟨k, by rwa [update_of_ne hw] at hk⟩
  constructor
  · intro w
    rw [ok.listed w]
    by_cases hw : w = v
    · simp [hw, counted]
    · simp [hw]
  · exact ok.nodup
  · intro w
    by_cases hw : w = v
    · simp [hw]
    · simpa [hw] using ok.used w
  · intro w k hk
    obtain ⟨k, hk⟩ := alive w k hk
    exact ok.fresh w k hk
  · intro w z k j hk hj same
    obtain ⟨k, hk⟩ := alive w k hk
    obtain ⟨j, hj⟩ := alive z j hj
    exact ok.uuid w z k j hk hj same

theorem put (ok : ServicesOk list usage uuid next) (counted : usage v = some (n + 1)) :
    ServicesOk (if n = 0 then list.erase v else list)
      (update usage v (if n = 0 then none else some n)) uuid next := by
  have alive : ∀ w k, update usage v (if n = 0 then none else some n) w = some k →
      ∃ k, usage w = some k := by
    intro w k hk
    by_cases hw : w = v
    · exact ⟨n + 1, by rw [hw, counted]⟩
    · exact ⟨k, by rwa [update_of_ne hw] at hk⟩
  constructor
  · intro w
    by_cases zero : n = 0
    · by_cases hw : w = v
      · simp [zero, hw, ok.nodup.not_mem_erase]
      · simp [zero, hw, List.mem_erase_of_ne hw, ok.listed w]
    · by_cases hw : w = v
      · simp [zero, hw, ok.listed v, counted]
      · simp [zero, hw, ok.listed w]
  · split
    · exact ok.nodup.erase v
    · exact ok.nodup
  · intro w
    by_cases hw : w = v
    · rw [hw, update_self]
      split
      · simp
      · rename_i pos
        simpa using pos
    · simpa [hw] using ok.used w
  · intro w k hk
    obtain ⟨k, hk⟩ := alive w k hk
    exact ok.fresh w k hk
  · intro w z k j hk hj same
    obtain ⟨k, hk⟩ := alive w k hk
    obtain ⟨j, hj⟩ := alive z j hj
    exact ok.uuid w z k j hk hj same

theorem unused (ok : ServicesOk list usage uuid next) : usage next = none := by
  cases used : usage next with
  | none => rfl
  | some n => exact absurd (ok.fresh next n used) (lt_irrefl next)

theorem new (ok : ServicesOk list usage uuid next) {u : Uuid}
    (absent : ∀ v ∈ list, uuid v ≠ some u) :
    ServicesOk (list ++ [next]) (update usage next (some 1)) (update uuid next (some u))
      (next + 1) := by
  have unlisted : next ∉ list := by simp [ok.listed, ok.unused]
  have old : ∀ w k, w ≠ next → update usage next (some 1) w = some k →
      usage w = some k ∧ uuid w ≠ some u := by
    intro w k hw hk
    rw [update_of_ne hw] at hk
    exact ⟨hk, absent w ((ok.listed w).2 ⟨k, hk⟩)⟩
  constructor
  · intro w
    by_cases hw : w = next
    · simp [hw]
    · simp [hw, ok.listed w]
  · exact ok.nodup.append (List.nodup_singleton next) (by simpa using unlisted)
  · intro w
    by_cases hw : w = next
    · simp [hw]
    · simpa [hw] using ok.used w
  · intro w k hk
    by_cases hw : w = next
    · exact hw ▸ Nat.lt_succ_self next
    · exact Nat.lt_succ_of_lt (ok.fresh w k (old w k hw hk).1)
  · intro w z k j hk hj same
    by_cases hw : w = next
    · by_cases hz : z = next
      · rw [hw, hz]
      · rw [hw, update_self, update_of_ne hz] at same
        exact absurd same.symm (old z j hz hj).2
    · by_cases hz : z = next
      · rw [hz, update_self, update_of_ne hw] at same
        exact absurd same (old w k hw hk).2
      · rw [update_of_ne hw, update_of_ne hz] at same
        exact ok.uuid w z k j (old w k hw hk).1 (old z j hz hj).1 same

end ServicesOk

section Threads

variable [DecidableEq Tid] {m : Heap Dev Uuid Tid} {h : Tid → Held Dev Uuid} {t : Tid}
  {x y : Held Dev Uuid}

theorem callRef_update (y : Held Dev Uuid) :
    callRef (update h t y) = update (callRef h) t y.callDev := by
  funext u
  by_cases hu : u = t <;> simp [callRef, hu]

theorem callRef_keep (hx : h t = x) (same : y.callDev = x.callDev) :
    callRef (update h t y) = callRef h := by
  rw [callRef_update, same, ← hx]
  exact update_eq_self t (callRef h)

theorem sessRef_update (y : Held Dev Uuid) :
    sessRef m (update h t y) =
      update (update (sessRef m h) (.call t) y.session) (.taken t) y.taken := by
  funext r
  cases r with
  | listed v e => simp [sessRef]
  | call u | taken u => by_cases hu : u = t <;> simp [sessRef, hu]

theorem sessRef_keep (hx : h t = x) (session : y.session = x.session)
    (taken : y.taken = x.taken) : sessRef m (update h t y) = sessRef m h := by
  have hs : sessRef m h (.call t) = y.session := by rw [session, ← hx]; rfl
  have ht : sessRef m h (.taken t) = y.taken := by rw [taken, ← hx]; rfl
  rw [sessRef_update, ← hs, update_eq_self, ← ht, update_eq_self]

theorem sessRef_session (hx : h t = x) (taken : y.taken = x.taken) :
    sessRef m (update h t y) = update (sessRef m h) (.call t) y.session := by
  have ht : update (sessRef m h) (.call t) y.session (.taken t) = y.taken := by
    rw [taken, ← hx]; rfl
  rw [sessRef_update, ← ht, update_eq_self]

theorem sessRef_taken (hx : h t = x) (session : y.session = x.session) :
    sessRef m (update h t y) = update (sessRef m h) (.taken t) y.taken := by
  have hs : sessRef m h (.call t) = y.session := by rw [session, ← hx]; rfl
  rw [sessRef_update, ← hs, update_eq_self]

theorem devRef_update (y : Held Dev Uuid) :
    devRef m (update h t y) = update (devRef m h) (.call t) y.devRef := by
  funext r
  cases r with
  | session v e => simp [devRef]
  | call u => by_cases hu : u = t <;> simp [devRef, hu]

theorem devRef_keep (hx : h t = x) (same : y.devRef = x.devRef) :
    devRef m (update h t y) = devRef m h := by
  have hd : devRef m h (.call t) = y.devRef := by rw [same, ← hx]; rfl
  rw [devRef_update, ← hd, update_eq_self]

variable [DecidableEq Dev]

theorem svcRef_update (y : Held Dev Uuid) :
    svcRef m (update h t y) =
      update (update (svcRef m h) (.call t) y.service) (.handed t) y.handed := by
  funext r
  cases r with
  | slot d i => simp [svcRef]
  | call u | handed u => by_cases hu : u = t <;> simp [svcRef, hu]

theorem svcRef_keep (hx : h t = x) (service : y.service = x.service)
    (handed : y.handed = x.handed) : svcRef m (update h t y) = svcRef m h := by
  have hs : svcRef m h (.call t) = y.service := by rw [service, ← hx]; rfl
  have ht : svcRef m h (.handed t) = y.handed := by rw [handed, ← hx]; rfl
  rw [svcRef_update, ← hs, update_eq_self, ← ht, update_eq_self]

theorem svcRef_service (hx : h t = x) (handed : y.handed = x.handed) :
    svcRef m (update h t y) = update (svcRef m h) (.call t) y.service := by
  have ht : update (svcRef m h) (.call t) y.service (.handed t) = y.handed := by
    rw [handed, ← hx]; rfl
  rw [svcRef_update, ← ht, update_eq_self]

theorem svcRef_handed (hx : h t = x) (service : y.service = x.service) :
    svcRef m (update h t y) = update (svcRef m h) (.handed t) y.handed := by
  have hs : svcRef m h (.call t) = y.service := by rw [service, ← hx]; rfl
  rw [svcRef_update, ← hs, update_eq_self]

omit [DecidableEq Dev] in
/-- A thread changes what it holds, without a new private session or a new closing. -/
theorem Threads.change {m' : Heap Dev Uuid Tid} (threads : Threads m h) (hx : h t = x)
    (priv : ∀ e, y.priv = some e → x.priv = some e) (fd : y.fdDev = x.fdDev) (shape : y.Shape)
    (mine : HeldOk m' t y) (others : ∀ u, u ≠ t → HeldOk m' u (h u)) :
    Threads m' (update h t y) where
  held := (forall_update_iff h fun u z => HeldOk m' u z).2 ⟨mine, others⟩
  shape := (forall_update_iff h fun _ z => z.Shape).2 ⟨shape, fun u _ => threads.shape u⟩
  privX := threads.privX.shrink fun e he => by rw [hx]; exact priv e he
  fdX := threads.fdX.shrink fun d hd => by rw [hx, ← fd]; exact hd

omit [DecidableEq Dev] in
theorem Closing.thread {d : Dev} {index : Nat} (hx : h t = x) (same : y.fd = x.fd)
    (closing : Closing m h d index) : Closing m (update h t y) d index := by
  obtain ⟨u, st, at_, left⟩ := closing
  refine ⟨u, st, ?_, left⟩
  by_cases hu : u = t
  · rw [hu, update_self, same, ← hx, ← hu, at_]
  · rw [update_of_ne hu, at_]

end Threads

section Tables

variable {m : Heap Dev Uuid Tid} {h : Tid → Held Dev Uuid} {d : Dev} {v : ServicePtr}
  {i : Fin servicesMaxCount}

theorem findService_some (found : m.findService d v = some i) : m.services d i = some v := by
  simpa using List.find?_some found

theorem Inv.findService (inv : Inv m h) (slot : m.services d i = some v) :
    m.findService d v = some i := by
  cases found : m.findService d v with
  | none =>
    have absent := List.find?_eq_none.1 found i (List.mem_finRange i)
    simp [slot] at absent
  | some j => rw [inv.slots d i j v slot (findService_some found)]

theorem findService_eq_none : m.findService d v = none ↔ ∀ i, m.services d i ≠ some v := by
  simp [Heap.findService, List.find?_eq_none]

theorem slot_of_steady (steady : m.closing d = none) : m.slot d i = m.services d i := by
  simp [Heap.slot, steady]

theorem slot_of_index {index : Nat} (closing : m.closing d = some index) (late : index ≤ i.val) :
    m.slot d i = m.services d i := by
  simp [Heap.slot, closing, Nat.not_lt.2 late]

theorem Inv.counted (inv : Inv m h) (steady : m.closing d = none)
    (slot : m.services d i = some v) :
    devCount m (d, v) = some (m.serviceRef d i) := by
  simp [devCount, steady, inv.findService slot]

/-- What is counted in `service_ref` has a table entry. -/
theorem Inv.counted_slot (inv : Inv m h) {r : DevRef Tid} (counted : devRef m h r = some (d, v)) :
    m.closing d = none ∧ ∃ i, m.services d i = some v := by
  obtain ⟨n, hn⟩ := inv.dev.valid r _ counted
  simp only [devCount] at hn
  split at hn
  · rename_i steady
    obtain ⟨i, found, _⟩ := Option.map_eq_some_iff.1 hn
    exact ⟨by simpa using steady, i, findService_some found⟩
  · simp at hn

theorem devRef_session {e : SessionPtr} (listed : e ∈ m.sessionList v) (owner : m.owner e = some d)
    (steady : m.closing d = none) : devRef m h (.session v e) = some (d, v) := by
  simp [devRef, listed, openOwner, owner, steady]

/-- A listed session keeps a table entry of its owner. -/
theorem Inv.listed_slot (inv : Inv m h) {e : SessionPtr} (listed : e ∈ m.sessionList v) :
    ∃ d i, m.owner e = some d ∧ m.slot d i = some v := by
  obtain ⟨d, owner, closing⟩ := inv.owned v e listed
  cases hc : m.closing d with
  | none =>
    obtain ⟨_, i, slot⟩ := inv.counted_slot (devRef_session listed owner hc)
    exact ⟨d, i, owner, by rw [slot_of_steady hc, slot]⟩
  | some index =>
    obtain ⟨i, late, slot⟩ := closing index hc
    exact ⟨d, i, owner, by rw [slot_of_index hc late, slot]⟩

theorem Inv.listed_service (inv : Inv m h) {e : SessionPtr} (listed : e ∈ m.sessionList v) :
    ∃ n, m.usage v = some n := by
  obtain ⟨d, i, _, slot⟩ := inv.listed_slot listed
  exact inv.svc.valid (.slot d i) v slot

theorem Inv.listed_session (inv : Inv m h) {e : SessionPtr} (listed : e ∈ m.sessionList v) :
    ∃ n, m.sessionUsage e = some (n + 1) :=
  inv.sess.pos (r := .listed v e) (by simp [sessRef, listed])

/-- A call that holds `operation_lock` keeps the service. -/
theorem Inv.locked_service (inv : Inv m h) {u : Tid} (locked : (h u).opLock = some v) :
    ∃ n, m.usage v = some n := by
  rcases (inv.threads.shape u).pinned v locked with ref | ⟨d, ref⟩ | ⟨d, e, ref⟩ | ⟨d, ref⟩
  · exact inv.svc.valid (.call u) v ref
  · obtain ⟨steady, i, slot⟩ := inv.counted_slot (r := .call u) ref
    exact inv.svc.valid (.slot d i) v ((slot_of_steady steady).trans slot)
  · exact inv.listed_service ((inv.threads.held u).listed d v e ref).1
  · obtain ⟨index, closing, i, hi, slot⟩ := (inv.threads.held u).fd d _ ref
    exact inv.svc.valid (.slot d i) v ((slot_of_index closing hi.ge).trans slot)

end Tables

end SessionManager
