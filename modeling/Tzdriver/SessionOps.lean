import Tzdriver.SessionLedger

/-!
# Operations that keep the invariant

One lemma for each thing a step can do: take or give back a lock, start or finish a call,
take, move or drop a reference. A step of the driver is one of these or a few in a row.
-/

namespace SessionManager

open Function RefLedger ActionSystem

variable {Dev Uuid Tid : Type*} {m : Heap Dev Uuid Tid} {h : Tid → Held Dev Uuid} {t : Tid}
  {x y : Held Dev Uuid}

/-- The two hold the same references. -/
structure SameRefs (x y : Held Dev Uuid) : Prop where
  callDev : y.callDev = x.callDev
  fd : y.fd = x.fd
  service : y.service = x.service
  handed : y.handed = x.handed
  devRef : y.devRef = x.devRef
  session : y.session = x.session
  taken : y.taken = x.taken
  priv : y.priv = x.priv

def Held.refs (x : Held Dev Uuid) : Held Dev Uuid :=
  { x with opLock := none, devLock := none, absent := none, found := none, listed := none }

theorem SameRefs.of_refs (same : y.refs = x.refs) : SameRefs x y := by
  obtain ⟨callDev, fd, service, handed, devRef, session, taken, priv, -⟩ :=
    Held.mk.inj same
  exact ⟨callDev, fd, service, handed, devRef, session, taken, priv⟩

theorem SameRefs.fdDev (same : SameRefs x y) : y.fdDev = x.fdDev :=
  congrArg (Option.map Prod.fst) same.fd

theorem Inv.noOperationLock (inv : Inv m h) {v : ServicePtr} (free : m.operationLock v = none)
    (u : Tid) : (h u).opLock ≠ some v := by
  intro hv
  have mine := (inv.threads.held u).op v hv
  simp [free] at mine

theorem Inv.noServiceLock (inv : Inv m h) {d : Dev} (free : m.serviceLock d = none)
    (u : Tid) : (h u).devLock ≠ some d := by
  intro hd
  have mine := (inv.threads.held u).lock d hd
  simp [free] at mine

theorem Inv.steady (inv : Inv m h) {d : Dev} {u : Tid} (mine : (h u).callDev = some d) :
    m.closing d = none := by
  obtain ⟨n, counted⟩ := inv.call.pos mine
  cases hc : m.closing d with
  | none => rfl
  | some index => simp [(inv.closing d index hc).1] at counted

/-- The next service pointer is known to nobody. -/
theorem Inv.fresh_sessionList (inv : Inv m h) : m.sessionList m.nextService = [] := by
  rw [List.eq_nil_iff_forall_not_mem]
  intro e listed
  obtain ⟨n, alive⟩ := inv.listed_service listed
  exact absurd (inv.services.fresh _ n alive) (lt_irrefl _)

theorem Inv.newService_held (inv : Inv m h) {u : Uuid} (w : Tid) :
    HeldOk (m.tcNsServiceInit u) w (h w) := by
  have alive : ∀ v n, m.usage v = some n → v ≠ m.nextService :=
    fun v n hv => (inv.services.fresh v n hv).ne
  have lists : (m.tcNsServiceInit u).sessionList = m.sessionList := by
    rw [Heap.tcNsServiceInit, ← inv.fresh_sessionList]
    exact update_eq_self _ _
  have ok := inv.threads.held w
  constructor
  · intro v locked
    obtain ⟨n, hn⟩ := inv.locked_service locked
    exact (update_of_ne (alive v n hn) _ _).trans (ok.op v locked)
  · exact ok.lock
  · exact ok.priv
  · rw [lists]
    exact ok.listed
  · intro d u' absent i v slot
    have steady := inv.steady ((inv.threads.shape w).devLock d ((inv.threads.shape w).absent d u' absent))
    obtain ⟨n, hn⟩ := inv.svc.valid (.slot d i) v ((slot_of_steady steady).trans slot)
    have same : (m.tcNsServiceInit u).uuid v = m.uuid v := update_of_ne (alive v n hn) _ _
    rw [same]
    exact ok.absent d u' absent i v slot
  · intro v u' found
    obtain ⟨n, hn⟩ := inv.svc.valid (.call w) v ((inv.threads.shape w).found v u' found)
    exact (update_of_ne (alive v n hn) _ _).trans (ok.found v u' found)
  · intro d st at_
    obtain ⟨index, closing, stage⟩ := ok.fd d st at_
    refine ⟨index, closing, ?_⟩
    cases st with
    | scan => exact stage
    | chosen v | busy v => exact stage
    | finished v => exact ⟨stage.1, by rw [lists]; exact stage.2⟩

theorem Inv.setOperationLock (inv : Inv m h) {v : ServicePtr} {l : Option Tid}
    (nobody : ∀ u, (h u).opLock ≠ some v) : Inv (m.setOperationLock v l) h :=
  { inv with
    threads := { inv.threads with held := fun u =>
      { inv.threads.held u with
        op := by
          intro w hw
          have apart : w ≠ v := by
            rintro rfl
            exact nobody u hw
          exact (update_of_ne apart _ _).trans ((inv.threads.held u).op w hw) } } }

variable [DecidableEq Dev]

theorem Inv.setServiceLock (inv : Inv m h) {d : Dev} {l : Option Tid}
    (nobody : ∀ u, (h u).devLock ≠ some d) : Inv (m.setServiceLock d l) h :=
  { inv with
    threads := { inv.threads with held := fun u =>
      { inv.threads.held u with
        lock := by
          intro c hc
          have apart : c ≠ d := by
            rintro rfl
            exact nobody u hc
          exact (update_of_ne apart _ _).trans ((inv.threads.held u).lock c hc) } } }

variable [DecidableEq Tid]

theorem Inv.relabel (inv : Inv m h) (hx : h t = x) (same : SameRefs x y) (shape : y.Shape)
    (ok : HeldOk m t y) : Inv m (update h t y) :=
  { inv with
    svc := by rw [svcRef_keep hx same.service same.handed]; exact inv.svc
    sess := by rw [sessRef_keep hx same.session same.taken]; exact inv.sess
    dev := by rw [devRef_keep hx same.devRef]; exact inv.dev
    call := by rw [callRef_keep hx same.callDev]; exact inv.call
    threads := inv.threads.change hx (fun _ he => same.priv ▸ he) same.fdDev shape ok
      fun u _ => inv.threads.held u
    closing := fun d index hd =>
      have old := inv.closing d index hd
      ⟨old.1, old.2.1, old.2.2.thread hx same.fd⟩ }

section Locks

/-- Taking `operation_lock`. -/
theorem Inv.lockOp (inv : Inv m h) (hx : h t = x) {v : ServicePtr}
    (free : m.operationLock v = none) (same : SameRefs x y) (shape : y.Shape)
    (ok : HeldOk (m.setOperationLock v (some t)) t y) :
    Inv (m.setOperationLock v (some t)) (update h t y) :=
  (inv.setOperationLock (inv.noOperationLock free)).relabel hx same shape ok

theorem Inv.lockDev (inv : Inv m h) (hx : h t = x) {d : Dev}
    (free : m.serviceLock d = none) (same : SameRefs x y) (shape : y.Shape)
    (ok : HeldOk (m.setServiceLock d (some t)) t y) :
    Inv (m.setServiceLock d (some t)) (update h t y) :=
  (inv.setServiceLock (inv.noServiceLock free)).relabel hx same shape ok

/-- Giving `operation_lock` back. -/
theorem Inv.unlockOp (inv : Inv m h) (hx : h t = x) {v : ServicePtr} (mine : x.opLock = some v)
    (same : SameRefs x y) (shape : y.Shape) (ok : HeldOk m t y) (given : y.opLock = none) :
    Inv (m.setOperationLock v none) (update h t y) := by
  refine (inv.relabel hx same shape ok).setOperationLock ?_
  intro u
  by_cases hu : u = t
  · rw [hu, update_self, given]
    simp
  · rw [update_of_ne hu]
    intro hv
    have his := (inv.threads.held u).op v hv
    have own := (inv.threads.held t).op v (by rw [hx, mine])
    rw [his, Option.some.injEq] at own
    exact hu own

theorem Inv.unlockDev (inv : Inv m h) (hx : h t = x) {d : Dev} (mine : x.devLock = some d)
    (same : SameRefs x y) (shape : y.Shape) (ok : HeldOk m t y) (given : y.devLock = none) :
    Inv (m.setServiceLock d none) (update h t y) := by
  refine (inv.relabel hx same shape ok).setServiceLock ?_
  intro u
  by_cases hu : u = t
  · rw [hu, update_self, given]
    simp
  · rw [update_of_ne hu]
    intro hd
    have his := (inv.threads.held u).lock d hd
    have own := (inv.threads.held t).lock d (by rw [hx, mine])
    rw [his, Option.some.injEq] at own
    exact hu own

end Locks

section Calls

/-- A call starts. -/
theorem Inv.enter (inv : Inv m h) (hx : h t = x) {d : Dev} {n : Nat} (none_ : x.callDev = none)
    (open_ : m.calls d = some n) (steady : m.closing d = none)
    (same : SameRefs { x with callDev := some d } y) (shape : y.Shape)
    (ok : HeldOk m t y) : Inv (m.enter d) (update h t y) :=
  { inv with
    svc := by rw [svcRef_keep hx same.service same.handed]; exact inv.svc
    sess := by rw [sessRef_keep hx same.session same.taken]; exact inv.sess
    dev := by rw [devRef_keep hx same.devRef]; exact inv.dev
    call := by
      have free : callRef h t = none := by rw [callRef, hx, none_]
      rw [callRef_update, same.callDev]
      simpa [Heap.enter, open_] using inv.call.acquire free open_
    threads := inv.threads.change hx (fun _ he => same.priv ▸ he) same.fdDev shape { ok with }
      fun u _ => { inv.threads.held u with }
    gone := by
      intro c hc
      by_cases hcd : c = d
      · simp [Heap.enter, hcd, open_] at hc
      · exact inv.gone c (by simpa [Heap.enter, hcd] using hc)
    closing := by
      intro c index hc
      have apart : c ≠ d := by
        rintro rfl
        exact absurd hc (by simp [Heap.enter, steady])
      obtain ⟨quiet, bound, left⟩ := inv.closing c index hc
      exact ⟨by simpa [Heap.enter, apart] using quiet, bound, left.thread hx same.fd⟩ }

/-- A call returns. -/
theorem Inv.leave (inv : Inv m h) (hx : h t = x) {d : Dev} (mine : x.callDev = some d)
    (same : SameRefs { x with callDev := none } y) (shape : y.Shape)
    (ok : HeldOk m t y) : Inv (m.leave d) (update h t y) := by
  have held : callRef h t = some d := by rw [callRef, hx, mine]
  obtain ⟨n, counted⟩ := inv.call.pos held
  have steady : m.closing d = none := inv.steady held
  have calls : (m.leave d).calls = update m.calls d (some n) := by simp [Heap.leave, counted]
  exact
  { inv with
    svc := by rw [svcRef_keep hx same.service same.handed]; exact inv.svc
    sess := by rw [sessRef_keep hx same.session same.taken]; exact inv.sess
    dev := by rw [devRef_keep hx same.devRef]; exact inv.dev
    call := by
      rw [callRef_update, calls, same.callDev]
      exact inv.call.drop held counted
    threads := inv.threads.change hx (fun _ he => same.priv ▸ he) same.fdDev shape { ok with }
      fun u _ => { inv.threads.held u with }
    gone := by
      intro c hc
      rw [calls] at hc
      by_cases hcd : c = d
      · simp [hcd] at hc
      · exact inv.gone c (by simpa [hcd] using hc)
    closing := by
      intro c index hc
      have apart : c ≠ d := by
        rintro rfl
        exact absurd hc (by simp [Heap.leave, steady])
      obtain ⟨quiet, bound, left⟩ := inv.closing c index hc
      exact ⟨by rw [calls, update_of_ne apart, quiet], bound, left.thread hx same.fd⟩ }

end Calls

section Services

variable {v : ServicePtr}

theorem Inv.getService (inv : Inv m h) (hx : h t = x) {n : Nat} (none_ : x.service = none)
    (counted : m.usage v = some n) (same : SameRefs { x with service := some v } y)
    (shape : y.Shape) (ok : HeldOk m t y) :
    Inv (m.getService v) (update h t y) := by
  have heap : m.getService v = { m with usage := update m.usage v (some (n + 1)) } := by
    simp [Heap.getService, counted]
  rw [heap]
  exact
  { inv with
    svc := by
      have free : svcRef m h (.call t) = none := by rw [svcRef, hx, none_]
      rw [svcRef_service hx same.handed, same.service]
      exact inv.svc.acquire free counted
    sess := by rw [sessRef_keep hx same.session same.taken]; exact inv.sess
    dev := by rw [devRef_keep hx same.devRef]; exact inv.dev
    call := by rw [callRef_keep hx same.callDev]; exact inv.call
    threads := inv.threads.change hx (fun _ he => same.priv ▸ he) same.fdDev shape { ok with }
      fun u _ => { inv.threads.held u with }
    services := inv.services.get counted
    closing := fun d index hd =>
      have old := inv.closing d index hd
      ⟨old.1, old.2.1, old.2.2.thread hx same.fd⟩ }

omit [DecidableEq Dev] [DecidableEq Tid] in
theorem putServiceStruct_eq {n : Nat} (counted : m.usage v = some (n + 1)) :
    m.putServiceStruct v =
      { m with
        usage := update m.usage v (if n = 0 then none else some n)
        serviceList := if n = 0 then m.serviceList.erase v else m.serviceList } := by
  simp [Heap.putServiceStruct, counted]

/-- Dropping the reference that a call has taken. -/
theorem Inv.putService (inv : Inv m h) (hx : h t = x) (mine : x.service = some v)
    (same : SameRefs { x with service := none } y) (shape : y.Shape)
    (ok : HeldOk m t y) : Inv (m.putServiceStruct v) (update h t y) := by
  have held : svcRef m h (.call t) = some v := by rw [svcRef, hx, mine]
  obtain ⟨n, counted⟩ := inv.svc.pos held
  rw [putServiceStruct_eq counted]
  exact
  { inv with
    svc := by
      rw [svcRef_service hx same.handed, same.service]
      exact inv.svc.release held counted
    sess := by rw [sessRef_keep hx same.session same.taken]; exact inv.sess
    dev := by rw [devRef_keep hx same.devRef]; exact inv.dev
    call := by rw [callRef_keep hx same.callDev]; exact inv.call
    threads := inv.threads.change hx (fun _ he => same.priv ▸ he) same.fdDev shape { ok with }
      fun u _ => { inv.threads.held u with }
    services := inv.services.put counted
    closing := fun d index hd =>
      have old := inv.closing d index hd
      ⟨old.1, old.2.1, old.2.2.thread hx same.fd⟩ }

/-- Dropping the reference of a table entry that was cleared. -/
theorem Inv.putHanded (inv : Inv m h) (hx : h t = x) (mine : x.handed = some v)
    (same : SameRefs { x with handed := none } y) (shape : y.Shape)
    (ok : HeldOk m t y) : Inv (m.putServiceStruct v) (update h t y) := by
  have held : svcRef m h (.handed t) = some v := by rw [svcRef, hx, mine]
  obtain ⟨n, counted⟩ := inv.svc.pos held
  rw [putServiceStruct_eq counted]
  exact
  { inv with
    svc := by
      rw [svcRef_handed hx same.service, same.handed]
      exact inv.svc.release held counted
    sess := by rw [sessRef_keep hx same.session same.taken]; exact inv.sess
    dev := by rw [devRef_keep hx same.devRef]; exact inv.dev
    call := by rw [callRef_keep hx same.callDev]; exact inv.call
    threads := inv.threads.change hx (fun _ he => same.priv ▸ he) same.fdDev shape { ok with }
      fun u _ => { inv.threads.held u with }
    services := inv.services.put counted
    closing := fun d index hd =>
      have old := inv.closing d index hd
      ⟨old.1, old.2.1, old.2.2.thread hx same.fd⟩ }

/-- `tc_ns_service_init`. -/
theorem Inv.newService (inv : Inv m h) (hx : h t = x) {u : Uuid} (none_ : x.service = none)
    (absent : ∀ v ∈ m.serviceList, m.uuid v ≠ some u)
    (same : SameRefs { x with service := some m.nextService } y) (shape : y.Shape)
    (ok : HeldOk (m.tcNsServiceInit u) t y) : Inv (m.tcNsServiceInit u) (update h t y) := by
  have lists : (m.tcNsServiceInit u).sessionList = m.sessionList := by
    rw [Heap.tcNsServiceInit, ← inv.fresh_sessionList]
    exact update_eq_self _ _
  have free : svcRef m h (.call t) = none := by rw [svcRef, hx, none_]
  exact
  { inv with
    svc := by
      have acquired := (inv.svc.alloc inv.services.unused).acquire free
        (show update m.usage m.nextService (some 0) m.nextService = some 0 by simp)
      rw [update_idem] at acquired
      rw [svcRef_service hx same.handed, same.service]
      exact acquired
    sess := by
      rw [sessRef_keep hx same.session same.taken]
      have refs : sessRef (m.tcNsServiceInit u) h = sessRef m h := by
        funext r
        cases r with
        | listed v e => simp only [sessRef, lists]
        | call | taken => rfl
      rw [refs]
      exact inv.sess
    dev := by
      rw [devRef_keep hx same.devRef]
      have refs : devRef (m.tcNsServiceInit u) h = devRef m h := by
        funext r
        cases r with
        | session v e => simp only [devRef, lists]; rfl
        | call => rfl
      rw [refs]
      exact inv.dev
    call := by rw [callRef_keep hx same.callDev]; exact inv.call
    threads := inv.threads.change hx (fun _ he => same.priv ▸ he) same.fdDev shape ok
      fun w _ => inv.newService_held w
    services := inv.services.new absent
    nodup := by rw [lists]; exact inv.nodup
    apart := by rw [lists]; exact inv.apart
    owned := by rw [lists]; exact inv.owned
    closing := by
      intro d index hd
      obtain ⟨quiet, bound, left⟩ := inv.closing d index hd
      refine ⟨quiet, bound, ?_⟩
      have left' : Closing (m.tcNsServiceInit u) h d index := by
        rw [Closing, lists]
        exact left
      exact left'.thread hx same.fd }

end Services

section Entries

variable {d : Dev} {v : ServicePtr} {i : Fin servicesMaxCount}

omit [DecidableEq Tid] in
theorem devCount_setRef (inv : Inv m h) (steady : m.closing d = none)
    (slot : m.services d i = some v) (n : Nat) :
    devCount (m.setRef d i n) = update (devCount m) (d, v) (some n) := by
  funext ⟨c, w⟩
  by_cases hk : (c, w) = (d, v)
  · obtain ⟨rfl, rfl⟩ := Prod.mk.inj hk
    have found : (m.setRef c i n).findService c w = some i := inv.findService slot
    have still : (m.setRef c i n).closing c = none := steady
    rw [update_self]
    simp only [devCount, found, still]
    simp [Heap.setRef]
  · rw [update_of_ne hk]
    by_cases hc : c = d
    · subst hc
      have other : w ≠ v := fun hw => hk (by rw [hw])
      have same : (m.setRef c i n).findService c w = m.findService c w := rfl
      cases found : m.findService c w with
      | none => simp [devCount, found, same]
      | some j =>
        have apart : j ≠ i := by
          rintro rfl
          rw [findService_some found] at slot
          exact other (Option.some.inj slot)
        simp only [devCount, same, found, Option.map_some]
        simp [Heap.setRef, apart]
    · have same : (m.setRef d i n).serviceRef c = m.serviceRef c := update_of_ne hc _ _
      simp only [devCount, same]
      rfl

omit [DecidableEq Tid] in
theorem findService_setEntry {w : ServicePtr} {b : Option ServicePtr} {n : Nat} (c : Dev)
    (before : m.services d i ≠ some w) (after : b ≠ some w) :
    (m.setEntry d i b n).findService c w = m.findService c w := by
  have same : ∀ j, ((m.setEntry d i b n).services c j = some w) = (m.services c j = some w) := by
    intro j
    by_cases hc : c = d
    · subst hc
      by_cases hj : j = i
      · subst hj
        simp [Heap.setEntry, before, after]
      · simp [Heap.setEntry, hj]
    · simp [Heap.setEntry, hc]
  simp only [Heap.findService, same]

omit [DecidableEq Tid] in
theorem setEntry_services_of_ne {c : Dev} {b : Option ServicePtr} {n : Nat} (other : c ≠ d) :
    (m.setEntry d i b n).services c = m.services c := update_of_ne other _ _

omit [DecidableEq Tid] in
theorem setEntry_services_self {b : Option ServicePtr} {n : Nat} :
    (m.setEntry d i b n).services d = update (m.services d) i b := update_self _ _ _

omit [DecidableEq Tid] in
theorem setEntry_services_here {b : Option ServicePtr} {n : Nat} :
    (m.setEntry d i b n).services d i = b := by
  rw [setEntry_services_self, update_self]

omit [DecidableEq Tid] in
theorem setEntry_services_apart {c : Dev} {j : Fin servicesMaxCount} {b : Option ServicePtr}
    {n : Nat} (apart : ¬ (c = d ∧ j = i)) : (m.setEntry d i b n).services c j = m.services c j := by
  by_cases hc : c = d
  · subst hc
    rw [setEntry_services_self, update_of_ne (fun hj => apart ⟨rfl, hj⟩)]
  · rw [setEntry_services_of_ne hc]

omit [DecidableEq Tid] in
/-- An entry that was cleared is no entry of the table any more. -/
theorem clearEntry_services {c : Dev} {j : Fin servicesMaxCount} {w : ServicePtr} {n : Nat}
    (entry : (m.setEntry d i none n).services c j = some w) :
    m.services c j = some w ∧ ¬ (c = d ∧ j = i) := by
  by_cases hcj : c = d ∧ j = i
  · obtain ⟨rfl, rfl⟩ := hcj
    rw [setEntry_services_here] at entry
    cases entry
  · rw [setEntry_services_apart hcj] at entry
    exact ⟨entry, hcj⟩

theorem svcRef_setEntry (steady : m.closing d = none) (b : Option ServicePtr) (n : Nat) :
    svcRef (m.setEntry d i b n) h = update (svcRef m h) (.slot d i) b := by
  funext r
  cases r with
  | slot c j =>
    by_cases hc : c = d
    · subst hc
      have still : (m.setEntry c i b n).closing c = none := steady
      by_cases hj : j = i
      · subst hj
        simp [svcRef, slot_of_steady still, setEntry_services_self]
      · simp [svcRef, slot_of_steady still, slot_of_steady steady, setEntry_services_self, hj]
    · rw [update_of_ne (by simp [hc])]
      simp only [svcRef, Heap.slot, setEntry_services_of_ne hc]
      rfl
  | call | handed => rw [update_of_ne (by simp)]; rfl

omit [DecidableEq Tid] in
/-- A table entry of an open device changes; nobody relies on the service being absent. -/
theorem HeldOk.setEntry {u : Tid} {z : Held Dev Uuid} (ok : HeldOk m u z)
    (steady : m.closing d = none) {b : Option ServicePtr} {n : Nat}
    (absent : ∀ w u', b = some w → z.absent = some (d, u') → m.uuid w ≠ some u') :
    HeldOk (m.setEntry d i b n) u z :=
  { ok with
    absent := by
      intro c u' hz j w slot
      by_cases hc : c = d
      · subst hc
        rw [setEntry_services_self] at slot
        by_cases hj : j = i
        · rw [hj, update_self] at slot
          exact absent w u' slot hz
        · rw [update_of_ne hj] at slot
          exact ok.absent c u' hz j w slot
      · rw [setEntry_services_of_ne hc] at slot
        exact ok.absent c u' hz j w slot
    fd := by
      intro c st at_
      obtain ⟨index, closing, stage⟩ := ok.fd c st at_
      have hc : c ≠ d := by
        rintro rfl
        simp [steady] at closing
      refine ⟨index, closing, ?_⟩
      cases st with
      | scan => trivial
      | chosen w | busy w => simpa only [FdOk, setEntry_services_of_ne hc] using stage
      | finished w =>
        simp only [FdOk, setEntry_services_of_ne hc]
        exact stage }

omit [DecidableEq Tid] in
theorem Closing.setEntry {c : Dev} {index n : Nat} {b : Option ServicePtr} (other : c ≠ d)
    (closing : Closing m h c index) : Closing (m.setEntry d i b n) h c index := by
  simp only [Closing, setEntry_services_of_ne other]
  exact closing

omit [DecidableEq Tid] in
theorem setRef_serviceRef_of_ne {n : Nat} {c : Dev} {j : Fin servicesMaxCount}
    (other : ¬ (c = d ∧ j = i)) : (m.setRef d i n).serviceRef c j = m.serviceRef c j := by
  by_cases hc : c = d
  · subst hc
    simp [Heap.setRef, show j ≠ i from fun hj => other ⟨rfl, hj⟩]
  · simp [Heap.setRef, hc]

omit [DecidableEq Tid] in
theorem Inv.refs_setRef (inv : Inv m h) {n : Nat} (bound : 0 < n ∧ n ≤ maxRefCount) :
    ∀ c j w, m.closing c = none → m.services c j = some w →
      0 < (m.setRef d i n).serviceRef c j ∧ (m.setRef d i n).serviceRef c j ≤ maxRefCount := by
  intro c j w steady slot
  by_cases hcj : c = d ∧ j = i
  · obtain ⟨rfl, rfl⟩ := hcj
    simpa [Heap.setRef] using bound
  · rw [setRef_serviceRef_of_ne hcj]
    exact inv.refs c j w steady slot

/-- `tc_ref_service_in_dev`. -/
theorem Inv.refSlot (inv : Inv m h) (hx : h t = x) (none_ : x.devRef = none)
    (steady : m.closing d = none) (slot : m.services d i = some v)
    (room : m.serviceRef d i ≠ maxRefCount)
    (same : SameRefs { x with devRef := some (d, v) } y) (shape : y.Shape)
    (ok : HeldOk m t y) :
    Inv (m.setRef d i ((m.serviceRef d i + 1) % 256)) (update h t y) := by
  have bound := inv.refs d i v steady slot
  have small : (m.serviceRef d i + 1) % 256 = m.serviceRef d i + 1 := by
    apply Nat.mod_eq_of_lt
    simp only [maxRefCount] at bound room
    omega
  rw [small]
  exact
  { inv with
    svc := by rw [svcRef_keep hx same.service same.handed]; exact inv.svc
    sess := by rw [sessRef_keep hx same.session same.taken]; exact inv.sess
    dev := by
      have free : devRef m h (.call t) = none := by rw [devRef, hx, none_]
      rw [devRef_update, same.devRef, devCount_setRef inv steady slot]
      exact inv.dev.acquire free (inv.counted steady slot)
    call := by rw [callRef_keep hx same.callDev]; exact inv.call
    threads := inv.threads.change hx (fun _ he => same.priv ▸ he) same.fdDev shape { ok with }
      fun u _ => { inv.threads.held u with }
    refs := by
      refine inv.refs_setRef ?_
      simp only [maxRefCount] at bound room ⊢
      omega
    closing := fun c index hc =>
      have old := inv.closing c index hc
      ⟨old.1, old.2.1, old.2.2.thread hx same.fd⟩ }

/-- `del_service_from_dev` with references left. -/
theorem Inv.unrefSlot (inv : Inv m h) (hx : h t = x) (mine : x.devRef = some (d, v))
    (slot : m.services d i = some v) (more : m.serviceRef d i - 1 ≠ 0)
    (same : SameRefs { x with devRef := none } y) (shape : y.Shape) (ok : HeldOk m t y) :
    Inv (m.setRef d i (m.serviceRef d i - 1)) (update h t y) := by
  have held : devRef m h (.call t) = some (d, v) := by rw [devRef, hx, mine]
  have steady := (inv.counted_slot held).1
  obtain ⟨pos, bound⟩ := inv.refs d i v steady slot
  obtain ⟨n, counted⟩ : ∃ n, m.serviceRef d i = n + 1 := ⟨m.serviceRef d i - 1, by omega⟩
  have kept : n ≠ 0 := by simpa [counted] using more
  rw [counted, Nat.add_sub_cancel]
  exact
  { inv with
    svc := by rw [svcRef_keep hx same.service same.handed]; exact inv.svc
    sess := by rw [sessRef_keep hx same.session same.taken]; exact inv.sess
    dev := by
      have released := inv.dev.release held ((inv.counted steady slot).trans (by rw [counted]))
      rw [if_neg kept] at released
      rw [devRef_update, same.devRef, devCount_setRef inv steady slot]
      exact released
    call := by rw [callRef_keep hx same.callDev]; exact inv.call
    threads := inv.threads.change hx (fun _ he => same.priv ▸ he) same.fdDev shape { ok with }
      fun u _ => { inv.threads.held u with }
    refs := inv.refs_setRef (by omega)
    closing := fun c index hc =>
      have old := inv.closing c index hc
      ⟨old.1, old.2.1, old.2.2.thread hx same.fd⟩ }

omit [DecidableEq Tid] in
theorem devCount_setEntry {a b : Option ServicePtr} (before : m.services d i = a)
    (n : Nat) (k : Dev × ServicePtr) (notA : a = some k.2 → k.1 ≠ d)
    (notB : b = some k.2 → k.1 ≠ d) :
    devCount (m.setEntry d i b n) k = devCount m k := by
  obtain ⟨c, w⟩ := k
  by_cases hc : c = d
  · subst hc
    have found : (m.setEntry c i b n).findService c w = m.findService c w :=
      findService_setEntry c (fun h => notA (before.symm.trans h) rfl) (fun h => notB h rfl)
    simp only [devCount, found]
    cases at_ : m.findService c w with
    | none => rfl
    | some j =>
      have apart : j ≠ i := by
        rintro rfl
        exact notA (before.symm.trans (findService_some at_)) rfl
      have kept : (m.setEntry c i b n).serviceRef c j = m.serviceRef c j :=
        setRef_serviceRef_of_ne fun h => apart h.2
      rw [Option.map_some, Option.map_some, kept]
      rfl
  · have services : (m.setEntry d i b n).services c = m.services c :=
      setEntry_services_of_ne hc
    have refs : (m.setEntry d i b n).serviceRef c = m.serviceRef c :=
      update_of_ne hc _ _
    simp only [devCount, Heap.findService, services, refs]
    rfl

omit [DecidableEq Tid] in
theorem devCount_addEntry (steady : m.closing d = none) (free : m.services d i = none)
    (absent : ∀ j, m.services d j ≠ some v) :
    devCount (m.setEntry d i (some v) 1) = update (devCount m) (d, v) (some 1) := by
  funext k
  by_cases hk : k = (d, v)
  · subst hk
    have found : (m.setEntry d i (some v) 1).findService d v = some i := by
      cases at_ : (m.setEntry d i (some v) 1).findService d v with
      | none => exact absurd setEntry_services_here (findService_eq_none.1 at_ i)
      | some j =>
        by_cases hj : j = i
        · rw [hj]
        · have old := findService_some at_
          rw [setEntry_services_apart (fun h => hj h.2)] at old
          exact absurd old (absent j)
    have still : (m.setEntry d i (some v) 1).closing d = none := steady
    rw [update_self]
    simp only [devCount, found, still]
    simp [Heap.setEntry, Heap.setRef]
  · rw [update_of_ne hk]
    exact devCount_setEntry free 1 k (by simp)
      (fun hv hd => hk (Prod.ext hd (Option.some.inj hv).symm))

omit [DecidableEq Tid] in
theorem devCount_clearEntry (inv : Inv m h) (slot : m.services d i = some v) :
    devCount (m.setEntry d i none 0) = update (devCount m) (d, v) none := by
  funext k
  by_cases hk : k = (d, v)
  · subst hk
    have absent : (m.setEntry d i none 0).findService d v = none := by
      rw [findService_eq_none]
      intro j hj
      obtain ⟨old, apart⟩ := clearEntry_services hj
      exact apart ⟨rfl, inv.slots d j i v old slot⟩
    simp [devCount, absent]
  · rw [update_of_ne hk]
    exact devCount_setEntry slot 0 k
      (fun hv hd => hk (Prod.ext hd (Option.some.inj hv).symm)) (by simp)

omit [DecidableEq Tid] in
/-- The table of an open device has nothing to do with the devices that are being closed. -/
theorem Inv.owned_setEntry (inv : Inv m h) (steady : m.closing d = none)
    (b : Option ServicePtr) (n : Nat) (w : ServicePtr) (e : SessionPtr)
    (listed : e ∈ m.sessionList w) :
    ∃ c, m.owner e = some c ∧ ∀ index, m.closing c = some index →
      ∃ j : Fin servicesMaxCount, index ≤ j.val ∧ (m.setEntry d i b n).services c j = some w := by
  obtain ⟨c, owner, late⟩ := inv.owned w e listed
  refine ⟨c, owner, ?_⟩
  intro index closing
  have hc : c ≠ d := by
    rintro rfl
    rw [steady] at closing
    cases closing
  rw [setEntry_services_of_ne hc]
  exact late index closing

theorem Inv.closing_setEntry (inv : Inv m h) (steady : m.closing d = none) (hx : h t = x)
    (fd : y.fd = x.fd) (b : Option ServicePtr) (n : Nat) (c : Dev) (index : Nat)
    (closing : m.closing c = some index) :
    m.calls c = some 0 ∧ index ≤ servicesMaxCount ∧
      Closing (m.setEntry d i b n) (update h t y) c index := by
  have apart : c ≠ d := by
    rintro rfl
    rw [steady] at closing
    cases closing
  obtain ⟨quiet, bound, left⟩ := inv.closing c index closing
  exact ⟨quiet, bound, (Closing.setEntry apart left).thread hx fd⟩

omit [DecidableEq Tid] in
theorem Inv.slots_addEntry (inv : Inv m h) (absent : ∀ j, m.services d j ≠ some v) (n : Nat)
    (c : Dev) (j k : Fin servicesMaxCount) (w : ServicePtr)
    (hj : (m.setEntry d i (some v) n).services c j = some w)
    (hk : (m.setEntry d i (some v) n).services c k = some w) : j = k := by
  by_cases hcj : c = d ∧ j = i
  · by_cases hck : c = d ∧ k = i
    · rw [hcj.2, hck.2]
    · obtain ⟨rfl, rfl⟩ := hcj
      rw [setEntry_services_here, Option.some.injEq] at hj
      rw [setEntry_services_apart hck, ← hj] at hk
      exact absurd hk (absent k)
  · by_cases hck : c = d ∧ k = i
    · obtain ⟨rfl, rfl⟩ := hck
      rw [setEntry_services_here, Option.some.injEq] at hk
      rw [setEntry_services_apart hcj, ← hk] at hj
      exact absurd hj (absent j)
    · rw [setEntry_services_apart hcj] at hj
      rw [setEntry_services_apart hck] at hk
      exact inv.slots c j k w hj hk

/-- `del_service_from_dev` drops the last reference of an entry and clears it. -/
theorem Inv.clearSlot (inv : Inv m h) (hx : h t = x) (mine : x.devRef = some (d, v))
    (slot : m.services d i = some v) (last : m.serviceRef d i - 1 = 0) (none_ : x.handed = none)
    (same : SameRefs { x with devRef := none, handed := some v } y) (shape : y.Shape)
    (ok : HeldOk (m.setEntry d i none 0) t y) :
    Inv (m.setEntry d i none 0) (update h t y) := by
  have held : devRef m h (.call t) = some (d, v) := by rw [devRef, hx, mine]
  have steady := (inv.counted_slot held).1
  have one : m.serviceRef d i = 1 := by
    have := inv.refs d i v steady slot
    omega
  exact
  { inv with
    svc := by
      have free : svcRef m h (.handed t) = none := by rw [svcRef, hx, none_]
      rw [svcRef_handed hx same.service, same.handed, svcRef_setEntry steady]
      exact inv.svc.move ((slot_of_steady steady).trans slot) free
    sess := by rw [sessRef_keep hx same.session same.taken]; exact inv.sess
    dev := by
      have released := inv.dev.release held ((inv.counted steady slot).trans (by rw [one]))
      rw [if_pos rfl] at released
      rw [devRef_update, same.devRef, devCount_clearEntry inv slot]
      exact released
    call := by rw [callRef_keep hx same.callDev]; exact inv.call
    threads := inv.threads.change hx (fun _ he => same.priv ▸ he) same.fdDev shape ok
      fun u _ => HeldOk.setEntry { inv.threads.held u with } steady (by simp)
    slots := fun c j k w hj hk =>
      inv.slots c j k w (clearEntry_services hj).1 (clearEntry_services hk).1
    refs := by
      intro c j w quiet hw
      obtain ⟨old, apart⟩ := clearEntry_services hw
      have kept : (m.setEntry d i none 0).serviceRef c j = m.serviceRef c j :=
        setRef_serviceRef_of_ne apart
      rw [kept]
      exact inv.refs c j w quiet old
    owned := inv.owned_setEntry steady none 0
    gone := by
      intro c hc
      obtain ⟨quiet, empty⟩ := inv.gone c hc
      refine ⟨quiet, fun j => ?_⟩
      cases hj : (m.setEntry d i none 0).services c j with
      | none => rfl
      | some w => exact absurd (clearEntry_services hj).1 (by simp [empty j])
    closing := inv.closing_setEntry steady hx same.fd none 0 }

/-- `add_service_to_dev`: the entry takes the call's reference over. -/
theorem Inv.addSlot (inv : Inv m h) (hx : h t = x) (mine : x.service = some v)
    (dev : x.callDev = some d) (locked : x.devLock = some d) (free : m.services d i = none)
    (absent : ∀ j, m.services d j ≠ some v) (none_ : x.devRef = none)
    (same : SameRefs { x with service := none, devRef := some (d, v) } y) (shape : y.Shape)
    (ok : HeldOk (m.setEntry d i (some v) 1) t y) :
    Inv (m.setEntry d i (some v) 1) (update h t y) := by
  have onDev : (h t).callDev = some d := by rw [hx, dev]
  have steady := inv.steady onDev
  exact
  { inv with
    svc := by
      have held : svcRef m h (.call t) = some v := by rw [svcRef, hx, mine]
      have empty : svcRef m h (.slot d i) = none := (slot_of_steady steady).trans free
      have moved := inv.svc.move held empty
      rw [update_comm (by simp)] at moved
      rw [svcRef_service hx same.handed, same.service, svcRef_setEntry steady]
      exact moved
    sess := by rw [sessRef_keep hx same.session same.taken]; exact inv.sess
    dev := by
      have gone : devCount m (d, v) = none := by
        simp [devCount, findService_eq_none.2 absent]
      have empty : devRef m h (.call t) = none := by rw [devRef, hx, none_]
      have acquired := (inv.dev.alloc gone).acquire empty
        (show update (devCount m) (d, v) (some 0) (d, v) = some 0 by simp)
      rw [update_idem] at acquired
      rw [devRef_update, same.devRef, devCount_addEntry steady free absent]
      exact acquired
    call := by rw [callRef_keep hx same.callDev]; exact inv.call
    threads := inv.threads.change hx (fun _ he => same.priv ▸ he) same.fdDev shape ok
      fun u hu => (inv.threads.held u).setEntry steady fun w u' _ hz => by
        have his := (inv.threads.held u).lock d ((inv.threads.shape u).absent d u' hz)
        have own := (inv.threads.held t).lock d (by rw [hx, locked])
        rw [his, Option.some.injEq] at own
        exact absurd own hu
    slots := inv.slots_addEntry absent 1
    refs := by
      intro c j w quiet hw
      by_cases hcj : c = d ∧ j = i
      · obtain ⟨rfl, rfl⟩ := hcj
        simp [Heap.setEntry, Heap.setRef, maxRefCount]
      · have kept : (m.setEntry d i (some v) 1).serviceRef c j = m.serviceRef c j :=
          setRef_serviceRef_of_ne hcj
        rw [setEntry_services_apart hcj] at hw
        rw [kept]
        exact inv.refs c j w quiet hw
    owned := inv.owned_setEntry steady (some v) 1
    gone := by
      intro c hc
      have apart : c ≠ d := by
        rintro rfl
        obtain ⟨n, counted⟩ := inv.call.valid t c onDev
        exact absurd hc (by simp [Heap.setEntry, Heap.setRef, counted])
      rw [setEntry_services_of_ne apart]
      exact inv.gone c hc
    closing := inv.closing_setEntry steady hx same.fd (some v) 1 }

end Entries

end SessionManager
