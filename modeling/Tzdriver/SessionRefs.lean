import Tzdriver.SessionClosing

/-!
# Reference counts of services and sessions

Every step of a call, an open and a close of a device keeps the invariant, so that the
counters are right whenever no call is in progress, and no step ever reaches a freed
service, session or device.
-/

namespace SessionManager

open Function RefLedger ActionSystem

variable {Dev Uuid Tid : Type*} {m m' : Heap Dev Uuid Tid} {h : Tid → Held Dev Uuid} {t : Tid}
  {d : Dev} {v : ServicePtr}

section Lookups

theorem findEmpty_some {i : Fin servicesMaxCount} (found : m.findEmpty d = some i) :
    m.services d i = none := by
  simpa using List.find?_some found

theorem findUuid_some [DecidableEq Uuid] {u : Uuid} {i : Fin servicesMaxCount}
    (found : m.findUuid d u = some i) : ∃ v, m.services d i = some v ∧ m.uuid v = some u := by
  have named := List.find?_some found
  simpa [Option.any_eq_true] using named

theorem findUuid_none [DecidableEq Uuid] {u : Uuid} (absent : m.findUuid d u = none)
    (i : Fin servicesMaxCount) (w : ServicePtr) (slot : m.services d i = some w) :
    m.uuid w ≠ some u := by
  have none_ := List.find?_eq_none.1 absent i (List.mem_finRange i)
  simpa [slot] using none_

theorem tcFindSessionWithowner_some [DecidableEq Dev] {id : Nat} {e : SessionPtr}
    (found : m.tcFindSessionWithowner v id d = some e) :
    e ∈ m.sessionList v ∧ m.owner e = some d := by
  have owner := List.find?_some found
  simp only [decide_eq_true_eq] at owner
  exact ⟨List.mem_of_find?_eq_some found, owner.2⟩

theorem findOwned_some [DecidableEq Dev] {e : SessionPtr} (found : m.findOwned v d = some e) :
    e ∈ m.sessionList v ∧ m.owner e = some d := by
  have owner := List.find?_some found
  simp only [decide_eq_true_eq] at owner
  exact ⟨List.mem_of_find?_eq_some found, owner⟩

theorem findOwned_none [DecidableEq Dev] (absent : m.findOwned v d = none) :
    ∀ e ∈ m.sessionList v, m.owner e ≠ some d := by
  intro e listed
  simpa using List.find?_eq_none.1 absent e listed

end Lookups

section HeldFacts

variable {a : Option Dev} {b c : Option ServicePtr} {r : Option (Dev × ServicePtr)}
  {e f : Option SessionPtr}

theorem heldOk_refs :
    HeldOk m t { callDev := a, service := b, handed := c, devRef := r, session := e,
                 taken := f } := by
  constructor <;> simp

theorem heldOk_locked (locked : m.operationLock v = some t) :
    HeldOk m t { callDev := a, service := b, handed := c, devRef := r, session := e,
                 taken := f, opLock := some v } := by
  constructor <;> simp [locked]

theorem heldOk_priv {p : SessionPtr} (priv : m.sessionUsage p = some 0) :
    HeldOk m t { callDev := a, service := b, handed := c, devRef := r, session := e,
                 taken := f, priv := some p } := by
  constructor <;> simp [priv]

theorem heldOk_devLocked (locked : m.serviceLock d = some t) :
    HeldOk m t { callDev := a, service := b, handed := c, devRef := r, session := e,
                 taken := f, devLock := some d } := by
  constructor <;> simp [locked]

theorem heldOk_listed {p : SessionPtr} (locked : m.operationLock v = some t)
    (listed : p ∈ m.sessionList v) (owner : m.owner p = some d) :
    HeldOk m t { callDev := a, service := b, session := e, opLock := some v,
                 listed := some (d, v, p) } := by
  constructor <;> simp [locked, listed, owner]

theorem heldOk_fd {st : FdStage} {index : Nat} (closing : m.closing d = some index)
    (ok : FdOk m d index st) (lock : b = none ∨ ∃ w, b = some w ∧ m.operationLock w = some t) :
    HeldOk m t { fd := some (d, st), opLock := b, session := e, taken := f } := by
  constructor
  · rintro w hw
    rcases lock with none_ | ⟨z, hz, locked⟩
    · simp [none_] at hw
    · rw [hz, Option.some.injEq] at hw
      exact hw ▸ locked
  · simp
  · simp
  · simp
  · simp
  · simp
  · rintro c su at_
    obtain ⟨rfl, rfl⟩ := Prod.mk.inj (Option.some.inj at_)
    exact ⟨index, closing, ok⟩

theorem HeldOk.putServiceStruct {x : Held Dev Uuid} (ok : HeldOk m t x) :
    HeldOk (m.putServiceStruct v) t x := by
  simp only [Heap.putServiceStruct]
  split <;> exact { ok with }

end HeldFacts

section Steps

variable [DecidableEq Tid]

theorem Inv.chain {x y : Held Dev Uuid} (inv : Inv m (update (update h t x) t y)) :
    Inv m (update h t y) := by
  rwa [update_idem] at inv

variable [DecidableEq Dev]

theorem Inv.finish (inv : Inv m h) (hx : h t = { callDev := some d }) :
    Inv (m.leave d) (update h t {}) :=
  inv.leave hx rfl (.of_refs rfl) (Pc.held_shape .idle) heldOk_refs

/-- The end of `del_service_from_dev`. -/
theorem afterDel_inv {k : Undo} (inv : Inv m h) (hx : h t = k.held d v) :
    Inv (afterDel m d v k).1 (update h t (afterDel m d v k).2.held) := by
  cases k with
  | noSession => exact inv.finish hx
  | freeSession e =>
    have same : update h t (Pc.openFree d e : Pc Dev Uuid).held = h := by
      rw [show (Pc.openFree d e : Pc Dev Uuid).held = h t from hx.symm, update_eq_self]
    simpa only [afterDel, same] using inv
  | close =>
    have same : update h t (Pc.closeUnlock d v : Pc Dev Uuid).held = h := by
      rw [show (Pc.closeUnlock d v : Pc Dev Uuid).held = h t from hx.symm, update_eq_self]
    simpa only [afterDel, same] using inv

/-- `put_service_struct` at the end of a call. -/
theorem Inv.putService_finish (inv : Inv m h)
    (hx : h t = { callDev := some d, service := some v }) :
    Inv ((m.putServiceStruct v).leave d) (update h t {}) := by
  have put : Inv (m.putServiceStruct v) (update h t { callDev := some d }) :=
    inv.putService hx rfl (.of_refs rfl) (by constructor <;> simp) heldOk_refs
  exact (put.finish (update_self _ _ _)).chain

variable [DecidableEq Uuid] {u : Uuid} {e : SessionPtr}

variable (Tid) in
/-- The step of a call at `pc` keeps the invariant. -/
def Keeps (pc : Pc Dev Uuid) : Prop :=
  ∀ (m m' : Heap Dev Uuid Tid) (h : Tid → Held Dev Uuid) (t : Tid) (env : Env)
    (next : Pc Dev Uuid), Inv m h → h t = pc.held → run m t env pc = some (m', next) →
      Inv m' (update h t next.held)

/-- The section of `find_service` under `g_service_list_lock`. -/
theorem openLookup_keeps : Keeps Tid (.openLookup d u) := by
  intro m m' h t env next inv hx moved
  have mine : HeldOk m t (Pc.openLookup d u).held := hx ▸ inv.threads.held t
  simp only [run] at moved
  split at moved
  · rename_i v found
    obtain ⟨rfl, rfl⟩ := Prod.mk.inj (Option.some.inj moved)
    obtain ⟨n, counted⟩ := (inv.services.listed v).1 (List.mem_of_find?_eq_some found)
    have named : m.uuid v = some u := by simpa using List.find?_some found
    refine inv.getService hx rfl counted (.of_refs rfl) (Pc.held_shape _) ?_
    refine { mine with found := ?_ }
    rintro w u' hw
    obtain ⟨rfl, rfl⟩ := Prod.mk.inj (Option.some.inj hw)
    exact named
  · rename_i absent
    split at moved
    · obtain ⟨rfl, rfl⟩ := Prod.mk.inj (Option.some.inj moved)
      have new : HeldOk (m.tcNsServiceInit u) t (Pc.openLookup d u).held :=
        hx ▸ inv.newService_held t
      have unnamed : ∀ v ∈ m.serviceList, m.uuid v ≠ some u := by
        intro v listed
        simpa using List.find?_eq_none.1 absent v listed
      refine inv.newService hx rfl unnamed (.of_refs rfl) (Pc.held_shape _) ?_
      refine { new with found := ?_ }
      rintro w u' hw
      obtain ⟨rfl, rfl⟩ := Prod.mk.inj (Option.some.inj hw)
      exact update_self _ _ _
    · obtain ⟨rfl, rfl⟩ := Prod.mk.inj (Option.some.inj moved)
      have unlocked : Inv (m.setServiceLock d none) (update h t { callDev := some d }) :=
        inv.unlockDev hx rfl (.of_refs rfl) (by constructor <;> simp) heldOk_refs rfl
      exact (unlocked.finish (update_self _ _ _)).chain

/-- `add_service_to_dev`. -/
theorem openAdd_keeps : Keeps Tid (.openAdd d u v) := by
  intro m m' h t env next inv hx moved
  have mine : HeldOk m t (Pc.openAdd d u v).held := hx ▸ inv.threads.held t
  simp only [run] at moved
  split at moved
  · rename_i i found
    obtain ⟨rfl, rfl⟩ := Prod.mk.inj (Option.some.inj moved)
    have absent : ∀ j, m.services d j ≠ some v :=
      fun j slot => mine.absent d u rfl j v slot (mine.found v u rfl)
    have added : Inv (m.setEntry d i (some v) 1) (update h t
        { callDev := some d, devLock := some d, devRef := some (d, v) }) := by
      refine inv.addSlot hx rfl rfl rfl (findEmpty_some found) absent rfl (.of_refs rfl) ?_ ?_
      · constructor <;> simp
      · exact heldOk_devLocked (mine.lock d rfl)
    refine Inv.chain (x := { callDev := some d, devLock := some d, devRef := some (d, v) }) ?_
    exact added.unlockDev (y := (Pc.openAlloc d v : Pc Dev Uuid).held) (update_self _ _ _) rfl
      (.of_refs rfl) (Pc.held_shape _) heldOk_refs rfl
  · obtain ⟨rfl, rfl⟩ := Prod.mk.inj (Option.some.inj moved)
    exact inv.unlockDev hx rfl (.of_refs rfl) (Pc.held_shape _) heldOk_refs rfl

theorem openAlloc_keeps : Keeps Tid (.openAlloc d v : Pc Dev Uuid) := by
  intro m m' h t env next inv hx moved
  simp only [run] at moved
  split at moved
  · obtain ⟨rfl, rfl⟩ := Prod.mk.inj (Option.some.inj moved)
    exact inv.newSession hx (.of_refs rfl) (Pc.held_shape _) (heldOk_priv (update_self _ _ _))
  · obtain ⟨rfl, rfl⟩ := Prod.mk.inj (Option.some.inj moved)
    exact inv.relabel hx (.of_refs rfl) (Pc.held_shape _) heldOk_refs

theorem openLock_keeps : Keeps Tid (.openLock d v e : Pc Dev Uuid) := by
  intro m m' h t env next inv hx moved
  have mine : HeldOk m t (Pc.openLock d v e).held := hx ▸ inv.threads.held t
  simp only [run] at moved
  split at moved
  · rename_i free
    obtain ⟨rfl, rfl⟩ := Prod.mk.inj (Option.some.inj moved)
    refine inv.lockOp hx free (.of_refs rfl) (Pc.held_shape _) ?_
    refine { mine with op := ?_ }
    intro w hw
    obtain rfl := Option.some.inj hw
    exact update_self _ _ _
  · simp at moved

/-- The call to the TEE, and `init_new_sess_node` when it has opened the session. -/
theorem openCall_keeps : Keeps Tid (.openCall d v e : Pc Dev Uuid) := by
  intro m m' h t env next inv hx moved
  have mine : HeldOk m t (Pc.openCall d v e).held := hx ▸ inv.threads.held t
  simp only [run] at moved
  split at moved
  · obtain ⟨rfl, rfl⟩ := Prod.mk.inj (Option.some.inj moved)
    exact inv.publish hx rfl rfl (.of_refs rfl) (Pc.held_shape _)
      (heldOk_listed (mine.op v rfl) (mem_initNewSessNode.2 (Or.inr ⟨rfl, rfl⟩))
        initNewSessNode_owner_self)
  · obtain ⟨rfl, rfl⟩ := Prod.mk.inj (Option.some.inj moved)
    exact inv.unlockOp hx rfl (.of_refs rfl) (Pc.held_shape _) (heldOk_priv (mine.priv e rfl)) rfl

theorem openUnlock_keeps : Keeps Tid (.openUnlock d v e : Pc Dev Uuid) := by
  intro m m' h t env next inv hx moved
  obtain ⟨rfl, rfl⟩ := Prod.mk.inj (Option.some.inj moved)
  have unlocked : Inv (m.setOperationLock v none) (update h t { callDev := some d }) :=
    inv.unlockOp hx rfl (.of_refs rfl) (by constructor <;> simp) heldOk_refs rfl
  exact (unlocked.finish (update_self _ _ _)).chain

theorem openFree_keeps : Keeps Tid (.openFree d e : Pc Dev Uuid) := by
  intro m m' h t env next inv hx moved
  obtain ⟨rfl, rfl⟩ := Prod.mk.inj (Option.some.inj moved)
  have freed : Inv (m.kfreeSession e) (update h t { callDev := some d }) :=
    inv.kfreeSession hx rfl (.of_refs rfl) (by constructor <;> simp) heldOk_refs
  exact (freed.finish (update_self _ _ _)).chain

/-- `del_service_from_dev`, up to `put_service_struct`. -/
theorem delService_keeps {k : Undo} : Keeps Tid (.delService d v k : Pc Dev Uuid) := by
  intro m m' h t env next inv hx moved
  have mine : HeldOk m t (Pc.delService d v k).held := hx ▸ inv.threads.held t
  have after : HeldOk m t (k.held d v) := { mine with }
  have counted : devRef m h (.call t) = some (d, v) := by rw [devRef, hx]; rfl
  obtain ⟨steady, i, slot⟩ := inv.counted_slot counted
  have found := inv.findService slot
  have pos := (inv.refs d i v steady slot).1
  simp only [run, found] at moved
  split at moved
  · rename_i free
    rw [if_neg pos.ne'] at moved
    split at moved
    · rename_i last
      obtain ⟨rfl, rfl⟩ := Prod.mk.inj (Option.some.inj moved)
      have entry : HeldOk (m.setEntry d i none 0) t (k.held d v) :=
        after.setEntry steady (fun _ _ hw => by cases hw)
      have cleared : Inv (m.setEntry d i none 0)
          (update h t { k.held d v with handed := some v }) := by
        refine inv.clearSlot hx rfl slot last ?_ ?_ ?_ { entry with }
        · cases k <;> rfl
        · cases k <;> exact .of_refs rfl
        · cases k <;> constructor <;> simp [Undo.held]
      refine (cleared.lockDev (update_self _ _ _) free ?_ (Pc.held_shape _) ?_).chain
      · cases k <;> exact .of_refs rfl
      · refine { entry with lock := ?_ }
        intro c hc
        obtain rfl := Option.some.inj hc
        exact update_self _ _ _
    · rename_i more
      have released : Inv (m.setRef d i (m.serviceRef d i - 1)) (update h t (k.held d v)) := by
        refine inv.unrefSlot hx rfl slot more ?_ ?_ after
        · cases k <;> exact .of_refs rfl
        · cases k <;> constructor <;> simp [Undo.held]
      have left := (afterDel_inv released (update_self _ _ _)).chain
      rwa [Option.some.inj moved] at left
  · simp at moved

/-- The nested `put_service_struct` of `del_service_from_dev`. -/
theorem delPut_keeps {k : Undo} : Keeps Tid (.delPut d v k : Pc Dev Uuid) := by
  intro m m' h t env next inv hx moved
  have mine : HeldOk m t (Pc.delPut d v k).held := hx ▸ inv.threads.held t
  have after : HeldOk m t (k.held d v) := by
    refine { mine with lock := ?_ }
    cases k <;> simp [Undo.held]
  obtain ⟨rfl, rfl⟩ := Prod.mk.inj (Option.some.inj moved)
  have put : Inv (m.putServiceStruct v) (update h t { k.held d v with devLock := some d }) := by
    refine inv.putHanded hx rfl ?_ ?_ { mine with }
    · cases k <;> exact .of_refs rfl
    · cases k <;> constructor <;> simp [Undo.held]
  have unlocked : Inv ((m.putServiceStruct v).setServiceLock d none)
      (update (update h t { k.held d v with devLock := some d }) t (k.held d v)) := by
    refine put.unlockDev (update_self _ _ _) rfl ?_ ?_ after.putServiceStruct ?_
    · cases k <;> exact .of_refs rfl
    · cases k <;> constructor <;> simp [Undo.held]
    · cases k <;> rfl
  exact (afterDel_inv unlocked.chain (update_self _ _ _)).chain

theorem closeLock_keeps {id : Nat} : Keeps Tid (.closeLock d v id : Pc Dev Uuid) := by
  intro m m' h t env next inv hx moved
  simp only [run] at moved
  split at moved
  · rename_i free
    obtain ⟨rfl, rfl⟩ := Prod.mk.inj (Option.some.inj moved)
    exact inv.lockOp hx free (.of_refs rfl) (Pc.held_shape _) (heldOk_locked (update_self _ _ _))
  · simp at moved

/-- `get_session` under `operation_lock`. -/
theorem closeFind_keeps {id : Nat} : Keeps Tid (.closeFind d v id : Pc Dev Uuid) := by
  intro m m' h t env next inv hx moved
  have mine : HeldOk m t (Pc.closeFind d v id).held := hx ▸ inv.threads.held t
  simp only [run] at moved
  split at moved
  · rename_i e found
    obtain ⟨rfl, rfl⟩ := Prod.mk.inj (Option.some.inj moved)
    obtain ⟨listed, owner⟩ := tcFindSessionWithowner_some found
    exact inv.getSession hx listed rfl (.of_refs rfl) (Pc.held_shape _)
      (heldOk_listed (mine.op v rfl) listed owner)
  · obtain ⟨rfl, rfl⟩ := Prod.mk.inj (Option.some.inj moved)
    exact inv.relabel hx (.of_refs rfl) (Pc.held_shape _) (heldOk_locked (mine.op v rfl))

theorem closeCall_keeps : Keeps Tid (.closeCall d v e : Pc Dev Uuid) := by
  intro m m' h t env next inv hx moved
  have mine : HeldOk m t (Pc.closeCall d v e).held := hx ▸ inv.threads.held t
  obtain ⟨rfl, rfl⟩ := Prod.mk.inj (Option.some.inj moved)
  exact inv.unlist hx rfl rfl rfl (.of_refs rfl) (Pc.held_shape _) (heldOk_locked (mine.op v rfl))

theorem closePut_keeps : Keeps Tid (.closePut d v e : Pc Dev Uuid) := by
  intro m m' h t env next inv hx moved
  have mine : HeldOk m t (Pc.closePut d v e).held := hx ▸ inv.threads.held t
  obtain ⟨rfl, rfl⟩ := Prod.mk.inj (Option.some.inj moved)
  exact inv.putSession hx rfl (.of_refs rfl) (Pc.held_shape _) (heldOk_locked (mine.op v rfl))

theorem closePutOpen_keeps : Keeps Tid (.closePutOpen d v e : Pc Dev Uuid) := by
  intro m m' h t env next inv hx moved
  have mine : HeldOk m t (Pc.closePutOpen d v e).held := hx ▸ inv.threads.held t
  obtain ⟨rfl, rfl⟩ := Prod.mk.inj (Option.some.inj moved)
  exact inv.putTaken hx rfl (.of_refs rfl) (Pc.held_shape _) (heldOk_locked (mine.op v rfl))

theorem closeUnlock_keeps : Keeps Tid (.closeUnlock d v : Pc Dev Uuid) := by
  intro m m' h t env next inv hx moved
  obtain ⟨rfl, rfl⟩ := Prod.mk.inj (Option.some.inj moved)
  exact inv.unlockOp hx rfl (.of_refs rfl) (Pc.held_shape _) heldOk_refs rfl

theorem sendFind_keeps {id : Nat} : Keeps Tid (.sendFind d v id : Pc Dev Uuid) := by
  intro m m' h t env next inv hx moved
  simp only [run] at moved
  split at moved
  · rename_i e found
    obtain ⟨rfl, rfl⟩ := Prod.mk.inj (Option.some.inj moved)
    exact inv.getSession hx (tcFindSessionWithowner_some found).1 rfl (.of_refs rfl)
      (Pc.held_shape _) heldOk_refs
  · obtain ⟨rfl, rfl⟩ := Prod.mk.inj (Option.some.inj moved)
    exact inv.relabel hx (.of_refs rfl) (Pc.held_shape _) heldOk_refs

theorem sendPutService_keeps {f : Option SessionPtr} :
    Keeps Tid (.sendPutService d v f : Pc Dev Uuid) := by
  intro m m' h t env next inv hx moved
  cases f with
  | none =>
    obtain ⟨rfl, rfl⟩ := Prod.mk.inj (Option.some.inj moved)
    exact inv.putService_finish hx
  | some e =>
    obtain ⟨rfl, rfl⟩ := Prod.mk.inj (Option.some.inj moved)
    exact inv.putService hx rfl (.of_refs rfl) (Pc.held_shape _) heldOk_refs

theorem sendCall_keeps : Keeps Tid (.sendCall d e : Pc Dev Uuid) := by
  intro m m' h t env next inv hx moved
  obtain ⟨rfl, rfl⟩ := Prod.mk.inj (Option.some.inj moved)
  have put : Inv (m.putSessionStruct e) (update h t { callDev := some d }) :=
    inv.putSession hx rfl (.of_refs rfl) (by constructor <;> simp) heldOk_refs
  exact (put.finish (update_self _ _ _)).chain

/-- One round of the loop of `close_session_thread_fn`. -/
theorem fdSlot_keeps : Keeps Tid (.fdSlot d : Pc Dev Uuid) := by
  intro m m' h t env next inv hx moved
  obtain ⟨index, closing, -⟩ := (inv.threads.held t).fd d .scan (by rw [hx]; rfl)
  simp only [run, closing] at moved
  split at moved
  · rename_i bound
    cases slot : m.services d ⟨index, bound⟩ with
    | none =>
      simp only [slot] at moved
      obtain ⟨rfl, rfl⟩ := Prod.mk.inj (Option.some.inj moved)
      exact inv.skip hx rfl closing rfl slot (.of_refs rfl) (Pc.held_shape _)
        (heldOk_fd (update_self _ _ _) trivial (Or.inl rfl))
    | some v =>
      simp only [slot] at moved
      obtain ⟨f, listed, -⟩ := inv.scan_session hx closing slot rfl
      rw [if_neg (List.ne_nil_of_mem listed)] at moved
      obtain ⟨rfl, rfl⟩ := Prod.mk.inj (Option.some.inj moved)
      refine inv.stage hx rfl ?_ (.of_refs rfl) (Pc.held_shape _)
        (heldOk_fd closing ⟨⟨index, bound⟩, rfl, slot⟩ (Or.inl rfl))
      rintro w (busy | finished)
      · cases busy
      · cases finished
  · rename_i last
    obtain ⟨rfl, rfl⟩ := Prod.mk.inj (Option.some.inj moved)
    exact inv.freeDev hx rfl closing (Nat.not_lt.1 last) (.of_refs rfl) (Pc.held_shape _)
      heldOk_refs

theorem fdLock_keeps : Keeps Tid (.fdLock d v : Pc Dev Uuid) := by
  intro m m' h t env next inv hx moved
  obtain ⟨index, closing, stage⟩ := (inv.threads.held t).fd d (.chosen v) (by rw [hx]; rfl)
  simp only [run] at moved
  split at moved
  · rename_i free
    obtain ⟨rfl, rfl⟩ := Prod.mk.inj (Option.some.inj moved)
    refine (inv.setOperationLock (inv.noOperationLock free)).stage hx rfl ?_ (.of_refs rfl)
      (Pc.held_shape _) (heldOk_fd closing stage (Or.inr ⟨v, rfl, update_self _ _ _⟩))
    rintro w (busy | finished)
    · cases busy
    · cases finished
  · simp at moved

/-- `tc_find_and_del_session`. -/
theorem fdFind_keeps : Keeps Tid (.fdFind d v : Pc Dev Uuid) := by
  intro m m' h t env next inv hx moved
  have mine : HeldOk m t (Pc.fdFind d v).held := hx ▸ inv.threads.held t
  obtain ⟨index, closing, stage⟩ := mine.fd d (.busy v) rfl
  simp only [run] at moved
  split at moved
  · rename_i e found
    obtain ⟨rfl, rfl⟩ := Prod.mk.inj (Option.some.inj moved)
    obtain ⟨listed, owner⟩ := findOwned_some found
    obtain ⟨n, counted⟩ := inv.listed_session listed
    have heap : m.getSession e =
        { m with sessionUsage := update m.sessionUsage e (some (n + 1 + 1)) } := by
      simp [Heap.getSession, counted]
    have taken : Inv (m.getSession e) (update h t
        { fd := some (d, .busy v), opLock := some v, session := some e }) :=
      inv.getSession hx listed rfl (.of_refs rfl) (by constructor <;> simp)
        (heldOk_fd closing stage (Or.inr ⟨v, rfl, mine.op v rfl⟩))
    rw [heap] at taken ⊢
    refine Inv.chain (x := { fd := some (d, .busy v), opLock := some v, session := some e }) ?_
    exact taken.fdUnlist (y := (Pc.fdPut d v e : Pc Dev Uuid).held) (update_self _ _ _) rfl rfl
      listed owner rfl (.of_refs rfl) (Pc.held_shape _)
      (heldOk_fd closing stage (Or.inr ⟨v, rfl, mine.op v rfl⟩))
  · rename_i absent
    obtain ⟨rfl, rfl⟩ := Prod.mk.inj (Option.some.inj moved)
    have unlocked : Inv (m.setOperationLock v none)
        (update h t { fd := some (d, .busy v) }) :=
      inv.unlockOp hx rfl (.of_refs rfl) (by constructor <;> simp)
        (heldOk_fd closing stage (Or.inl rfl)) rfl
    refine Inv.chain (x := { fd := some (d, .busy v) }) ?_
    refine unlocked.stage (y := (Pc.fdPutService d v : Pc Dev Uuid).held) (update_self _ _ _) rfl
      ?_ (.of_refs rfl) (Pc.held_shape _)
      (heldOk_fd closing ⟨stage, findOwned_none absent⟩ (Or.inl rfl))
    rintro w (busy | finished)
    · cases busy
      exact Or.inr rfl
    · cases finished

theorem fdPut_keeps : Keeps Tid (.fdPut d v e : Pc Dev Uuid) := by
  intro m m' h t env next inv hx moved
  have mine : HeldOk m t (Pc.fdPut d v e).held := hx ▸ inv.threads.held t
  obtain ⟨index, closing, stage⟩ := mine.fd d (.busy v) rfl
  obtain ⟨rfl, rfl⟩ := Prod.mk.inj (Option.some.inj moved)
  exact inv.putSession hx rfl (.of_refs rfl) (Pc.held_shape _)
    (heldOk_fd closing stage (Or.inr ⟨v, rfl, mine.op v rfl⟩))

theorem fdPutOpen_keeps : Keeps Tid (.fdPutOpen d v e : Pc Dev Uuid) := by
  intro m m' h t env next inv hx moved
  have mine : HeldOk m t (Pc.fdPutOpen d v e).held := hx ▸ inv.threads.held t
  obtain ⟨index, closing, stage⟩ := mine.fd d (.busy v) rfl
  obtain ⟨rfl, rfl⟩ := Prod.mk.inj (Option.some.inj moved)
  exact inv.putTaken hx rfl (.of_refs rfl) (Pc.held_shape _)
    (heldOk_fd closing stage (Or.inr ⟨v, rfl, mine.op v rfl⟩))

theorem fdPutService_keeps : Keeps Tid (.fdPutService d v : Pc Dev Uuid) := by
  intro m m' h t env next inv hx moved
  obtain ⟨index, closing, stage⟩ := (inv.threads.held t).fd d (.finished v) (by rw [hx]; rfl)
  simp only [run, closing] at moved
  obtain ⟨rfl, rfl⟩ := Prod.mk.inj (Option.some.inj moved)
  exact inv.fdPut hx rfl closing rfl (z := { fd := some (d, .scan), handed := some v })
    (.of_refs rfl) (by constructor <;> simp) (by constructor <;> simp [FdOk, Heap.setClosing])
    (.of_refs rfl) (Pc.held_shape _) (heldOk_fd (update_self _ _ _) trivial (Or.inl rfl))

theorem run_keeps (pc : Pc Dev Uuid) : Keeps Tid pc := by
  cases pc with
  | idle =>
    intro m m' h t env next inv hx moved
    simp only [run_idle, reduceCtorEq] at moved
  | openLookup => exact openLookup_keeps
  | openAdd => exact openAdd_keeps
  | openPut =>
    intro m m' h t env next inv hx moved
    obtain ⟨rfl, rfl⟩ := Prod.mk.inj (Option.some.inj moved)
    exact inv.putService_finish hx
  | openAlloc => exact openAlloc_keeps
  | openLock => exact openLock_keeps
  | openCall => exact openCall_keeps
  | openUnlock => exact openUnlock_keeps
  | openFree => exact openFree_keeps
  | delService => exact delService_keeps
  | delPut => exact delPut_keeps
  | closeLock => exact closeLock_keeps
  | closeFind => exact closeFind_keeps
  | closeCall => exact closeCall_keeps
  | closePut => exact closePut_keeps
  | closePutOpen => exact closePutOpen_keeps
  | closeUnlock => exact closeUnlock_keeps
  | closePutService =>
    intro m m' h t env next inv hx moved
    obtain ⟨rfl, rfl⟩ := Prod.mk.inj (Option.some.inj moved)
    exact inv.putService_finish hx
  | sendFind => exact sendFind_keeps
  | sendPutService => exact sendPutService_keeps
  | sendCall => exact sendCall_keeps
  | fdSlot => exact fdSlot_keeps
  | fdLock => exact fdLock_keeps
  | fdFind => exact fdFind_keeps
  | fdPut => exact fdPut_keeps
  | fdPutOpen => exact fdPutOpen_keeps
  | fdPutService => exact fdPutService_keeps

end Steps

end SessionManager
