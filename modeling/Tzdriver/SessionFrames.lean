import Tzdriver.SessionCounts

/-!
# What the steps leave alone

Only `tc_client_close` starts to close a device. While no device is being closed, the lists
of sessions, and the owner, the id and the uuid of the sessions on them, change in two places
only: where an open ends and where a close has been to the TEE.
-/

namespace SessionManager

variable {Dev Uuid Tid : Type*} {m m' : Heap Dev Uuid Tid} {t : Tid} {c d : Dev}
  {v : ServicePtr} {e : SessionPtr}

section Steady

theorem getService_dev :
    (m.getService v).calls = m.calls ∧ (m.getService v).closing = m.closing := by
  rw [Heap.getService]
  split <;> exact ⟨rfl, rfl⟩

theorem putServiceStruct_dev :
    (m.putServiceStruct v).calls = m.calls ∧ (m.putServiceStruct v).closing = m.closing := by
  rw [Heap.putServiceStruct]
  split <;> exact ⟨rfl, rfl⟩

theorem getSession_dev :
    (m.getSession e).calls = m.calls ∧ (m.getSession e).closing = m.closing := by
  rw [Heap.getSession]
  split <;> exact ⟨rfl, rfl⟩

theorem putSessionStruct_dev :
    (m.putSessionStruct e).calls = m.calls ∧ (m.putSessionStruct e).closing = m.closing := by
  rw [Heap.putSessionStruct]
  split <;> exact ⟨rfl, rfl⟩

variable [DecidableEq Dev]

theorem afterDel_closing {k : Undo} :
    (afterDel m d v k : Heap Dev Uuid Tid × Pc Dev Uuid).1.closing = m.closing := by
  cases k <;> rfl

theorem setClosing_steady {index next : Nat} (steady : m.closing c = none)
    (closing : m.closing d = some index) : (m.setClosing d next).closing c = none := by
  have other : c ≠ d := by
    rintro rfl
    simp [steady] at closing
  simpa [Heap.setClosing, other] using steady

theorem freeDev_steady (steady : m.closing c = none) : (m.freeDev d).closing c = none := by
  by_cases hc : c = d
  · simp [Heap.freeDev, hc]
  · simpa [Heap.freeDev, hc] using steady

variable [DecidableEq Uuid]

/-- Only `tc_client_close` starts to close a device. -/
theorem run_steady {pc next : Pc Dev Uuid} {env : Env} (moved : run m t env pc = some (m', next))
    (steady : m.closing c = none) : m'.closing c = none := by
  cases pc <;> simp only [run] at moved <;>
    grind [getService_dev, putServiceStruct_dev, getSession_dev, putSessionStruct_dev,
      afterDel_closing, Heap.leave, Heap.setServiceLock, Heap.setEntry, Heap.setRef,
      Heap.setOperationLock, Heap.tcNsServiceInit, Heap.newSession, Heap.kfreeSession,
      Heap.initNewSessNode, Heap.listDel, setClosing_steady, freeDev_steady]

theorem startOpen_closing {u : Uuid} : (startOpen m t d u).1.closing = m.closing := by
  rw [startOpen]
  grind [Heap.enter, Heap.setRef, Heap.setServiceLock]

theorem startFound_closing {u : Uuid} {next : ServicePtr → Pc Dev Uuid} :
    (startFound m d u next).1.closing = m.closing := by
  rw [startFound]
  grind [Heap.enter, getService_dev]

variable [DecidableEq Tid] {s s' : Sys Dev Uuid Tid} {a : Act Dev Uuid Tid}

theorem step_steady (moved : step s a = some s')
    (steady : s.heap.closing c = none) (notClosed : ∀ t, a ≠ .release t c) :
    s'.heap.closing c = none := by
  cases a with
  | run t env =>
    simp only [step] at moved
    split at moved
    · obtain rfl := Option.some.inj moved
      exact steady
    · obtain ⟨⟨m', next⟩, ran, rfl⟩ := Option.map_eq_some_iff.1 moved
      exact run_steady ran steady
  | openDev d =>
    simp only [step] at moved
    split at moved
    · obtain rfl := Option.some.inj moved
      by_cases hc : c = d
      · simp [Heap.openDev, hc]
      · simpa [Heap.openDev, hc] using steady
    · cases moved
  | openSession t d u =>
    simp only [step] at moved
    grind [startOpen_closing, Sys.go, Sys.setFault]
  | closeSession t d u id | sendCmd t d u id =>
    simp only [step] at moved
    grind [startFound_closing, Sys.go, Sys.setFault]
  | release t d =>
    have other : c ≠ d := by
      rintro rfl
      exact notClosed t rfl
    simp only [step] at moved
    split at moved
    · obtain rfl := Option.some.inj moved
      simpa [Sys.go, Heap.setClosing, other] using steady
    · cases moved

end Steady

section Sessions

/-- The fields that say which sessions are open. -/
def Heap.sessions (m : Heap Dev Uuid Tid) :
    (ServicePtr → List SessionPtr) × (SessionPtr → Option Dev) × (SessionPtr → Nat) ×
      (ServicePtr → Option Uuid) :=
  (m.sessionList, m.owner, m.sessionId, m.uuid)

theorem getService_sessions : (m.getService v).sessions = m.sessions := by
  rw [Heap.getService]
  split <;> rfl

theorem putServiceStruct_sessions : (m.putServiceStruct v).sessions = m.sessions := by
  rw [Heap.putServiceStruct]
  split <;> rfl

theorem getSession_sessions : (m.getSession e).sessions = m.sessions := by
  rw [Heap.getSession]
  split <;> rfl

theorem putSessionStruct_sessions : (m.putSessionStruct e).sessions = m.sessions := by
  rw [Heap.putSessionStruct]
  split <;> rfl

theorem afterDel_sessions [DecidableEq Dev] {k : Undo} :
    (afterDel m d v k : Heap Dev Uuid Tid × Pc Dev Uuid).1.sessions = m.sessions := by
  cases k <;> rfl

/-- The same sessions are on the lists. -/
structure SameSessions (m m' : Heap Dev Uuid Tid) : Prop where
  lists : m'.sessionList = m.sessionList
  owner : ∀ v, ∀ e ∈ m.sessionList v, m'.owner e = m.owner e
  sessionId : ∀ v, ∀ e ∈ m.sessionList v, m'.sessionId e = m.sessionId e
  uuid : ∀ v, ∀ e ∈ m.sessionList v, m'.uuid v = m.uuid v

theorem SameSessions.of_eq (same : m'.sessions = m.sessions) : SameSessions m m' := by
  simp only [Heap.sessions, Prod.mk.injEq] at same
  obtain ⟨lists, owner, sessionId, uuid⟩ := same
  exact ⟨lists, fun _ e _ => congrFun owner e, fun _ e _ => congrFun sessionId e,
    fun v _ _ => congrFun uuid v⟩

/-- The thread is at a call to the TEE. -/
def Sys.atTee (s : Sys Dev Uuid Tid) (t : Tid) : Bool :=
  match s.threads t with
  | .openCall _ _ _ | .closeCall _ _ _ => true
  | _ => false

variable {h : Tid → Held Dev Uuid}

theorem tcNsServiceInit_same (inv : Inv m h) {u : Uuid} : SameSessions m (m.tcNsServiceInit u) := by
  have lists : (m.tcNsServiceInit u).sessionList = m.sessionList := by
    simp only [Heap.tcNsServiceInit]
    rw [← inv.fresh_sessionList, Function.update_eq_self]
  refine ⟨lists, fun _ _ _ => rfl, fun _ _ _ => rfl, fun v e listed => ?_⟩
  have old : v ≠ m.nextService := by
    rintro rfl
    simp [inv.fresh_sessionList] at listed
  simp [Heap.tcNsServiceInit, old]

theorem newSession_same (inv : Inv m h) : SameSessions m m.newSession := by
  have old : ∀ v, ∀ e ∈ m.sessionList v, e ≠ m.nextSession := by
    intro v e listed
    obtain ⟨n, counted⟩ := inv.listed_session listed
    exact (inv.freshSession e _ counted).ne
  refine ⟨rfl, fun v e listed => ?_, fun v e listed => ?_, fun _ _ _ => rfl⟩ <;>
    simp [Heap.newSession, old v e listed]

variable [DecidableEq Dev] [DecidableEq Uuid]

/-- Every step of a call that is not at the TEE keeps the sessions. -/
theorem run_same {pc next : Pc Dev Uuid} {env : Env} (inv : Inv m h) (at_ : h t = pc.held)
    (steady : ∀ d, m.closing d = none) (ran : run m t env pc = some (m', next))
    (notOpen : ∀ d v e, pc ≠ .openCall d v e) (notClose : ∀ d v e, pc ≠ .closeCall d v e) :
    SameSessions m m' := by
  have noFd : ∀ d st, pc.held.fd ≠ some (d, st) := by
    intro d st fd
    obtain ⟨index, closing, -⟩ := (inv.threads.held t).fd d st (by rw [at_, fd])
    simp [steady d] at closing
  cases pc with
  | openLookup d u =>
    simp only [run] at ran
    split at ran
    · obtain ⟨rfl, rfl⟩ := Prod.mk.inj (Option.some.inj ran)
      exact .of_eq getService_sessions
    · split at ran
      · obtain ⟨rfl, rfl⟩ := Prod.mk.inj (Option.some.inj ran)
        exact tcNsServiceInit_same inv
      · obtain ⟨rfl, rfl⟩ := Prod.mk.inj (Option.some.inj ran)
        exact .of_eq rfl
  | openAlloc d v =>
    simp only [run] at ran
    split at ran
    · obtain ⟨rfl, rfl⟩ := Prod.mk.inj (Option.some.inj ran)
      exact newSession_same inv
    · obtain ⟨rfl, rfl⟩ := Prod.mk.inj (Option.some.inj ran)
      exact .of_eq rfl
  | openCall d v e => exact absurd rfl (notOpen d v e)
  | closeCall d v e => exact absurd rfl (notClose d v e)
  | fdSlot d | fdLock d v | fdFind d v | fdPut d v e | fdPutOpen d v e | fdPutService d v =>
    exact absurd rfl (noFd d _)
  | _ =>
    refine .of_eq ?_
    simp only [run] at ran
    grind [getService_sessions, putServiceStruct_sessions, getSession_sessions,
      putSessionStruct_sessions, afterDel_sessions, Heap.sessions, Heap.leave,
      Heap.setServiceLock, Heap.setEntry, Heap.setRef, Heap.setOperationLock, Heap.kfreeSession]

theorem startOpen_sessions {u : Uuid} : (startOpen m t d u).1.sessions = m.sessions := by
  rw [startOpen]
  grind [Heap.sessions, Heap.enter, Heap.setRef, Heap.setServiceLock]

theorem startFound_sessions {u : Uuid} {next : ServicePtr → Pc Dev Uuid} :
    (startFound m d u next).1.sessions = m.sessions := by
  rw [startFound]
  split
  · exact getService_sessions
  · rfl

variable [DecidableEq Tid] {s s' : Sys Dev Uuid Tid} {a : Act Dev Uuid Tid}

theorem step_same (inv : Inv s.heap s.held) (steady : ∀ d, s.heap.closing d = none)
    (moved : step s a = some s') (away : ∀ t env, a = .run t env → s.atTee t = false) :
    SameSessions s.heap s'.heap := by
  cases a with
  | run t env =>
    have elsewhere := away t env rfl
    simp only [step] at moved
    rw [inv.bad_false rfl, if_neg Bool.false_ne_true] at moved
    obtain ⟨⟨m', next⟩, ran, rfl⟩ := Option.map_eq_some_iff.1 moved
    refine run_same inv rfl steady ran ?_ ?_
    all_goals
      intro d v e at_
      simp [Sys.atTee, at_] at elsewhere
  | openDev d =>
    refine .of_eq ?_
    simp only [step] at moved
    split at moved
    · obtain rfl := Option.some.inj moved
      rfl
    · cases moved
  | openSession t d u =>
    refine .of_eq ?_
    simp only [step] at moved
    grind [startOpen_sessions, Sys.go, Sys.setFault, Heap.sessions]
  | closeSession t d u id | sendCmd t d u id =>
    refine .of_eq ?_
    simp only [step] at moved
    grind [startFound_sessions, Sys.go, Sys.setFault, Heap.sessions]
  | release t d =>
    refine .of_eq ?_
    simp only [step] at moved
    split at moved
    · obtain rfl := Option.some.inj moved
      rfl
    · cases moved

end Sessions

end SessionManager
