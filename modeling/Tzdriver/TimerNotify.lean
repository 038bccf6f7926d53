import Tzdriver.SessionCounts

/-!
# Timer notifications

`tc_notify_timer_fn` looks up the session that a timer of the TEE belongs to and takes a reference
to it in `find_notify_sess`. It drops the reference after it has woken the session, which it does
for a `TIMER_GENERIC` only: any other timer leaves the session with one reference too many, and the
session is never freed.

The tables are those of the session manager. Callbacks are functions of other drivers; what is
called is recorded.
-/

namespace TimerNotify

open Function SessionManager

def eNOENT : Int := 2
def timerGeneric : UInt32 := 0
def timerRtc : UInt32 := 1

/-- `struct teec_timer_property`. -/
structure TeecTimerProperty where
  type : UInt32
  timerId : UInt32
  timerClass : UInt32
  reserved2 : UInt32
  deriving DecidableEq

/-- `struct notify_data_entry` with a `struct notify_context_timer`. -/
structure NotifyDataEntry (Uuid : Type*) where
  filled : Bool
  devFileId : UInt32
  uuid : Uuid
  sessionId : Nat
  property : TeecTimerProperty
  expireTime : UInt32

/-- `struct tc_ns_callback`. -/
structure Callback (Uuid : Type*) where
  uuid : Uuid
  callbackFunc : Nat

/-- The tables, the list of device files, the registered callbacks and what a notification does
outside the tables. -/
structure Driver (Dev Uuid Tid : Type*) where
  heap : Heap Dev Uuid Tid
  devList : Option (List Dev)
  devFileId : Dev → UInt32
  callbackList : List (Callback Uuid)
  called : List (Nat × TeecTimerProperty)
  sendWaitFlag : SessionPtr → Nat
  woken : List SessionPtr

variable {Dev Uuid Tid : Type*} [DecidableEq Dev] [DecidableEq Uuid]

section Model

omit [DecidableEq Dev] in
/-- `walk_callback_list`. -/
def walkCallbackList (s : Driver Dev Uuid Tid) (timer : NotifyDataEntry Uuid) :
    Driver Dev Uuid Tid :=
  { s with
    called := s.called ++ (s.callbackList.filter fun c =>
      c.uuid = timer.uuid ∧ timer.property.timerClass = timerRtc).map fun c =>
        (c.callbackFunc, timer.property) }

omit [DecidableEq Dev] in
/-- The service that `find_notify_sess` finds, and its device. -/
def notifiedService (s : Driver Dev Uuid Tid) (devFileList : List Dev)
    (timer : NotifyDataEntry Uuid) : Option (Dev × ServicePtr) :=
  match devFileList.find? fun d => s.devFileId d = timer.devFileId with
  | none => none
  | some d => ((s.heap.findUuid d timer.uuid).bind (s.heap.services d)).map fun v => (d, v)

/-- `find_notify_sess`: its code, `*temp_ses` and `*enc_found`. -/
def findNotifySess (s : Driver Dev Uuid Tid) (timer : NotifyDataEntry Uuid) :
    Int × Driver Dev Uuid Tid × Option SessionPtr × Bool :=
  match s.devList with
  | none => (-eNOENT, s, none, false)
  | some devFileList =>
    match notifiedService s devFileList timer with
    | none => (0, s, none, false)
    | some (d, v) =>
      let m := s.heap.getService v
      match m.tcFindSessionWithowner v timer.sessionId d with
      | none => (0, { s with heap := m.putServiceStruct v }, none, false)
      | some e =>
        (0, { s with heap := (m.getSession e).putServiceStruct v }, some e, true)

/-- `tc_notify_timer_fn`. -/
def tcNotifyTimerFn (s : Driver Dev Uuid Tid) (entry : NotifyDataEntry Uuid) :
    Driver Dev Uuid Tid × NotifyDataEntry Uuid :=
  let entry := { entry with filled := false }
  let s := walkCallbackList s entry
  match findNotifySess s entry with
  | (ret, s, tempSes, encFound) =>
    if ret ≠ 0 then (s, entry)
    else if entry.property.timerClass = timerGeneric then
      match encFound, tempSes with
      | true, some e =>
        ({ s with
          sendWaitFlag := update s.sendWaitFlag e 1
          woken := s.woken ++ [e]
          heap := s.heap.putSessionStruct e }, entry)
      | _, _ => (s, entry)
    else (s, entry)

end Model

section Balance

variable {s : Driver Dev Uuid Tid} {entry : NotifyDataEntry Uuid}

/-- The session that the lookups lead to. -/
def notifiedSession (s : Driver Dev Uuid Tid) (entry : NotifyDataEntry Uuid) :
    Option SessionPtr :=
  s.devList.bind fun devFileList =>
    (notifiedService s devFileList entry).bind fun p =>
      s.heap.tcFindSessionWithowner p.2 entry.sessionId p.1

/-- What the tables of the listed devices refer to is allocated, and counted. -/
structure Live (s : Driver Dev Uuid Tid) : Prop where
  service : ∀ devFileList, s.devList = some devFileList → ∀ d ∈ devFileList, ∀ i v,
    s.heap.services d i = some v → ∃ n, s.heap.usage v = some (n + 1)
  session : ∀ devFileList, s.devList = some devFileList → ∀ d ∈ devFileList, ∀ i v,
    s.heap.services d i = some v → ∀ e ∈ s.heap.sessionList v,
      ∃ n, s.heap.sessionUsage e = some (n + 1)

/-- All counters are as before, and a session on which one reference was left is freed when that
one is dropped. -/
structure Balanced (s s' : Driver Dev Uuid Tid) : Prop where
  usage : s'.heap.usage = s.heap.usage
  sessionUsage : s'.heap.sessionUsage = s.heap.sessionUsage
  freed : ∀ e, s.heap.sessionUsage e = some 1 → (s'.heap.putSessionStruct e).sessionUsage e = none

omit [DecidableEq Dev] [DecidableEq Uuid] in
/-- A reference to a service that is taken and dropped again. -/
theorem put_get_service {m : Heap Dev Uuid Tid} {v : ServicePtr} {n : Nat}
    (counted : m.usage v = some (n + 1)) : (m.getService v).putServiceStruct v = m := by
  have same : update m.usage v (some (n + 1)) = m.usage := by rw [← counted, update_eq_self]
  simp [Heap.getService, Heap.putServiceStruct, counted, same]

omit [DecidableEq Dev] [DecidableEq Uuid] in
/-- The same around a reference to a session that is taken. -/
theorem put_getSession_get_service {m : Heap Dev Uuid Tid} {v : ServicePtr} {e : SessionPtr}
    {n k : Nat} (counted : m.usage v = some (n + 1)) (held : m.sessionUsage e = some k) :
    ((m.getService v).getSession e).putServiceStruct v =
      { m with sessionUsage := update m.sessionUsage e (some (k + 1)) } := by
  have same : update m.usage v (some (n + 1)) = m.usage := by rw [← counted, update_eq_self]
  simp [Heap.getService, Heap.getSession, Heap.putServiceStruct, counted, held, same]

omit [DecidableEq Dev] in
theorem notifiedService_spec {devFileList : List Dev} {d : Dev} {v : ServicePtr}
    (found : notifiedService s devFileList entry = some (d, v)) :
    d ∈ devFileList ∧ ∃ i, s.heap.services d i = some v := by
  unfold notifiedService at found
  split at found
  · cases found
  · rename_i c first
    obtain ⟨w, slot, same⟩ := Option.map_eq_some_iff.mp found
    obtain ⟨rfl, rfl⟩ := Prod.mk.inj same
    obtain ⟨i, -, here⟩ := Option.bind_eq_some_iff.mp slot
    exact ⟨List.mem_of_find?_eq_some first, i, here⟩

/-- What the lookups leave behind: the tables as they were, with one more reference to the session
that was found. -/
theorem findNotifySess_spec (live : Live s) :
    (notifiedSession s entry = none ∧
      ∃ ret, findNotifySess s entry = (ret, s, none, false)) ∨
    ∃ e n, notifiedSession s entry = some e ∧ s.heap.sessionUsage e = some (n + 1) ∧
      findNotifySess s entry = (0,
        { s with heap := { s.heap with
          sessionUsage := update s.heap.sessionUsage e (some (n + 2)) } }, some e, true) := by
  unfold findNotifySess notifiedSession
  cases list : s.devList with
  | none => exact Or.inl ⟨rfl, _, rfl⟩
  | some devFileList =>
    simp only [Option.bind_some]
    cases service : notifiedService s devFileList entry with
    | none => exact Or.inl ⟨rfl, _, rfl⟩
    | some p =>
      obtain ⟨d, v⟩ := p
      obtain ⟨listed, i, slot⟩ := notifiedService_spec service
      obtain ⟨k, counted⟩ := live.service devFileList list d listed i v slot
      have same : (s.heap.getService v).tcFindSessionWithowner v entry.sessionId d =
          s.heap.tcFindSessionWithowner v entry.sessionId d := by
        simp [Heap.getService, counted, Heap.tcFindSessionWithowner]
      simp only [same, Option.bind_some]
      cases session : s.heap.tcFindSessionWithowner v entry.sessionId d with
      | none =>
        simp only [put_get_service counted]
        exact Or.inl ⟨trivial, 0, by rw [← list]⟩
      | some e =>
        have member : e ∈ s.heap.sessionList v := List.mem_of_find?_eq_some session
        obtain ⟨n, held⟩ := live.session devFileList list d listed i v slot e member
        simp only [put_getSession_get_service counted held]
        exact Or.inr ⟨e, n, rfl, held, by rw [← list]⟩

/-- A notification that finds no session, or of a `TIMER_GENERIC`, leaves the tables as they were;
any other leaves one more reference to the session. -/
theorem tcNotifyTimerFn_heap (live : Live s) :
    ((entry.property.timerClass = timerGeneric ∨ notifiedSession s entry = none) →
      (tcNotifyTimerFn s entry).1.heap = s.heap) ∧
    ∀ e, entry.property.timerClass ≠ timerGeneric → notifiedSession s entry = some e →
      ∃ n, s.heap.sessionUsage e = some (n + 1) ∧
        (tcNotifyTimerFn s entry).1.heap =
          { s.heap with sessionUsage := update s.heap.sessionUsage e (some (n + 2)) } := by
  have walked : Live (walkCallbackList s { entry with filled := false }) :=
    ⟨live.service, live.session⟩
  have same : notifiedSession (walkCallbackList s { entry with filled := false })
      { entry with filled := false } = notifiedSession s entry := rfl
  unfold tcNotifyTimerFn
  rcases @findNotifySess_spec _ _ _ _ _ _ { entry with filled := false } walked with
    ⟨missed, ret, ends⟩ | ⟨e, n, found, held, ends⟩
  · rw [same] at missed
    simp only [ends]
    constructor
    · intro _
      split
      · rfl
      · split
        · rfl
        · rfl
    · intro e _ found
      rw [missed] at found
      cases found
  · rw [same] at found
    simp only [ends, ne_eq, not_true_eq_false, if_false]
    constructor
    · rintro (generic | missed)
      · rw [if_pos generic]
        have back : update s.heap.sessionUsage e (some (n + 1)) = s.heap.sessionUsage := by
          have held' : s.heap.sessionUsage e = some (n + 1) := held
          rw [← held', update_eq_self]
        simp [Heap.putSessionStruct, walkCallbackList, back]
      · rw [found] at missed
        cases missed
    · intro e' other found'
      obtain rfl := Option.some.inj (found.symm.trans found')
      rw [if_neg other]
      exact ⟨n, held, rfl⟩

/-- A timer notification leaves all counters as they were exactly if it is for a `TIMER_GENERIC`
or its lookups find no session. -/
theorem timer_balanced_iff (live : Live s) :
    Balanced s (tcNotifyTimerFn s entry).1 ↔
      entry.property.timerClass = timerGeneric ∨ notifiedSession s entry = none := by
  obtain ⟨kept, leaked⟩ := @tcNotifyTimerFn_heap _ _ _ _ _ s entry live
  constructor
  · intro balanced
    by_contra neither
    rw [not_or] at neither
    obtain ⟨e, found⟩ := Option.ne_none_iff_exists'.mp neither.2
    obtain ⟨n, held, heap⟩ := leaked e neither.1 found
    have after := congrFun balanced.sessionUsage e
    rw [heap, held] at after
    simp at after
  · intro fine
    have same := kept fine
    refine ⟨by rw [same], by rw [same], ?_⟩
    intro e last
    rw [same]
    simp [Heap.putSessionStruct, last]

/-- The tables of a run of the session manager, with a list of devices that are not being closed. -/
theorem live_of_reach [DecidableEq Tid] {sys : Sys Dev Uuid Tid}
    (run : ActionSystem.Reach step (fun _ _ => True) Sys.init sys) (heap : s.heap = sys.heap)
    (steady : ∀ devFileList, s.devList = some devFileList → ∀ d ∈ devFileList,
      sys.heap.closing d = none) : Live s := by
  have inv := reach_inv run
  constructor
  · intro devFileList list d listed i v slot
    rw [heap] at slot ⊢
    have held := (slot_of_steady (steady devFileList list d listed)).trans slot
    exact inv.svc.pos (r := .slot d i) held
  · intro devFileList list d listed i v slot e member
    rw [heap] at member ⊢
    exact inv.listed_session member

end Balance

/-- Device 1 has the service 0 with one session, whose id is 5. -/
def oneSession : Driver Nat Nat Unit where
  heap := { (Heap.init : Heap Nat Nat Unit) with
    uuid := fun v => if v = 0 then some 7 else none
    usage := fun v => if v = 0 then some 1 else none
    sessionList := fun v => if v = 0 then [0] else []
    serviceList := [0]
    nextService := 1
    sessionId := fun _ => 5
    sessionUsage := fun e => if e = 0 then some 1 else none
    owner := fun e => if e = 0 then some 1 else none
    nextSession := 1
    services := fun d i => if d = 1 ∧ i.val = 0 then some 0 else none
    serviceRef := fun d i => if d = 1 ∧ i.val = 0 then 1 else 0
    calls := fun d => if d = 1 then some 0 else none }
  devList := some [1]
  devFileId := fun d => d.toUInt32
  callbackList := [⟨7, 3⟩]
  called := []
  sendWaitFlag := fun _ => 0
  woken := []

theorem oneSession_live : Live oneSession := by
  constructor
  · intro devFileList _ d _ i v slot
    simp only [oneSession, Option.ite_none_right_eq_some, Option.some.injEq] at slot
    obtain ⟨-, rfl⟩ := slot
    exact ⟨0, rfl⟩
  · intro devFileList _ d _ i v slot e member
    simp only [oneSession, Option.ite_none_right_eq_some, Option.some.injEq] at slot
    obtain ⟨-, rfl⟩ := slot
    have first : e = 0 := by simpa [oneSession] using member
    subst first
    exact ⟨0, rfl⟩

def timerEntry (timerClass : UInt32) : NotifyDataEntry Nat where
  filled := true
  devFileId := 1
  uuid := 7
  sessionId := 5
  property := ⟨0, 9, timerClass, 0⟩
  expireTime := 0

theorem timer_balanced_generic :
    Balanced oneSession (tcNotifyTimerFn oneSession (timerEntry timerGeneric)).1 :=
  (timer_balanced_iff oneSession_live).mpr (Or.inl rfl)

/-- A `TIMER_RTC` leaves the session with two references, and dropping the one that closing it
drops does not free it. -/
theorem rtc_leaks_session :
    (tcNotifyTimerFn oneSession (timerEntry timerRtc)).1.heap.sessionUsage 0 = some 2 ∧
    ((tcNotifyTimerFn oneSession (timerEntry timerRtc)).1.heap.putSessionStruct 0).sessionUsage 0 =
      some 1 ∧
    ¬ Balanced oneSession (tcNotifyTimerFn oneSession (timerEntry timerRtc)).1 := by
  have twice : (tcNotifyTimerFn oneSession (timerEntry timerRtc)).1.heap.sessionUsage 0 = some 2 :=
    by decide +kernel
  refine ⟨twice, by decide +kernel, fun balanced => ?_⟩
  rw [balanced.sessionUsage] at twice
  exact absurd twice (by decide +kernel)

end TimerNotify
