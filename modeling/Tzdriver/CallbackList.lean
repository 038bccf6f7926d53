import Tzdriver.FirstMatch
import Tzdriver.TimerNotify

/-!
# Registered callbacks

`core/tz_spi_notify.c`: other drivers register a function for a service, and an RTC timer of the
service calls it. The list refines a partial function from services to functions: every sequence of
registrations and timers has the same codes and the same calls as with that function.

A registration takes the lock of the list and so does a timer, so they come one after another.
`memory` says whether `kzalloc` returns memory. A null pointer is `none`.
-/

namespace TimerNotify

open FirstMatch Function SessionManager

def maxCallbackCount : Nat := 100
def eINVAL : Int := 22
def eNOMEM : Int := 12

variable {Dev Uuid Tid : Type*} [DecidableEq Uuid]

/-- The driver with the counter of `g_ta_callback_func_list`. -/
structure Callbacks (Dev Uuid Tid : Type*) where
  driver : Driver Dev Uuid Tid
  callbackCount : Nat

def Callbacks.setList (s : Callbacks Dev Uuid Tid) (list : List (Callback Uuid)) (count : Nat) :
    Callbacks Dev Uuid Tid :=
  { driver := { s.driver with callbackList := list }, callbackCount := count }

/-- `tc_ns_register_service_call_back_func`. -/
def tcNsRegisterServiceCallBackFunc (s : Callbacks Dev Uuid Tid) (memory : Bool)
    (uuid : Option Uuid) (func : Option Nat) : Int × Callbacks Dev Uuid Tid :=
  match uuid, func with
  | some uuid, some func =>
    if s.callbackCount > maxCallbackCount then (-eNOMEM, s)
    else if s.driver.callbackList.any fun c => c.uuid = uuid then
      (0, s.setList (updateFirst (fun c => c.uuid = uuid) (fun c => { c with callbackFunc := func })
        s.driver.callbackList) s.callbackCount)
    else if memory = false then (-eNOMEM, s)
    else (0, s.setList (s.driver.callbackList ++ [⟨uuid, func⟩]) (s.callbackCount + 1))
  | _, _ => (-eINVAL, s)

inductive CallbackOp (Uuid : Type*) where
  | register (memory : Bool) (uuid : Option Uuid) (func : Option Nat)
  | timer (timer : NotifyDataEntry Uuid)

def Callbacks.op (s : Callbacks Dev Uuid Tid) : CallbackOp Uuid → Int × Callbacks Dev Uuid Tid
  | .register memory uuid func => tcNsRegisterServiceCallBackFunc s memory uuid func
  | .timer timer => (0, { s with driver := walkCallbackList s.driver timer })

/-! ## What the list is for -/

/-- The functions that are registered, how many there are and what was called. -/
structure Registry (Uuid : Type*) where
  func : Uuid → Option Nat
  size : Nat
  called : List (Nat × TeecTimerProperty)

def Registry.register (r : Registry Uuid) (memory : Bool) (uuid : Uuid) (func : Nat) :
    Int × Registry Uuid :=
  if r.size > maxCallbackCount then (-eNOMEM, r)
  else
    match r.func uuid, memory with
    | some _, _ => (0, { r with func := update r.func uuid (some func) })
    | none, true => (0, { r with func := update r.func uuid (some func), size := r.size + 1 })
    | none, false => (-eNOMEM, r)

def Registry.op (r : Registry Uuid) : CallbackOp Uuid → Int × Registry Uuid
  | .register memory (some uuid) (some func) => r.register memory uuid func
  | .register _ _ _ => (-eINVAL, r)
  | .timer timer =>
    (0, { r with called := r.called ++
      if timer.property.timerClass = timerRtc then
        (r.func timer.uuid).toList.map fun f => (f, timer.property)
      else [] })

section Refinement

variable {s : Callbacks Dev Uuid Tid} {r : Registry Uuid} {uuid u : Uuid} {f : Nat}
  {list : List (Callback Uuid)}

/-- The functions of the entries of a service. -/
def funcsOf (list : List (Callback Uuid)) (u : Uuid) : List Nat :=
  (list.filter fun c => c.uuid = u).map Callback.callbackFunc

theorem funcsOf_cons (c : Callback Uuid) :
    funcsOf (c :: list) u = (if c.uuid = u then [c.callbackFunc] else []) ++ funcsOf list u := by
  unfold funcsOf
  by_cases here : c.uuid = u <;> simp [here]

theorem funcsOf_ne_nil : list.any (fun c => c.uuid = uuid) = true ↔ funcsOf list uuid ≠ [] := by
  simp [funcsOf, List.any_eq_true]

/-- The one entry of the service changes. -/
theorem funcsOf_updateFirst (one : (funcsOf list uuid).length ≤ 1)
    (found : funcsOf list uuid ≠ []) :
    funcsOf (updateFirst (fun c => c.uuid = uuid) (fun c => { c with callbackFunc := f }) list) u =
      if u = uuid then [f] else funcsOf list u := by
  induction list with
  | nil => exact absurd rfl found
  | cons c list ih =>
    rw [funcsOf_cons] at one found
    by_cases here : c.uuid = uuid
    · rw [if_pos here, List.singleton_append, List.length_cons] at one
      have rest : funcsOf list uuid = [] := List.eq_nil_of_length_eq_zero (by omega)
      rw [updateFirst, if_pos (by simpa using here), funcsOf_cons, funcsOf_cons]
      by_cases same : u = uuid
      · subst same
        simp [here, rest]
      · have apart : ¬ c.uuid = u := by
          rw [here]
          exact fun eq => same eq.symm
        simp [apart, same]
    · rw [if_neg here, List.nil_append] at one found
      rw [updateFirst, if_neg (by simpa using here), funcsOf_cons, funcsOf_cons, ih one found]
      by_cases same : u = uuid
      · subst same
        simp [here]
      · simp [same]

theorem funcsOf_append (c : Callback Uuid) :
    funcsOf (list ++ [c]) u = funcsOf list u ++ if c.uuid = u then [c.callbackFunc] else [] := by
  unfold funcsOf
  by_cases here : c.uuid = u <;> simp [here]

/-- The list stands for the function. -/
structure Stands (s : Callbacks Dev Uuid Tid) (r : Registry Uuid) : Prop where
  func : ∀ u, funcsOf s.driver.callbackList u = (r.func u).toList
  count : s.callbackCount = s.driver.callbackList.length
  size : r.size = s.callbackCount
  bound : s.callbackCount ≤ maxCallbackCount + 1
  called : s.driver.called = r.called

theorem Stands.any_iff (stands : Stands s r) :
    s.driver.callbackList.any (fun c => c.uuid = uuid) = true ↔ (r.func uuid).isSome = true := by
  rw [funcsOf_ne_nil, stands.func]
  cases r.func uuid <;> simp

/-- A registration of a function for a service. -/
theorem Stands.register (stands : Stands s r) (memory : Bool) :
    (tcNsRegisterServiceCallBackFunc s memory (some uuid) (some f)).1 =
      (r.register memory uuid f).1 ∧
    Stands (tcNsRegisterServiceCallBackFunc s memory (some uuid) (some f)).2
      (r.register memory uuid f).2 := by
  simp only [tcNsRegisterServiceCallBackFunc, Registry.register, stands.size]
  by_cases full : s.callbackCount > maxCallbackCount
  · simp only [if_pos full]
    exact ⟨trivial, stands⟩
  · simp only [if_neg full]
    cases known : r.func uuid with
    | some old =>
      have found := stands.any_iff.2 (show (r.func uuid).isSome = true by rw [known]; rfl)
      simp only [if_pos found]
      refine ⟨trivial, ?_, ?_, rfl, stands.bound, stands.called⟩
      · intro u
        have here : funcsOf s.driver.callbackList uuid = [old] := by rw [stands.func, known]; rfl
        refine (funcsOf_updateFirst (by rw [here]; simp) (by simp [here])).trans ?_
        by_cases same : u = uuid
        · subst same
          simp
        · simp [same, stands.func]
      · exact stands.count.trans length_updateFirst.symm
    | none =>
      have absent : ¬ s.driver.callbackList.any (fun c => c.uuid = uuid) = true := by
        rw [stands.any_iff, known]
        simp
      simp only [if_neg absent]
      cases memory with
      | false => exact ⟨rfl, stands⟩
      | true =>
        refine ⟨rfl, ?_, ?_, ?_, ?_, stands.called⟩
        · intro u
          refine (funcsOf_append _).trans ?_
          by_cases same : u = uuid
          · subst same
            simp [stands.func, known]
          · simp [stands.func, same, Ne.symm same]
        · show s.callbackCount + 1 = (s.driver.callbackList ++ [_]).length
          rw [stands.count, List.length_append, List.length_singleton]
        · rfl
        · show s.callbackCount + 1 ≤ maxCallbackCount + 1
          omega

theorem Stands.op (stands : Stands s r) (op : CallbackOp Uuid) :
    (s.op op).1 = (r.op op).1 ∧ Stands (s.op op).2 (r.op op).2 := by
  cases op with
  | register memory uuid func =>
    cases uuid with
    | none => exact ⟨rfl, stands⟩
    | some uuid =>
      cases func with
      | none => exact ⟨rfl, stands⟩
      | some f => exact stands.register memory
  | timer timer =>
    refine ⟨rfl, stands.func, stands.count, stands.size, stands.bound, ?_⟩
    have mine := stands.func timer.uuid
    simp only [Callbacks.op, walkCallbackList, Registry.op, stands.called]
    congr 1
    by_cases rtc : timer.property.timerClass = timerRtc
    · rw [if_pos rtc, ← mine]
      simp [funcsOf, rtc, Function.comp_def]
    · simp [rtc]

end Refinement

/-- A sequence of operations on the list, and one on the registry, with their codes. -/
def Callbacks.ops (s : Callbacks Dev Uuid Tid) : List (CallbackOp Uuid) → List Int × Callbacks Dev Uuid Tid
  | [] => ([], s)
  | op :: rest => (((s.op op).1 :: ((s.op op).2.ops rest).1), ((s.op op).2.ops rest).2)

def Registry.ops (r : Registry Uuid) : List (CallbackOp Uuid) → List Int × Registry Uuid
  | [] => ([], r)
  | op :: rest => (((r.op op).1 :: ((r.op op).2.ops rest).1), ((r.op op).2.ops rest).2)

/-- `config_spi_context` empties the list. -/
def Callbacks.start (driver : Driver Dev Uuid Tid) : Callbacks Dev Uuid Tid :=
  { driver := { driver with callbackList := [] }, callbackCount := 0 }

/-- Registrations and timers in any order: the list gives the same codes and the same calls as the
function it stands for, and has at most 101 entries. -/
theorem callbacks_refine (driver : Driver Dev Uuid Tid) (ops : List (CallbackOp Uuid)) :
    let registry : Registry Uuid := { func := fun _ => none, size := 0, called := driver.called }
    ((Callbacks.start driver).ops ops).1 = (registry.ops ops).1 ∧
      ((Callbacks.start driver).ops ops).2.driver.called = (registry.ops ops).2.called ∧
      ((Callbacks.start driver).ops ops).2.driver.callbackList.length ≤ maxCallbackCount + 1 := by
  intro registry
  have run : ∀ (s : Callbacks Dev Uuid Tid) (r : Registry Uuid), Stands s r →
      (s.ops ops).1 = (r.ops ops).1 ∧ Stands (s.ops ops).2 (r.ops ops).2 := by
    induction ops with
    | nil => exact fun s r stands => ⟨rfl, stands⟩
    | cons op rest ih =>
      intro s r stands
      obtain ⟨code, next⟩ := stands.op op
      obtain ⟨codes, last⟩ := ih _ _ next
      exact ⟨by rw [Callbacks.ops, Registry.ops, code, codes], last⟩
  have start : Stands (Callbacks.start driver) registry :=
    ⟨fun _ => rfl, rfl, rfl, Nat.zero_le _, rfl⟩
  obtain ⟨codes, last⟩ := run _ _ start
  refine ⟨codes, last.called, ?_⟩
  rw [← last.count]
  exact last.bound

end TimerNotify
