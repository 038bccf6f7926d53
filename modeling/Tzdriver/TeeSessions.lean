import Tzdriver.CallInputs
import Tzdriver.SessionFrames

/-!
# The sessions that are open in the TEE

`tc_ns_open_session` and `tc_ns_close_session` with the TEE as the second party. The tables
are those of `SessionManager`; where a call is at the TEE the step runs `tc_client_call` of
`ClientCall` and its outcome decides how the driver goes on. The TEE opens a session when it
replies success to an open, under the id of that reply, and closes one when it has processed
a close. The call and the change of the session list after it are one step, as both happen
under `operation_lock`. Files are not closed here.

An open that fails after the TEE has granted it is not taken back, and a close removes its
session whatever became of the command. So the two parties agree for as long as neither
happens (`CallSafe`), and the first call that is not safe breaks the agreement.
-/

namespace TeeSessions

open ClientCall TeecToken
open SessionManager (Heap)

/-- Device, uuid and session id. -/
abbrev Key (Dev : Type*) := Dev × Nat × Nat

structure Sys (Dev Tid : Type*) where
  tables : SessionManager.Sys Dev Nat Tid
  tee : List (Key Dev)

def Sys.init {Dev Tid : Type*} : Sys Dev Tid := ⟨SessionManager.Sys.init, []⟩

/-- `ready` says whether `proc_open_session` gets as far as `tc_client_call`: the image of the
TA is loaded, the secure parameters are there and the token buffer is allocated. -/
inductive Act (Dev Tid : Type*) where
  | table (b : SessionManager.Act Dev Nat Tid)
  | openCall (t : Tid) (ready : Bool) (dev : ClientCall.Dev) (context : Context) (env : CallEnv)
  | closeCall (t : Tid) (dev : ClientCall.Dev) (env : CallEnv) (tokens : TokenState)

/-- The call of `proc_open_session`. -/
def openParams (dev : ClientCall.Dev) (context : Context) : CallParams where
  dev := dev
  context := { context with cmdId := globalCmdIdOpenSession }
  sess := true
  global := true

/-- The call of `close_session`, with a context that is zero otherwise. -/
def closeParams (dev : ClientCall.Dev) (uuid sessionId : Nat) : CallParams where
  dev := dev
  context :=
    { uuid := uuid, sessionId := sessionId, cmdId := globalCmdIdCloseSession, paramTypes := 0
      params := fun _ => ⟨0, 0⟩, teecToken := false, tokenLen := 0 }
  sess := true
  global := true

/-- The id under which the TEE opens a session. -/
def openedId : Event → Option Nat
  | .smc ret _ _ contextId => if ret = 0 then some contextId else none
  | _ => none

/-- The TEE has processed a close. -/
def closesSession : Event → Bool
  | .smc ret processed _ _ => processed && ret ≠ teecPending
  | _ => false

section Model

variable {Dev Tid : Type*} [DecidableEq Dev] [DecidableEq Tid]

/-- The steps of the tables that are not taken on their own: a call at the TEE is an action
here, and no file is closed. -/
def barred (s : SessionManager.Sys Dev Nat Tid) : SessionManager.Act Dev Nat Tid → Bool
  | .run t _ => s.atTee t
  | .release _ _ => true
  | _ => false

/-- `proc_open_session` from `load_ta_image` on. -/
def procOpenSession (s : Sys Dev Tid) (t : Tid) (d : Dev) (ready : Bool) (dev : ClientCall.Dev)
    (context : Context) (env : CallEnv) : Option (Sys Dev Tid) :=
  if ready = false then
    (SessionManager.step s.tables (.run t {})).map fun tables => { s with tables := tables }
  else
    match tcClientCall (openParams dev context) env freshTokens with
    | none => none
    | some res =>
      let opened := if res.ret = 0 then some res.op.sessionId else none
      (SessionManager.step s.tables (.run t { opened := opened })).map fun tables =>
        ⟨tables, s.tee ++ (res.op.trace.filterMap openedId).map fun id => (d, context.uuid, id)⟩

/-- `close_session` and the `list_del` after it. -/
def closeSession (s : Sys Dev Tid) (t : Tid) (d : Dev) (uuid sessionId : Nat)
    (dev : ClientCall.Dev) (env : CallEnv) (tokens : TokenState) : Option (Sys Dev Tid) :=
  match tcClientCall (closeParams dev uuid sessionId) env tokens with
  | none => none
  | some res =>
    (SessionManager.step s.tables (.run t {})).map fun tables =>
      ⟨tables, if res.op.trace.any closesSession then
        s.tee.filter fun k => decide (k ≠ (d, uuid, sessionId)) else s.tee⟩

def step (s : Sys Dev Tid) : Act Dev Tid → Option (Sys Dev Tid)
  | .table b =>
    if barred s.tables b then none
    else (SessionManager.step s.tables b).map fun tables => { s with tables := tables }
  | .openCall t ready dev context env =>
    match s.tables.threads t with
    | .openCall d v _ =>
      if s.tables.heap.uuid v = some context.uuid then
        procOpenSession s t d ready dev context env
      else none
    | _ => none
  | .closeCall t dev env tokens =>
    match s.tables.threads t with
    | .closeCall d v e =>
      match s.tables.heap.uuid v with
      | some uuid => closeSession s t d uuid (s.tables.heap.sessionId e) dev env tokens
      | none => none
    | _ => none

end Model

section Agreement

variable {Dev Tid : Type*}

/-- A session with this key is on one of the driver's lists. -/
def Listed (m : Heap Dev Nat Tid) (k : Key Dev) : Prop :=
  ∃ v, ∃ e ∈ m.sessionList v, m.owner e = some k.1 ∧ m.uuid v = some k.2.1 ∧ m.sessionId e = k.2.2

/-- The driver and the TEE have the same sessions open. -/
def Agree (s : Sys Dev Tid) : Prop := ∀ k, k ∈ s.tee ↔ Listed s.tables.heap k

/-- A round in which the TEE opens a session. -/
structure Opens (ready : Bool) (p : CallParams) (env : CallEnv) (z : Round) : Prop where
  ready : ready = true
  reaches : Reaches p env true
  sent : Sent p true env.first env.more z
  granted : z.reply.ret = 0

/-- What the TEE promises: the id of a session it opens is not one that is open. -/
def TeeFresh (s : Sys Dev Tid) : Act Dev Tid → Prop
  | .openCall t ready dev context env => ∀ d v e, s.tables.threads t = .openCall d v e →
      ∀ z, Opens ready (openParams dev context) env z →
        (d, context.uuid, z.reply.contextId) ∉ s.tee
  | _ => True

/-- A call after which the two parties agree. An open that the TEE has granted is not to fail
any more, at the token or at an output, and its id has to be the one of the first reply. A
close has to get its command to the TEE, which has to process it. -/
def CallSafe (s : Sys Dev Tid) : Act Dev Tid → Prop
  | .table _ => True
  | .openCall _ ready dev context env => ∀ z, Opens ready (openParams dev context) env z →
      PostOk (openParams dev context) true z ∧ OutputsOk (openParams dev context) env z ∧
        z.reply.contextId = env.first.reply.contextId
  | .closeCall t dev env tokens => ∀ d v e uuid, s.tables.threads t = .closeCall d v e →
      s.tables.heap.uuid v = some uuid →
      env.smcCmdAlloc = true ∧ env.mbPack.isSome = true ∧
        ∃ z, Sent (closeParams dev uuid (s.tables.heap.sessionId e)) tokens.session.isSome
          env.first env.more z ∧ z.reply.processed = true ∧ z.reply.ret ≠ teecPending

end Agreement

end TeeSessions
