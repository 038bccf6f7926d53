import Tzdriver.ActionSystem
import Tzdriver.SecureExchange

/-!
# The secrets of open sessions

`tc_ns_open_session` and `proc_open_session` from where the session is allocated, the commands on a
session and the last `put_session_struct`, as far as they write to the session. `freed` records the
objects that were given to `kfree`, with what was in them at that time.
-/

namespace SessionSecrets

open ActionSystem Function
open LoginEncryption (AesCbc Env)
open SecureParams
open TeecToken (Token ClientToken zeroToken freshTokens)
open ClientCall (CallParams CallEnv tcClientCall eNOMEM)

/-- `secure_info` and `teec_token.token_buffer` of a session. -/
structure Session where
  info : SecureInfo := .zero
  tokenBuffer : Option Token := none

inductive Freed where
  | tokenBuffer (token : Token)
  | session (s : Session)

/-- Nothing secret is left in the object. -/
def Freed.Blank : Freed → Prop
  | .tokenBuffer token => token = zeroToken
  | .session s => s.info = .zero ∧ s.tokenBuffer = none

/-- What an open meets behind `find_service`. -/
structure OpenEnv where
  sessionAlloc : Bool
  loadTaImage : Int
  params : ParamsEnv
  started : Bool
  tokenAlloc : Bool
  call : CallParams
  callEnv : CallEnv

section Open

variable (aes : AesCbc) (root : CryptoInfo) (tee : ParamsCmd → ParamsAnswer) (env : OpenEnv)

/-- The context of the call, as `get_session_secure_params` reads it. -/
def OpenEnv.context : ParamsContext where
  uuid := env.call.context.uuid
  devFileId := env.call.dev.devFileId
  sessionId := env.call.context.sessionId
  started := env.started

/-- `proc_open_session`: its code and the session. `none`: the TEE has not answered yet. -/
def procOpenSession (s : Session) : Option (Int × Session) :=
  if env.loadTaImage ≠ 0 then some (env.loadTaImage, s)
  else
    let res := getSessionSecureParams aes root tee env.params env.context s.info
    if res.ret ≠ 0 then some (res.ret, { s with info := .zero })
    else if env.tokenAlloc = false then some (-eNOMEM, { s with info := .zero })
    else
      let params :=
        generateEncryptedSessionSecureParams aes env.params.crypt res.info paramsSize
      match tcClientCall { env.call with sess := true, global := true }
          { env.callEnv with secureParams := params.isOk } freshTokens with
      | none => none
      | some call =>
        if call.ret ≠ 0 then some (call.ret, ⟨.zero, call.op.tokens.session⟩)
        else some (0, ⟨res.info, call.op.tokens.session⟩)

/-- The request for secure parameters that an open sends, if it gets so far. -/
def requestOf (s : Session) : Option ParamsCmd :=
  if env.sessionAlloc = false ∨ env.loadTaImage ≠ 0 then none
  else (getSessionSecureParams aes root tee env.params env.context s.info).sent

/-- `free_session_token_buf`. -/
def freeSessionTokenBuf (s : Session) : Session × List Freed :=
  match s.tokenBuffer with
  | none => (s, [])
  | some _ => ({ s with tokenBuffer := none }, [.tokenBuffer zeroToken])

/-- `tc_ns_open_session`: its code, the session when it is open, and what was freed. -/
def tcNsOpenSession : Option (Int × Option Session × List Freed) :=
  if env.sessionAlloc = false then some (-eNOMEM, none, [])
  else
    match procOpenSession aes root tee env {} with
    | none => none
    | some (ret, s) =>
      if ret = 0 then some (0, some s, [])
      else
        let released := freeSessionTokenBuf s
        some (ret, none, released.2 ++ [.session released.1])

end Open

/-- The last `put_session_struct`: the memory of the session is cleared too. -/
def putSessionStruct (s : Session) : List Freed :=
  (freeSessionTokenBuf s).2 ++ [.session {}]

/-! ## Many sessions -/

/-- `asked` counts the opens, and `requests` keeps what each of them has sent. -/
structure State where
  sessions : Nat → Option Session := fun _ => none
  asked : Nat := 0
  requests : Nat → Option ParamsCmd := fun _ => none
  freed : List Freed := []

inductive Act where
  | openSession (ptr : Nat) (env : OpenEnv)
  | sendCmd (ptr : Nat) (call : CallParams) (env : CallEnv) (client : ClientToken)
  | lastPut (ptr : Nat)

/-- The TEE may answer each open in its own way. A session is not in use when its last reference is
put. -/
def step (aes : AesCbc) (root : CryptoInfo) (tee : Nat → ParamsCmd → ParamsAnswer) (s : State) :
    Act → Option State
  | .openSession ptr env =>
    if s.sessions ptr = none then
      match tcNsOpenSession aes root (tee s.asked) env with
      | none => none
      | some (_, opened, freed) =>
        some
          { sessions := update s.sessions ptr opened
            asked := s.asked + 1
            requests := update s.requests s.asked (requestOf aes root (tee s.asked) env {})
            freed := s.freed ++ freed }
    else none
  | .sendCmd ptr call env client =>
    match s.sessions ptr with
    | none => none
    | some x =>
      match tcClientCall call env ⟨x.tokenBuffer, zeroToken, client⟩ with
      | none => none
      | some res =>
        some { s with
          sessions := update s.sessions ptr (some { x with tokenBuffer := res.op.tokens.session }) }
  | .lastPut ptr =>
    match s.sessions ptr with
    | none => none
    | some x =>
      some { s with sessions := update s.sessions ptr none, freed := s.freed ++ putSessionStruct x }

section Runs

variable {aes : AesCbc} {root : CryptoInfo} {tee : ParamsCmd → ParamsAnswer} {env : OpenEnv}
  {choose : ParamsCmd → Tee2Ree} {x : Session} {ret : Int}

/-- The secrets that the TEE chose for the request that was sent, which carried the challenge word. -/
def Chosen (choose : ParamsCmd → Tee2Ree) (sent : Option ParamsCmd) (info : SecureInfo) : Prop :=
  ∃ cmd, sent = some cmd ∧ challengeOf cmd.params ≠ 0 ∧
    info = ⟨challengeOf cmd.params, (choose cmd).scrambling, (choose cmd).cryptoInfo⟩

/-- The secrets of one of the opens. -/
def ChosenOnce (choose : Nat → ParamsCmd → Tee2Ree) (asked : Nat) (requests : Nat → Option ParamsCmd)
    (info : SecureInfo) : Prop :=
  ∃ n, n < asked ∧ Chosen (choose n) (requests n) info

structure Kept (choose : Nat → ParamsCmd → Tee2Ree) (s : State) : Prop where
  freed : ∀ f ∈ s.freed, f.Blank
  sessions : ∀ ptr x, s.sessions ptr = some x → ChosenOnce choose s.asked s.requests x.info

theorem Kept.append {choose : Nat → ParamsCmd → Tee2Ree} {s : State} (kept : Kept choose s)
    {more : List Freed} (blank : ∀ f ∈ more, f.Blank) : ∀ f ∈ s.freed ++ more, f.Blank := by
  intro f inside
  rcases List.mem_append.1 inside with before | now
  · exact kept.freed f before
  · exact blank f now

theorem Kept.update {choose : Nat → ParamsCmd → Tee2Ree} {s : State} (kept : Kept choose s)
    {ptr asked : Nat} {requests : Nat → Option ParamsCmd} {y : Option Session}
    (later : s.asked ≤ asked) (same : ∀ n, n < s.asked → requests n = s.requests n)
    (new : ∀ x ∈ y, ChosenOnce choose asked requests x.info) :
    ∀ p x, update s.sessions ptr y p = some x → ChosenOnce choose asked requests x.info := by
  intro p x at_
  by_cases here : p = ptr
  · rw [here, update_self] at at_
    exact new x at_
  · rw [update_of_ne here] at at_
    obtain ⟨n, before, holds⟩ := kept.sessions p x at_
    refine ⟨n, Nat.lt_of_lt_of_le before later, ?_⟩
    rw [same n before]
    exact holds

end Runs

/-- An open with the parameters of `exchangeTee`, whose command the TEE answers with `ret`. -/
def answeredOpen (ret : Nat) : OpenEnv where
  sessionAlloc := true
  loadTaImage := 0
  params := exchangeEnv
  started := false
  tokenAlloc := true
  call :=
    { dev := ⟨1, ⟨0, false⟩, 0, []⟩
      context := { uuid := 7, sessionId := 0, cmdId := TeecToken.globalCmdIdOpenSession,
                   paramTypes := 0, params := fun _ => ⟨0, 0⟩, teecToken := true, tokenLen := 24 }
      sess := true
      global := true }
  callEnv :=
    { mbPack := some 4096
      first := { reply := { ret := ret, cmdId := TeecToken.globalCmdIdOpenSession, contextId := 3 } }
      memcpyS := fun destMax count => decide (count ≤ destMax) }

end SessionSecrets
