import Tzdriver.SessionSecrets
import Tzdriver.TeekParams

/-!
# Sessions of kernel clients

`core/teek_client_api.c` and `core/teek_app_load.c` over the driver's side of an open and of a
command. A kernel client gets one word: the driver's errors are translated, and a code above 0 stands
for the word that the driver left in `context->returns`. What `load_ta_image`,
`get_session_secure_params` and `tc_client_call` leave there is followed here.

An open is tried again while it returns `TEEC_CLIENT_INTR`. Its call gets the context that
`check_login_method` leaves. The bytes of the client's token are left to `TeecToken`.
-/

namespace TeekSession

open ClientCall TeecToken TeekOperation
open LoadImage (ClientReturn tcNsLoadImage)
open LoginInfo (checkLoginMethod checkOpenSessParams teecLoginIdentify)
open MailboxCommands (tcNsNeedLoadImage)
open SecureParams (getSessionSecureParams generateEncryptedSessionSecureParams ParamsCmd ParamsAnswer
  CryptoInfo paramsSize)
open SessionSecrets (OpenEnv Session)
open WordMemory (Memory Address)

def teecErrorGeneric : Nat := 0xFFFF0000
def teecErrorAccessDenied : Nat := 0xFFFF0001
def teecErrorOutOfMemory : Nat := 0xFFFF000C
def teecOriginApi : Nat := 0x1
def maxImageLen : Nat := 0x800000
def retryTimes : Nat := 5

/-! ## The image of the TA -/

/-- What `teek_get_app` meets: whether the file opens, its `i_size`, the buffer and what the read
returns. -/
structure AppFile where
  opens : Bool
  size : Nat
  vmalloc : Option Nat
  read : Nat

inductive AppEvent where
  | filpOpen
  | filpClose
  | vmalloc (buf : Nat)
  | vfree (buf : Nat)
  deriving DecidableEq

/-- A code of `teek_get_app`, the buffer and its size, and what was opened and allocated. -/
structure App where
  ret : Nat
  buffer : Option Nat
  size : Nat
  events : List AppEvent

/-- `teek_open_app_file`. -/
def teekOpenAppFile (file : AppFile) (len : Nat) : App :=
  if len = 0 ∨ len > maxImageLen then ⟨teecErrorBadParameters, none, len, []⟩
  else
    match file.vmalloc with
    | none => ⟨teecErrorGeneric, none, len, []⟩
    | some buf =>
      if file.read ≠ len then ⟨teecErrorGeneric, none, len, [.vmalloc buf, .vfree buf]⟩
      else ⟨teecSuccess, some buf, len, [.vmalloc buf]⟩

/-- `teek_read_app`. The size of the file is stored in 32 bits. -/
def teekReadApp (file : AppFile) : App :=
  if file.opens = false then ⟨teecErrorBadParameters, none, 0, []⟩
  else
    let app := teekOpenAppFile file (file.size % 2 ^ 32)
    { app with events := .filpOpen :: app.events ++ [.filpClose] }

/-- `teek_get_app` for a context that `teek_init_context` has just cleared. -/
def teekGetApp (taPath currentMm : Bool) (file : AppFile) : App :=
  if taPath = false ∨ currentMm = true then ⟨teecSuccess, none, 0, []⟩ else teekReadApp file

/-- `teek_free_app`. -/
def teekFreeApp (loadAppFlag : Bool) (buffer : Option Nat) : List AppEvent :=
  if loadAppFlag then (buffer.map AppEvent.vfree).toList else []

/-! ## What the driver leaves in the context -/

/-- `context->returns` and `context->session_id`. -/
structure ContextOut where
  returns : ClientReturn
  sessionId : Nat

/-- What `load_ta_image` meets. -/
structure LoadEnv where
  mbPack : Option Nat
  mbParam : Option Nat
  reply : SmcReply
  answer : Int
  image : LoadImage.Env
  mailbox : LoadImage.Mailbox := {}

/-- `load_ta_image`. -/
def loadTaImage (env : LoadEnv) (devFileId : Nat) (fileBuffer : Bool) (fileSize : Nat)
    (returns : ClientReturn) : Int × ClientReturn :=
  let ret := (tcNsNeedLoadImage true env.mbPack env.mbParam env.reply env.answer).1
  if ret = 1 then
    if fileBuffer = false then (-1, returns)
    else
      let teeRet : ClientReturn := ⟨0, teecOriginComms⟩
      let res := tcNsLoadImage env.image devFileId fileBuffer fileSize (some teeRet) .loadTa env.mailbox
      if res.ret ≠ 0 then
        let teeRet := res.teeRet.getD teeRet
        if teeRet.origin ≠ teecOriginComms then (TeecToken.eFAULT, teeRet)
        else (res.ret, { returns with code := teeRet.code })
      else (0, returns)
  else (ret, returns)

/-- `context->returns` after a call: `tc_client_call` sets it unless it fails at once. -/
def returnsOf (env : CallEnv) (returns : ClientReturn) (call : CallResult) : ClientReturn :=
  if env.smcCmdAlloc = false ∨ env.mbPack = none then returns else ⟨call.teeRet, call.op.errOrigin⟩

section Open

variable (aes : LoginEncryption.AesCbc) (root : CryptoInfo)

/-- `proc_open_session`: its code, the session and the context. `none`: the TEE has not answered
yet. -/
def procOpenSession (tee : ParamsCmd → ParamsAnswer) (env : OpenEnv) (load : LoadEnv) (fileBuffer : Bool)
    (fileSize : Nat) (s : Session) (out : ContextOut) : Option (Int × Session × ContextOut) :=
  match loadTaImage load env.call.dev.devFileId fileBuffer fileSize out.returns with
  | (ret, returns) =>
    if ret ≠ 0 then some (ret, s, { out with returns := returns })
    else
      let res := getSessionSecureParams aes root tee env.params env.context s.info
      let returns := { returns with origin := res.origin.getD returns.origin }
      if res.ret ≠ 0 then some (res.ret, { s with info := .zero }, { out with returns := returns })
      else if env.tokenAlloc = false then
        some (-eNOMEM, { s with info := .zero }, { out with returns := returns })
      else
        let params :=
          generateEncryptedSessionSecureParams aes env.params.crypt res.info paramsSize
        match tcClientCall { env.call with sess := true, global := true }
            { env.callEnv with secureParams := params.isOk } freshTokens with
        | none => none
        | some call =>
          let out : ContextOut := ⟨returnsOf env.callEnv returns call, call.op.sessionId⟩
          if call.ret ≠ 0 then some (call.ret, ⟨.zero, call.op.tokens.session⟩, out)
          else some (0, ⟨res.info, call.op.tokens.session⟩, out)

/-- `struct tc_ns_dev_file`, as far as an open or a command uses it. -/
structure Device where
  id : Nat
  login : LoginInfo.DevFile
  loginAddrs : LoginAddrs
  sharedMemList : List SharedMem

def Device.forCall (dev : Device) : Dev where
  devFileId := dev.id
  bytes := ⟨if dev.login.kernelApi then 1 else 0, dev.login.loginSetup⟩
  pubKeyLen := dev.login.pubKeyLen.toNat
  sharedMemList := dev.sharedMemList

/-- What one attempt to open a session meets, and the caller's memory. -/
structure AttemptEnv where
  mem : Memory
  file : AppFile
  caUid : UInt32
  usrParamValid : Fin 2 → Bool
  findService : Bool
  load : LoadEnv
  driver : OpenEnv
  tee : ParamsCmd → ParamsAnswer

/-- The call of a kernel client with a context that `teek_init_context` and `proc_teek_encode` have
made, and `check_login_method` for an open. -/
def callFor (dev : Device) (uuid sessionId cmdId : Nat) (context : TcNsClientContext)
    (global : Bool) : CallParams :=
  callOf
    { dev := dev.forCall
      context :=
        { uuid := uuid, sessionId := sessionId, cmdId := cmdId, paramTypes := 0
          params := fun _ => ⟨0, 0⟩, teecToken := true, tokenLen := tokenSaveLen }
      sess := true
      global := global }
    context

/-- What the driver makes of an open. -/
structure DriverOpen where
  ret : Int
  session : Option Session
  out : ContextOut
  dev : Device

/-- The environment behind `find_service`. -/
def AttemptEnv.openEnv (env : AttemptEnv) (dev : Device) (uuid : Nat) (context : TcNsClientContext) :
    OpenEnv :=
  { env.driver with call := callFor dev uuid 0 globalCmdIdOpenSession context true }

def AttemptEnv.loadEnv (env : AttemptEnv) : LoadEnv :=
  { env.load with image := { env.load.image with currentMm := env.driver.callEnv.currentMm } }

/-- `tc_ns_open_session`. -/
def tcNsOpenSession (env : AttemptEnv) (dev : Device) (uuid : Nat) (context : TcNsClientContext)
    (app : App) : Option DriverOpen :=
  let out : ContextOut := ⟨⟨0, teecOriginComms⟩, 0⟩
  match checkLoginMethod env.caUid dev.login (loginContext context env.usrParamValid) with
  | (ret, login, logged) =>
    let dev := { dev with login := login }
    if ret ≠ 0 then some ⟨ret, none, out, dev⟩
    else if env.findService = false then some ⟨-eNOMEM, none, out, dev⟩
    else if env.driver.sessionAlloc = false then some ⟨-eNOMEM, none, out, dev⟩
    else
      let context := loggedContext dev.loginAddrs context logged
      match procOpenSession aes root env.tee (env.openEnv dev uuid context) env.loadEnv
          app.buffer.isSome app.size {} out with
      | none => none
      | some (ret, s, out) => some ⟨ret, if ret = 0 then some s else none, out, dev⟩

/-! ## The client's side -/

/-- `struct teec_session`. -/
structure TeecSession where
  sessionId : Nat
  serviceId : Nat
  opsCnt : Nat
  context : Option Nat
  deriving DecidableEq

/-- `struct teec_context` at an address; its device is kept apart. -/
structure TeecContext where
  addr : Nat
  taPath : Bool

/-- The errors that opens and commands translate in the same way. -/
def switchErrno (ret : Int) (other : Nat) : Nat :=
  if ret = -eFAULT then teecErrorAccessDenied
  else if ret = -eNOMEM then teecErrorOutOfMemory
  else if ret = -eINVAL then teecErrorBadParameters
  else other

/-- A word in `returns.code`, as a `uint32_t`. -/
def codeWord (code : Int) : Nat := (code % 2 ^ 32).toNat

/-- `open_session_and_switch_ret`: the code, the origin and the client's session. -/
def openSessionAndSwitchRet (session : TeecSession) (context : TeecContext) (destination : Nat)
    (res : DriverOpen) : Nat × Nat × TeecSession :=
  if res.ret = 0 then
    (teecSuccess, teecOriginApi, ⟨res.out.sessionId, destination, 0, some context.addr⟩)
  else if res.ret < 0 then
    (switchErrno res.ret (if res.ret = -eRESTARTSYS then teecClientIntr else teecErrorGeneric),
      teecOriginComms, session)
  else (codeWord res.out.returns.code, res.out.returns.origin, session)

/-- The arguments of an open that stay the same over its attempts. -/
structure OpenArgs where
  context : Option TeecContext
  destination : Option Nat
  connectionMethod : UInt32
  operation : Option Address

/-- What `proc_teek_open_session` has before it loads the TA. -/
structure Prepared where
  context : TeecContext
  destination : Nat
  session : TeecSession
  dev : Device
  encoded : TcNsClientContext

/-- `proc_teek_open_session` up to `proc_teek_encode`, with the device as it leaves it. -/
def prepareOpen (args : OpenArgs) (mem : Memory) (dev : Option Device)
    (session : Option TeecSession) : Except Nat Prepared × Option Device :=
  match args.context, args.operation, args.destination, session with
  | some context, some oper, some destination, some session =>
    if args.connectionMethod ≠ teecLoginIdentify then (.error teecErrorBadParameters, dev)
    else
      match dev with
      | none => (.error teecErrorBadParameters, none)
      | some dev =>
        match checkOpenSessParams (operationAt mem oper) dev.login with
        | (ret, login) =>
          let dev := { dev with login := login }
          if ret ≠ 0 then (.error ret.toNat, some dev)
          else
            match procTeekEncode mem teekInitContext oper with
            | (ret, encoded) =>
              if ret ≠ teecSuccess then (.error ret, some dev)
              else (.ok ⟨context, destination, session, dev, encoded⟩, some dev)
  | _, _, _, _ => (.error teecErrorBadParameters, dev)

/-- What an open returns and leaves. `opened` is the session in the driver, `returnOrigin` what a
pointer that is not `NULL` gets. -/
structure OpenResult where
  ret : Nat
  returnOrigin : Nat
  session : Option TeecSession
  dev : Option Device
  opened : Option Session
  events : List AppEvent

/-- `proc_teek_open_session`. -/
def procTeekOpenSession (args : OpenArgs) (env : AttemptEnv) (dev : Option Device)
    (session : Option TeecSession) : Option OpenResult :=
  match prepareOpen args env.mem dev session with
  | (.error ret, dev) => some ⟨ret, teecOriginApi, session, dev, none, []⟩
  | (.ok p, dev) =>
    let app := teekGetApp p.context.taPath env.driver.callEnv.currentMm env.file
    if app.ret ≠ teecSuccess then some ⟨app.ret, teecOriginApi, session, dev, none, app.events⟩
    else
      match tcNsOpenSession aes root env p.dev p.destination p.encoded app with
      | none => none
      | some res =>
        match openSessionAndSwitchRet p.session p.context p.destination res with
        | (ret, origin, s) =>
          some ⟨ret, if ret ≠ teecSuccess then origin else teecOriginApi, some s, some res.dev,
            res.session, app.events ++ teekFreeApp true app.buffer⟩

/-- The loop of `teek_open_session` with `rest` attempts behind this one. -/
def retryOpen (args : OpenArgs) (env : Nat → AttemptEnv) :
    (rest index : Nat) → Option Device → Option TeecSession → Option OpenResult
  | rest, index, dev, session =>
    match procTeekOpenSession aes root args (env index) dev session with
    | none => none
    | some res =>
      if res.ret ≠ teecClientIntr then some res
      else
        match rest with
        | 0 => some res
        | rest + 1 =>
          (retryOpen args env rest (index + 1) res.dev res.session).map fun next =>
            { next with events := res.events ++ next.events }

/-- `teek_open_session`. -/
def teekOpenSession (args : OpenArgs) (env : Nat → AttemptEnv) (dev : Option Device)
    (session : Option TeecSession) : Option OpenResult :=
  retryOpen aes root args env (retryTimes - 1) 0 dev session

end Open

/-! ## Commands -/

/-- `tc_ns_send_cmd`: its code and `context->returns`, with the call when it gets there. `none` for
the tokens: there is no such session. -/
def tcNsSendCmd (p : CallParams) (env : CallEnv) (tokens : Option TokenState) :
    Option (Int × ClientReturn × Option CallResult) :=
  match tokens with
  | none => some (-eINVAL, ⟨0, teecOriginComms⟩, none)
  | some tokens =>
    (tcClientCall p env tokens).map fun call =>
      (call.ret, returnsOf env ⟨0, teecOriginComms⟩ call, some call)

/-- `proc_invoke_cmd` without the call: the code and the origin. -/
def procInvokeCmd (ret : Int) (returns : ClientReturn) : Nat × Nat :=
  if ret = 0 then (teecSuccess, teecOriginApi)
  else if ret < 0 then (switchErrno ret teecErrorGeneric, teecOriginComms)
  else (codeWord returns.code, returns.origin)

structure InvokeResult where
  ret : Nat
  returnOrigin : Option Nat
  call : Option CallResult

/-- `teek_invoke_command`; `returnOrigin` is what it stores, if it does. -/
def teekInvokeCommand (mem : Memory) (env : CallEnv) (tokens : Option TokenState)
    (dev : Option Device) (session : Option TeecSession) (cmdId : Nat) (operation : Option Address) :
    Option InvokeResult :=
  let failed (ret : Nat) : InvokeResult := ⟨ret, some teecOriginApi, none⟩
  match session with
  | none => some (failed teecErrorBadParameters)
  | some session =>
    if session.context = none then some (failed teecErrorBadParameters)
    else
      let ret := teekCheckOperation mem operation
      if ret ≠ teecSuccess then some (failed ret)
      else
        match (operation.map (procTeekEncode mem teekInitContext)).getD (teecSuccess, teekInitContext) with
        | (ret, context) =>
          if ret ≠ teecSuccess then some (failed ret)
          else
            match (match dev with
              | none => some (-eINVAL, ⟨0, teecOriginComms⟩, none)
              | some dev =>
                tcNsSendCmd (callFor dev session.serviceId session.sessionId cmdId context false) env
                  tokens) with
            | none => none
            | some (ret, returns, call) =>
              match procInvokeCmd ret returns with
              | (ret, origin) => some ⟨ret, if ret ≠ teecSuccess then some origin else none, call⟩

end TeekSession
