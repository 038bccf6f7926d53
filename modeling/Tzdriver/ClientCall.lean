import Mathlib.Logic.Function.Basic
import Tzdriver.TeecToken

/-!
# A client call

`core/gp_ops.c`: `tc_client_call` copies the client's parameters into mailbox memory,
sends the command, waits while the TEE answers `TEEC_PENDING`, copies results back and
releases what it took. Everything the call meets outside the driver is in `CallEnv`: the
client's memory at each access, the allocators, the encryption, and the replies of the
SMC layer, one per round. A call whose replies end with `TEEC_PENDING` has not returned.

The call's effects on mailbox blocks, shared memory, the queue and the client are
recorded in order in `trace`. The operation in the pack is shared with the TEE; a reply
may set its sizes and values but leaves the fields `sharemem` and `mb_buffer` alone. The TEE may
also change a size while the driver copies results back: the two fetches of it that
`update_tmp_mem` makes for the copy are part of `ParamEnv`.
-/

namespace ClientCall

open Function TeecToken

def teeParamNum : Nat := 4
def maxSharedSize : Nat := 0x100000
def teecErrorShortBuffer : Nat := 0xFFFF0010
def teecClientIntr : Nat := 0xFFFF4000
def teecPending : Nat := 0xFFFF2000
def teecOriginComms : Nat := 0x2
def eNOMEM : Int := 12
def eRESTARTSYS : Int := 512

/-! ## Parameter types -/

def teecValueInput : Nat := 0x01
def teecValueOutput : Nat := 0x02
def teecValueInout : Nat := 0x03
def teecMemrefTempInput : Nat := 0x05
def teecMemrefTempOutput : Nat := 0x06
def teecMemrefTempInout : Nat := 0x07
def teecIonInput : Nat := 0x08
def teecIonSglistInput : Nat := 0x09
def teecMemrefPartialInput : Nat := 0xd
def teecMemrefPartialOutput : Nat := 0xe
def teecMemrefPartialInout : Nat := 0xf
def teeParamTypeMemrefInput : Nat := 0x5

def teecParamTypeGet (paramTypes index : Nat) : Nat := (paramTypes >>> (index * 4)) % 16

inductive Dir where
  | input
  | output
  | inout
  deriving DecidableEq

def isInputType (dir : Dir) : Bool := dir == .input || dir == .inout

def isOutputType (dir : Dir) : Bool := dir == .output || dir == .inout

/-- The common form of `teec_value_type`, `teec_tmpmem_type` and `teec_memref_type`. -/
def typeMatches (inType outType inoutType type : Nat) (dir : Dir) : Bool :=
  (isInputType dir && type == inType) || (isOutputType dir && type == outType) ||
    type == inoutType

def teecValueType : Nat → Dir → Bool := typeMatches teecValueInput teecValueOutput teecValueInout

def teecTmpmemType : Nat → Dir → Bool :=
  typeMatches teecMemrefTempInput teecMemrefTempOutput teecMemrefTempInout

def teecMemrefType : Nat → Dir → Bool :=
  typeMatches teecMemrefPartialInput teecMemrefPartialOutput teecMemrefPartialInout

def isTmpMem (type : Nat) : Bool :=
  type == teecMemrefTempInput || type == teecMemrefTempOutput || type == teecMemrefTempInout

def isRefMem (type : Nat) : Bool :=
  type == teecMemrefPartialInput || type == teecMemrefPartialOutput ||
    type == teecMemrefPartialInout

def isInputTempmem (type : Nat) : Bool :=
  type == teecMemrefTempInput || type == teecMemrefTempInout

/-! ## The caller's side -/

structure SharedMem where
  id : Nat
  userAddr : Nat
  kernelAddr : Nat
  len : Nat
  deriving DecidableEq, Repr

structure Dev where
  devFileId : Nat
  bytes : DevBytes
  pubKeyLen : Nat
  sharedMemList : List SharedMem

/-- The fields of `union tc_ns_client_param` that are used as values. -/
structure ClientParam where
  buffer : Nat
  offset : Nat

structure Context where
  uuid : Nat
  sessionId : Nat
  cmdId : Nat
  paramTypes : Nat
  params : Nat → ClientParam
  /-- `token.teec_token` is not `NULL`. -/
  teecToken : Bool
  tokenLen : Nat

structure CallParams where
  dev : Dev
  context : Context
  /-- `sess` is not `NULL`; its token buffer is in the token state. -/
  sess : Bool
  global : Bool

def CallParams.paramType (p : CallParams) (index : Nat) : Nat :=
  teecParamTypeGet p.context.paramTypes index

/-! ## The environment -/

/-- What the call meets at one parameter. `sizeRead` is the size that `alloc_operation`
reads at `memref.size_addr`, `sizeReRead` the one `update_for_ref_mem` reads there. `destRefetch`
and `countRefetch` are what `update_tmp_mem` finds in the pack when it fetches `memref.size` for
the two arguments of the copy, if the TEE has changed it since the check. -/
structure ParamEnv where
  sizeRead : Option Nat := none
  mbAlloc : Option Nat := none
  inputRead : Bool := true
  encryptOk : Bool := true
  valueARead : Bool := true
  valueBRead : Bool := true
  sizeReRead : Option Nat := none
  sizeWrite : Bool := true
  destRefetch : Option Nat := none
  countRefetch : Option Nat := none
  /-- What `copy_to_user`, or `memcpy_s` for the kernel API, makes of the buffer. -/
  bufferWrite : Bool := true
  valueAWrite : Bool := true
  valueBWrite : Bool := true

/-- The command record and the pack as an SMC leaves them. `processed` says whether the
TEE got the command at all. -/
structure SmcReply where
  ret : Nat
  processed : Bool := true
  cmdId : Nat
  contextId : Nat
  errOrigin : Nat := 0
  token : Token := zeroToken
  opSize : Nat → Nat := fun _ => 0

/-- One SMC with the token accesses around it. `appendRead` is read before it when the
command is sent again. -/
structure Round where
  appendRead : Option ClientToken := none
  reply : SmcReply
  foundKey : Option Key := none
  tokenWrite : Bool := true

structure CallEnv where
  smcCmdAlloc : Bool := true
  mbPack : Option Nat
  param : Nat → ParamEnv := fun _ => {}
  currentMm : Bool := true
  loginEncrypt : Bool := true
  tokenRead : Option ClientToken := none
  secureParams : Bool := true
  first : Round
  more : List Round := []
  /-- `memcpy_s`: destination size and count give success. -/
  memcpyS : Nat → Nat → Bool

/-! ## The call -/

inductive Event where
  | mbAlloc (addr : Nat)
  | mbFree (addr : Nat)
  | shmGet (id : Nat)
  | shmPut (id : Nat)
  | smc (ret : Nat) (processed : Bool) (cmdId contextId : Nat)
  | copyOut (index count : Nat)
  deriving DecidableEq, Repr

structure TempBuf where
  addr : Nat
  size : Nat

/-- `op_params`, with the fields of the operation in the pack and of the command record
that the call uses, and `context->session_id`. -/
structure OpParams where
  mbPack : Nat
  localTmpbuf : Nat → Option TempBuf := fun _ => none
  mbBuffer : Nat → Option Nat := fun _ => none
  sharemem : Nat → Option SharedMem := fun _ => none
  memrefSize : Nat → Nat := fun _ => 0
  transParamtype : Nat → Nat := fun _ => 0
  opInited : Bool := false
  cmdId : Nat := 0
  contextId : Nat := 0
  errOrigin : Nat := teecOriginComms
  sessionId : Nat
  tokens : TokenState
  trace : List Event := []

def OpParams.log (op : OpParams) (e : Event) : OpParams := { op with trace := op.trace ++ [e] }

/-- The event for a pointer, unless it is `NULL`. -/
def OpParams.logSome {α : Type} (op : OpParams) (e : α → Event) : Option α → OpParams
  | some a => op.log (e a)
  | none => op

/-- `is_opensession_by_index`. -/
def isOpensessionByIndex (p : CallParams) (index : Nat) : Bool :=
  p.global && decide (index ≥ 2) && p.context.cmdId == globalCmdIdOpenSession

/-- `alloc_for_tmp_mem`. A request of size 0 gets no mailbox block. -/
def allocForTmpMem (p : CallParams) (env : ParamEnv) (op : OpParams) (index : Nat) :
    Int × OpParams :=
  match env.sizeRead with
  | none => (-eFAULT, op)
  | some size =>
    if size > maxSharedSize then (-eFAULT, op)
    else
      match (if size = 0 then none else env.mbAlloc) with
      | none => (-eNOMEM, op)
      | some addr =>
        let op := (op.log (.mbAlloc addr))
        let op := { op with localTmpbuf := update op.localTmpbuf index (some ⟨addr, size⟩) }
        if isInputTempmem (p.paramType index) && !env.inputRead then (-eFAULT, op)
        else if isOpensessionByIndex p index && !env.encryptOk then (-eFAULT, op)
        else
          (0, { op with
            memrefSize := update op.memrefSize index size
            transParamtype := update op.transParamtype index (p.paramType index) })

/-- `is_refmem_offset_valid`; the subtraction is on `__u64`. -/
def isRefmemOffsetValid (shm : SharedMem) (param : ClientParam) (size : Nat) : Bool :=
  decide ((2 ^ 64 + shm.len - param.offset) % 2 ^ 64 ≥ size ∧ shm.len > param.offset)

/-- `alloc_for_ref_mem`: the first shared memory with the client's address is used. -/
def allocForRefMem (p : CallParams) (env : ParamEnv) (op : OpParams) (index : Nat) :
    Int × OpParams :=
  match env.sizeRead with
  | none => (-eINVAL, op)
  | some size =>
    if size = 0 then (-eINVAL, op)
    else
      match p.dev.sharedMemList.find? (fun shm => shm.userAddr == (p.context.params index).buffer) with
      | none => (-eINVAL, op)
      | some shm =>
        if isRefmemOffsetValid shm (p.context.params index) size = false then (-eINVAL, op)
        else
          match env.mbAlloc with
          | none => (-eNOMEM, op)
          | some addr =>
            let op := (op.log (.mbAlloc addr)).log (.shmGet shm.id)
            (0, { op with
              mbBuffer := update op.mbBuffer index (some addr)
              sharemem := update op.sharemem index (some shm)
              memrefSize := update op.memrefSize index size
              transParamtype := update op.transParamtype index
                (p.paramType index - (teecMemrefPartialInput - teeParamTypeMemrefInput)) })

/-- `transfer_client_value`. -/
def transferClientValue (p : CallParams) (env : ParamEnv) (op : OpParams) (index : Nat) :
    Int × OpParams :=
  if env.valueARead = false then (-eFAULT, op)
  else if env.valueBRead = false then (-eFAULT, op)
  else (0, { op with transParamtype := update op.transParamtype index (p.paramType index) })

/-- One round of the loop of `alloc_operation`. -/
def allocParam (p : CallParams) (env : ParamEnv) (op : OpParams) (index : Nat) : Int × OpParams :=
  if teecTmpmemType (p.paramType index) .inout then allocForTmpMem p env op index
  else if teecMemrefType (p.paramType index) .inout then allocForRefMem p env op index
  else if teecValueType (p.paramType index) .inout then transferClientValue p env op index
  else if p.paramType index == teecIonInput then (-1, op)
  else if p.paramType index == teecIonSglistInput then (-1, op)
  else (0, op)

/-- One parameter of `free_operation`. -/
def freeParam (p : CallParams) (op : OpParams) (index : Nat) : OpParams :=
  if isTmpMem (p.paramType index) then
    op.logSome (fun buf => .mbFree buf.addr) (op.localTmpbuf index)
  else if isRefMem (p.paramType index) then
    (op.logSome (fun shm => .shmPut shm.id) (op.sharemem index)).logSome .mbFree
      (op.mbBuffer index)
  else if p.paramType index == teecIonSglistInput then
    op.logSome (fun buf => .mbFree buf.addr) (op.localTmpbuf index)
  else op

/-- `free_operation`. -/
def freeOperation (p : CallParams) (op : OpParams) : OpParams :=
  (List.range teeParamNum).foldl (freeParam p) op

/-- A loop over parameters that stops at the first error. -/
def untilError (f : OpParams → Nat → Int × OpParams) : List Nat → OpParams → Int × OpParams
  | [], op => (0, op)
  | index :: rest, op =>
    match f op index with
    | (ret, op) => if ret ≠ 0 then (ret, op) else untilError f rest op

/-- `alloc_operation`. -/
def allocOperation (p : CallParams) (env : Nat → ParamEnv) (op : OpParams) : Int × OpParams :=
  match untilError (fun op i => allocParam p (env i) op i) (List.range teeParamNum) op with
  | (ret, op) =>
    if ret ≠ 0 then (ret, freeOperation p op) else (0, { op with opInited := true })

/-- `write_to_client` for a buffer: whether it succeeds, and the bytes it hands on. `written` is
what becomes of those. -/
def writeToClient (dest destSize size : Nat) (written : Bool) : Bool × Option Nat :=
  if dest = 0 then (false, none)
  else if size > destSize then (false, none)
  else if size = 0 then (true, none)
  else (written, some size)

/-- The copy in `update_tmp_mem` when `memref.size` was `bufferSize` at the check: the size of the
destination and the count are fetched again. -/
def ParamEnv.writeTmpbuf (env : ParamEnv) (buffer bufferSize : Nat) : Bool × Option Nat :=
  writeToClient buffer (env.destRefetch.getD bufferSize) (env.countRefetch.getD bufferSize)
    env.bufferWrite

/-- `update_tmp_mem`. -/
def updateTmpMem (p : CallParams) (env : ParamEnv) (isComplete : Bool) (op : OpParams)
    (index : Nat) : Int × OpParams :=
  let bufferSize := op.memrefSize index
  if env.sizeWrite = false then (-eFAULT, op)
  else if bufferSize > ((op.localTmpbuf index).map TempBuf.size).getD 0 then
    if isComplete = false then (0, op) else (-eFAULT, op)
  else
    match env.writeTmpbuf (p.context.params index).buffer bufferSize with
    | (written, copied) =>
      let op := op.logSome (.copyOut index) copied
      if written then (0, op) else (-eNOMEM, op)

/-- `update_for_ref_mem`. -/
def updateForRefMem (p : CallParams) (memcpyS : Nat → Nat → Bool) (env : ParamEnv) (op : OpParams)
    (index : Nat) : Int × OpParams :=
  let bufferSize := op.memrefSize index
  match env.sizeReRead with
  | none => (-eFAULT, op)
  | some origSize =>
    if env.sizeWrite = false then (-eFAULT, op)
    else
      match op.mbBuffer index, op.sharemem index with
      | some _, some shm =>
        if origSize ≥ bufferSize then
          if memcpyS ((2 ^ 64 + shm.len - (p.context.params index).offset) % 2 ^ 64) bufferSize then
            (0, op.log (.copyOut index bufferSize))
          else (-eFAULT, op)
        else (0, op)
      | _, _ => (0, op)

/-- `update_for_value`. -/
def updateForValue (env : ParamEnv) (op : OpParams) : Int × OpParams :=
  if env.valueAWrite = false then (-eFAULT, op)
  else if env.valueBWrite = false then (-eFAULT, op)
  else (0, op)

/-- One round of the loop of `update_client_operation`. -/
def updateParam (p : CallParams) (env : CallEnv) (isComplete : Bool) (op : OpParams)
    (index : Nat) : Int × OpParams :=
  if teecTmpmemType (p.paramType index) .output then
    updateTmpMem p (env.param index) isComplete op index
  else if teecMemrefType (p.paramType index) .output then
    updateForRefMem p env.memcpyS (env.param index) op index
  else if isComplete && teecValueType (p.paramType index) .output then
    updateForValue (env.param index) op
  else (0, op)

/-- `update_client_operation`. -/
def updateClientOperation (p : CallParams) (env : CallEnv) (isComplete : Bool) (op : OpParams) :
    Int × OpParams :=
  if op.opInited = false then (0, op)
  else if p.context.paramTypes = 0 then (0, op)
  else untilError (updateParam p env isComplete) (List.range teeParamNum) op

/-- `check_login_for_encrypt` returns whether it succeeded. -/
def checkLoginForEncrypt (p : CallParams) (env : CallEnv) : Bool :=
  if (p.dev.pubKeyLen == 4 && p.context.cmdId == globalCmdIdOpenSession && env.currentMm &&
      p.global) && p.sess then env.loginEncrypt
  else true

/-- `config_smc_cmd_context`; `do_encryption` fails with a negative code. -/
def configSmcCmdContext (p : CallParams) (env : CallEnv) (op : OpParams) : Int × OpParams :=
  let op := { op with cmdId := p.context.cmdId, contextId := p.context.sessionId }
  if checkLoginForEncrypt p env = false then (-eINVAL, op)
  else
    match loadSecurityEnhanceInfo p.global p.context.cmdId p.context.teecToken p.dev.bytes
        env.tokenRead env.secureParams op.tokens with
    | (ret, tokens) => (ret, { op with tokens := tokens })

/-- `tc_ns_smc` and `tc_ns_smc_with_no_nr`: the reply replaces the command record and
what the TEE wrote into the pack. -/
def sendSmc (op : OpParams) (r : SmcReply) : OpParams :=
  ({ op with
    cmdId := r.cmdId, contextId := r.contextId, errOrigin := r.errOrigin,
    memrefSize := r.opSize, tokens := { op.tokens with mailbox := r.token } }).log
      (.smc r.ret r.processed r.cmdId r.contextId)

/-- `reset_session_id`. -/
def resetSessionId (p : CallParams) (op : OpParams) (teeRet : Nat) : OpParams :=
  if p.global ∧ p.context.cmdId = globalCmdIdOpenSession ∧ teeRet ≠ 0 ∧ teeRet ≠ teecPending then
    { op with sessionId := 0 }
  else { op with sessionId := op.contextId }

/-- `post_process_token` on the call's tokens. -/
def postToken (p : CallParams) (r : Round) (op : OpParams) : Int × OpParams :=
  match postProcessToken p.global op.cmdId p.context.teecToken p.context.tokenLen r.foundKey
      r.tokenWrite op.tokens with
  | (ret, tokens) => (ret, { op with tokens := tokens })

def appendToken (p : CallParams) (r : Round) (op : OpParams) : Int × OpParams :=
  match appendTeecToken p.global p.context.teecToken r.appendRead op.tokens with
  | (ret, tokens) => (ret, { op with tokens := tokens })

/-- `handle_ta_pending` with `tee_ret`; it returns its code and the last `tee_ret`. `none`:
still waiting for the TEE. -/
def handleTaPending (p : CallParams) (teeRet : Nat) : List Round → OpParams →
    Option (Int × Nat × OpParams)
  | rounds, op =>
    if teeRet ≠ teecPending then some (0, teeRet, op)
    else
      match rounds with
      | [] => none
      | r :: rest =>
        match appendToken p r op with
        | (ret, op) =>
          if ret ≠ 0 then some (ret, teeRet, op)
          else
            match postToken p r (sendSmc op r.reply) with
            | (ret, op) =>
              if ret ≠ 0 then some (ret, r.reply.ret, op)
              else handleTaPending p r.reply.ret rest op

/-- `post_proc_smc_return`. -/
def postProcSmcReturn (p : CallParams) (env : CallEnv) (teeRet : Nat) (op : OpParams) :
    Int × OpParams :=
  if teeRet ≠ 0 then
    let ret := if teeRet = teecClientIntr then -eRESTARTSYS else eFAULT
    if teeRet = teecErrorShortBuffer then (ret, (updateClientOperation p env false op).2)
    else (ret, op)
  else updateClientOperation p env true op

/-- `release_tc_call_resource`. -/
def releaseTcCallResource (p : CallParams) (op : OpParams) : OpParams :=
  let op := if op.opInited then freeOperation p op else op
  op.log (.mbFree op.mbPack)

structure CallResult where
  ret : Int
  teeRet : Nat
  op : OpParams

/-- The label `free_src`. -/
def freeSrc (p : CallParams) (ret : Int) (teeRet : Nat) (op : OpParams) : CallResult :=
  let op := if ret < 0 then { op with errOrigin := teecOriginComms } else op
  ⟨ret, teeRet, releaseTcCallResource p op⟩

/-- The SMCs of a call: the first one with the token step after it, and the pending loop. -/
def smcRounds (p : CallParams) (env : CallEnv) (op : OpParams) : Option (Int × Nat × OpParams) :=
  let teeRet := env.first.reply.ret
  match postToken p env.first (resetSessionId p (sendSmc op env.first.reply) teeRet) with
  | (ret, op) =>
    if ret ≠ 0 then some (ret, teeRet, op) else handleTaPending p teeRet env.more op

/-- `tc_client_call` from the first SMC on. -/
def afterConfig (p : CallParams) (env : CallEnv) (op : OpParams) : Option CallResult :=
  match smcRounds p env op with
  | none => none
  | some (ret, teeRet, op) =>
    if ret ≠ 0 then some (freeSrc p ret teeRet op)
    else
      match postProcSmcReturn p env teeRet op with
      | (ret, op) => some (freeSrc p ret teeRet op)

/-- The part of `tc_client_call` before the first SMC. -/
def beforeSmc (p : CallParams) (env : CallEnv) (op : OpParams) : Int × OpParams :=
  match (if p.context.paramTypes ≠ 0 then allocOperation p env.param op else (0, op)) with
  | (ret, op) => if ret ≠ 0 then (ret, op) else configSmcCmdContext p env op

/-- `op_params` with a fresh command record and an empty pack. -/
def startOp (p : CallParams) (pack : Nat) (tokens : TokenState) : OpParams :=
  { mbPack := pack, sessionId := p.context.sessionId, tokens := tokens, trace := [.mbAlloc pack] }

/-- `tc_client_call`. Without a command record or a pack nothing was taken yet. -/
def tcClientCall (p : CallParams) (env : CallEnv) (tokens : TokenState) : Option CallResult :=
  let noMem : CallResult :=
    ⟨-eNOMEM, 0, { mbPack := 0, sessionId := p.context.sessionId, tokens := tokens }⟩
  if env.smcCmdAlloc = false then some noMem
  else
    match env.mbPack with
    | none => some noMem
    | some pack =>
      match beforeSmc p env (startOp p pack tokens) with
      | (ret, op) => if ret ≠ 0 then some (freeSrc p ret 0 op) else afterConfig p env op

end ClientCall
