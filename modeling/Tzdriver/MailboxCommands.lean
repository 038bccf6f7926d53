import Tzdriver.CallResources
import Tzdriver.LoadImage

/-!
# Commands through the mailbox

The functions of the driver besides client calls that send a command of their own. Most need a pack
and nothing else; some have a second block for data. Each is given as its return code and its trace: the
blocks it takes and gives back, and the SMC. `uid` is `tc_ns_get_uid()`, a block is `none` when
`mailbox_alloc` fails, and what the TEE puts into the command is in the reply.
-/

namespace MailboxCommands

open ClientCall TeecToken

def ePERM : Int := 1
def eACCES : Int := 13
def hashFileMaxSize : Nat := 0x4000

def sent (r : SmcReply) : Event := .smc r.ret r.processed r.cmdId r.contextId

/-- The code of a function that maps an error of `tc_ns_smc` to `-EPERM`. -/
def permCode (r : SmcReply) : Int := if r.ret = 0 then 0 else -ePERM

/-- The part the functions with one pack share. -/
def packCommand (mbPack : Option Nat) (reply : SmcReply) (code : Int) : Int × List Event :=
  match mbPack with
  | none => (-eNOMEM, [])
  | some pack => (code, [.mbAlloc pack, sent reply, .mbFree pack])

/-- `tc_ns_late_init`. -/
def tcNsLateInit (uid : Nat) (mbPack : Option Nat) (reply : SmcReply) : Int × List Event :=
  if uid ≠ 0 then (-eACCES, []) else packCommand mbPack reply (permCode reply)

/-- `tc_ns_sync_sys_time`; `time` is not `NULL`. -/
def tcNsSyncSysTime (time : Bool) (uid : Nat) (copy : Bool) (mbPack : Option Nat)
    (reply : SmcReply) : Int × List Event :=
  if time = false then (-eINVAL, [])
  else if uid ≠ 0 then (-eINVAL, [])
  else if copy = false then (-eFAULT, [])
  else packCommand mbPack reply (permCode reply)

/-- `register_agent_to_tee`. -/
def registerAgentToTee (mbPack : Option Nat) (reply : SmcReply) : Int × List Event :=
  packCommand mbPack reply (permCode reply)

def systemUid : Nat := 1000
def agentFsId : Nat := 0x46536673
def agentMiscId : Nat := 0x4d495343
def agentSocketId : Nat := 0x69e85664
def secfileLoadAgentId : Nat := 0x4c4f4144

/-- `is_built_in_agent`. -/
def isBuiltInAgent (agentId : Nat) : Bool :=
  agentId == agentFsId || agentId == agentMiscId || agentId == agentSocketId ||
    agentId == secfileLoadAgentId

/-- `tc_ns_unregister_agent`. `allowed` are the ids in `g_allowed_ext_agent_ca`, of which this driver
has none; `buffer` says that the agent is found and has its buffer. That buffer is given back apart
from this. -/
def tcNsUnregisterAgent (allowed : List Nat) (uid agentId : Nat) (buffer : Bool)
    (mbPack : Option Nat) (reply : SmcReply) : Int × List Event :=
  if uid ≠ 0 ∧ uid ≠ systemUid then (-eINVAL, [])
  else if isBuiltInAgent agentId then (-eINVAL, [])
  else if allowed.contains agentId = false then (-eACCES, [])
  else if buffer = false then (-eINVAL, [])
  else packCommand mbPack reply (permCode reply)

/-- `send_notify_cmd`. -/
def sendNotifyCmd (mbPack : Option Nat) (reply : SmcReply) : Int × List Event :=
  packCommand mbPack reply (permCode reply)

/-- `register_mem_to_teeos`: the `int` that `tc_ns_smc` returns. -/
def registerMemToTeeos (mbPack : Option Nat) (reply : SmcReply) : Int × List Event :=
  packCommand mbPack reply (Int.bmod reply.ret (2 ^ 32))

/-- `tc_ns_get_tee_version`; `argp` is not `NULL`. -/
def tcNsGetTeeVersion (argp isTeecd : Bool) (mbPack : Option Nat) (reply : SmcReply)
    (copyToUser : Bool) : Int × List Event :=
  if argp = false then (-eINVAL, [])
  else if isTeecd = false then (-eACCES, [])
  else packCommand mbPack reply (if copyToUser then permCode reply else -eFAULT)

/-- `get_buf_len`; `none`: the length cannot be read. -/
def getBufLen (read : Option Nat) : Option Nat :=
  read.filter fun len => decide (len ≤ hashFileMaxSize)

/-- `tc_ns_set_native_hash`; `inbuf` is not `NULL`. -/
def tcNsSetNativeHash (inbuf : Bool) (uid : Nat) (lenRead : Option Nat) (bufToTee : Option Nat)
    (copy : Bool) (mbPack : Option Nat) (reply : SmcReply) : Int × List Event :=
  if inbuf = false then (-eINVAL, [])
  else if uid ≠ 0 then (-eACCES, [])
  else
    match getBufLen lenRead with
    | none => (-eFAULT, [])
    | some _ =>
      match bufToTee with
      | none => (-eNOMEM, [])
      | some buf =>
        if copy = false then (-eFAULT, [.mbAlloc buf, .mbFree buf])
        else
          match mbPack with
          | none => (-eNOMEM, [.mbAlloc buf, .mbFree buf])
          | some pack =>
            (permCode reply, [.mbAlloc buf, .mbAlloc pack, sent reply, .mbFree buf, .mbFree pack])

/-- `tc_ns_need_load_image`: `answer` is the word the TEE leaves in `mb_param`. -/
def tcNsNeedLoadImage (uuid : Bool) (mbPack mbParam : Option Nat) (reply : SmcReply)
    (answer : Int) : Int × List Event :=
  if uuid = false then (-eNOMEM, [])
  else
    match mbPack with
    | none => (-eNOMEM, [])
    | some pack =>
      match mbParam with
      | none => (-eNOMEM, [.mbAlloc pack, .mbFree pack])
      | some param =>
        (if reply.ret = 0 then answer else -eFAULT,
          [.mbAlloc pack, .mbAlloc param, sent reply, .mbFree param, .mbFree pack])

/-- `get_session_secure_params`: what `generate_challenge_word` returns, the block for the REE, the
memory for the TEE's parameters, the code of `send_smc_cmd_for_secure_params` and the one of
`update_secure_params_from_tee`. -/
def getSessionSecureParams (challenge : Int) (ree : Option Nat) (kzalloc : Bool) (reply : SmcReply)
    (sendRet updateRet : Int) : Int × List Event :=
  if challenge ≠ 0 then (challenge, [])
  else
    match ree with
    | none => (-eNOMEM, [])
    | some ree =>
      if kzalloc = false then (-eNOMEM, [.mbAlloc ree, .mbFree ree])
      else (if sendRet ≠ 0 then sendRet else updateRet, [.mbAlloc ree, sent reply, .mbFree ree])

/-- The mailbox calls of `tc_ns_load_image`. -/
def loadImageEvents (env : LoadImage.Env) (fileBuffer : Bool) (fileSize : Nat) : List Event :=
  if LoadImage.isValidTaSize fileBuffer fileSize = false then []
  else
    match LoadImage.allocLoadMem env (LoadImage.firstLoadSize fileSize) {} with
    | (none, _, _) => []
    | (some mem, _, mb) =>
      match mb.alloc env with
      | (none, _) => [.mbAlloc mem, .mbFree mem]
      | (some pack, mb) =>
        match mb.alloc env with
        | (none, _) => [.mbAlloc mem, .mbAlloc pack, .mbFree mem, .mbFree pack]
        | (some uuid, _) =>
          [.mbAlloc mem, .mbAlloc pack, .mbAlloc uuid, .mbFree mem, .mbFree pack, .mbFree uuid]

/-! ## What a command takes it gives back -/

section Nets

variable {pack buf : Option Nat} {reply : SmcReply} {code : Int}

theorem nets_nil : Nets [] 0 := fun out => congrArg some (zero_add out).symm

theorem nets_one (a : Nat) : Nets [.mbAlloc a, .mbFree a] 0 := by
  have taken : Nets [.mbAlloc a] (.block a ::ₘ 0) := nets_nil.take fun _ => rfl
  exact taken.give fun _ => rfl

theorem nets_sent (a : Nat) (r : SmcReply) : Nets [.mbAlloc a, sent r, .mbFree a] 0 := by
  have taken : Nets [.mbAlloc a] (.block a ::ₘ 0) := nets_nil.take fun _ => rfl
  have told : Nets [.mbAlloc a, sent r] (.block a ::ₘ 0) := taken.quiet id
  exact told.give fun _ => rfl

/-- Two blocks, given back in the order in which they were taken. -/
theorem nets_two (a b : Nat) (r : SmcReply) :
    Nets [.mbAlloc a, .mbAlloc b, sent r, .mbFree a, .mbFree b] 0 := by
  have first : Nets [.mbAlloc a] (.block a ::ₘ 0) := nets_nil.take fun _ => rfl
  have both : Nets [.mbAlloc a, .mbAlloc b] (.block b ::ₘ .block a ::ₘ 0) := first.take fun _ => rfl
  have told : Nets [.mbAlloc a, .mbAlloc b, sent r] (.block b ::ₘ .block a ::ₘ 0) := both.quiet id
  rw [Multiset.cons_swap] at told
  have left : Nets [.mbAlloc a, .mbAlloc b, sent r, .mbFree a] (.block b ::ₘ 0) :=
    told.give fun _ => rfl
  exact left.give fun _ => rfl

theorem nets_two_nested (a b : Nat) (r : SmcReply) :
    Nets [.mbAlloc a, .mbAlloc b, sent r, .mbFree b, .mbFree a] 0 := by
  have first : Nets [.mbAlloc a] (.block a ::ₘ 0) := nets_nil.take fun _ => rfl
  have both : Nets [.mbAlloc a, .mbAlloc b] (.block b ::ₘ .block a ::ₘ 0) := first.take fun _ => rfl
  have told : Nets [.mbAlloc a, .mbAlloc b, sent r] (.block b ::ₘ .block a ::ₘ 0) := both.quiet id
  have left : Nets [.mbAlloc a, .mbAlloc b, sent r, .mbFree b] (.block a ::ₘ 0) :=
    told.give fun _ => rfl
  exact left.give fun _ => rfl

theorem packCommand_nets : Nets (packCommand pack reply code).2 0 := by
  cases pack with
  | none => exact nets_nil
  | some a => exact nets_sent a reply

theorem tcNsLateInit_nets (uid : Nat) : Nets (tcNsLateInit uid pack reply).2 0 := by
  unfold tcNsLateInit
  split
  · exact nets_nil
  · exact packCommand_nets

theorem tcNsSyncSysTime_nets (time : Bool) (uid : Nat) (copy : Bool) :
    Nets (tcNsSyncSysTime time uid copy pack reply).2 0 := by
  unfold tcNsSyncSysTime
  repeat' split
  all_goals first | exact nets_nil | exact packCommand_nets

theorem tcNsUnregisterAgent_nets (allowed : List Nat) (uid agentId : Nat) (buffer : Bool) :
    Nets (tcNsUnregisterAgent allowed uid agentId buffer pack reply).2 0 := by
  unfold tcNsUnregisterAgent
  repeat' split
  all_goals first | exact nets_nil | exact packCommand_nets

theorem tcNsGetTeeVersion_nets (argp isTeecd copyToUser : Bool) :
    Nets (tcNsGetTeeVersion argp isTeecd pack reply copyToUser).2 0 := by
  unfold tcNsGetTeeVersion
  repeat' split
  all_goals first | exact nets_nil | exact packCommand_nets

theorem tcNsSetNativeHash_nets (inbuf : Bool) (uid : Nat) (lenRead : Option Nat) (copy : Bool) :
    Nets (tcNsSetNativeHash inbuf uid lenRead buf copy pack reply).2 0 := by
  unfold tcNsSetNativeHash
  repeat' split
  all_goals first | exact nets_nil | exact nets_one _ | exact nets_two _ _ _

theorem tcNsNeedLoadImage_nets (uuid : Bool) (answer : Int) :
    Nets (tcNsNeedLoadImage uuid pack buf reply answer).2 0 := by
  unfold tcNsNeedLoadImage
  repeat' split
  all_goals first | exact nets_nil | exact nets_one _ | exact nets_two_nested _ _ _

theorem getSessionSecureParams_nets (challenge : Int) (kzalloc : Bool) (sendRet updateRet : Int) :
    Nets (getSessionSecureParams challenge buf kzalloc reply sendRet updateRet).2 0 := by
  unfold getSessionSecureParams
  split
  · exact nets_nil
  · cases buf with
    | none => exact nets_nil
    | some ree =>
      cases kzalloc with
      | false => exact nets_one ree
      | true => exact nets_sent ree reply

theorem loadImageEvents_nets (env : LoadImage.Env) (fileBuffer : Bool) (fileSize : Nat) :
    Nets (loadImageEvents env fileBuffer fileSize) 0 := by
  unfold loadImageEvents
  split
  · exact nets_nil
  · split
    · exact nets_nil
    · rename_i mem size mb _
      have first : Nets [.mbAlloc mem] (.block mem ::ₘ 0) := nets_nil.take fun _ => rfl
      split
      · exact nets_one mem
      · rename_i pack mb _
        have both : Nets [.mbAlloc mem, .mbAlloc pack] (.block pack ::ₘ .block mem ::ₘ 0) :=
          first.take fun _ => rfl
        split
        · rw [Multiset.cons_swap] at both
          have left : Nets [.mbAlloc mem, .mbAlloc pack, .mbFree mem] (.block pack ::ₘ 0) :=
            both.give fun _ => rfl
          exact left.give fun _ => rfl
        · rename_i uuid mb _
          have all : Nets [.mbAlloc mem, .mbAlloc pack, .mbAlloc uuid]
              (.block uuid ::ₘ .block pack ::ₘ .block mem ::ₘ 0) := both.take fun _ => rfl
          have turned : (Resource.block uuid ::ₘ .block pack ::ₘ .block mem ::ₘ 0) =
              (.block mem ::ₘ .block pack ::ₘ .block uuid ::ₘ 0) := by
            rw [Multiset.cons_swap (Resource.block pack), Multiset.cons_swap (Resource.block uuid),
              Multiset.cons_swap (Resource.block uuid)]
          rw [turned] at all
          have afterMem : Nets [.mbAlloc mem, .mbAlloc pack, .mbAlloc uuid, .mbFree mem]
              (.block pack ::ₘ .block uuid ::ₘ 0) := all.give fun _ => rfl
          have afterPack : Nets [.mbAlloc mem, .mbAlloc pack, .mbAlloc uuid, .mbFree mem,
              .mbFree pack] (.block uuid ::ₘ 0) := afterMem.give fun _ => rfl
          exact afterPack.give fun _ => rfl

/-- A client call gives back all it took. -/
theorem tcClientCall_nets {p : CallParams} {env : CallEnv} {tokens : TokenState}
    {res : CallResult} (returned : tcClientCall p env tokens = some res) :
    Nets res.op.trace 0 := by
  unfold tcClientCall at returned
  simp only at returned
  split at returned
  · cases returned
    exact nets_nil
  · split at returned
    · cases returned
      exact nets_nil
    · rename_i pack _
      have before := beforeSmc_owns p env pack tokens
      split at returned
      · cases returned
        exact before.freeSrc _ _
      · unfold afterConfig at returned
        split at returned
        · cases returned
        · rename_i rounds
          have smcs := before.smcs rounds
          split at returned
          · cases returned
            exact smcs.freeSrc _ _
          · cases returned
            exact (smcs.postProc env _).freeSrc _ _

end Nets

end MailboxCommands
