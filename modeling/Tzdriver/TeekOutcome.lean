import Tzdriver.OpenCode

/-!
# What a kernel client is told

`teek_open_session` returns success when the driver has a session for the client, and also when the
driver failed with a code above 0 and no word in `context->returns`; the client's session is left as
it was then. `teek_invoke_command` tells what happened, except that a command which was interrupted
ends like any other failure.
-/

namespace TeekSession

open ClientCall TeecToken TeekOperation
open LoginInfo (checkLoginMethod checkOpenSessParams)
open SecureParams
open WordMemory (Memory Address)

/-! ## What is opened and allocated for an image -/

/-- Files that are open and buffers that are allocated. -/
structure Held where
  files : Nat
  buffers : List Nat

/-- `none`: something is given back that is not out. -/
def Held.step (held : Held) : AppEvent → Option Held
  | .filpOpen => some { held with files := held.files + 1 }
  | .filpClose => if held.files = 0 then none else some { held with files := held.files - 1 }
  | .vmalloc buf => some { held with buffers := buf :: held.buffers }
  | .vfree buf =>
    if buf ∈ held.buffers then some { held with buffers := held.buffers.erase buf } else none

/-- What is taken is given back. -/
def Balanced (events : List AppEvent) : Prop :=
  ∀ held : Held, events.foldlM Held.step held = some held

section Images

variable {taPath currentMm : Bool} {file : AppFile} {events : List AppEvent}

theorem vfree_held (held : Held) (buf : Nat) :
    ({ held with buffers := buf :: held.buffers } : Held).step (.vfree buf) = some held := by
  simp [Held.step]

theorem teekOpenAppFile_held (len : Nat) (held : Held) :
    (teekOpenAppFile file len).events.foldlM Held.step held =
      some { held with buffers := (teekOpenAppFile file len).buffer.toList ++ held.buffers } := by
  unfold teekOpenAppFile
  split
  · rfl
  · split
    · rfl
    · split
      · apply Eq.trans (congrArg (fun x => x >>= pure) (vfree_held held _))
        rfl
      · rfl

variable (taPath currentMm file) in
/-- Only the buffer is out behind `teek_get_app`. -/
theorem teekGetApp_held (held : Held) :
    (teekGetApp taPath currentMm file).events.foldlM Held.step held =
      some { held with
        buffers := (teekGetApp taPath currentMm file).buffer.toList ++ held.buffers } := by
  unfold teekGetApp
  split
  · rfl
  · unfold teekReadApp
    split
    · rfl
    · simp only [List.cons_append, List.foldlM_cons, Held.step, Option.bind_eq_bind,
        Option.bind_some, List.foldlM_append, teekOpenAppFile_held]
      simp

theorem teekGetApp_failed (failed : (teekGetApp taPath currentMm file).ret ≠ teecSuccess) :
    (teekGetApp taPath currentMm file).buffer = none := by
  have opened : ∀ len, (teekOpenAppFile file len).ret = teecSuccess ∨
      (teekOpenAppFile file len).buffer = none := by
    intro len
    unfold teekOpenAppFile
    repeat' split
    all_goals first | exact Or.inr rfl | exact Or.inl rfl
  unfold teekGetApp at *
  split
  · rfl
  · rename_i read
    rw [if_neg read] at failed
    unfold teekReadApp at *
    split
    · rfl
    · rename_i opens
      rw [if_neg opens] at failed
      exact (opened _).resolve_left failed

end Images

/-! ## One attempt -/

section Attempt

variable {aes : LoginEncryption.AesCbc} {root : CryptoInfo} {args : OpenArgs} {env : AttemptEnv}
  {dev : Option Device} {session : Option TeecSession} {res : OpenResult}

/-- The driver gets to `proc_open_session`, which fails with a code above 0 and no word. -/
def DriverSilent (env : AttemptEnv) (dev : Device) (uuid : Nat) (context : TcNsClientContext)
    (app : App) : Prop :=
  let login := checkLoginMethod env.caUid dev.login (loginContext context env.usrParamValid)
  login.1 = 0 ∧ env.findService = true ∧ env.driver.sessionAlloc = true ∧
    NoWord env.tee (env.openEnv { dev with login := login.2.1 } uuid
      (loggedContext dev.loginAddrs context login.2.2)) env.loadEnv app.buffer.isSome app.size

/-- An attempt that is reported as a success without a session. -/
def Misreports (args : OpenArgs) (env : AttemptEnv) (dev : Option Device)
    (session : Option TeecSession) : Prop :=
  ∃ p, (prepareOpen args env.mem dev session).1 = .ok p ∧
    let app := teekGetApp p.context.taPath env.driver.callEnv.currentMm env.file
    app.ret = teecSuccess ∧ DriverSilent env p.dev p.destination p.encoded app

theorem checkLoginMethod_le (caUid : UInt32) (dev : LoginInfo.DevFile)
    (context : LoginInfo.ClientContext) : (checkLoginMethod caUid dev context).1 ≤ 0 := by
  have invalid : -LoginInfo.eINVAL ≤ 0 := by decide
  have fault : -LoginInfo.eFAULT ≤ 0 := by decide
  unfold checkLoginMethod LoginInfo.setLoginInformation
  simp only
  repeat' split
  all_goals first | exact invalid | exact fault | exact Int.le_refl 0

/-- The client call of an attempt, with the context that `check_login_method` leaves. -/
def OpenCall (env : AttemptEnv) (dev : Device) (uuid : Nat) (context : TcNsClientContext)
    (call : CallResult) : Prop :=
  let login := checkLoginMethod env.caUid dev.login (loginContext context env.usrParamValid)
  login.1 = 0 ∧
    tcClientCall (env.openEnv { dev with login := login.2.1 } uuid
        (loggedContext dev.loginAddrs context login.2.2)).call
      { env.driver.callEnv with secureParams := true } freshTokens = some call

/-- A session that is open in the driver comes from a call that has returned 0. -/
theorem tcNsOpenSession_opened {d : Device} {uuid : Nat} {context : TcNsClientContext} {app : App}
    {opened : DriverOpen} (done : tcNsOpenSession aes root env d uuid context app = some opened)
    (zero : opened.ret = 0) :
    ∃ call, OpenCall env d uuid context call ∧ call.ret = 0 ∧ opened.out.sessionId = call.op.sessionId ∧
      call.op.sessionId = env.driver.callEnv.first.reply.contextId := by
  have noMem : -eNOMEM ≠ 0 := by decide
  unfold tcNsOpenSession at done
  simp only at done
  split at done
  · rename_i failed
    cases done
    exact absurd zero failed
  · rename_i logged
    split at done
    · cases done
      exact absurd zero noMem
    · split at done
      · cases done
        exact absurd zero noMem
      · split at done
        · cases done
        · rename_i ret s out proc
          cases done
          obtain rfl : ret = 0 := zero
          obtain ⟨call, returned, rest⟩ := procOpenSession_opened rfl proc
          exact ⟨call, ⟨not_not.1 logged, returned⟩, rest⟩

theorem tcNsOpenSession_code (regular : Regular env.driver env.load) {d : Device} {uuid : Nat}
    {context : TcNsClientContext} {app : App} {opened : DriverOpen}
    (done : tcNsOpenSession aes root env d uuid context app = some opened) :
    (0 < opened.ret ∧ codeWord opened.out.returns.code = 0 ↔ DriverSilent env d uuid context app) ∧
      (opened.session.isSome = true ↔ opened.ret = 0) := by
  have noMem : ¬ 0 < -eNOMEM := by decide
  have noMem' : -eNOMEM ≠ 0 := by decide
  have login := checkLoginMethod_le env.caUid d.login (loginContext context env.usrParamValid)
  unfold tcNsOpenSession at done
  unfold DriverSilent
  simp only at done
  split at done
  · rename_i failed
    cases done
    exact ⟨iff_of_false (fun h => absurd login (Int.not_le.2 h.1)) fun h => failed h.1,
      iff_of_false Bool.false_ne_true failed⟩
  · rename_i logged
    split at done
    · rename_i noService
      cases done
      refine ⟨iff_of_false (fun h => noMem h.1) ?_, iff_of_false Bool.false_ne_true noMem'⟩
      rintro ⟨-, found, -⟩
      rw [noService] at found
      cases found
    · rename_i found
      split at done
      · rename_i noSession
        cases done
        refine ⟨iff_of_false (fun h => noMem h.1) ?_, iff_of_false Bool.false_ne_true noMem'⟩
        rintro ⟨-, -, alloc, -⟩
        rw [noSession] at alloc
        cases alloc
      · rename_i alloc
        split at done
        · cases done
        · rename_i ret s out proc
          cases done
          have regular' : ∀ d uuid context, Regular (env.openEnv d uuid context) env.loadEnv :=
            fun _ _ _ => ⟨regular.load, regular.replies, regular.cipher⟩
          rw [procOpenSession_code (regular' _ _ _) proc]
          refine ⟨⟨fun silent => ⟨not_not.1 logged, Bool.not_eq_false _ ▸ found,
            Bool.not_eq_false _ ▸ alloc, silent⟩, fun h => h.2.2.2⟩, ?_⟩
          by_cases zero : ret = 0
          · simp [zero]
          · simp [zero]

/-- What the client gets for a code of the driver. -/
theorem openSessionAndSwitchRet_spec (s : TeecSession) (context : TeecContext) (destination : Nat)
    (opened : DriverOpen) :
    let out := openSessionAndSwitchRet s context destination opened
    (out.1 = teecSuccess ↔
      opened.ret = 0 ∨ (0 < opened.ret ∧ codeWord opened.out.returns.code = 0)) ∧
    (opened.ret = 0 → out.2.2 = ⟨opened.out.sessionId, destination, 0, some context.addr⟩) ∧
    (opened.ret ≠ 0 → out.2.2 = s) := by
  unfold openSessionAndSwitchRet
  simp only
  by_cases zero : opened.ret = 0
  · rw [if_pos zero]
    exact ⟨iff_of_true rfl (Or.inl zero), fun _ => rfl, fun failed => absurd zero failed⟩
  · rw [if_neg zero]
    by_cases below : opened.ret < 0
    · rw [if_pos below]
      have other : (if opened.ret = -eRESTARTSYS then teecClientIntr else teecErrorGeneric) ≠
          teecSuccess := by
        split <;> decide
      refine ⟨iff_of_false (switchErrno_ne_zero other) ?_, fun h => absurd h zero, fun _ => rfl⟩
      rintro (h | h)
      · exact zero h
      · omega
    · rw [if_neg below]
      refine ⟨⟨fun word => Or.inr ⟨by omega, word⟩, fun h => ?_⟩, fun h => absurd h zero, fun _ => rfl⟩
      exact (h.resolve_left zero).2

theorem prepareOpen_error {mem : Memory} {ret : Nat}
    (failed : (prepareOpen args mem dev session).1 = .error ret) : ret ≠ teecSuccess := by
  have refused : teecErrorBadParameters ≠ teecSuccess := by decide
  unfold prepareOpen at failed
  split at failed
  · split at failed
    · cases failed
      exact refused
    · split at failed
      · cases failed
        exact refused
      · simp only at failed
        split at failed
        · rename_i bad
          cases failed
          intro zero
          apply bad
          rw [← UInt32.toNat_inj]
          exact zero
        · split at failed
          · rename_i bad
            cases failed
            exact bad
          · cases failed
  · cases failed
    exact refused

theorem prepareOpen_ok {mem : Memory} {p : Prepared}
    (ready : (prepareOpen args mem dev session).1 = .ok p) :
    session = some p.session ∧ args.context = some p.context ∧
      args.destination = some p.destination := by
  unfold prepareOpen at ready
  split at ready
  · rename_i context _ destination
    split at ready
    · cases ready
    · split at ready
      · cases ready
      · simp only at ready
        split at ready
        · cases ready
        · split at ready
          · cases ready
          · cases ready
            exact ⟨rfl, context, destination⟩
  · cases ready

/-- The client's session after an attempt that has opened one: its id is what the call has left in
the context, which is the id of the TEE's first reply. -/
def Names (args : OpenArgs) (env : AttemptEnv) (dev : Option Device) (session : Option TeecSession)
    (named : Option TeecSession) : Prop :=
  ∃ p call, (prepareOpen args env.mem dev session).1 = .ok p ∧ args.context = some p.context ∧
    args.destination = some p.destination ∧ OpenCall env p.dev p.destination p.encoded call ∧
    call.ret = 0 ∧ call.op.sessionId = env.driver.callEnv.first.reply.contextId ∧
    named = some ⟨call.op.sessionId, p.destination, 0, some p.context.addr⟩

/-- What an attempt reports. -/
structure Reported (args : OpenArgs) (env : AttemptEnv) (dev : Option Device)
    (session : Option TeecSession) (res : OpenResult) : Prop where
  success : res.ret = teecSuccess ↔ res.opened.isSome = true ∨ Misreports args env dev session
  opened : res.opened.isSome = true → Names args env dev session res.session
  kept : res.opened = none → res.session = session
  apart : Misreports args env dev session → res.opened = none
  balanced : Balanced res.events

theorem procTeekOpenSession_reported (regular : Regular env.driver env.load)
    (done : procTeekOpenSession aes root args env dev session = some res) :
    Reported args env dev session res := by
  unfold procTeekOpenSession at done
  have known : ∀ (p : Prepared), (prepareOpen args env.mem dev session).1 = .ok p →
      (Misreports args env dev session ↔
        let app := teekGetApp p.context.taPath env.driver.callEnv.currentMm env.file
        app.ret = teecSuccess ∧ DriverSilent env p.dev p.destination p.encoded app) := by
    intro p ready
    constructor
    · rintro ⟨q, ready', rest⟩
      rw [ready] at ready'
      cases ready'
      exact rest
    · exact fun rest => ⟨p, ready, rest⟩
  split at done
  · rename_i ret dev' refused
    cases done
    have unready : ¬ Misreports args env dev session := by
      rintro ⟨p, ready, -⟩
      rw [refused] at ready
      cases ready
    refine ⟨iff_of_false ?_ ?_, fun h => absurd h Bool.false_ne_true, fun _ => rfl, fun _ => rfl,
      fun held => rfl⟩
    · exact prepareOpen_error (congrArg Prod.fst refused)
    · rintro (h | h)
      · exact Bool.false_ne_true h
      · exact unready h
  · rename_i p dev' ready
    replace ready := congrArg Prod.fst ready
    simp only at done
    have app := teekGetApp_held p.context.taPath env.driver.callEnv.currentMm env.file
    split at done
    · rename_i failed
      cases done
      refine ⟨iff_of_false failed ?_, fun h => absurd h Bool.false_ne_true, fun _ => rfl,
        fun _ => rfl, fun held => ?_⟩
      · rintro (h | h)
        · exact Bool.false_ne_true h
        · exact failed ((known p ready).1 h).1
      · rw [app, teekGetApp_failed failed]
        rfl
    · rename_i loaded
      split at done
      · cases done
      · rename_i opened driver
        cases done
        obtain ⟨silent, inDriver⟩ := tcNsOpenSession_code regular driver
        obtain ⟨success, bound, kept⟩ :=
          openSessionAndSwitchRet_spec p.session p.context p.destination opened
        obtain ⟨client, context, destination⟩ := prepareOpen_ok ready
        have misreports : Misreports args env dev session ↔
            0 < opened.ret ∧ codeWord opened.out.returns.code = 0 := by
          rw [known p ready, silent]
          exact ⟨fun h => h.2, fun h => ⟨not_not.1 loaded, h⟩⟩
        refine ⟨?_, fun isOpen => ?_, fun none_ => ?_, fun wrong => ?_, fun held => ?_⟩
        · rw [misreports, inDriver]
          exact success
        · have zero := inDriver.1 isOpen
          obtain ⟨call, returned, ok, id, first⟩ := tcNsOpenSession_opened driver zero
          refine ⟨p, call, ready, context, destination, returned, ok, first, ?_⟩
          rw [← id]
          exact congrArg some (bound zero)
        · rw [client]
          apply congrArg some (kept ?_)
          intro zero
          rw [show opened.session = none from none_] at inDriver
          exact Bool.false_ne_true (inDriver.2 zero)
        · rw [misreports] at wrong
          rw [← Option.not_isSome_iff_eq_none, inDriver]
          omega
        · rw [List.foldlM_append, app]
          cases (teekGetApp p.context.taPath env.driver.callEnv.currentMm env.file).buffer with
          | none => rfl
          | some buf =>
            apply Eq.trans (congrArg (fun x => x >>= pure) (vfree_held held buf))
            rfl

end Attempt

/-! ## All attempts -/

section Attempts

variable {aes : LoginEncryption.AesCbc} {root : CryptoInfo} {args : OpenArgs}
  {env : Nat → AttemptEnv} {dev mid : Option Device} {session : Option TeecSession}
  {res : OpenResult}

variable (aes root args env session dev) in
/-- The first attempts have ended with `TEEC_CLIENT_INTR`; the device they leave, and what each of
them has opened and allocated for the image. -/
inductive Interrupted : Nat → Option Device → List (List AppEvent) → Prop
  | start : Interrupted 0 dev []
  | again {n : Nat} {mid : Option Device} {images : List (List AppEvent)} {res : OpenResult}
      (before : Interrupted n mid images)
      (done : procTeekOpenSession aes root args (env n) mid session = some res)
      (ret : res.ret = teecClientIntr) : Interrupted (n + 1) res.dev (images ++ [res.events])

theorem Interrupted.balanced (regular : ∀ i, Regular (env i).driver (env i).load) {n : Nat}
    {images : List (List AppEvent)}
    (before : Interrupted aes root args env dev session n mid images) :
    ∀ events ∈ images, Balanced events := by
  induction before with
  | start => exact nofun
  | @again n _ _ _ before done _ ih =>
    intro events inside
    rcases List.mem_append.1 inside with earlier | last
    · exact ih events earlier
    · rw [List.mem_singleton.1 last]
      exact (procTeekOpenSession_reported (regular n) done).balanced

/-- Attempts, all but the last interrupted, that end an open with `res`. -/
def Ends (aes : LoginEncryption.AesCbc) (root : CryptoInfo) (args : OpenArgs)
    (env : Nat → AttemptEnv) (session : Option TeecSession) (n : Nat) (last : Option Device)
    (images : List (List AppEvent)) (res : OpenResult) : Prop :=
  ∃ final, procTeekOpenSession aes root args (env n) last session = some final ∧
    Reported args (env n) last session final ∧ res = { final with
      events := images.flatten ++ final.events }

theorem retryOpen_reported (regular : ∀ i, Regular (env i).driver (env i).load) (rest : Nat)
    {index : Nat} {before : List (List AppEvent)}
    (interrupted : Interrupted aes root args env dev session index mid before)
    (done : retryOpen aes root args env rest index mid session = some res) :
    ∃ n last images, n ≤ index + rest ∧
      Interrupted aes root args env dev session n last (before ++ images) ∧
      Ends aes root args env session n last images res ∧
      (res.ret = teecClientIntr → n = index + rest) := by
  induction rest generalizing index mid res before with
  | zero =>
    unfold retryOpen at done
    split at done
    · cases done
    · rename_i first attempt
      have reported := procTeekOpenSession_reported (regular index) attempt
      simp only [ite_self, Option.some.injEq] at done
      rw [← done]
      refine ⟨index, mid, [], Nat.le_refl _, ?_, ⟨first, attempt, reported, rfl⟩, fun _ => rfl⟩
      rw [List.append_nil]
      exact interrupted
  | succ rest ih =>
    unfold retryOpen at done
    split at done
    · cases done
    · rename_i first attempt
      have reported := procTeekOpenSession_reported (regular index) attempt
      split at done
      · rename_i final
        cases done
        refine ⟨index, mid, [], Nat.le_add_right .., ?_, ⟨res, attempt, reported, rfl⟩,
          fun h => absurd h final⟩
        rw [List.append_nil]
        exact interrupted
      · rename_i again
        rw [not_not] at again
        -- nothing was opened, so the next attempt gets the same session
        have unopened : first.opened = none := by
          rw [← Option.not_isSome_iff_eq_none]
          intro isOpen
          have zero := reported.success.2 (Or.inl isOpen)
          rw [again] at zero
          exact absurd zero (by decide)
        rw [reported.kept unopened] at done
        obtain ⟨next, retried, same⟩ := Option.map_eq_some_iff.1 done
        obtain ⟨n, last, images, le, history, ⟨final, ended, later, rfl⟩, all⟩ :=
          ih (.again interrupted attempt again) retried
        rw [← same]
        refine ⟨n, last, first.events :: images, by omega, ?_, ⟨final, ended, later, ?_⟩, ?_⟩
        · rw [List.append_cons]
          exact history
        · rw [List.flatten_cons, List.append_assoc]
        · intro intr
          have := all intr
          omega

/-- An open makes at most `RETRY_TIMES` attempts, all but the last interrupted, and reports what the
last one has reported. Each attempt gives back what it has taken for the image. -/
theorem open_reported (regular : ∀ i, Regular (env i).driver (env i).load)
    (done : teekOpenSession aes root args env dev session = some res) :
    ∃ n last images final, n < retryTimes ∧
      Interrupted aes root args env dev session n last images ∧
      procTeekOpenSession aes root args (env n) last session = some final ∧
      Reported args (env n) last session final ∧ (∀ events ∈ images, Balanced events) ∧
      res = { final with events := images.flatten ++ final.events } ∧
      (res.ret = teecClientIntr → n + 1 = retryTimes) := by
  obtain ⟨n, last, images, le, history, ⟨final, ended, reported, same⟩, all⟩ :=
    retryOpen_reported regular _ .start done
  refine ⟨n, last, images, final, ?_, history, ended, reported, history.balanced regular, same,
    fun intr => ?_⟩
  · unfold retryTimes at *
    omega
  · have := all intr
    unfold retryTimes at *
    omega

end Attempts

/-- An operation at `0x1000` with a login name and a key of one byte each. -/
def loginOperation : Memory :=
  memoryOf ([1, 0, 0, 0, 0, 0x55, 0, 0] ++ List.replicate 48 0 ++
    [0, 0x20, 0, 0, 0, 0, 0, 0, 1, 0, 0, 0, 0, 0, 0, 0] ++ List.replicate 8 0 ++
    [0, 0x20, 0, 0, 0, 0, 0, 0, 1, 0, 0, 0, 0, 0, 0, 0])

/-- An attempt whose need for an image the TEE answers with `answer`, and whose command with `ret`. -/
def kernelAttempt (answer : Int) (ret : Nat) : AttemptEnv where
  mem := loginOperation
  file := ⟨false, 0, none, 0⟩
  caUid := 0
  usrParamValid _ := true
  findService := true
  load :=
    { mbPack := some 8192, mbParam := some 12288, answer := answer
      reply := { ret := 0, cmdId := 0, contextId := 0 }
      image := ⟨fun _ => none, false, fun _ => true, fun _ => 0, fun _ => (0, 0)⟩ }
  driver :=
    { SessionSecrets.answeredOpen ret with
      callEnv :=
        { (SessionSecrets.answeredOpen ret).callEnv with
          param := fun i =>
            { sizeRead := some (if i = 2 then 4 else 1), mbAlloc := some (16384 + 4096 * i) } } }
  tee := exchangeTee

def kernelDevice : Device := ⟨1, LoginInfo.tcNsClientOpen true, kernelLogin.addrs, []⟩

def loginArgs : OpenArgs := ⟨some ⟨0x3000, false⟩, some 7, LoginInfo.teecLoginIdentify, some 0x1000⟩

/-- A session of the TEE with the id 3. -/
example : (teekOpenSession exchangeAes exchangeRoot loginArgs (fun _ => kernelAttempt 0 0)
    (some kernelDevice) (some ⟨0, 0, 0, none⟩)).any (fun res =>
      decide (res.session = some ⟨3, 7, 0, some 0x3000⟩)) = true := by
  decide +kernel

/-- The first attempt is interrupted, and at the second the TEE answers 2. -/
def twoAttempts (i : Nat) : AttemptEnv :=
  if i = 0 then kernelAttempt 0 teecClientIntr else kernelAttempt 2 0

theorem twoAttempts_regular (i : Nat) : Regular (twoAttempts i).driver (twoAttempts i).load := by
  have words : ∀ answer ret, (kernelAttempt answer ret).load.Words := by
    intro answer ret i
    have low : (-2 : Int) ^ 31 ≤ 0 := by decide
    have high : (0 : Int) < 2 ^ 31 := by decide
    exact ⟨low, high⟩
  have single : ∀ answer ret, ret < 2 ^ 32 →
      Regular (kernelAttempt answer ret).driver (kernelAttempt answer ret).load := by
    intro answer ret word
    refine ⟨words answer ret, ?_, Int.le_refl 0⟩
    intro r mem
    rw [List.mem_singleton.1 mem]
    exact word
  unfold twoAttempts
  split
  · exact single _ _ (by decide)
  · exact single _ _ (by decide)

/-- The client is told that it has a session, and its `teec_session` is as it was. -/
theorem open_reported_silent : ∃ res : OpenResult, res.ret = teecSuccess ∧ res.opened = none ∧
    res.session = some ⟨0, 0, 0, none⟩ ∧ ∃ n last, n < retryTimes ∧
      Misreports loginArgs (twoAttempts n) last (some ⟨0, 0, 0, none⟩) := by
  have test : (teekOpenSession exchangeAes exchangeRoot loginArgs twoAttempts
      (some kernelDevice) (some ⟨0, 0, 0, none⟩)).any (fun res =>
        decide (res.ret = teecSuccess) && res.opened.isNone) = true := by
    decide +kernel
  obtain ⟨res, done, said⟩ := (Option.any_eq_true ..).1 test
  rw [Bool.and_eq_true, decide_eq_true_iff, Option.isNone_iff_eq_none] at said
  obtain ⟨n, last, images, final, few, -, -, reported, -, rfl, -⟩ :=
    open_reported twoAttempts_regular done
  refine ⟨_, said.1, said.2, reported.kept said.2, n, last, few, ?_⟩
  apply (reported.success.1 said.1).resolve_left
  rw [show final.opened = none from said.2]
  exact Bool.false_ne_true

/-! ## Commands -/

section Commands

variable {mem : Memory} {env : CallEnv} {tokens : Option TokenState} {dev : Option Device}
  {session : Option TeecSession} {cmdId : Nat} {operation : Option Address} {res : InvokeResult}

/-- What `teek_invoke_command` tells about a command. -/
structure CommandReported (env : CallEnv) (res : InvokeResult) : Prop where
  refused : res.call = none → res.ret ≠ teecSuccess ∧ res.returnOrigin.isSome = true
  success : ∀ call ∈ res.call, res.ret = teecSuccess ↔ call.ret = 0
  word : ∀ call ∈ res.call, 0 ≤ call.ret → ∃ x ∈ env.first :: env.more,
    lastSmc call.op.trace = some x.event ∧ res.ret = x.reply.ret ∧
      res.returnOrigin = if x.reply.ret = teecSuccess then none else some x.reply.errOrigin
  comms : ∀ call ∈ res.call, call.ret < 0 →
    res.ret = switchErrno call.ret teecErrorGeneric ∧ res.returnOrigin = some teecOriginComms
  notIntr : res.call.isSome = true → res.ret ≠ teecClientIntr

theorem switchErrno_ne_intr (ret : Int) : switchErrno ret teecErrorGeneric ≠ teecClientIntr := by
  unfold switchErrno
  repeat' split
  all_goals decide

theorem unsent_reported {ret : Nat} (failed : ret ≠ teecSuccess) (origin : Nat) :
    CommandReported env ⟨ret, some origin, none⟩ :=
  ⟨fun _ => ⟨failed, rfl⟩, nofun, nofun, nofun, nofun⟩

/-- A command that gets to `tc_client_call`. -/
theorem called_reported {p : CallParams} {ts : TokenState} {call : CallResult}
    (words : ∀ r ∈ env.first :: env.more, r.reply.ret < 2 ^ 32)
    (returned : tcClientCall p env ts = some call) :
    CommandReported env
      ⟨(procInvokeCmd call.ret (returnsOf env ⟨0, teecOriginComms⟩ call)).1,
        if (procInvokeCmd call.ret (returnsOf env ⟨0, teecOriginComms⟩ call)).1 ≠ teecSuccess then
          some (procInvokeCmd call.ret (returnsOf env ⟨0, teecOriginComms⟩ call)).2 else none,
        some call⟩ := by
  have generic : teecErrorGeneric ≠ teecSuccess := by decide
  unfold procInvokeCmd
  by_cases zero : call.ret = 0
  · simp only [if_pos zero]
    obtain ⟨x, mem, code⟩ : ∃ x ∈ env.first :: env.more, CodeOf x call := by
      apply (tcClientCall_code returned).resolve_left
      omega
    have granted : x.reply.ret = teecSuccess := code.zero zero
    have told : (if teecSuccess ≠ teecSuccess then some teecOriginApi else none) = (none : Option Nat) :=
      if_neg (not_not.2 rfl)
    have notIntr : teecSuccess ≠ teecClientIntr := by decide
    refine ⟨fun h => absurd h (Option.some_ne_none _), ?_, ?_, ?_, fun _ => notIntr⟩
    · intro c same
      cases same
      exact iff_of_true rfl zero
    · intro c same _
      cases same
      refine ⟨x, mem, code.sent, granted.symm, ?_⟩
      exact told.trans (if_pos granted).symm
    · intro c same below
      cases same
      omega
  · by_cases below : call.ret < 0
    · simp only [if_neg zero, if_pos below]
      have failed : switchErrno call.ret teecErrorGeneric ≠ teecSuccess := switchErrno_ne_zero generic
      refine ⟨fun h => absurd h (Option.some_ne_none _), ?_, ?_, ?_,
        fun _ => switchErrno_ne_intr _⟩
      · intro c same
        cases same
        exact iff_of_false failed zero
      · intro c same notBelow
        cases same
        omega
      · intro c same _
        cases same
        exact ⟨rfl, if_pos failed⟩
    · have above : 0 < call.ret := by omega
      obtain ⟨x, mem, word, refused, notIntr, origin, sent⟩ := code_above returned above
      simp only [if_neg zero, if_neg below, returnsOf_eq returned above, word, origin,
        codeWord_natCast (words x mem)]
      refine ⟨fun h => absurd h (Option.some_ne_none _), ?_, ?_, ?_, fun _ => notIntr⟩
      · intro c same
        cases same
        exact iff_of_false refused zero
      · intro c same _
        cases same
        refine ⟨x, mem, sent, rfl, ?_⟩
        exact (if_pos refused).trans (if_neg refused).symm
      · intro c same below
        cases same
        omega

/-- A command is a success just when the driver's call is one. The word of the TEE is passed on with its
origin; other failures are told as the driver's codes, an interrupted command as a general error. -/
theorem command_reported (words : ∀ r ∈ env.first :: env.more, r.reply.ret < 2 ^ 32)
    (done : teekInvokeCommand mem env tokens dev session cmdId operation = some res) :
    CommandReported env res := by
  have bad : teecErrorBadParameters ≠ teecSuccess := by decide
  have missing : (procInvokeCmd (-eINVAL) ⟨0, teecOriginComms⟩).1 ≠ teecSuccess := by decide
  unfold teekInvokeCommand at done
  simp only at done
  split at done
  · cases done
    exact unsent_reported bad _
  · split at done
    · cases done
      exact unsent_reported bad _
    · split at done
      · rename_i failed
        cases done
        exact unsent_reported failed _
      · split at done
        · rename_i failed
          cases done
          exact unsent_reported failed _
        · rename_i context _
          split at done
          · cases done
          · rename_i ret returns call sent
            cases done
            split at sent
            · cases sent
              rw [if_pos missing]
              exact unsent_reported missing _
            · unfold tcNsSendCmd at sent
              split at sent
              · cases sent
                rw [if_pos missing]
                exact unsent_reported missing _
              · obtain ⟨c, returned, same⟩ := Option.map_eq_some_iff.1 sent
                cases same
                exact called_reported words returned

end Commands

/-- A command of a session whose token is all zeros; the TEE answers it with `ret`. -/
def answeredCommand (ret : Nat) : CallEnv where
  mbPack := some 4096
  tokenRead := some fun _ => 0
  first := { reply := { ret := ret, cmdId := 5, contextId := 3, errOrigin := 4,
                        token := fun _ => isSynced } }
  memcpyS destMax count := decide (count ≤ destMax)

/-- What a client is told of such a command. -/
def toldCommand (ret : Nat) : Option InvokeResult :=
  teekInvokeCommand loginOperation (answeredCommand ret) (some freshTokens)
    (some kernelDevice) (some ⟨3, 7, 0, some 0x3000⟩) 5 none

/-- The error of the TA is passed on, the interruption is not. -/
theorem command_reported_refused : ∃ res intr : InvokeResult,
    CommandReported (answeredCommand 0xFFFF0007) res ∧
      CommandReported (answeredCommand teecClientIntr) intr ∧
        res.ret = 0xFFFF0007 ∧ res.returnOrigin = some 4 ∧ intr.ret = teecErrorGeneric := by
  have small : ∀ ret, ret < 2 ^ 32 → ∀ r ∈ (answeredCommand ret).first :: (answeredCommand ret).more,
      r.reply.ret < 2 ^ 32 := by
    intro ret word r mem
    rw [List.mem_singleton.1 mem]
    exact word
  have test : (toldCommand 0xFFFF0007).any (fun res =>
      decide (res.ret = 0xFFFF0007 ∧ res.returnOrigin = some 4)) = true := by
    decide +kernel
  have testIntr : (toldCommand teecClientIntr).any (fun res =>
      decide (res.ret = teecErrorGeneric)) = true := by
    decide +kernel
  obtain ⟨res, done, said⟩ := (Option.any_eq_true ..).1 test
  obtain ⟨intr, done', said'⟩ := (Option.any_eq_true ..).1 testIntr
  obtain ⟨ret, origin⟩ := of_decide_eq_true said
  exact ⟨res, intr, command_reported (small _ (by decide)) done,
    command_reported (small _ (by decide)) done', ret, origin, of_decide_eq_true said'⟩

end TeekSession
