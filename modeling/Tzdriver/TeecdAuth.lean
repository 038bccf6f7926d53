import Mathlib.Data.List.TakeWhile

/-!
# The identity of the daemon

`check_teecd_path_access` compares the SHA-256 of a string with a stored one ("hash for:
teecd/vendor/bin/teecd0"). `pack_path_cert` writes the string: the name a process gave itself, the
path of its executable and its uid in decimal, one after the other. A name without `/` ends at the
first `/` and a uid starts after the last byte that is no digit, so such strings can be taken apart
again; a name with `/` or a path that ends in a digit cannot be told from the next field.

The string is a list of bytes. The hash function is a parameter, and the allocations, `d_path`, the
credentials and the SELinux check are outcomes.
-/

namespace TeecdAuth

def taskCommLen : Nat := 16
def maxPathSize : Nat := 512
def bufMaxSize : Nat := 1024
def eFAULT : Int := 14
def eACCES : Int := 13

def slash : UInt8 := 47

def isDigit (b : UInt8) : Bool := decide (48 ≤ b ∧ b ≤ 57)

/-- The text of a number under `%u`. -/
def decimal (n : UInt32) : List UInt8 := (Nat.toDigits 10 n.toNat).map fun c => c.toNat.toUInt8

/-- A process as the driver sees it: `current->comm`, the path of its executable and its uid. The
name fits `TASK_COMM_LEN`, the path is absolute and fits the buffer given to `d_path`. -/
structure Caller where
  comm : List UInt8
  path : List UInt8
  uid : UInt32
  comm_short : comm.length < taskCommLen
  comm_text : 0 ∉ comm
  path_absolute : path.head? = some slash
  path_short : path.length < maxPathSize
  path_text : 0 ∉ path

/-- Outcomes of what `calc_path_hash` calls. -/
structure Env where
  certAlloc : Bool
  pathAlloc : Bool
  dpath : Bool
  cred : Bool
  /-- What `proc_calc_path_hash` returns. -/
  digest : Int

/-- `snprintf_s` with `count` below the size of the buffer: a longer text is cut and reported. -/
def snprintfS (count : Nat) (text : List UInt8) : Int × List UInt8 :=
  if text.length > count then (-1, text.take count) else (text.length, text)

/-- `pack_path_cert`. -/
def packPathCert (isHidlSrvc : Bool) (env : Env) (caller : Caller) : Int × List UInt8 :=
  if env.pathAlloc = false then (-eFAULT, [])
  else if env.dpath = false then (-eACCES, [])
  else if env.cred = false then (-eACCES, [])
  else if isHidlSrvc then snprintfS (bufMaxSize - 1) (caller.path ++ decimal caller.uid)
  else snprintfS (bufMaxSize - 1) (caller.comm ++ caller.path ++ decimal caller.uid)

abbrev Digest : Type := Vector UInt8 32

/-- `calc_path_hash`. -/
def calcPathHash (sha256 : List UInt8 → Digest) (isHidlSrvc : Bool) (env : Env) (caller : Caller) :
    Int × Option Digest :=
  if env.certAlloc = false then (-eFAULT, none)
  else
    match packPathCert isHidlSrvc env caller with
    | (packetSize, pathCert) =>
      if packetSize ≤ 0 then (-eFAULT, none)
      else if env.digest ≠ 0 then (-env.digest, none)
      else (0, some (sha256 pathCert))

/-- `check_teecd_path_access`; `selinux` is what `check_proc_selinux_access` returns. -/
def checkTeecdPathAccess (sha256 : List UInt8 → Digest) (authHash : Digest) (env : Env)
    (selinux : Int) (caller : Caller) : Int :=
  match calcPathHash sha256 false env caller with
  | (ret, digest) =>
    if ret ≠ 0 then -eFAULT
    else if digest ≠ some authHash then -eACCES
    else if selinux ≠ 0 then -eACCES
    else 0

section Fields

variable {α : Type*} {p : α → Bool} {a b c d : List α}

theorem takeWhile_append_stop (all : ∀ x ∈ a, p x = true) (stop : ∀ x ∈ b.head?, p x = false) :
    (a ++ b).takeWhile p = a := by
  rw [List.takeWhile_append_of_pos all]
  cases b with
  | nil => simp
  | cons x b => simp [stop x rfl]

/-- Two fields whose boundary is the first element without the property. -/
theorem split_at_first (same : a ++ b = c ++ d) (allA : ∀ x ∈ a, p x = true)
    (allC : ∀ x ∈ c, p x = true) (stopB : ∀ x ∈ b.head?, p x = false)
    (stopD : ∀ x ∈ d.head?, p x = false) : a = c ∧ b = d := by
  have first : a = c := by
    rw [← takeWhile_append_stop allA stopB, same, takeWhile_append_stop allC stopD]
  subst first
  exact ⟨rfl, List.append_cancel_left same⟩

/-- Two fields whose boundary is the last element without the property. -/
theorem split_at_last (same : a ++ b = c ++ d) (allB : ∀ x ∈ b, p x = true)
    (allD : ∀ x ∈ d, p x = true) (stopA : ∀ x ∈ a.getLast?, p x = false)
    (stopC : ∀ x ∈ c.getLast?, p x = false) : a = c ∧ b = d := by
  have mirrored : b.reverse ++ a.reverse = d.reverse ++ c.reverse := by
    rw [← List.reverse_append, ← List.reverse_append, same]
  obtain ⟨hb, ha⟩ := split_at_first (p := p) mirrored (by simpa using allB) (by simpa using allD)
    (by simpa using stopA) (by simpa using stopC)
  exact ⟨List.reverse_inj.mp ha, List.reverse_inj.mp hb⟩

end Fields

theorem digit_byte {c : Char} (digit : c.isDigit = true) :
    isDigit c.toNat.toUInt8 = true ∧ Char.ofNat c.toNat.toUInt8.toNat = c := by
  obtain ⟨low, high⟩ := Char.isDigit_iff_toNat.mp digit
  have byte : c.toNat.toUInt8.toNat = c.toNat := by
    refine (UInt8.toNat_ofNat' ..).trans (Nat.mod_eq_of_lt ?_)
    exact Nat.lt_of_le_of_lt high (by decide)
  constructor
  · rw [isDigit, decide_eq_true_iff, UInt8.le_iff_toNat_le, UInt8.le_iff_toNat_le, byte]
    exact ⟨low, high⟩
  · rw [byte, Char.ofNat_toNat]

theorem decimal_digits {n : UInt32} {b : UInt8} (mem : b ∈ decimal n) : isDigit b = true := by
  obtain ⟨c, hc, rfl⟩ := List.mem_map.mp mem
  exact (digit_byte (Nat.isDigit_of_mem_toDigits (by decide) (by decide) hc)).1

theorem decimal_injective : Function.Injective decimal := by
  intro m n same
  have read : ∀ k : UInt32,
      (decimal k).map (fun b => Char.ofNat b.toNat) = Nat.toDigits 10 k.toNat := by
    intro k
    rw [decimal, List.map_map]
    refine (List.map_congr_left fun c hc => ?_).trans (List.map_id _)
    exact (digit_byte (Nat.isDigit_of_mem_toDigits (by decide) (by decide) hc)).2
  have digits : Nat.toDigits 10 m.toNat = Nat.toDigits 10 n.toNat := by
    rw [← read, ← read, same]
  have value := congrArg (fun l => Nat.ofDigitChars 10 l 0) digits
  simp only [Nat.ofDigitChars_ten_toDigits] at value
  exact UInt32.toNat_inj.mp value

/-- The string that is hashed for a caller. -/
def Caller.text (caller : Caller) : List UInt8 := caller.comm ++ caller.path ++ decimal caller.uid

/-- The name has no `/` and the path does not end in a digit. -/
def Caller.Plain (caller : Caller) : Prop :=
  slash ∉ caller.comm ∧ ∀ b ∈ caller.path.getLast?, isDigit b = false

theorem packPathCert_text {env : Env} {caller : Caller} {size : Int} {cert : List UInt8}
    (packed : packPathCert false env caller = (size, cert)) (done : 0 < size) :
    cert = caller.text := by
  unfold packPathCert at packed
  grind [snprintfS, Caller.text, eFAULT, eACCES]

theorem calcPathHash_text {sha256 : List UInt8 → Digest} {env : Env} {caller : Caller}
    {digest : Digest} (hashed : calcPathHash sha256 false env caller = (0, some digest)) :
    digest = sha256 caller.text := by
  unfold calcPathHash at hashed
  cases packed : packPathCert false env caller with
  | mk size cert =>
    have text : 0 < size → cert = caller.text := packPathCert_text packed
    grind

theorem checkTeecdPathAccess_text {sha256 : List UInt8 → Digest} {authHash : Digest} {env : Env}
    {selinux : Int} {caller : Caller}
    (granted : checkTeecdPathAccess sha256 authHash env selinux caller = 0) :
    authHash = sha256 caller.text := by
  unfold checkTeecdPathAccess at granted
  cases hashed : calcPathHash sha256 false env caller with
  | mk ret digest =>
    have accepted : ret = 0 ∧ digest = some authHash := by grind [eFAULT, eACCES]
    obtain ⟨rfl, rfl⟩ := accepted
    exact calcPathHash_text hashed

/-- Plain callers with the same string are the same. -/
theorem text_injective {c d : Caller} (plainC : c.Plain) (plainD : d.Plain)
    (same : c.text = d.text) : c.comm = d.comm ∧ c.path = d.path ∧ c.uid = d.uid := by
  have noSlash : ∀ {e : Caller}, e.Plain → ∀ x ∈ e.comm, (x != slash) = true := by
    intro e plain x hx
    rw [bne_iff_ne]
    rintro rfl
    exact plain.1 hx
  have startsPath : ∀ (e : Caller), ∀ x ∈ (e.path ++ decimal e.uid).head?, (x != slash) = false := by
    intro e x hx
    rw [List.head?_append, e.path_absolute] at hx
    simp [Option.mem_some_iff.mp hx]
  rw [Caller.text, Caller.text, List.append_assoc, List.append_assoc] at same
  obtain ⟨comm, rest⟩ := split_at_first same (noSlash plainC) (noSlash plainD) (startsPath c)
    (startsPath d)
  obtain ⟨path, uid⟩ := split_at_last rest (fun _ => decimal_digits) (fun _ => decimal_digits)
    plainC.2 plainD.2
  exact ⟨comm, path, decimal_injective uid⟩

/-- Two plain callers for which `pack_path_cert` writes the same string are the same, and so the
check lets in no plain caller but the one whose hash is stored. -/
theorem plain_identity_unique {c d : Caller} (plainC : c.Plain) (plainD : d.Plain) :
    (∀ (env env' : Env) (size size' : Int) (cert : List UInt8),
      packPathCert false env c = (size, cert) → 0 < size →
      packPathCert false env' d = (size', cert) → 0 < size' →
      c.comm = d.comm ∧ c.path = d.path ∧ c.uid = d.uid) ∧
    ∀ (sha256 : List UInt8 → Digest) (authHash : Digest) (env env' : Env) (selinux : Int),
      (sha256 c.text = sha256 d.text → c.text = d.text) →
      calcPathHash sha256 false env' d = (0, some authHash) →
      checkTeecdPathAccess sha256 authHash env selinux c = 0 →
      c.comm = d.comm ∧ c.path = d.path ∧ c.uid = d.uid := by
  constructor
  · intro env env' size size' cert packedC doneC packedD doneD
    have same : c.text = d.text :=
      (packPathCert_text packedC doneC).symm.trans (packPathCert_text packedD doneD)
    exact text_injective plainC plainD same
  · intro sha256 authHash env env' selinux noCollision stored granted
    have same : sha256 c.text = sha256 d.text :=
      (checkTeecdPathAccess_text granted).symm.trans (calcPathHash_text stored)
    exact text_injective plainC plainD (noCollision same)

/-- The name `teecd`. -/
def teecdComm : List UInt8 := [116, 101, 101, 99, 100]

/-- The path `/bin/teecd`. -/
def binTeecd : List UInt8 := [47, 98, 105, 110, 47, 116, 101, 101, 99, 100]

/-- The directory `/vendor`. -/
def vendorDir : List UInt8 := [47, 118, 101, 110, 100, 111, 114]

/-- The daemon whose string is `teecd/vendor/bin/teecd0`. -/
def teecd : Caller where
  comm := teecdComm
  path := vendorDir ++ binTeecd
  uid := 0
  comm_short := by decide
  comm_text := by decide
  path_absolute := by decide
  path_short := by decide
  path_text := by decide

/-- `g_teecd_auth_hash` of the default build. -/
def teecdAuthHash : Digest :=
  #v[0xc5, 0x6e, 0x2b, 0x89, 0xce, 0x9e, 0xeb, 0x63, 0xe7, 0x42, 0xfb, 0x2b, 0x9d, 0x48, 0xff, 0x52,
    0xb2, 0x2f, 0xa7, 0xd5, 0x87, 0xc6, 0x1f, 0x95, 0x84, 0x5c, 0x0e, 0x96, 0x9e, 0x18, 0x81, 0x51]

theorem teecd_plain : teecd.Plain := by
  refine ⟨by decide, ?_⟩
  intro b hb
  have last : teecd.path.getLast? = some 100 := by decide
  rw [last] at hb
  obtain rfl := Option.mem_some_iff.mp hb
  decide

/-- The shell, with the string `sh/bin/sh0`. -/
def shell : Caller where
  comm := [115, 104]
  path := [47, 98, 105, 110, 47, 115, 104]
  uid := 0
  comm_short := by decide
  comm_text := by decide
  path_absolute := by decide
  path_short := by decide
  path_text := by decide

theorem shell_plain : shell.Plain := by
  refine ⟨by decide, ?_⟩
  intro b hb
  have last : shell.path.getLast? = some 104 := by decide
  rw [last] at hb
  obtain rfl := Option.mem_some_iff.mp hb
  decide

/-- SHA-256 on the strings of the daemon and of the shell. -/
def sha256Sample (text : List UInt8) : Digest :=
  if text = teecd.text then teecdAuthHash
  else
    #v[0x21, 0x3d, 0x39, 0xa7, 0x94, 0x47, 0x1d, 0x2e, 0x52, 0x73, 0xde, 0xa3, 0x4f, 0x36, 0x8e, 0xab,
      0x11, 0x5f, 0xda, 0xe5, 0xa9, 0xba, 0xf9, 0x61, 0x29, 0x3f, 0x01, 0x54, 0x42, 0x25, 0xe4, 0xdd]

def allOk : Env := ⟨true, true, true, true, 0⟩

/-- The daemon passes the check and the shell does not. -/
theorem plain_identity_unique_shell :
    checkTeecdPathAccess sha256Sample teecdAuthHash allOk 0 teecd = 0 ∧
    checkTeecdPathAccess sha256Sample teecdAuthHash allOk 0 shell ≠ 0 := by
  have stored : calcPathHash sha256Sample false allOk teecd = (0, some teecdAuthHash) := by
    decide +kernel
  have noCollision : sha256Sample shell.text = sha256Sample teecd.text →
      shell.text = teecd.text := by decide +kernel
  refine ⟨by decide +kernel, fun granted => ?_⟩
  have same := (plain_identity_unique shell_plain teecd_plain).2 _ _ _ _ _ noCollision stored granted
  exact absurd same.2.1 (by decide)

/-- A process that names itself `teecd/vendor` and runs `/bin/teecd`. -/
def renamed : Caller where
  comm := teecdComm ++ vendorDir
  path := binTeecd
  uid := 0
  comm_short := by decide
  comm_text := by decide
  path_absolute := by decide
  path_short := by decide
  path_text := by decide

/-- The program `/bin/teecd` of the user 10. -/
def userTen : Caller where
  comm := teecdComm
  path := binTeecd
  uid := 10
  comm_short := by decide
  comm_text := by decide
  path_absolute := by decide
  path_short := by decide
  path_text := by decide

/-- The program `/bin/teecd1` of the user 0. -/
def numbered : Caller where
  comm := teecdComm
  path := binTeecd ++ [49]
  uid := 0
  comm_short := by decide
  comm_text := by decide
  path_absolute := by decide
  path_short := by decide
  path_text := by decide

/-- A `/` moves from the path into the name, or a digit from the uid into the path: the strings are
the same, and the check lets the renamed process in. -/
theorem pack_not_injective :
    packPathCert false allOk renamed = packPathCert false allOk teecd ∧
    renamed.comm ≠ teecd.comm ∧ renamed.path ≠ teecd.path ∧
    checkTeecdPathAccess sha256Sample teecdAuthHash allOk 0 renamed = 0 ∧
    packPathCert false allOk numbered = packPathCert false allOk userTen ∧
    numbered.path ≠ userTen.path ∧ numbered.uid ≠ userTen.uid := by
  decide +kernel

end TeecdAuth
