import Tzdriver.LoginInfo
import Mathlib.Data.List.GetD

/-!
# The message of a login

The buffer of a login holds `package_name_len || package_name || key_len || key`.
`tc_ns_client_login_func` reads it in one pass and writes each field into the device before it
looks at the next one. A message whose second length is wrong is refused when the name and its
length already stand on the device, and the name is copied as a string, so that the bytes behind a
`NUL` in it are not stored.
-/

namespace LoginInfo

section Message

variable (cert : Vector UInt8 certBufferSize)

def nameLen : UInt32 := toU32 cert.toList

def nameBytes : List UInt8 := (cert.toList.drop 4).take (nameLen cert).toNat

def keyLen : UInt32 := toU32 ((cert.toList.drop 4).drop (nameLen cert).toNat)

def keyBytes : List UInt8 :=
  (((cert.toList.drop 4).drop (nameLen cert).toNat).drop 4).take (keyLen cert).toNat

/-- The name up to its first `NUL`, which is what `strncpy_s` copies. -/
def nameString : List UInt8 := (nameBytes cert).takeWhile fun c => c ≠ 0

def NameLenValid : Prop := nameLen cert ≠ 0 ∧ (nameLen cert).toNat < maxPackageNameLen

def KeyLenValid : Prop := (keyLen cert).toNat ≤ maxPubkeyLen

instance : Decidable (NameLenValid cert) := inferInstanceAs (Decidable (_ ∧ _))

instance : Decidable (KeyLenValid cert) := inferInstanceAs (Decidable (_ ≤ _))

/-- The device holds the whole message, which lies inside the buffer. -/
structure Holds (dev : DevFile) : Prop where
  setup : dev.loginSetup = true
  nameLen : dev.pkgNameLen = nameLen cert
  name : dev.pkgName.toList.take (LoginInfo.nameLen cert).toNat = nameBytes cert
  keyLen : dev.pubKeyLen = keyLen cert
  key : dev.pubKey.toList.take (LoginInfo.keyLen cert).toNat = keyBytes cert
  inside : 4 + (LoginInfo.nameLen cert).toNat + 4 + (LoginInfo.keyLen cert).toNat ≤ certBufferSize

/-- The buffer a client passes, if it can be read. -/
def userBuffer (copyOk : Bool) : UserBuffer := if copyOk then .bytes cert else .unreadable

variable (teecd : Int) (kmallocOk copyOk : Bool) (dev : DevFile)

/-- The message of this client is read. -/
def Admitted : Prop := teecd = 0 ∧ kmallocOk = true ∧ copyOk = true

instance : Decidable (Admitted teecd kmallocOk copyOk) := inferInstanceAs (Decidable (_ ∧ _ ∧ _))

/-- A login accepts the messages of the grammar and stores them; it refuses all others and leaves
the device alone. -/
def LoginExact : Prop :=
  ((tcNsClientLoginFunc teecd kmallocOk (userBuffer cert copyOk) dev).1 = 0 ↔
    Admitted teecd kmallocOk copyOk ∧ NameLenValid cert ∧ KeyLenValid cert) ∧
  ((tcNsClientLoginFunc teecd kmallocOk (userBuffer cert copyOk) dev).1 = 0 →
    Holds cert (tcNsClientLoginFunc teecd kmallocOk (userBuffer cert copyOk) dev).2) ∧
  ((tcNsClientLoginFunc teecd kmallocOk (userBuffer cert copyOk) dev).1 ≠ 0 →
    (tcNsClientLoginFunc teecd kmallocOk (userBuffer cert copyOk) dev).2 = dev)

/-- What has to stand on the device before: lengths that are about to be reset are zero, a name
that is about to be left behind is there already, and so are the bytes behind its first `NUL`. -/
structure Harmless : Prop where
  nameReset : ¬ NameLenValid cert → dev.pkgNameLen = 0
  nameLeft : NameLenValid cert → ¬ KeyLenValid cert →
    dev.pkgNameLen = nameLen cert ∧ nameString cert ++ [0] <+: dev.pkgName.toList ∧
      dev.pubKeyLen = 0
  nameTail : NameLenValid cert → KeyLenValid cert →
    (nameBytes cert).drop ((nameString cert).length + 1) =
      (dev.pkgName.toList.take (nameLen cert).toNat).drop ((nameString cert).length + 1)

end Message

section Parse

variable {n : Nat} (dest : Vector UInt8 n) {src : List UInt8}

theorem overlay_toList (fits : src.length ≤ n) :
    (overlay dest src).toList = src ++ dest.toList.drop src.length := by
  apply List.ext_getElem
  · simp
    omega
  · intro i hi _
    simp only [overlay, Vector.getElem_toList, Vector.getElem_ofFn, List.getElem_append]
    split
    · next inside => rw [List.getD_eq_getElem _ _ inside]
    · next outside =>
      rw [List.getD_eq_default _ _ (by omega)]
      simp only [Fin.getElem_fin, List.getElem_drop, Vector.getElem_toList]
      congr 1
      omega

/-- Writing a string changes nothing exactly if it stands there already. -/
theorem overlay_eq_iff (fits : src.length ≤ n) : overlay dest src = dest ↔ src <+: dest.toList := by
  rw [← Vector.toList_inj, overlay_toList dest fits]
  constructor
  · intro same
    exact ⟨_, same⟩
  · rintro ⟨rest, whole⟩
    rw [← whole, List.drop_left]

variable {cert : Vector UInt8 certBufferSize}

theorem length_nameBytes (valid : NameLenValid cert) :
    (nameBytes cert).length = (nameLen cert).toNat := by
  have := valid.2
  simp only [nameBytes, List.length_take, List.length_drop, Vector.length_toList]
  simp only [certBufferSize, maxPackageNameLen, maxPubkeyLen] at *
  omega

theorem length_keyBytes (name : NameLenValid cert) (key : KeyLenValid cert) :
    (keyBytes cert).length = (keyLen cert).toNat := by
  have := name.2
  simp only [keyBytes, List.length_take, List.length_drop, Vector.length_toList]
  simp only [KeyLenValid, certBufferSize, maxPackageNameLen, maxPubkeyLen] at *
  omega

theorem length_nameString (valid : NameLenValid cert) :
    (nameString cert).length < maxPackageNameLen := by
  have short : (nameString cert).length ≤ (nameBytes cert).length :=
    (List.takeWhile_prefix _).length_le
  rw [length_nameBytes valid] at short
  exact Nat.lt_of_le_of_lt short valid.2

theorem length_terminated (valid : NameLenValid cert) :
    (nameString cert ++ [0]).length ≤ maxPackageNameLen := by
  rw [List.length_append, List.length_singleton]
  exact length_nameString valid

/-- The copy of the name does not fail. -/
theorem strncpyS_name (valid : NameLenValid cert) (dest : Vector UInt8 maxPackageNameLen) :
    strncpyS dest (cert.toList.drop 4) (nameLen cert).toNat =
      (0, overlay dest (nameString cert ++ [0])) := by
  have fits : ¬ (nameString cert).length ≥ maxPackageNameLen :=
    Nat.not_le_of_lt (length_nameString valid)
  exact if_neg fits

/-- The device holds all bytes of the name exactly if those behind the first `NUL` were there. -/
theorem name_copied_iff (valid : NameLenValid cert) (dest : Vector UInt8 maxPackageNameLen) :
    (overlay dest (nameString cert ++ [0])).toList.take (nameLen cert).toNat = nameBytes cert ↔
      (nameBytes cert).drop ((nameString cert).length + 1) =
        (dest.toList.take (nameLen cert).toNat).drop ((nameString cert).length + 1) := by
  have fits := length_terminated valid
  have whole := length_nameBytes valid
  have parts : nameString cert ++ (nameBytes cert).dropWhile (fun c => c ≠ 0) = nameBytes cert :=
    List.takeWhile_append_dropWhile
  rw [overlay_toList dest fits, List.length_append, List.length_singleton]
  generalize nameString cert = str at *
  rw [← parts] at whole ⊢
  cases rest : (nameBytes cert).dropWhile (fun c => c ≠ 0) with
  | nil =>
    -- there is no `NUL`
    rw [rest, List.append_nil] at whole
    rw [List.append_nil, List.append_assoc, ← whole, List.take_left,
      List.drop_eq_nil_of_le (Nat.le_succ _), List.drop_eq_nil_of_le]
    · exact iff_of_true rfl rfl
    · rw [List.length_take]
      omega
  | cons c tail =>
    have last : c = 0 := by
      have := List.head?_dropWhile_not (fun c : UInt8 => decide (c ≠ 0)) (nameBytes cert)
      rw [rest] at this
      simpa using this
    subst last
    rw [rest, List.length_append, List.length_cons] at whole
    have split : (nameLen cert).toNat = (str ++ [0]).length + tail.length := by
      rw [List.length_append, List.length_singleton]
      omega
    have back : str ++ 0 :: tail = (str ++ [0]) ++ tail := by simp
    have len : str.length + 1 = (str ++ [0]).length := by simp
    rw [back, split, List.take_length_add_append, List.append_cancel_left_eq, len,
      List.drop_left, List.drop_take, Nat.add_sub_cancel_left]
    exact eq_comm

/-- What is stored before the second length is read. -/
def named (cert : Vector UInt8 certBufferSize) (dev : DevFile) : DevFile :=
  { dev with pkgNameLen := nameLen cert, pkgName := overlay dev.pkgName (nameString cert ++ [0]) }

theorem getPackNameLen_valid (valid : NameLenValid cert) (dev : DevFile) :
    getPackNameLen dev cert.toList = (0, { dev with pkgNameLen := nameLen cert }) := by
  have good : ¬ (nameLen cert = 0 ∨ (nameLen cert).toNat ≥ maxPackageNameLen) := by
    rintro (zero | long)
    · exact valid.1 zero
    · exact Nat.not_le_of_lt valid.2 long
  exact if_neg good

theorem getPackNameLen_invalid (invalid : ¬ NameLenValid cert) (dev : DevFile) :
    getPackNameLen dev cert.toList = (-eINVAL, { dev with pkgNameLen := 0 }) := by
  have bad : nameLen cert = 0 ∨ (nameLen cert).toNat ≥ maxPackageNameLen := by
    by_cases zero : nameLen cert = 0
    · exact Or.inl zero
    · exact Or.inr (Nat.le_of_not_lt fun short => invalid ⟨zero, short⟩)
  exact if_pos bad

/-- The copy of the key does not fail either. -/
theorem getPublicKey_valid {dev : DevFile} {certBuffer : List UInt8}
    (short : dev.pubKeyLen.toNat ≤ maxPubkeyLen) :
    getPublicKey dev certBuffer =
      (0, { dev with pubKey := overlay dev.pubKey (certBuffer.take dev.pubKeyLen.toNat) }) := by
  have fits : (certBuffer.take dev.pubKeyLen.toNat).length ≤ maxPubkeyLen :=
    Nat.le_trans (List.length_take_le dev.pubKeyLen.toNat certBuffer) short
  have copied : memcpyS dev.pubKey (certBuffer.take dev.pubKeyLen.toNat) =
      (0, overlay dev.pubKey (certBuffer.take dev.pubKeyLen.toNat)) :=
    BoundsCheck.memcpyS_fits (by decide) (by decide) fits
  by_cases none : dev.pubKeyLen = 0
  · have nothing : overlay dev.pubKey [] = dev.pubKey := by
      rw [overlay_eq_iff _ (Nat.zero_le _)]
      exact List.nil_prefix
    have taken : certBuffer.take dev.pubKeyLen.toNat = [] := by rw [none]; rfl
    rw [getPublicKey, if_pos none, taken, nothing]
  · simp only [getPublicKey, if_neg none, copied, ne_eq, not_true_eq_false, if_false]

theorem size_valid : isCertBufferSizeValid certBufferSize = true := by decide

variable {dev : DevFile} (open_ : dev.loginSetup = false)

include open_

/-- A login that is not admitted. -/
theorem login_refused {teecd : Int} {kmallocOk copyOk : Bool}
    (refused : ¬ Admitted teecd kmallocOk copyOk) :
    (tcNsClientLoginFunc teecd kmallocOk (userBuffer cert copyOk) dev).1 ≠ 0 ∧
      (tcNsClientLoginFunc teecd kmallocOk (userBuffer cert copyOk) dev).2 = dev := by
  by_cases access : teecd = 0
  · subst access
    cases kmallocOk with
    | false => cases copyOk <;> simp [tcNsClientLoginFunc, userBuffer, open_, eNOMEM]
    | true =>
      cases copyOk with
      | false =>
        simp [tcNsClientLoginFunc, userBuffer, open_, size_valid, eINVAL]
      | true => exact absurd ⟨rfl, rfl, rfl⟩ refused
  · cases copyOk <;> simp [tcNsClientLoginFunc, userBuffer, open_, access, eACCES]

/-- A message with a wrong first length. -/
theorem login_badName (invalid : ¬ NameLenValid cert) :
    tcNsClientLoginFunc 0 true (.bytes cert) dev = (-eINVAL, { dev with pkgNameLen := 0 }) := by
  simp [tcNsClientLoginFunc, open_, size_valid, getPackNameLen_invalid invalid, eINVAL]

/-- A message with a wrong second length. -/
theorem login_badKey (valid : NameLenValid cert) (invalid : ¬ KeyLenValid cert) :
    tcNsClientLoginFunc 0 true (.bytes cert) dev =
      (-eINVAL, { named cert dev with pubKeyLen := 0 }) := by
  have long : (toU32 ((cert.toList.drop 4).drop (nameLen cert).toNat)).toNat > maxPubkeyLen :=
    Nat.lt_of_not_le invalid
  have fresh : ¬ dev.loginSetup = true := by simp [open_]
  simp only [tcNsClientLoginFunc, if_neg fresh, size_valid, getPackNameLen_valid valid,
    strncpyS_name valid, getPublicKeyLen, if_pos long]
  simp [eINVAL, named]

/-- A message of the grammar. -/
theorem login_accepted (name : NameLenValid cert) (key : KeyLenValid cert) :
    tcNsClientLoginFunc 0 true (.bytes cert) dev =
      (0, { named cert dev with
              pubKeyLen := keyLen cert
              pubKey := overlay dev.pubKey (keyBytes cert)
              loginSetup := true }) := by
  have short : ¬ (toU32 ((cert.toList.drop 4).drop (nameLen cert).toNat)).toNat > maxPubkeyLen :=
    Nat.not_lt_of_le key
  have copied := @getPublicKey_valid { named cert dev with pubKeyLen := keyLen cert }
    (((cert.toList.drop 4).drop (nameLen cert).toNat).drop 4) key
  have fresh : ¬ dev.loginSetup = true := by simp [open_]
  simp only [named, keyLen] at copied
  simp only [tcNsClientLoginFunc, if_neg fresh, size_valid, getPackNameLen_valid name,
    strncpyS_name name, getPublicKeyLen, if_neg short, ne_eq, not_true_eq_false, if_false, copied]
  rfl

end Parse

section Exact

variable {cert : Vector UInt8 certBufferSize} {dev : DevFile}

/-- A message whose second length is wrong changes nothing exactly if what it leaves behind stood
there before. -/
theorem badKey_kept_iff :
    { named cert dev with pubKeyLen := 0 } = dev ↔
      dev.pkgNameLen = nameLen cert ∧ overlay dev.pkgName (nameString cert ++ [0]) = dev.pkgName ∧
        dev.pubKeyLen = 0 := by
  obtain ⟨api, setup, pkgNameLen, pkgName, pubKeyLen, pubKey⟩ := dev
  simp only [named, DevFile.mk.injEq, true_and, and_true]
  constructor
  · rintro ⟨len, name, key⟩
    exact ⟨len.symm, name, key.symm⟩
  · rintro ⟨len, name, key⟩
    exact ⟨len.symm, name, key.symm⟩

theorem holds_accepted_iff (name : NameLenValid cert) (key : KeyLenValid cert) :
    Holds cert
        { named cert dev with
            pubKeyLen := keyLen cert
            pubKey := overlay dev.pubKey (keyBytes cert)
            loginSetup := true } ↔
      (nameBytes cert).drop ((nameString cert).length + 1) =
        (dev.pkgName.toList.take (nameLen cert).toNat).drop ((nameString cert).length + 1) := by
  rw [← name_copied_iff name]
  constructor
  · exact fun holds => holds.name
  · intro copied
    have length := length_keyBytes name key
    have fits : (keyBytes cert).length ≤ maxPubkeyLen := by
      rw [length]
      exact key
    refine ⟨rfl, rfl, copied, rfl, ?_, ?_⟩
    · simp only [overlay_toList _ fits]
      rw [← length, List.take_left]
    · have := name.2
      simp only [KeyLenValid, certBufferSize, maxPackageNameLen, maxPubkeyLen] at *
      omega

/-- A login that is not set up yet accepts exactly the messages of the grammar, stores them as they
are and leaves the device alone otherwise, if and only if it is not admitted or harmless. -/
theorem login_exact_iff (open_ : dev.loginSetup = false) (teecd : Int) (kmallocOk copyOk : Bool) :
    LoginExact cert teecd kmallocOk copyOk dev ↔
      (Admitted teecd kmallocOk copyOk → Harmless cert dev) := by
  by_cases admitted : Admitted teecd kmallocOk copyOk
  · obtain ⟨rfl, rfl, rfl⟩ := admitted
    have given : Admitted 0 true true := ⟨rfl, rfl, rfl⟩
    simp only [LoginExact, userBuffer, if_true, given, true_and, true_imp_iff]
    by_cases name : NameLenValid cert
    · by_cases key : KeyLenValid cert
      · rw [login_accepted open_ name key]
        simp only [holds_accepted_iff name key, name, key, ne_eq, not_true_eq_false, true_and,
          true_imp_iff, false_imp_iff, and_true]
        constructor
        · exact fun tail => ⟨fun h => absurd name h, fun _ h => absurd key h, fun _ _ => tail⟩
        · exact fun harmless => harmless.nameTail name key
      · rw [login_badKey open_ name key]
        simp only [key, badKey_kept_iff, overlay_eq_iff _ (length_terminated name), and_false,
          iff_false, ne_eq]
        constructor
        · rintro ⟨-, -, kept⟩
          exact ⟨fun h => absurd name h, fun _ _ => kept (by decide), fun _ h => absurd h key⟩
        · intro harmless
          exact ⟨by decide, fun ok => absurd ok (by decide), fun _ => harmless.nameLeft name key⟩
    · rw [login_badName open_ name]
      simp only [name, false_and, iff_false, ne_eq]
      constructor
      · rintro ⟨-, -, kept⟩
        have zero := congrArg DevFile.pkgNameLen (kept (by decide))
        exact ⟨fun _ => zero.symm, fun h => absurd h name, fun h => absurd h name⟩
      · intro harmless
        refine ⟨by decide, fun ok => absurd ok (by decide), fun _ => ?_⟩
        rw [← harmless.nameReset name]
  · obtain ⟨error, kept⟩ := @login_refused cert dev open_ teecd kmallocOk copyOk admitted
    refine iff_of_true ⟨?_, ?_, ?_⟩ fun h => absurd h admitted
    · exact iff_of_false error fun h => admitted h.1
    · exact fun ok => absurd ok error
    · exact fun _ => kept

theorem login_exact_nameOnly : LoginExact nameOnlyCert 0 true true (tcNsClientOpen false) := by
  have key : KeyLenValid nameOnlyCert := by decide +kernel
  refine (login_exact_iff rfl 0 true true).2 fun _ => ⟨?_, ?_, ?_⟩
  · exact fun _ => rfl
  · exact fun _ bad => absurd key bad
  · exact fun _ _ => by decide +kernel

/-- A login of the package `a` with a key length that is too large. -/
def longKeyCert : Vector UInt8 certBufferSize :=
  Vector.ofFn fun i => if i.val = 0 then 1 else if i.val = 4 then 97 else if i.val = 6 then 5 else 0

/-- The message is refused, but the name stays on a new device, and an open takes it as the
identity of the caller. -/
theorem refused_name_kept :
    (tcNsClientLoginFunc 0 true (.bytes longKeyCert) (tcNsClientOpen false)).1 = -eINVAL ∧
    ¬ LoginExact longKeyCert 0 true true (tcNsClientOpen false) ∧
    (setLoginInformation 1000
      (tcNsClientLoginFunc 0 true (.bytes longKeyCert) (tcNsClientOpen false)).2
      identifyContext).1 = 0 := by
  refine ⟨by decide +kernel, ?_, by decide +kernel⟩
  rintro ⟨-, -, kept⟩
  have stays : (tcNsClientLoginFunc 0 true (.bytes longKeyCert) (tcNsClientOpen false)).2 ≠
      tcNsClientOpen false := by
    decide +kernel
  exact stays (kept (by decide +kernel))

end Exact

end LoginInfo
