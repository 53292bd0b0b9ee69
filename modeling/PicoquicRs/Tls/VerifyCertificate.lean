import PicoquicRs.Channel

/-!
# Verifying the certificate of a peer

The two callbacks of `ffi/verify_certificate.rs`. The first one is given the certificates
of the peer, asks the handler of the application about them, and installs the second one
together with the public key of the leaf; the second one is given what the peer signed,
and the signature.

A peer is sound if the handler vouched for its certificates and OpenSSL accepts its
signature under the key of the leaf (`PicoquicRs.Tls.Sound`). A peer that is accepted is
sound, unless its signature is empty (`PicoquicRs.Tls.accepted_is_sound_iff`).

OpenSSL and the handler are parameters.
-/

namespace PicoquicRs

namespace Tls

/-! ### What the callbacks work with -/

/-- A `PTLS_*` constant, which is not zero. -/
abbrev PtlsCode := {code : UInt32 // code ≠ 0}

/-- The constants of picotls. -/
structure Ptls where
  alertBadCertificate : PtlsCode
  alertCertificateExpired : PtlsCode
  alertCertificateRevoked : PtlsCode
  alertCertificateUnknown : PtlsCode
  alertDecryptError : PtlsCode
  errorLibrary : PtlsCode
  errorNoMemory : PtlsCode

/-- An error constant as the `c_int` a callback returns. -/
def PtlsCode.toInt32 (code : PtlsCode) : Int32 := code.1.toInt32

/-- `ErrorStack`: the codes of the errors. -/
structure ErrorStack where
  errors : List UInt64
  deriving DecidableEq, Repr

/-- `ConnectionType` -/
inductive ConnectionType where
  | incoming
  | outgoing
  deriving DecidableEq, Repr

/-- `VerifyCertificate`, for a handler with the state `σ`. -/
structure VerifyCertificate (σ X509 : Type) where
  verify : σ → UInt64 → ConnectionType → X509 → List X509 → Except ErrorStack Bool × σ

/-- What the callbacks use of OpenSSL. -/
structure OpenSSL (X509 PKey Verifier : Type) where
  /-- `X509::from_der` -/
  fromDer : Bytes → Except ErrorStack X509
  /-- `Stack::new` -/
  stackNew : Except ErrorStack Unit
  /-- `Stack::push`, at the end of the stack. -/
  stackPush : List X509 → X509 → Except ErrorStack Unit
  /-- `X509::public_key` -/
  publicKey : X509 → Except ErrorStack PKey
  /-- The key is for RSA. -/
  isRsa : PKey → Bool
  /-- `Verifier::new`, with SHA-256. -/
  verifierNew : PKey → Except ErrorStack Verifier
  /-- `Verifier::set_rsa_padding`, with PKCS #1 PSS. -/
  setRsaPadding : Verifier → Except ErrorStack Verifier
  /-- `Verifier::set_rsa_pss_saltlen`, with the length of the digest. -/
  setRsaPssSaltlen : Verifier → Except ErrorStack Verifier
  /-- `Verifier::set_rsa_mgf1_md`, with SHA-256. -/
  setRsaMgf1Md : Verifier → Except ErrorStack Verifier
  /-- `Verifier::update` -/
  update : Verifier → Bytes → Except ErrorStack Verifier
  /-- `Verifier::verify` -/
  verify : Verifier → Bytes → Except ErrorStack Bool
  x509VErrOutOfMem : Int32
  x509VErrCertRevoked : Int32
  x509VErrCertHasExpired : Int32

variable {σ X509 PKey Verifier : Type} (ptls : Ptls) (openssl : OpenSSL X509 PKey Verifier)
  (handler : VerifyCertificate σ X509)

/-! ### The callbacks -/

/-- `ssl_error_to_error_code` -/
def sslErrorToErrorCode (error : ErrorStack) : PtlsCode :=
  match error.errors with
  | error :: _ =>
    let code := error.toUInt32.toInt32
    if code = openssl.x509VErrOutOfMem then ptls.errorNoMemory
    else if code = openssl.x509VErrCertRevoked then ptls.alertCertificateRevoked
    else if code = openssl.x509VErrCertHasExpired then ptls.alertCertificateExpired
    else ptls.alertCertificateUnknown
  | [] => ptls.alertCertificateUnknown

/-- The loop of `extract_certificates`, with the chain so far. -/
def extractChain (chain : List X509) : List Bytes → Except ErrorStack (List X509)
  | [] => .ok chain
  | der :: ders => do
    let cert ← openssl.fromDer der
    openssl.stackPush chain cert
    extractChain (chain ++ [cert]) ders

/-- `extract_certificates`, for a list that is not empty. -/
def extractCertificates (der : Bytes) (ders : List Bytes) :
    Except ErrorStack (X509 × List X509) := do
  let cert ← openssl.fromDer der
  openssl.stackNew
  let chain ← extractChain openssl [] ders
  .ok (cert, chain)

/-- `verify_certificate_callback_impl`: the code it returns, the key it installs
`verify_sign_callback` with, and the handler afterwards. -/
def verifyCertificateCallbackImpl (st : σ) (id : UInt64) (ctype : ConnectionType) :
    List Bytes → UInt32 × Option PKey × σ
  | [] => (ptls.alertCertificateUnknown, none, st)
  | der :: ders =>
    match extractCertificates openssl der ders with
    | .error _ => (ptls.alertBadCertificate, none, st)
    | .ok (cert, chain) =>
      match handler.verify st id ctype cert chain with
      | (.ok true, st) =>
        match openssl.publicKey cert with
        | .ok pkey => (0, some pkey, st)
        | .error e => (sslErrorToErrorCode ptls openssl e, none, st)
      | (.ok false, st) => (ptls.alertCertificateUnknown, none, st)
      | (.error e, st) => (sslErrorToErrorCode ptls openssl e, none, st)

/-- The part of `verify_sign_callback` for RSA keys. -/
def setUpRsa (verifier : Verifier) : Except ErrorStack Verifier := do
  let verifier ← openssl.setRsaPadding verifier
  let verifier ← openssl.setRsaPssSaltlen verifier
  openssl.setRsaMgf1Md verifier

/-- `verify_sign_callback` -/
def verifySignCallback (pkey : PKey) (data sign : Bytes) : Int32 :=
  if data.isEmpty || sign.isEmpty then 0
  else match openssl.verifierNew pkey with
    | .error _ => ptls.errorLibrary.toInt32
    | .ok verifier =>
      match if openssl.isRsa pkey then setUpRsa openssl verifier else .ok verifier with
      | .error _ => ptls.errorLibrary.toInt32
      | .ok verifier =>
        match openssl.update verifier data with
        | .error _ => ptls.errorLibrary.toInt32
        | .ok verifier =>
          match openssl.verify verifier sign with
          | .ok true => 0
          | _ => ptls.alertDecryptError.toInt32

/-! ### What they are for -/

/-- **OpenSSL accepts the signature** over the data under the key. -/
def OpenSSL.Accepts (pkey : PKey) (data sign : Bytes) : Prop :=
  ∃ v₁ v₂ v₃, openssl.verifierNew pkey = .ok v₁ ∧
    (if openssl.isRsa pkey then setUpRsa openssl v₁ else .ok v₁) = .ok v₂ ∧
    openssl.update v₂ data = .ok v₃ ∧ openssl.verify v₃ sign = .ok true

/-- OpenSSL has room for the chain, on top of what it has. -/
def OpenSSL.Pushes (chain : List X509) : List X509 → Prop
  | [] => True
  | cert :: certs => openssl.stackPush chain cert = .ok () ∧ Pushes (chain ++ [cert]) certs

/-- **The handler vouches for the certificates**: all of them parse, the handler said
`Ok(true)` to the first one with the others as its chain, and the first one has this key. -/
structure Vouched (st : σ) (id : UInt64) (ctype : ConnectionType) (ders : List Bytes)
    (cert : X509) (chain : List X509) (pkey : PKey) : Prop where
  parses : ders.mapM openssl.fromDer = .ok (cert :: chain)
  verified : (handler.verify st id ctype cert chain).1 = .ok true
  key : openssl.publicKey cert = .ok pkey

/-- **The peer is accepted** by the two callbacks. -/
def Accepted (st : σ) (id : UInt64) (ctype : ConnectionType) (ders : List Bytes)
    (data sign : Bytes) : Prop :=
  ∃ pkey st', verifyCertificateCallbackImpl ptls openssl handler st id ctype ders =
      (0, some pkey, st') ∧ verifySignCallback ptls openssl pkey data sign = 0

/-- **The peer is sound**: the handler vouches for its certificates, and OpenSSL accepts
its signature under the key of the leaf. -/
def Sound (st : σ) (id : UInt64) (ctype : ConnectionType) (ders : List Bytes)
    (data sign : Bytes) : Prop :=
  ∃ cert chain pkey, Vouched openssl handler st id ctype ders cert chain pkey ∧
    openssl.Accepts pkey data sign

/-! ### The callbacks, one by one -/

section Specs

variable {ptls openssl handler} {st : σ} {id : UInt64} {ctype : ConnectionType} {ders : List Bytes}

/-- A computation that succeeds does so step by step. -/
theorem bind_ok {α β : Type} {x : Except ErrorStack α} {f : α → Except ErrorStack β} {b : β}
    (h : x >>= f = .ok b) : ∃ a, x = .ok a ∧ f a = .ok b := by
  cases x with
  | error e => cases h
  | ok a => exact ⟨a, rfl, h⟩

/-- No constant is taken for a success. -/
theorem PtlsCode.toInt32_ne_zero (code : PtlsCode) : code.toInt32 ≠ 0 := fun h =>
  code.2 (congrArg Int32.toUInt32 h)

/-- **The signature is checked**, unless there is nothing to check. -/
theorem verifySignCallback_eq_zero {pkey : PKey} {data sign : Bytes} :
    verifySignCallback ptls openssl pkey data sign = 0 ↔
      data = [] ∨ sign = [] ∨ openssl.Accepts pkey data sign := by
  rw [verifySignCallback]
  split
  · rename_i hempty
    rw [Bool.or_eq_true, List.isEmpty_iff, List.isEmpty_iff] at hempty
    exact ⟨fun _ => hempty.elim Or.inl (Or.inr ∘ Or.inl), fun _ => rfl⟩
  · rename_i hempty
    rw [Bool.or_eq_true, List.isEmpty_iff, List.isEmpty_iff, not_or] at hempty
    have hlibrary := ptls.errorLibrary.toInt32_ne_zero
    have hdecrypt := ptls.alertDecryptError.toInt32_ne_zero
    simp only [hempty.1, hempty.2, false_or]
    constructor
    · intro h
      split at h
      · exact absurd h hlibrary
      · rename_i v₁ h₁
        split at h
        · exact absurd h hlibrary
        · rename_i v₂ h₂
          split at h
          · exact absurd h hlibrary
          · rename_i v₃ h₃
            split at h
            · exact ⟨v₁, v₂, v₃, h₁, h₂, h₃, ‹_›⟩
            · exact absurd h hdecrypt
    · rintro ⟨v₁, v₂, v₃, h₁, h₂, h₃, h₄⟩
      simp only [h₁, h₂, h₃, h₄]

/-- The certificates parse one by one. -/
theorem mapM_cons_eq_ok {der : Bytes} {certs : List X509} :
    (der :: ders).mapM openssl.fromDer = .ok certs ↔
      ∃ cert chain, openssl.fromDer der = .ok cert ∧ ders.mapM openssl.fromDer = .ok chain ∧
        certs = cert :: chain := by
  rw [List.mapM_cons]
  constructor
  · intro h
    obtain ⟨cert, hcert, h⟩ := bind_ok h
    obtain ⟨chain, hchain, h⟩ := bind_ok h
    exact ⟨cert, chain, hcert, hchain, (Except.ok.inj h).symm⟩
  · rintro ⟨cert, chain, hcert, hchain, rfl⟩
    rw [hcert, hchain]
    rfl

/-- **The chain is the rest of the certificates**, in order. -/
theorem extractChain_eq_ok {chain all : List X509} :
    extractChain openssl chain ders = .ok all ↔
      ∃ certs, ders.mapM openssl.fromDer = .ok certs ∧ all = chain ++ certs ∧
        openssl.Pushes chain certs := by
  induction ders generalizing chain with
  | nil =>
    constructor
    · intro h
      exact ⟨[], rfl, by rw [List.append_nil]; exact (Except.ok.inj h).symm, trivial⟩
    · rintro ⟨certs, hcerts, rfl, -⟩
      obtain rfl : [] = certs := Except.ok.inj hcerts
      rw [List.append_nil]
      rfl
  | cons der ders ih =>
    constructor
    · intro h
      obtain ⟨cert, hcert, h⟩ := bind_ok h
      obtain ⟨⟨⟩, hpush, h⟩ := bind_ok h
      obtain ⟨certs, hcerts, rfl, hpushes⟩ := ih.mp h
      exact ⟨cert :: certs, mapM_cons_eq_ok.mpr ⟨cert, certs, hcert, hcerts, rfl⟩,
        List.append_assoc .., hpush, hpushes⟩
    · rintro ⟨_, hcerts, rfl, hpushes⟩
      obtain ⟨cert, certs, hcert, hchain, rfl⟩ := mapM_cons_eq_ok.mp hcerts
      obtain ⟨hpush, hpushes⟩ := hpushes
      have h := ih.mpr ⟨certs, hchain, List.append_cons .., hpushes⟩
      rw [extractChain, hcert]
      change (openssl.stackPush chain cert >>= fun _ => _) = _
      rw [hpush]
      exact h

/-- **The certificates are extracted** if they parse and there is room for the chain. -/
theorem extractCertificates_eq_ok {der : Bytes} {cert : X509} {chain : List X509} :
    extractCertificates openssl der ders = .ok (cert, chain) ↔
      (der :: ders).mapM openssl.fromDer = .ok (cert :: chain) ∧ openssl.stackNew = .ok () ∧
        openssl.Pushes [] chain := by
  constructor
  · intro h
    obtain ⟨cert', hcert, h⟩ := bind_ok h
    obtain ⟨⟨⟩, hnew, h⟩ := bind_ok h
    obtain ⟨chain', hchain, h⟩ := bind_ok h
    obtain ⟨rfl, rfl⟩ := Prod.mk.inj (Except.ok.inj h)
    obtain ⟨certs, hcerts, heq, hpushes⟩ := extractChain_eq_ok.mp hchain
    obtain rfl : chain' = certs := heq
    exact ⟨mapM_cons_eq_ok.mpr ⟨cert', chain', hcert, hcerts, rfl⟩, hnew, hpushes⟩
  · rintro ⟨hparse, hnew, hpushes⟩
    obtain ⟨cert', chain', hcert, hchain, heq⟩ := mapM_cons_eq_ok.mp hparse
    obtain ⟨rfl, rfl⟩ := List.cons.inj heq
    have h := extractChain_eq_ok.mpr ⟨chain, hchain, rfl, hpushes⟩
    rw [extractCertificates, hcert, hnew]
    change (extractChain openssl [] ders >>= fun _ => _) = _
    rw [List.nil_append] at h
    rw [h]
    rfl

/-- **The first callback succeeds** if the handler vouches for the certificates and there
is room for the chain. It installs the key of the leaf. -/
theorem verifyCertificateCallbackImpl_eq_zero {pkey : PKey} :
    (∃ st', verifyCertificateCallbackImpl ptls openssl handler st id ctype ders =
        (0, some pkey, st')) ↔
      ∃ cert chain, Vouched openssl handler st id ctype ders cert chain pkey ∧
        openssl.stackNew = .ok () ∧ openssl.Pushes [] chain := by
  cases ders with
  | nil =>
    constructor
    · rintro ⟨st', h⟩
      exact absurd (Prod.mk.inj h).1 ptls.alertCertificateUnknown.2
    · rintro ⟨cert, chain, h, -⟩
      cases h.parses
  | cons der ders =>
    rw [verifyCertificateCallbackImpl]
    constructor
    · rintro ⟨st', h⟩
      split at h
      · exact absurd (Prod.mk.inj h).1 ptls.alertBadCertificate.2
      · rename_i cert chain hextract
        obtain ⟨hparses, hstack⟩ := extractCertificates_eq_ok.mp hextract
        split at h
        · rename_i st₁ hverify
          split at h
          · rename_i pkey' hkey
            obtain rfl := Option.some.inj (Prod.mk.inj (Prod.mk.inj h).2).1
            exact ⟨cert, chain, ⟨hparses, by rw [hverify], hkey⟩, hstack⟩
          · exact absurd (Prod.mk.inj h).1 (sslErrorToErrorCode ..).2
        · exact absurd (Prod.mk.inj h).1 ptls.alertCertificateUnknown.2
        · exact absurd (Prod.mk.inj h).1 (sslErrorToErrorCode ..).2
    · rintro ⟨cert, chain, ⟨hparses, hverified, hkey⟩, hstack⟩
      obtain ⟨a, st₁, hverify⟩ : ∃ a st₁, handler.verify st id ctype cert chain = (a, st₁) :=
        ⟨_, _, rfl⟩
      obtain rfl : a = .ok true := by rw [← hverified, hverify]
      rw [extractCertificates_eq_ok.mpr ⟨hparses, hstack⟩]
      simp only [hverify, hkey]
      exact ⟨st₁, rfl⟩

end Specs

/-! ### Soundness -/

/-- The handler vouches for the certificates with one key only. -/
theorem Vouched.unique {st : σ} {id : UInt64} {ctype : ConnectionType} {ders : List Bytes}
    {cert cert' : X509} {chain chain' : List X509} {pkey pkey' : PKey}
    (h : Vouched openssl handler st id ctype ders cert chain pkey)
    (h' : Vouched openssl handler st id ctype ders cert' chain' pkey') : pkey' = pkey := by
  obtain ⟨rfl, -⟩ := List.cons.inj (Except.ok.inj (h'.parses.symm.trans h.parses))
  exact Except.ok.inj (h'.key.symm.trans h.key)

/-- **Who is accepted**: a peer whose certificates pass, and whose signature passes or is
empty. -/
theorem accepted_iff (st : σ) (id : UInt64) (ctype : ConnectionType) (ders : List Bytes)
    (data sign : Bytes) : Accepted ptls openssl handler st id ctype ders data sign ↔
      ∃ cert chain pkey, Vouched openssl handler st id ctype ders cert chain pkey ∧
        openssl.stackNew = .ok () ∧ openssl.Pushes [] chain ∧
        (data = [] ∨ sign = [] ∨ openssl.Accepts pkey data sign) := by
  constructor
  · rintro ⟨pkey, st', himpl, hsign⟩
    obtain ⟨cert, chain, hv, hnew, hpushes⟩ := verifyCertificateCallbackImpl_eq_zero.mp ⟨st', himpl⟩
    exact ⟨cert, chain, pkey, hv, hnew, hpushes, verifySignCallback_eq_zero.mp hsign⟩
  · rintro ⟨cert, chain, pkey, hv, hnew, hpushes, hsign⟩
    obtain ⟨st', himpl⟩ := verifyCertificateCallbackImpl_eq_zero.mpr
      ⟨cert, chain, hv, hnew, hpushes⟩
    exact ⟨pkey, st', himpl, verifySignCallback_eq_zero.mpr hsign⟩

/-- **When an accepted peer is sound.** For data that is not empty, a peer is accepted
only if it is sound, exactly if its signature is not empty, or its certificates are turned
away anyway, or OpenSSL accepts the empty signature. -/
theorem accepted_is_sound_iff (st : σ) (id : UInt64) (ctype : ConnectionType) (ders : List Bytes)
    {data : Bytes} (sign : Bytes) (hdata : data ≠ []) :
    (Accepted ptls openssl handler st id ctype ders data sign →
        Sound openssl handler st id ctype ders data sign) ↔
      sign ≠ [] ∨ ∀ cert chain pkey, Vouched openssl handler st id ctype ders cert chain pkey →
        openssl.stackNew = .ok () → openssl.Pushes [] chain → openssl.Accepts pkey data [] := by
  rw [accepted_iff]
  constructor
  · intro h
    by_cases hsign : sign = []
    · subst hsign
      refine Or.inr fun cert chain pkey hv hnew hpushes => ?_
      obtain ⟨cert', chain', pkey', hv', haccepts⟩ :=
        h ⟨cert, chain, pkey, hv, hnew, hpushes, Or.inr (Or.inl rfl)⟩
      rwa [hv.unique openssl handler hv'] at haccepts
    · exact Or.inl hsign
  · rintro h ⟨cert, chain, pkey, hv, hnew, hpushes, hempty | rfl | haccepts⟩
    · exact absurd hempty hdata
    · have haccepts := h.resolve_left (fun hne => hne rfl) cert chain pkey hv hnew hpushes
      exact ⟨cert, chain, pkey, hv, haccepts⟩
    · exact ⟨cert, chain, pkey, hv, haccepts⟩

/-! ### Runs on a small library -/

/-- A library that takes every certificate for its key, and the key for the only
signature. -/
def plainOpenSSL : OpenSSL Bytes Bytes Bytes where
  fromDer := .ok
  stackNew := .ok ()
  stackPush _ _ := .ok ()
  publicKey := .ok
  isRsa _ := false
  verifierNew := .ok
  setRsaPadding := .ok
  setRsaPssSaltlen := .ok
  setRsaMgf1Md := .ok
  update verifier _ := .ok verifier
  verify verifier sign := .ok (verifier == sign)
  x509VErrOutOfMem := 17
  x509VErrCertRevoked := 23
  x509VErrCertHasExpired := 10

/-- A handler that trusts the certificate `[7]`. -/
def plainHandler : VerifyCertificate Unit Bytes where
  verify _ _ _ cert _ := (.ok (cert == [7]), ())

/-- The constants as picotls has them. -/
def plainPtls : Ptls where
  alertBadCertificate := ⟨42, by decide⟩
  alertCertificateExpired := ⟨45, by decide⟩
  alertCertificateRevoked := ⟨44, by decide⟩
  alertCertificateUnknown := ⟨46, by decide⟩
  alertDecryptError := ⟨51, by decide⟩
  errorLibrary := ⟨515, by decide⟩
  errorNoMemory := ⟨513, by decide⟩

/-- A peer that signs. -/
theorem accepted_is_sound_of_signed :
    Accepted plainPtls plainOpenSSL plainHandler () 1 .outgoing [[7], [8]] [1] [7] ∧
      Sound plainOpenSSL plainHandler () 1 .outgoing [[7], [8]] [1] [7] := by
  have h : Accepted plainPtls plainOpenSSL plainHandler () 1 .outgoing [[7], [8]] [1] [7] :=
    ⟨[7], (), rfl, rfl⟩
  exact ⟨h, (accepted_is_sound_iff plainPtls plainOpenSSL plainHandler () 1 .outgoing [[7], [8]]
    [7] (by decide : ([1] : Bytes) ≠ [])).mpr (Or.inl (by decide)) h⟩

/-- **A peer that does not sign.** It only needs the certificate of somebody else. -/
theorem accepted_without_a_signature :
    Accepted plainPtls plainOpenSSL plainHandler () 1 .outgoing [[7]] [1] [] ∧
      ¬ Sound plainOpenSSL plainHandler () 1 .outgoing [[7]] [1] [] := by
  refine ⟨⟨[7], (), rfl, rfl⟩, ?_⟩
  rintro ⟨cert, chain, pkey, hv, v₁, v₂, v₃, h₁, h₂, h₃, h₄⟩
  obtain ⟨rfl, -⟩ := List.cons.inj (Except.ok.inj hv.parses)
  obtain rfl := Except.ok.inj hv.key
  obtain rfl := Except.ok.inj h₁
  obtain rfl := Except.ok.inj h₂
  obtain rfl := Except.ok.inj h₃
  exact absurd (Except.ok.inj h₄) (by decide)

end Tls

end PicoquicRs
