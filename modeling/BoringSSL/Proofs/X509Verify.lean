import BoringSSL.Proofs.X509Chain

/-!
# A verified chain

`internal_verify` checks no signature of a certificate that is its own issuer; no two neighbours of
a chain are the same object, so this leaves out the last one only.  Certificates are compared by
their hashes, so that a chain of the target's copy in the store starts with a certificate of the
same hash.
-/

namespace BoringSSL

open List

open ByteLib (bind_eq_ok)

namespace StoreCtx

variable {env : VerifyEnv} {ctx : StoreCtx} {c : Chain} {x : Cert}

/-- The signature of the first certificate verifies under the public key of the second. -/
def SignedBy (env : VerifyEnv) (x issuer : X509) : Prop :=
  ∃ pkey, issuer.cert.pubkey = some pkey ∧ env.x509Verify x.cert pkey = true

/-- The certificate is valid at the time of the check, if times are checked. -/
def InValidity (ctx : StoreCtx) (x : X509) : Prop :=
  ctx.param.flags.noCheckTime = false → ∃ notBefore notAfter,
    asn1TimeToPosix x.cert.notBefore = some notBefore ∧
    asn1TimeToPosix x.cert.notAfter = some notAfter ∧
    notBefore ≤ ctx.param.time ∧ ctx.param.time < notAfter

/-! ## `internal_verify` -/

lemma verifySignature_ok {xs xi : X509} (h : ctx.verifySignature env xs xi = .ok ())
    (hne : xs ≠ xi) : SignedBy env xs xi := by
  unfold verifySignature at h
  rw [if_pos (.inl hne)] at h
  cases hkey : xi.cert.pubkey with
  | none => simp [hkey] at h
  | some pkey =>
    simp only [hkey, failIf_eq_ok] at h
    exact ⟨pkey, hkey, by simpa using h⟩

lemma cmpTimePosix_ok {ctm : Asn1Time} {cmpTime : ℤ} {later : Bool}
    (h : cmpTimePosix ctm cmpTime = .ok (some later)) :
    ∃ t, asn1TimeToPosix ctm = some t ∧ later = decide (cmpTime < t) := by
  unfold cmpTimePosix at h
  cases ht : asn1TimeToPosix ctm with
  | none => simp [ht] at h
  | some t =>
    grind

lemma checkCertTime_ok {x : X509} (h : ctx.checkCertTime x.cert = .ok ()) :
    ctx.InValidity x := by
  intro hcheck
  unfold checkCertTime at h
  simp only [hcheck, Bool.false_eq_true, if_false, bind_eq_ok, failIf_eq_ok] at h
  obtain ⟨before, hbefore, ⟨⟩, hb1, ⟨⟩, hb2, after, hafter, ⟨⟩, ha1, ha2⟩ := h
  obtain ⟨b, rfl⟩ := Option.ne_none_iff_exists'.mp hb1
  obtain ⟨a, rfl⟩ := Option.ne_none_iff_exists'.mp ha1
  obtain ⟨notBefore, hnb, rfl⟩ := cmpTimePosix_ok hbefore
  obtain ⟨notAfter, hna, rfl⟩ := cmpTimePosix_ok hafter
  exact ⟨notBefore, notAfter, hnb, hna, by simpa using hb2, by simpa using ha2⟩

lemma verifyBelow_ok : ∀ {xs : X509} {below : List X509}, ctx.verifyBelow env xs below = .ok () →
    (∀ x ∈ xs :: below, ctx.InValidity x)
      ∧ (xs :: below).IsChain fun issuer x => x ≠ issuer → SignedBy env x issuer
  | xs, [], h => by simpa using checkCertTime_ok h
  | xs, next :: below, h => by
    simp only [verifyBelow, bind_eq_ok] at h
    obtain ⟨⟨⟩, htime, ⟨⟩, hsig, h⟩ := h
    obtain ⟨hvalid, hchain⟩ := verifyBelow_ok h
    exact ⟨forall_mem_cons.mpr ⟨checkCertTime_ok htime, hvalid⟩,
      isChain_cons_cons.mpr ⟨verifySignature_ok hsig, hchain⟩⟩

lemma internalVerify_ok (h : ctx.internalVerify env c = .ok ()) :
    (∀ x ∈ c.certs.dropLast, ctx.InValidity x)
      ∧ c.certs.IsChain fun x issuer => x ≠ issuer → SignedBy env x issuer := by
  unfold internalVerify at h
  cases hrev : c.certs.reverse with
  | nil => simp [hrev] at h
  | cons xi below =>
    have hcerts : c.certs = below.reverse ++ [xi] := by
      rw [← reverse_reverse c.certs, hrev, reverse_cons]
    suffices hall : (∀ x ∈ below, ctx.InValidity x)
        ∧ (xi :: below).IsChain fun issuer x => x ≠ issuer → SignedBy env x issuer by
      refine ⟨by simpa [hcerts] using hall.1, ?_⟩
      rw [← reverse_reverse c.certs, hrev]
      exact isChain_reverse.mpr hall.2
    have hbelow : ctx.verifyBelow env xi below = .ok () → (∀ x ∈ below, ctx.InValidity x)
        ∧ (xi :: below).IsChain fun issuer x => x ≠ issuer → SignedBy env x issuer := fun h =>
      ⟨fun x hx => (verifyBelow_ok h).1 x (mem_cons_of_mem _ hx), (verifyBelow_ok h).2⟩
    simp only [hrev] at h
    split at h
    · replace h := bind_eq_ok.mp h
      exact hbelow h.choose_spec.2
    split at h
    · exact hbelow h
    -- The last certificate is not checked, but the one below it is, with its key.
    · cases below with
      | nil => simp at h
      | cons xs below =>
        replace h := bind_eq_ok.mp h
        obtain ⟨⟨⟩, hsig, h⟩ := h
        obtain ⟨hvalid, hchain⟩ := verifyBelow_ok h
        exact ⟨hvalid, isChain_cons_cons.mpr ⟨verifySignature_ok hsig, hchain⟩⟩

/-! ## `check_chain_extensions` -/

lemma checkExtensionsLoop_ca : ∀ {certs : List X509} {i : ℕ} {plen : ℤ},
    checkExtensionsLoop env ctx certs i plen = .ok () → 0 < i →
    ∀ x ∈ certs, x.cert.x509CheckCa = true
  | [], i, plen, h, hi => by simp
  | x :: rest, i, plen, h, hi => by
    simp only [checkExtensionsLoop, bind_eq_ok, failIf_eq_ok] at h
    obtain ⟨-, -, ⟨⟩, hca, -, -, -, -, h⟩ := h
    refine forall_mem_cons.mpr ⟨by simpa [hi] using hca, ?_⟩
    exact checkExtensionsLoop_ca h (Nat.succ_pos i)

lemma checkChainExtensions_ca (h : ctx.checkChainExtensions env c = .ok ()) :
    ∀ x ∈ (c.certs.take c.lastUntrusted).tail, x.cert.x509CheckCa = true := by
  unfold checkChainExtensions at h
  cases hcerts : c.certs.take c.lastUntrusted with
  | nil => simp
  | cons x rest =>
    simp only [hcerts, checkExtensionsLoop, bind_eq_ok] at h
    obtain ⟨-, -, -, -, -, -, -, -, h⟩ := h
    exact checkExtensionsLoop_ca h Nat.one_pos

/-- Each step of `X509_verify_cert` passes on the chain it returns. -/
structure Verified (env : VerifyEnv) (ctx : StoreCtx) (c : Chain) : Prop where
  built : ctx.buildChain env = .ok c
  extensions : ctx.checkChainExtensions env c = .ok ()
  id : ctx.checkId env = .ok ()
  signatures : ctx.internalVerify env c = .ok ()
  names : checkNameConstraints env c = .ok ()

lemma x509VerifyCert_ok (h : ctx.x509VerifyCert env = .ok c) : Verified env ctx c := by
  simp only [x509VerifyCert, bind_eq_ok] at h
  obtain ⟨-, -, c', hbuilt, ⟨⟩, hext, ⟨⟩, hid, -, -, ⟨⟩, hsig, ⟨⟩, hnames, -, -, hc⟩ := h
  obtain rfl : c' = c := Except.ok.inj hc
  exact ⟨hbuilt, hext, hid, hsig, hnames⟩

/-- What holds of a chain that is accepted. -/
structure Sound (env : VerifyEnv) (ctx : StoreCtx) (c : Chain) : Prop where
  target : ∃ x rest, c.certs = x :: rest ∧ x.cert = ctx.cert.cert
  length_le : (c.certs.length : ℤ) ≤ max 1 (ctx.param.depth + 2)
  /-- The certificate at `lastUntrusted` is one of the store or of the trusted stack. -/
  anchored : ∃ x, c.certs[c.lastUntrusted]? = some x ∧ x ∈ ctx.objs ++ ctx.trustedStack.getD []
  issued : c.certs.IsChain fun x issuer => issuer.cert.x509CheckIssued x.cert = .ok
  signed : c.certs.IsChain (SignedBy env)
  /-- Those between it and the target are untrusted ones, none used twice. -/
  untrusted : (c.certs.take c.lastUntrusted).tail.Subperm ctx.untrusted
  authorities : ∀ x ∈ (c.certs.take c.lastUntrusted).tail, x.cert.x509CheckCa = true
  valid : ∀ x ∈ c.certs.dropLast, ctx.InValidity x

lemma maxChain_le (ctx : StoreCtx) : ctx.maxChain ≤ ctx.param.depth + 2 := by
  unfold maxChain
  split_ifs <;> omega

/-- Chain building ends, and a chain that is returned is sound unless the store has a certificate
other than the target with the target's hash. -/
theorem x509VerifyCert_sound (env : VerifyEnv) (ctx : StoreCtx) :
    ctx.buildChain env ≠ .error .fuel ∧
    ∀ c, ctx.x509VerifyCert env = .ok c → Collision env ctx ∨ Sound env ctx c := by
  refine ⟨buildChain_ne_fuel, fun c h => or_iff_not_imp_left.mpr fun hno => ?_⟩
  have hv := x509VerifyCert_ok h
  have hb := buildChain_ok hv.built
  have hlinked := hb.linked.resolve_left hno
  obtain ⟨hvalid, hsig⟩ := internalVerify_ok hv.signatures
  refine ⟨hb.leaf.resolve_left hno, ?_, hb.anchored, hlinked.imp fun _ _ hl => ?_, ?_,
    hb.untrusted, checkChainExtensions_ca hv.extensions, hvalid⟩
  · have hfits := hb.fits
    have := maxChain_le ctx
    unfold Fits at hfits
    omega
  · simpa [checkIssued] using hl.2
  · rw [isChain_iff_getElem] at hsig ⊢
    intro i hi
    exact hsig i hi (isChain_iff_getElem.mp hlinked i hi).ne

/-! A target, an authority and a root in the store; the key of each is its name. -/

/-- A certificate of one name by another. -/
def plainCert (subject issuer : UInt8) (basicConstraints : Ext BasicConstraints) : Cert where
  isVersion1 := false
  serialNumber := 1
  issuer := ⟨[], [issuer]⟩
  subject := ⟨[], [subject]⟩
  notBefore := ⟨false, [50, 48, 48, 49, 48, 49, 48, 48, 48, 48, 48, 48, 90]⟩
  notAfter := ⟨false, [51, 48, 48, 49, 48, 49, 48, 48, 48, 48, 48, 48, 90]⟩
  pubkey := some [subject]
  basicConstraints := basicConstraints
  keyUsage := .absent
  skid := .absent
  akid := .absent
  altname := .absent
  nc := .absent
  othersInvalid := false
  unsupportedCritical := false
  rest := []

/-- Names serve as keys. -/
def plainEnv : VerifyEnv where
  certHash x := x.subject.canonEnc ++ x.issuer.canonEnc
  x509Verify x pkey := x.issuer.canonEnc = pkey
  toUtf8 s := some s.data
  x509CheckPurpose _ _ _ := true
  checkRevocation _ := true
  x509PolicyCheck _ := true

def plainParam : VerifyParam where
  time := 1600000000
  flags := ⟨false, false, false, false, false, false, false⟩
  purpose := 0
  trust := 0
  depth := 100
  hosts := none
  hostflags := ⟨false, false⟩
  email := none
  ip := none
  poison := false

def plainCtx (cert : X509) (untrusted : List X509) (root : X509) : StoreCtx where
  objs := [root]
  cert := cert
  untrusted := untrusted
  trustedStack := none
  param := plainParam

def plainX509 (subject issuer : UInt8) (basicConstraints : Ext BasicConstraints) : X509 :=
  ⟨subject.toNat, plainCert subject issuer basicConstraints, none⟩

def plainCa : Ext BasicConstraints := .present ⟨true, none⟩

def plainTarget : X509 := plainX509 1 2 .absent

def plainIntermediate : X509 := plainX509 2 3 plainCa

def plainRoot : X509 := plainX509 3 3 plainCa

theorem x509VerifyCert_sound_plain :
    (plainCtx plainTarget [plainIntermediate] plainRoot).x509VerifyCert plainEnv
      = .ok ⟨[plainTarget, plainIntermediate, plainRoot], 2⟩ ∧
    Sound plainEnv (plainCtx plainTarget [plainIntermediate] plainRoot)
      ⟨[plainTarget, plainIntermediate, plainRoot], 2⟩ := by
  have hrun : (plainCtx plainTarget [plainIntermediate] plainRoot).x509VerifyCert plainEnv
      = .ok ⟨[plainTarget, plainIntermediate, plainRoot], 2⟩ := by decide +kernel
  have hno : ¬ Collision plainEnv (plainCtx plainTarget [plainIntermediate] plainRoot) := by
    unfold Collision
    decide +kernel
  exact ⟨hrun, ((x509VerifyCert_sound plainEnv _).2 _ hrun).resolve_left hno⟩

example : (plainCtx plainTarget [] plainRoot).x509VerifyCert plainEnv
    ≠ .ok ⟨[plainTarget, plainRoot], 1⟩ := by decide +kernel

/-! ## Path lengths

The counter of `check_chain_extensions` counts the leaf, if it is not self-issued, and is compared
with one more than the constraint. -/

/-- How many are not self-issued. -/
def notSelfIssued (certs : List X509) : ℕ := certs.countP fun x => !x.cert.exSi

lemma checkPathlen_ok {i : ℕ} {plen : ℤ} (h : checkPathlen x i plen = .ok ()) (hi : 1 < i)
    (hself : x.exSi = false) (hlen : x.exPathlen ≠ -1) : plen ≤ x.exPathlen + 1 := by
  unfold checkPathlen at h
  rw [if_pos ⟨hi, by simp [hself], hlen⟩] at h
  split_ifs at h
  simpa using h

/-- The loop checks each constraint against what has been counted until then. -/
lemma checkExtensionsLoop_pathlen : ∀ {below rest : List X509} {x : X509} {i : ℕ} {plen : ℤ},
    checkExtensionsLoop env ctx (below ++ x :: rest) i plen = .ok () →
    1 < i + below.length → x.cert.exSi = false → x.cert.exPathlen ≠ -1 →
    plen + notSelfIssued below ≤ x.cert.exPathlen + 1
  | [], rest, x, i, plen, h, hi, hself, hlen => by
    simp only [nil_append, checkExtensionsLoop, bind_eq_ok] at h
    obtain ⟨-, -, -, -, -, -, ⟨⟩, hpath, -⟩ := h
    simpa [notSelfIssued] using checkPathlen_ok hpath hi hself hlen
  | y :: below, rest, x, i, plen, h, hi, hself, hlen => by
    simp only [cons_append, checkExtensionsLoop, bind_eq_ok] at h
    obtain ⟨-, -, -, -, -, -, -, -, h⟩ := h
    have ih := checkExtensionsLoop_pathlen h (by simp only [length_cons] at hi; omega)
      hself hlen
    unfold notSelfIssued at *
    cases hy : y.cert.exSi <;> simp [hy] at ih ⊢ <;> omega

lemma exPathlen_eq {ca : Bool} {k : ℤ} (hbc : x.basicConstraints = .present ⟨ca, some k⟩)
    (hvalid : x.x509v3CacheExtensions = true) :
    0 ≤ k ∧ (x.exPathlen = k ∨ x.exPathlen = -1 ∧ Cert.longMax < k) := by
  have hbad : x.badPathlen = false := by
    simp only [Cert.x509v3CacheExtensions, Cert.exInvalid] at hvalid
    cases hb : x.badPathlen
    · rfl
    · simp [hb] at hvalid
  have hk : 0 ≤ k := by
    simp only [Cert.badPathlen, hbc, Ext.get, Bool.or_eq_false_iff, decide_eq_false_iff_not] at hbad
    omega
  refine ⟨hk, ?_⟩
  simp only [Cert.exPathlen, hbc, Ext.get, hbad, Bool.false_eq_true, if_false, Cert.asn1IntegerGet]
  split_ifs with h
  · exact .inl rfl
  · exact .inr ⟨rfl, by omega⟩

lemma x509CheckCa_valid (h : x.x509CheckCa = true) : x.x509v3CacheExtensions = true := by
  unfold Cert.x509CheckCa at h
  by_contra hno
  simp [hno] at h

/-- At most as many intermediate certificates under a certificate are not self-issued as its
constraint says, exactly if it is the first above the leaf, or this holds where it is self-issued
itself, and under a self-issued leaf there is not one too many. -/
theorem x509VerifyCert_pathlen (env : VerifyEnv) (ctx : StoreCtx) (c : Chain)
    (h : ctx.x509VerifyCert env = .ok c) (leaf x : X509) (hleaf : c.certs[0]? = some leaf)
    (i : ℕ) (hi : 0 < i) (hu : i < c.lastUntrusted) (hx : c.certs[i]? = some x) (ca : Bool) (k : ℤ)
    (hbc : x.cert.basicConstraints = .present ⟨ca, some k⟩) :
    (notSelfIssued (c.certs.take i).tail : ℤ) ≤ k
      ↔ i = 1 ∨ ((x.cert.exSi = true → (notSelfIssued (c.certs.take i).tail : ℤ) ≤ k)
        ∧ (leaf.cert.exSi = true → (notSelfIssued (c.certs.take i).tail : ℤ) ≠ k + 1)) := by
  have hv := x509VerifyCert_ok h
  obtain ⟨hilt, hxi⟩ := List.getElem?_eq_some_iff.mp hx
  obtain ⟨rest, hcerts⟩ : ∃ rest, c.certs = leaf :: rest := by
    cases hc : c.certs with
    | nil => simp [hc] at hleaf
    | cons y rest =>
      obtain rfl : y = leaf := by simpa [hc] using hleaf
      exact ⟨rest, rfl⟩
  -- The part the loop runs over, split at the certificate.
  have hsplit : c.certs.take c.lastUntrusted
      = c.certs.take i ++ x :: (c.certs.take c.lastUntrusted).drop (i + 1) := by
    have hlt : i < (c.certs.take c.lastUntrusted).length := by
      rw [length_take]
      omega
    conv_lhs => rw [← take_append_drop i (c.certs.take c.lastUntrusted)]
    rw [take_take, min_eq_left hu.le, drop_eq_getElem_cons hlt, getElem_take, hxi]
  have htake : c.certs.take i = leaf :: (c.certs.take i).tail := by
    obtain ⟨j, rfl⟩ : ∃ j, i = j + 1 := ⟨i - 1, by omega⟩
    simp [hcerts]
  have hmem : x ∈ (c.certs.take c.lastUntrusted).tail := by
    rw [hsplit, htake]
    simp
  have hvalid := x509CheckCa_valid (checkChainExtensions_ca hv.extensions x hmem)
  obtain ⟨hk, hpath⟩ := exPathlen_eq hbc hvalid
  have hcount : notSelfIssued (c.certs.take i).tail ≤ (c.certs.take i).tail.length :=
    countP_le_length
  have hlen : (c.certs.take i).tail.length = i - 1 := by
    rw [length_tail, length_take]
    omega
  refine ⟨fun hle => .inr ⟨fun _ => hle, fun _ => by omega⟩, fun hcond => ?_⟩
  by_cases hone : i = 1
  · omega
  obtain ⟨hown, hleafCond⟩ := hcond.resolve_left hone
  rcases hself : x.cert.exSi with _ | _
  swap
  · exact hown hself
  rcases hpath with hpath | ⟨-, hbig⟩
  · have hext := hv.extensions
    unfold checkChainExtensions at hext
    rw [hsplit] at hext
    have hbound := checkExtensionsLoop_pathlen hext
      (by rw [length_take]; omega) hself (by omega)
    rw [htake, notSelfIssued, countP_cons, ← notSelfIssued] at hbound
    rcases hleafSelf : leaf.cert.exSi with _ | _
    · simp only [hleafSelf, Bool.not_false, if_true] at hbound
      omega
    · have hne := hleafCond hleafSelf
      omega
  · have hfits := (buildChain_ok hv.built).fits
    have hmax : ctx.maxChain ≤ intMax := by
      unfold maxChain
      split_ifs <;> omega
    simp only [Fits, intMax, Cert.longMax] at hfits hmax hbig
    omega

def limited (k : ℤ) : Ext BasicConstraints := .present ⟨true, some k⟩

theorem x509VerifyCert_pathlen_one :
    (plainCtx plainTarget [plainIntermediate, plainX509 3 4 (limited 1)]
        (plainX509 4 4 plainCa)).x509VerifyCert plainEnv
      = .ok ⟨[plainTarget, plainIntermediate, plainX509 3 4 (limited 1), plainX509 4 4 plainCa],
        3⟩ ∧
    (notSelfIssued [plainIntermediate] : ℤ) ≤ 1 := by
  have hrun : (plainCtx plainTarget [plainIntermediate, plainX509 3 4 (limited 1)]
      (plainX509 4 4 plainCa)).x509VerifyCert plainEnv
      = .ok ⟨[plainTarget, plainIntermediate, plainX509 3 4 (limited 1), plainX509 4 4 plainCa],
        3⟩ := by decide +kernel
  exact ⟨hrun, (x509VerifyCert_pathlen plainEnv _ _ hrun plainTarget (plainX509 3 4 (limited 1))
    rfl 2 (by decide) (by decide) rfl true 1 rfl).mpr (.inr ⟨by decide, by decide⟩)⟩

def selfIssued (name : UInt8) (basicConstraints : Ext BasicConstraints) : X509 :=
  ⟨100 + name.toNat, { plainCert name name basicConstraints with
      skid := .present [1]
      akid := .present ⟨some [2], none, none⟩ },
    none⟩

/-- The constraint of a self-issued certificate is not checked; and the leaf is taken for one that
is not self-issued. -/
theorem x509VerifyCert_exceeds_pathlen :
    -- `selfIssued 3` allows no intermediate certificate, and there is one below it
    ((plainCtx plainTarget [plainIntermediate, selfIssued 3 (limited 0)] plainRoot).x509VerifyCert
        plainEnv
      = .ok ⟨[plainTarget, plainIntermediate, selfIssued 3 (limited 0), plainRoot], 3⟩
      ∧ notSelfIssued [plainIntermediate] = 1) ∧
    -- the leaf is self-issued, and the constraint above it is exceeded by one
    ((plainCtx (selfIssued 2 .absent) [plainIntermediate, plainX509 3 4 (limited 0)]
        (plainX509 4 4 plainCa)).x509VerifyCert plainEnv
      = .ok ⟨[selfIssued 2 .absent, plainIntermediate, plainX509 3 4 (limited 0),
          plainX509 4 4 plainCa], 3⟩
      ∧ notSelfIssued [plainIntermediate] = 1) := by
  decide +kernel

example : notSelfIssued [plainTarget, selfIssued 3 .absent] = 1 := by decide +kernel

end StoreCtx

end BoringSSL
