import BoringSSL.X509Verify
import Mathlib

/-!
# The chains `X509_verify_cert` accepts
-/

namespace BoringSSL

open ByteLib NameCheck List

variable {x : X509} {start rest : List X509} {c' : Chain} {x' mx : X509} {certs : List X509}

@[simp] lemma failIf_eq_ok {failed : Prop} [Decidable failed] {e : X509V} {u : Unit} :
    failIf failed e = .ok u ↔ ¬ failed := by
  by_cases h : failed <;> simp [failIf, h]

namespace StoreCtx

variable {env : VerifyEnv} {ctx : StoreCtx}

lemma certSelfSigned_eq_ok {b : Bool} (h : certSelfSigned x = .ok b) : x.cert.exSs = b := by
  unfold certSelfSigned at h
  split_ifs at h
  exact Except.ok.inj h

def anchors (ctx : StoreCtx) : List X509 := ctx.objs ++ ctx.trustedStack.getD []

/-- The second certificate issued the first, which is not self-signed. -/
def Link (x issuer : X509) : Prop := x.cert.exSs = false ∧ checkIssued x issuer = true

section Issuers

variable {x issuer : X509}

lemma exSs_of_checkIssued (h : checkIssued x x = true) : x.cert.exSs = true := by
  have hissued : x.cert.x509CheckIssued x.cert = .ok := by simpa [checkIssued] using h
  unfold Cert.x509CheckIssued at hissued
  by_cases hname : (!x.cert.subject.eq x.cert.issuer) = true
  · simp [hname] at hissued
  rw [if_neg hname] at hissued
  by_cases hvalid : (!x.cert.x509v3CacheExtensions || !x.cert.x509v3CacheExtensions) = true
  · rw [if_pos hvalid] at hissued
    cases hissued
  rw [if_neg hvalid] at hissued
  have hakid : x.cert.x509CheckAkid x.cert.akid.get = .ok := by
    by_contra hne
    have hsome : x.cert.akid.get.isSome := by
      cases hget : x.cert.akid.get with
      | none => exact absurd (by rw [hget]; rfl) hne
      | some akid => rfl
    rw [if_pos ⟨hsome, hne⟩] at hissued
    exact hne hissued
  rw [if_neg (by simp [hakid])] at hissued
  by_cases hku : x.cert.kuReject Cert.x509v3KuKeyCertSign = true
  · simp [hku] at hissued
  · simp_all [Cert.exSs, Cert.exSi]

lemma Link.ne (h : Link x issuer) : x ≠ issuer := by
  rintro rfl
  exact absurd (exSs_of_checkIssued h.2) (by simp [h.1])

lemma Link.congr (h : Link x issuer) (hx : x'.cert = x.cert) : Link x' issuer := by
  unfold Link checkIssued at *
  rwa [hx]

lemma findIssuer_eq_some {sk : List X509} (h : findIssuer sk x = some issuer) :
    issuer ∈ sk ∧ checkIssued x issuer = true :=
  ⟨mem_of_find?_eq_some h, find?_some h⟩

lemma getTrustedIssuer_eq_some (h : ctx.getTrustedIssuer x = some issuer) :
    issuer ∈ ctx.anchors ∧ checkIssued x issuer = true := by
  unfold getTrustedIssuer at h
  cases hstack : ctx.trustedStack with
  | some sk =>
    rw [hstack] at h
    obtain ⟨hmem, hissued⟩ := findIssuer_eq_some h
    exact ⟨by simp [anchors, hstack, hmem], hissued⟩
  | none =>
    simp only [hstack, get1Issuer] at h
    have hsub : ∀ y ∈ ctx.bySubject x.cert.issuer, y ∈ ctx.anchors := fun y hy =>
      mem_append_left _ (mem_of_mem_filter hy)
    cases hby : ctx.bySubject x.cert.issuer with
    | nil => simp [hby] at h
    | cons first rest =>
      grind

lemma lookupCertMatch_eq_some (h : ctx.lookupCertMatch env x = some mx) :
    mx ∈ ctx.anchors ∧ env.certHash mx.cert = env.certHash x.cert :=
  ⟨mem_append_left _ (mem_of_mem_filter (mem_of_find?_eq_some h)),
    by simpa [x509Eq] using find?_some h⟩

end Issuers

section Loops

/-- The chain is not too long. -/
def Fits (ctx : StoreCtx) (certs : List X509) : Prop := (certs.length : ℤ) ≤ max 1 ctx.maxChain

lemma linked_concat {issuer : X509} (h : certs.IsChain Link) (hx : certs.getLast? = some x)
    (hlink : Link x issuer) : (certs ++ [issuer]).IsChain Link := by
  refine isChain_append.mpr ⟨h, isChain_singleton _, ?_⟩
  simpa [hx] using hlink

lemma addUntrusted_ok : ∀ {fuel : ℕ} {sktmp certs : List X509} {x : X509} {r : List X509},
    ctx.addUntrusted fuel sktmp certs x = .ok r →
    certs.IsChain Link → certs.getLast? = some x → ctx.Fits certs →
    ∃ us, r = certs ++ us ∧ r.IsChain Link ∧ us.Subperm sktmp ∧ ctx.Fits r
  | 0, sktmp, certs, x, r, h, _, _, _ => by simp [addUntrusted] at h
  | fuel + 1, sktmp, certs, x, r, h, hchain, hlast, hfits => by
    have hstop : certs = r → ∃ us, r = certs ++ us ∧ r.IsChain Link ∧ us.Subperm sktmp
        ∧ ctx.Fits r := by
      rintro rfl
      exact ⟨[], by simp, hchain, nil_subperm, hfits⟩
    rw [addUntrusted] at h
    by_cases hmax : (certs.length : ℤ) ≥ ctx.maxChain
    · rw [if_pos hmax] at h
      exact hstop (Except.ok.inj h)
    rw [if_neg hmax] at h
    obtain ⟨selfSigned, hss, h⟩ := bind_eq_ok.mp h
    by_cases hself : selfSigned = true
    · rw [if_pos hself] at h
      exact hstop (Except.ok.inj h)
    split_ifs at h with hfirst
    · exact hstop (Except.ok.inj h)
    cases hissuer : findIssuer sktmp x with
    | none =>
      rw [hissuer] at h
      exact hstop (Except.ok.inj h)
    | some issuer =>
      rw [hissuer] at h
      obtain ⟨hmem, hissued⟩ := findIssuer_eq_some hissuer
      have hlink : Link x issuer :=
        ⟨by rw [certSelfSigned_eq_ok hss]; simpa using hself, hissued⟩
      obtain ⟨us, rfl, hr, hus, hfits'⟩ := addUntrusted_ok h (linked_concat hchain hlast hlink)
        (by simp) (by simp only [Fits, length_append, length_singleton]; omega)
      refine ⟨issuer :: us, by simp, hr, ?_, hfits'⟩
      exact (subperm_cons issuer).mpr hus |>.trans (perm_cons_erase hmem).symm.subperm

lemma addTrusted_ok : ∀ {fuel : ℕ} {certs : List X509} {x : X509} {r : List X509},
    ctx.addTrusted fuel certs x = .ok r →
    certs.IsChain Link → certs.getLast? = some x → ctx.Fits certs →
    ∃ ts, r = certs ++ ts ∧ r.IsChain Link ∧ (∀ t ∈ ts, t ∈ ctx.anchors) ∧ ctx.Fits r
  | 0, certs, x, r, h, _, _, _ => by simp [addTrusted] at h
  | fuel + 1, certs, x, r, h, hchain, hlast, hfits => by
    have hstop : certs = r → ∃ ts, r = certs ++ ts ∧ r.IsChain Link
        ∧ (∀ t ∈ ts, t ∈ ctx.anchors) ∧ ctx.Fits r := by
      rintro rfl
      exact ⟨[], by simp, hchain, by simp, hfits⟩
    rw [addTrusted] at h
    split_ifs at h with hmax
    · exact hstop (Except.ok.inj h)
    obtain ⟨selfSigned, hss, h⟩ := bind_eq_ok.mp h
    split_ifs at h with hself
    · exact hstop (Except.ok.inj h)
    cases hissuer : ctx.getTrustedIssuer x with
    | none =>
      rw [hissuer] at h
      exact hstop (Except.ok.inj h)
    | some issuer =>
      rw [hissuer] at h
      obtain ⟨hmem, hissued⟩ := getTrustedIssuer_eq_some hissuer
      have hlink : Link x issuer :=
        ⟨by rw [certSelfSigned_eq_ok hss]; simpa using hself, hissued⟩
      obtain ⟨ts, rfl, hr, hts, hfits'⟩ := addTrusted_ok h (linked_concat hchain hlast hlink)
        (by simp) (by simp only [Fits, length_append, length_singleton]; omega)
      exact ⟨issuer :: ts, by simp, hr, forall_mem_cons.mpr ⟨hmem, hts⟩, hfits'⟩

lemma findAlt_eq_some : ∀ {j k : ℕ}, ctx.findAlt certs j = some k →
    1 ≤ k ∧ k < j
  | 0, k, h => by simp [findAlt] at h
  | 1, k, h => by simp [findAlt] at h
  | j + 2, k, h => by
    have hrec : ctx.findAlt certs (j + 1) = some k → 1 ≤ k ∧ k < j + 2 := fun h => by
      have := findAlt_eq_some h
      omega
    rw [findAlt] at h
    split at h
    · grind
    · exact hrec h

end Loops

section Rounds

variable {c : Chain}

/-- A certificate other than the target has the target's hash. -/
def Collision (env : VerifyEnv) (ctx : StoreCtx) : Prop :=
  ∃ x ∈ ctx.anchors, env.certHash x.cert = env.certHash ctx.cert.cert ∧ x.cert ≠ ctx.cert.cert

/-- A chain of the target and of untrusted certificates. -/
structure Untrusted (ctx : StoreCtx) (certs : List X509) : Prop where
  linked : certs.IsChain Link
  fits : ctx.Fits certs
  shape : ∃ us, certs = ctx.cert :: us ∧ us.Subperm ctx.untrusted

lemma Untrusted.of_prefix (h : ctx.Untrusted certs) (hpre : start <+: certs)
    (hne : start ≠ []) : ctx.Untrusted start := by
  obtain ⟨us, rfl, hus⟩ := h.shape
  obtain ⟨x, rest, rfl⟩ := exists_cons_of_ne_nil hne
  obtain ⟨rfl, hrest⟩ := cons_prefix_cons.mp hpre
  refine ⟨ List.IsChain.prefix h.linked hpre, ?_, rest, rfl, hrest.sublist.subperm.trans hus⟩
  have hlen := hpre.length_le
  have hfits := h.fits
  unfold Fits at *
  omega

/-- A chain that has come from the store from `lastUntrusted` on. -/
structure Built (env : VerifyEnv) (ctx : StoreCtx) (c : Chain) : Prop where
  linked : Collision env ctx ∨ c.certs.IsChain Link
  fits : ctx.Fits c.certs
  leaf : Collision env ctx ∨ ∃ x rest, c.certs = x :: rest ∧ x.cert = ctx.cert.cert
  anchored : ∃ x, c.certs[c.lastUntrusted]? = some x ∧ x ∈ ctx.anchors
  untrusted : (c.certs.take c.lastUntrusted).tail.Subperm ctx.untrusted

lemma startRound_ok {ss ss' : Option X509} {start : Chain}
    (h : ctx.startRound env certs x ss = .ok (start, x', ss')) (hlast : certs.getLast? = some x) :
    (certs = [x] ∧ start = ⟨[x'], 0⟩ ∧ x' ∈ ctx.anchors
      ∧ env.certHash x'.cert = env.certHash x.cert)
    ∨ (start.certs <+: certs ∧ start.lastUntrusted = start.certs.length
      ∧ start.certs.getLast? = some x') := by
  replace h := bind_eq_ok.mp h
  obtain ⟨selfSigned, -, h⟩ := h
  by_cases hself : selfSigned = true
  · split_ifs at h with hone
    · obtain ⟨y, rfl⟩ := length_eq_one_iff.mp hone
      obtain rfl : y = x := by simpa using hlast
      cases hissuer : ctx.getTrustedIssuer y with
      | none => simp [hissuer] at h
      | some issuer =>
        by_cases heq : x509Eq env y issuer = true
        · simp only [hissuer, heq, Bool.not_true, Bool.false_eq_true, if_false] at h
          obtain ⟨rfl, rfl, rfl⟩ : (⟨[issuer], 0⟩ : Chain) = start ∧ issuer = x' ∧ ss = ss' := by
            simpa using h
          have hhash : env.certHash y.cert = env.certHash issuer.cert := by simpa [x509Eq] using heq
          exact .inl ⟨rfl, rfl, (getTrustedIssuer_eq_some hissuer).1, hhash.symm⟩
        · simp [hissuer, heq] at h
    · obtain ⟨rfl, rfl, rfl⟩ : (⟨certs.dropLast, certs.dropLast.length⟩ : Chain) = start
          ∧ certs.dropLast.getLast?.getD x = x' ∧ some x = ss' := by simpa using h
      have hne : certs.dropLast ≠ [] := by
        intro hnil
        have hlen : certs.dropLast.length = 0 := by rw [hnil]; rfl
        rw [length_dropLast] at hlen
        have hpos : certs ≠ [] := by rintro rfl; cases hlast
        have := length_pos_iff.mpr hpos
        omega
      refine .inr ⟨ dropLast_prefix certs, rfl, ?_⟩
      simp [getLast?_eq_some_getLast hne]
  · grind

lemma trustLoop_ne_untrusted : ∀ {certs : List X509}, trustLoop ctx certs ≠ .untrusted →
    certs ≠ []
  | [], h => absurd rfl h
  | _ :: _, _ => cons_ne_nil _ _

lemma checkTrust_trusted (h : ctx.checkTrust env c = (.trusted, c')) :
    (c' = c ∧ c.lastUntrusted < c.certs.length)
    ∨ ∃ x rest mx, c.certs = x :: rest ∧ c.certs.length ≤ c.lastUntrusted
      ∧ ctx.lookupCertMatch env x = some mx ∧ c' = ⟨mx :: rest, 0⟩ := by
  unfold checkTrust at h
  cases hloop : trustLoop ctx (c.certs.drop c.lastUntrusted) with
  | trusted =>
    have hne := trustLoop_ne_untrusted (hloop.trans_ne (by decide))
    simp only [hloop, Prod.mk.injEq, true_and] at h
    exact .inl ⟨h.symm, by simpa using hne⟩
  | rejected => simp [hloop] at h
  | untrusted =>
    simp only [hloop] at h
    by_cases hflag : ctx.param.flags.partialChain = true
    · by_cases hlt : c.lastUntrusted < c.certs.length
      · grind
      · grind
    · simp [hflag] at h

lemma checkTrust_untrusted (h : ctx.checkTrust env c = (.untrusted, c')) : c' = c := by
  unfold checkTrust at h
  cases hloop : trustLoop ctx (c.certs.drop c.lastUntrusted) with
  | trusted => simp [hloop] at h
  | rejected => simp [hloop] at h
  | untrusted =>
    grind

lemma cert_eq_or_collision (hmem : mx ∈ ctx.anchors)
    (hhash : env.certHash mx.cert = env.certHash ctx.cert.cert) :
    Collision env ctx ∨ mx.cert = ctx.cert.cert :=
  or_iff_not_imp_right.mpr fun hne => ⟨mx, hmem, hhash, hne⟩

lemma built_of_leaf_copy (hmem : mx ∈ ctx.anchors)
    (hhash : env.certHash mx.cert = env.certHash ctx.cert.cert) (hfits : ctx.Fits (mx :: rest))
    (hlinked : mx.cert = ctx.cert.cert → (mx :: rest).IsChain Link) :
    Built env ctx ⟨mx :: rest, 0⟩ where
  linked := (cert_eq_or_collision hmem hhash).imp_right hlinked
  fits := hfits
  leaf := (cert_eq_or_collision hmem hhash).imp_right fun hcert => ⟨mx, rest, rfl, hcert⟩
  anchored := ⟨mx, rfl, hmem⟩
  untrusted := nil_subperm

lemma linked_congr (h : (x :: rest).IsChain Link)
    (hx : x'.cert = x.cert) : (x' :: rest).IsChain Link := by
  cases rest with
  | nil => exact isChain_singleton _
  | cons y rest =>
    obtain ⟨hxy, hrest⟩ := isChain_cons_cons.mp h
    exact isChain_cons_cons.mpr ⟨hxy.congr hx, hrest⟩

/-- The store's certificates are added to a start of untrusted ones, and the result is trusted. -/
lemma built_of_start {ts : List X509} (hstart : ctx.Untrusted start)
    (hlinked : (start ++ ts).IsChain Link) (hts : ∀ t ∈ ts, t ∈ ctx.anchors)
    (hfits : ctx.Fits (start ++ ts))
    (htrust : ctx.checkTrust env ⟨start ++ ts, start.length⟩ = (.trusted, c)) :
    Built env ctx c := by
  obtain ⟨us, rfl, hus⟩ := hstart.shape
  obtain ⟨rfl, hlt⟩ | ⟨x, rest, mx, hcerts, -, hmatch, rfl⟩ := checkTrust_trusted htrust
  · have hts0 : ts ≠ [] := by
      rintro rfl
      simp at hlt
    obtain ⟨t, ts, rfl⟩ := exists_cons_of_ne_nil hts0
    refine ⟨.inr hlinked, hfits, .inr ⟨ctx.cert, us ++ t :: ts, rfl, rfl⟩,
      ⟨t, ?_, hts t (by simp)⟩, ?_⟩
    · exact (getElem?_append_right le_rfl).trans (by simp)
    · rw [take_left]
      exact hus
  · obtain ⟨rfl, rfl⟩ : ctx.cert = x ∧ us ++ ts = rest := by simpa using hcerts
    obtain ⟨hmem, hhash⟩ := lookupCertMatch_eq_some hmatch
    exact built_of_leaf_copy hmem hhash hfits (linked_congr hlinked)

lemma buildRounds_ok : ∀ {fuel : ℕ} {certs : List X509}
    {ss : Option X509} {c : Chain}, ctx.buildRounds env fuel certs ss = .ok c →
    ctx.Untrusted certs → Built env ctx c
  | 0, certs, ss, c, h, _ => by simp [buildRounds] at h
  | fuel + 1, certs, ss, c, h, hu => by
    rw [buildRounds] at h
    cases hlast : certs.getLast? with
    | none => simp [hlast] at h
    | some x =>
      rw [hlast] at h
      replace h := bind_eq_ok.mp h
      obtain ⟨⟨start, x', ss'⟩, hstart, h⟩ := h
      replace h := bind_eq_ok.mp h
      obtain ⟨all, hall, h⟩ := h
      obtain ⟨⟨result, c'⟩, htrust⟩ : ∃ r, ctx.checkTrust env ⟨all, start.lastUntrusted⟩ = r :=
        ⟨_, rfl⟩
      rw [htrust] at h
      obtain ⟨rfl, rfl, hmem, hhash⟩ | ⟨hpre, hlu, hlast'⟩ := startRound_ok hstart hlast
      -- The target is self-signed; there is no alternative chain.
      · obtain ⟨ts, rfl, hlinked, -, hfits⟩ := addTrusted_ok hall
          (isChain_singleton _) rfl hu.fits
        obtain ⟨us, hcerts, -⟩ := hu.shape
        obtain ⟨rfl, rfl⟩ : x = ctx.cert ∧ [] = us := by simpa using hcerts
        cases result with
        | trusted =>
          obtain ⟨rfl, -⟩ | ⟨x, rest, mx, -, hle, -, -⟩ := checkTrust_trusted htrust
          · obtain rfl : _ = c := Except.ok.inj h
            exact built_of_leaf_copy hmem hhash hfits fun _ => hlinked
          · simp at hle
        | rejected => cases h
        | untrusted => simp [findAlt] at h
      -- A part of the chain is kept.
      · have hne : start.certs ≠ [] := by
          intro hnil
          simp [hnil] at hlast'
        have hu' := hu.of_prefix hpre hne
        obtain ⟨ts, rfl, hlinked, hts, hfits⟩ := addTrusted_ok hall hu'.linked hlast' hu'.fits
        rw [hlu] at htrust
        cases result with
        | trusted =>
          obtain rfl : c' = c := Except.ok.inj h
          exact built_of_start hu' hlinked hts hfits htrust
        | rejected => cases h
        | untrusted =>
          obtain rfl := checkTrust_untrusted htrust
          simp only at h
          split at h
          · rename_i k halt
            split_ifs at halt
            obtain ⟨hk1, hk2⟩ := findAlt_eq_some halt
            rw [take_append_of_le_length hk2.le] at h
            refine buildRounds_ok h (hu'.of_prefix ( take_prefix _ _) ?_)
            intro hnil
            rcases take_eq_nil_iff.mp hnil with h0 | h0
            · omega
            · exact hne h0
          · cases h

lemma buildChain_ok (h : ctx.buildChain env = .ok c) : Built env ctx c := by
  replace h := bind_eq_ok.mp h
  obtain ⟨certs, hcerts, h⟩ := h
  obtain ⟨us, rfl, hlinked, hus, hfits⟩ := addUntrusted_ok hcerts (isChain_singleton _) rfl
    (by simp [Fits])
  exact buildRounds_ok h ⟨hlinked, hfits, us, rfl, hus⟩

end Rounds

section Termination

lemma bind_ne_fuel {α β : Type} {m : Except Failure α} {f : α → Except Failure β}
    (hm : m ≠ .error .fuel) (hf : ∀ a, m = .ok a → f a ≠ .error .fuel) :
    m >>= f ≠ .error .fuel := by
  cases m with
  | error e => exact fun h => hm (congrArg _ (Except.error.inj h))
  | ok a => exact hf a rfl

lemma certSelfSigned_ne_fuel (x : X509) : certSelfSigned x ≠ .error .fuel := by
  unfold certSelfSigned
  split_ifs <;> simp

lemma addUntrusted_ne_fuel : ∀ {fuel : ℕ} {sktmp certs : List X509} {x : X509},
    sktmp.length < fuel → ctx.addUntrusted fuel sktmp certs x ≠ .error .fuel
  | 0, sktmp, certs, x, h => absurd h (by omega)
  | fuel + 1, sktmp, certs, x, h => by
    rw [addUntrusted]
    split
    · simp
    refine bind_ne_fuel (certSelfSigned_ne_fuel x) fun selfSigned _ => ?_
    split
    · simp
    split
    · simp
    cases hissuer : findIssuer sktmp x with
    | none => simp
    | some issuer =>
      refine addUntrusted_ne_fuel ?_
      have hmem := (findIssuer_eq_some hissuer).1
      have := length_pos_of_mem hmem
      rw [length_erase_of_mem hmem]
      omega

lemma addTrusted_ne_fuel : ∀ {fuel : ℕ} {certs : List X509} {x : X509},
    (ctx.maxChain - certs.length).toNat < fuel → ctx.addTrusted fuel certs x ≠ .error .fuel
  | 0, certs, x, h => absurd h (by omega)
  | fuel + 1, certs, x, h => by
    rw [addTrusted]
    split
    · simp
    refine bind_ne_fuel (certSelfSigned_ne_fuel x) fun selfSigned _ => ?_
    split
    · simp
    cases ctx.getTrustedIssuer x with
    | none => simp
    | some issuer =>
      refine addTrusted_ne_fuel ?_
      simp only [length_append, length_singleton]
      omega

lemma startRound_ne_fuel (certs : List X509) (x : X509) (ss : Option X509) :
    ctx.startRound env certs x ss ≠ .error .fuel := by
  refine bind_ne_fuel (certSelfSigned_ne_fuel x) fun selfSigned _ => ?_
  split
  · grind
  · simp

lemma buildRounds_ne_fuel : ∀ {fuel : ℕ} {certs : List X509} {ss : Option X509},
    certs.length < fuel → ctx.buildRounds env fuel certs ss ≠ .error .fuel
  | 0, certs, ss, h => absurd h (by omega)
  | fuel + 1, certs, ss, h => by
    rw [buildRounds]
    cases hlast : certs.getLast? with
    | none => simp
    | some x =>
      refine bind_ne_fuel (startRound_ne_fuel certs x ss) ?_
      rintro ⟨start, x', ss'⟩ hstart
      refine bind_ne_fuel (addTrusted_ne_fuel (by omega)) fun all _ => ?_
      have hlen : start.certs.length ≤ certs.length := by
        obtain ⟨rfl, rfl, -⟩ | ⟨hpre, -⟩ := startRound_ok hstart hlast
        · rfl
        · exact hpre.length_le
      split
      · simp
      · simp
      · simp only
        split
        · rename_i k halt
          split_ifs at halt
          have hk := (findAlt_eq_some halt).2
          refine buildRounds_ne_fuel ?_
          rw [length_take]
          omega
        · simp

lemma buildChain_ne_fuel : ctx.buildChain env ≠ .error .fuel :=
  bind_ne_fuel (addUntrusted_ne_fuel (Nat.lt_succ_self _))
    fun _ _ => buildRounds_ne_fuel (Nat.lt_succ_self _)

end Termination

end StoreCtx

end BoringSSL
