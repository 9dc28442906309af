import BoringSSL.Lib.Bits
import BoringSSL.Proofs.X509Verify

/-!
# Host names and name constraints

A host that `X509_check_host` accepts is one a name of the certificate matches, and
`NAME_CONSTRAINTS_check` checks the name of the certificate.  For a name without a wildcard it is
the same.  A wildcard and a host it matches are in the same subtrees, apart from a subtree of one of
the two themselves.
-/

namespace BoringSSL

open ByteLib List

namespace NameCheck

variable {α : Type} {dns h : Bytes} {sub : GeneralSubtree} {gen : GeneralName} {x : Cert}
  {h base a b p : Bytes} {subs : List GeneralSubtree} {nc : NameConstraints}

/-! ## Subtrees -/

/-- In lower case. -/
def lower (s : Bytes) : Bytes := s.map opensslTolower

/-- The host is in the subtree. -/
def InDnsSubtree (h base : Bytes) : Prop :=
  base = [] ∨ (base.head? = some '.'.toUInt8 ∧ lower base <:+ lower h)
    ∨ lower h = lower base ∨ '.'.toUInt8 :: lower base <:+ lower h

instance (h base : Bytes) : Decidable (InDnsSubtree h base) := by
  unfold InDnsSubtree
  infer_instance

lemma opensslTolower_eq_dot : ∀ c : UInt8, opensslTolower c = '.'.toUInt8 ↔ c = '.'.toUInt8 :=
  forall_byte (by decide +kernel)

lemma opensslTolower_eq_star : ∀ c : UInt8, opensslTolower c = '*'.toUInt8 ↔ c = '*'.toUInt8 :=
  forall_byte (by decide +kernel)

lemma InDnsSubtree.congr {h' : Bytes} (heq : lower h = lower h') :
    InDnsSubtree h base ↔ InDnsSubtree h' base := by
  unfold InDnsSubtree
  rw [heq]

lemma equalCase_iff : ∀ {a b : Bytes}, equalCase a b = true ↔ lower a = lower b
  | [], [] => by simp [equalCase, lower]
  | [], _ :: _ => by simp [equalCase, lower]
  | _ :: _, [] => by simp [equalCase, lower]
  | l :: a, r :: b => by
    have ih := equalCase_iff (a := a) (b := b)
    simp only [equalCase, lower, length_cons, map_cons, List.cons.injEq] at ih ⊢
    by_cases hlen : a.length = b.length
    · grind
    · grind

lemma suffix_iff_drop {a b : List α} :
    b <:+ a ↔ b.length ≤ a.length ∧ a.drop (a.length - b.length) = b := by
  constructor
  · rintro ⟨t, rfl⟩
    simp
  · rintro ⟨-, h⟩
    exact ⟨_, (congrArg _ h.symm).trans (take_append_drop (a.length - b.length) a)⟩

lemma hasSuffixCase_iff : hasSuffixCase a b = true ↔ lower b <:+ lower a := by
  unfold hasSuffixCase
  rw [suffix_iff_drop]
  by_cases h : a.length < b.length
  · simp [h, lower]
  · rw [if_neg h, equalCase_iff]
    simp [lower, not_lt.mp h]

lemma dot_suffix_iff (pre : Bytes) (dot : UInt8) {rest : Bytes} (hlen : rest.length = base.length) :
    '.'.toUInt8 :: lower base <:+ lower (pre ++ dot :: rest)
      ↔ dot = '.'.toUInt8 ∧ equalCase rest base = true := by
  rw [equalCase_iff, ← opensslTolower_eq_dot]
  simp only [lower, map_append, map_cons]
  constructor
  · rintro ⟨t, ht⟩
    have := append_inj_right' ht (by simp [hlen])
    simp only [List.cons.injEq] at this
    exact ⟨this.1.symm, this.2.symm⟩
  · grind

lemma ncDns_eq_ok : ncDns dns base = .ok ↔ InDnsSubtree dns base := by
  unfold ncDns InDnsSubtree
  by_cases hempty : base = []
  · simp [hempty]
  rw [if_neg (by simpa using hempty)]
  by_cases hdot : base.head? = some '.'.toUInt8
  · have hsuffix : (lower dns = lower base ∨ '.'.toUInt8 :: lower base <:+ lower dns) →
        lower base <:+ lower dns := by
      rintro (h | h)
      · rw [h]
      · exact (suffix_cons _ _).trans h
    rw [if_pos (by simpa [startsWith] using hdot)]
    by_cases hs : hasSuffixCase dns base = true
    · simp [hs, hdot, hasSuffixCase_iff.mp hs]
    · have hno := mt hsuffix (mt hasSuffixCase_iff.mpr hs)
      simp [hs, mt hasSuffixCase_iff.mpr hs, hempty, hno]
  rw [if_neg (by simpa [startsWith] using hdot)]
  by_cases hlen : dns.length > base.length
  · have hne : lower dns ≠ lower base := fun h => by
      have := congrArg List.length h
      simp only [lower, length_map] at this
      omega
    rw [if_pos hlen]
    have hsplit := take_append_drop (dns.length - base.length - 1) dns
    have hrestLen : (dns.drop (dns.length - base.length - 1)).length = base.length + 1 := by
      rw [length_drop]
      omega
    cases hrest : dns.drop (dns.length - base.length - 1) with
    | nil => simp [hrest] at hrestLen
    | cons dot rest =>
      rw [hrest] at hsplit hrestLen
      have hiff := dot_suffix_iff (dns.take (dns.length - base.length - 1)) dot
        (Nat.succ.inj hrestLen)
      rw [hsplit] at hiff
      simp only [hempty, hdot, hne, hiff, false_or, false_and]
      by_cases h1 : dot = '.'.toUInt8 <;> by_cases h2 : equalCase rest base = true <;>
        simp [h1, h2]
  · have hno : ¬ '.'.toUInt8 :: lower base <:+ lower dns := fun h => by
      have := h.length_le
      simp only [lower, length_map, length_cons] at this
      omega
    rw [if_neg hlen, ← equalCase_iff]
    by_cases heq : equalCase dns base = true <;> simp [heq, hempty, hdot, hno]

lemma ncDns_ne_ok (h : ncDns dns base ≠ .ok) : ncDns dns base = .permittedViolation := by
  refine Or.resolve_left ?_ h
  unfold ncDns
  repeat' split
  all_goals simp

def dnsBases (subs : List GeneralSubtree) : List Bytes :=
  subs.filterMap fun sub => altString .dns sub.base

/-- The host obeys the constraints. -/
def Obeys (nc : NameConstraints) (h : Bytes) : Prop :=
  (dnsBases nc.permittedSubtrees ≠ [] →
    ∃ base ∈ dnsBases nc.permittedSubtrees, InDnsSubtree h base) ∧
  ∀ base ∈ dnsBases nc.excludedSubtrees, ¬ InDnsSubtree h base

instance (nc : NameConstraints) (h : Bytes) : Decidable (Obeys nc h) := by
  unfold Obeys
  infer_instance

lemma dnsBases_cons_dns {min max : Bool} :
    dnsBases (⟨.dns base, min, max⟩ :: subs) = base :: dnsBases subs := rfl

lemma dnsBases_cons_other (h : GenType.dns ≠ sub.base.type) :
    dnsBases (sub :: subs) = dnsBases subs := by
  obtain ⟨base, min, max⟩ := sub
  cases base <;> first | rfl | exact absurd rfl h

lemma exists_dns_of_type (h : GenType.dns = sub.base.type) :
    ∃ base, sub = ⟨.dns base, sub.minimum, sub.maximum⟩ := by
  obtain ⟨base, min, max⟩ := sub
  cases base <;> first | exact ⟨_, rfl⟩ | cases h

/-- The loop over the permitted subtrees has found one, or there is none of the type. -/
lemma matchPermitted_dns : ∀ {subs : List GeneralSubtree} {matched m : ℕ},
    matchPermitted (.dns a) subs matched = (.ok, m) → matched ≤ 2 → m ≠ 1 →
    matched = 2 ∨ (∃ base ∈ dnsBases subs, ncDns a base = .ok) ∨ matched = 0 ∧ dnsBases subs = []
  | [], matched, m, h, hle, hm => by
    obtain rfl : matched = m := by simpa [matchPermitted] using h
    rcases (by omega : matched = 0 ∨ matched = 2) with h0 | h2
    · exact .inr (.inr ⟨h0, rfl⟩)
    · exact .inl h2
  | sub :: subs, matched, m, h, hle, hm => by
    rw [matchPermitted] at h
    by_cases htype : GenType.dns = sub.base.type
    · obtain ⟨base, hsub⟩ := exists_dns_of_type htype
      rw [hsub] at h ⊢
      rw [dnsBases_cons_dns]
      simp only [GeneralName.type, ne_eq, not_true_eq_false, if_false] at h
      split at h
      · cases h
      split at h
      · exact .inl ‹_›
      · simp only [ncMatchSingle] at h
        by_cases hok : ncDns a base = .ok
        · exact .inr (.inl ⟨base, by simp, hok⟩)
        · rw [ncDns_ne_ok hok] at h
          rcases matchPermitted_dns h (by omega) hm with h2 | ⟨b, hb, hok⟩ | ⟨h0, -⟩
          · omega
          · exact .inr (.inl ⟨b, mem_cons_of_mem _ hb, hok⟩)
          · omega
    · rw [if_pos (by simpa [GeneralName.type] using htype)] at h
      rw [dnsBases_cons_other htype]
      exact matchPermitted_dns h hle hm

/-- A name that the loop over the excluded subtrees accepts is in none of its type. -/
lemma matchExcluded_ok : ∀ {subs : List GeneralSubtree},
    matchExcluded gen subs = .ok → ∀ sub ∈ subs, gen.type = sub.base.type →
      ncMatchSingle gen sub.base = .permittedViolation
  | [], _, _, hsub, _ => absurd hsub (not_mem_nil)
  | sub :: subs, h, s, hs, htype => by
    rw [matchExcluded] at h
    by_cases hother : gen.type ≠ sub.base.type
    · rw [if_pos hother] at h
      rcases mem_cons.mp hs with rfl | hs
      · exact absurd htype hother
      · exact matchExcluded_ok h s hs htype
    split_ifs at h
    split at h
    · cases h
    · rename_i hviolation
      rcases mem_cons.mp hs with rfl | hs
      · exact hviolation
      · exact matchExcluded_ok h s hs htype
    · rename_i hok _
      exact absurd h hok

lemma matchExcluded_dns (h : matchExcluded (.dns a) subs = .ok) :
    ∀ base ∈ dnsBases subs, ncDns a base ≠ .ok := by
  intro base hbase
  obtain ⟨⟨gen, min, max⟩, hsub, halt⟩ := mem_filterMap.mp hbase
  cases gen <;> simp only [altString, reduceCtorEq, Option.some.injEq] at halt
  have hviolation := matchExcluded_ok h _ hsub rfl
  rw [ncMatchSingle, halt] at hviolation
  rw [hviolation]
  simp

lemma matchExcluded_of_ncMatch (h : ncMatch gen nc = .ok) :
    matchExcluded gen nc.excludedSubtrees = .ok := by
  unfold ncMatch at h
  obtain ⟨⟨r, m⟩, hperm⟩ : ∃ p, matchPermitted gen nc.permittedSubtrees 0 = p := ⟨_, rfl⟩
  rw [hperm] at h
  cases r with
  | ok =>
    simp only at h
    split_ifs at h
    exact h
  | _ => cases h

lemma obeys_of_ncMatch (h : ncMatch (.dns a) nc = .ok) : Obeys nc a := by
  unfold ncMatch at h
  obtain ⟨⟨r, m⟩, hperm⟩ : ∃ p, matchPermitted (.dns a) nc.permittedSubtrees 0 = p := ⟨_, rfl⟩
  rw [hperm] at h
  cases r with
  | ok =>
    simp only at h
    split_ifs at h with hm
    refine ⟨fun hne => ?_, fun base hb => ?_⟩
    · rcases matchPermitted_dns hperm (by omega) hm with h2 | ⟨base, hb, hok⟩ | ⟨-, hnil⟩
      · omega
      · exact ⟨base, hb, ncDns_eq_ok.mp hok⟩
      · exact absurd hnil hne
    · exact mt ncDns_eq_ok.mpr (matchExcluded_dns h base hb)
  | _ => cases h

lemma ncMatchAll_ok : ∀ {gens : List GeneralName},
    ncMatchAll nc gens = .ok → ∀ gen ∈ gens, ncMatch gen nc = .ok
  | [], _ => by simp
  | gen :: gens, h => by
    rw [ncMatchAll] at h
    cases hgen : ncMatch gen nc with
    | ok =>
      rw [hgen] at h
      exact forall_mem_cons.mpr ⟨hgen, ncMatchAll_ok h⟩
    | _ => simp [hgen] at h

lemma nameConstraintsCheck_ok (h : nameConstraintsCheck x nc = .ok) :
    ncMatchAll nc (x.altname.get.getD []) = .ok := by
  unfold nameConstraintsCheck at h
  simp only at h
  split at h
  · cases h
  · split at h
    · exact h
    · rename_i hr
      exact absurd h hr

/-! ## Wildcards -/

lemma equalNocaseChars_iff : ∀ {a b : Bytes}, a.length = b.length →
    (equalNocaseChars a b = true ↔ lower a = lower b ∧ 0 ∉ a)
  | [], [], _ => by simp [equalNocaseChars, lower]
  | l :: a, r :: b, hlen => by
    have ih := equalNocaseChars_iff (a := a) (b := b) (by simpa using hlen)
    have hchar : (l ≠ r ∧ opensslTolower l ≠ opensslTolower r) ↔
        opensslTolower l ≠ opensslTolower r :=
      ⟨And.right, fun h => ⟨fun heq => h (congrArg _ heq), h⟩⟩
    simp only [equalNocaseChars, hchar]
    simp only [lower, map_cons, List.cons.injEq, mem_cons, not_or] at ih ⊢
    by_cases hzero : l = 0
    · simp [hzero]
    by_cases heq : opensslTolower l = opensslTolower r
    · simp [hzero, heq, ih, Ne.symm hzero]
    · simp [hzero, heq]

lemma equalNocase_iff : equalNocase a b = true ↔ lower a = lower b ∧ 0 ∉ a := by
  unfold equalNocase
  by_cases hlen : a.length = b.length
  · rw [if_neg (not_not.mpr hlen), equalNocaseChars_iff hlen]
  · have hne : lower a ≠ lower b := fun h => hlen (by simpa [lower] using congrArg List.length h)
    simp [hlen, hne]

lemma equalNocase_lower (h : equalNocase a b = true) : lower a = lower b :=
  (equalNocase_iff.mp h).1

/-- One character of `valid_star`: the star, of which there is one at the start of the first label,
or another one, after which there is no place for it. -/
lemma validStarLoop_cons {c : UInt8} {i : ℕ} {st st' : StarState}
    (h : validStarLoop (c :: p) i st = some st') :
    ∃ next, validStarLoop p (i + 1) next = some st' ∧
      ((c = '*'.toUInt8 ∧ st.star = none ∧ st.dots = 0 ∧ st.labelStart = true
          ∧ (p = [] ∨ p.head? = some '.'.toUInt8)
          ∧ next = { st with star := some i, labelStart := false })
        ∨ (next.star = st.star ∧ (next.labelStart = false ∨ next.dots ≠ 0))) := by
  rw [validStarLoop] at h
  by_cases hstar : c = '*'.toUInt8
  · rw [if_pos hstar] at h
    simp only at h
    split_ifs at h with h1 h2
    simp only [not_or, not_not, Option.isSome_iff_ne_none, Bool.not_eq_true',
      Bool.not_eq_false] at h1 h2
    exact ⟨_, h, .inl ⟨hstar, h1.1, h1.2.2, h2.1, by tauto, rfl⟩⟩
  rw [if_neg hstar] at h
  by_cases halnum : opensslIsalnum c = true
  · rw [if_pos halnum] at h
    exact ⟨_, h, .inr ⟨rfl, .inl rfl⟩⟩
  rw [if_neg halnum] at h
  by_cases hdot : c = '.'.toUInt8
  · grind
  rw [if_neg hdot] at h
  split_ifs at h with hhyphen hstart
  exact ⟨_, h, .inr ⟨rfl, .inl (by simpa using hstart)⟩⟩

lemma validStarLoop_none : ∀ {p : Bytes} {i : ℕ} {st st' : StarState},
    validStarLoop p i st = some st' → st.star = none → st.labelStart = false ∨ st.dots ≠ 0 →
    st'.star = none
  | [], i, st, st', h, hstar, _ => by
    obtain rfl : st = st' := by simpa [validStarLoop] using h
    exact hstar
  | c :: p, i, st, st', h, hstar, hlate => by
    obtain ⟨next, h, ⟨-, -, hdots, hstart, -⟩ | ⟨hnext, hlate'⟩⟩ := validStarLoop_cons h
    · simp [hdots, hstart] at hlate
    · exact validStarLoop_none h (hnext.trans hstar) hlate'

lemma validStarLoop_some : ∀ {p : Bytes} {i star : ℕ} {st st' : StarState},
    validStarLoop p i st = some st' → st.star = some star → st'.star = some star
  | [], i, star, st, st', h, hstar => by
    obtain rfl : st = st' := by simpa [validStarLoop] using h
    exact hstar
  | c :: p, i, star, st, st', h, hstar => by
    obtain ⟨next, h, ⟨-, hnone, -⟩ | ⟨hnext, -⟩⟩ := validStarLoop_cons h
    · simp [hnone] at hstar
    · exact validStarLoop_some h (hnext.trans hstar)

lemma validStar_eq_some {star : ℕ} (h : validStar p = some star) :
    star = 0 ∧ ∃ d, p = '*'.toUInt8 :: d ∧ d.head? = some '.'.toUInt8 := by
  replace h := Option.bind_eq_some_iff.mp h
  obtain ⟨st, hloop, h⟩ := h
  split_ifs at h with hend
  cases p with
  | nil =>
    obtain rfl : _ = st := Option.some.inj hloop
    simp at h
  | cons c d =>
    obtain ⟨next, hloop, ⟨rfl, -, -, -, hd, rfl⟩ | ⟨hnext, hlate⟩⟩ := validStarLoop_cons hloop
    · rw [validStarLoop_some hloop rfl] at h
      refine ⟨(Option.some.inj h).symm, d, rfl, hd.resolve_left ?_⟩
      rintro rfl
      obtain rfl : _ = st := Option.some.inj hloop
      simp at hend
    · simp [validStarLoop_none hloop hnext hlate] at h

/-- A wildcard, and a host with a label in its place. -/
structure Expands (p h : Bytes) : Prop where
  split : ∃ d l e, p = '*'.toUInt8 :: d ∧ d.head? = some '.'.toUInt8 ∧ h = l ++ e
    ∧ lower e = lower d ∧ '.'.toUInt8 ∉ lower l

lemma dot_notMem_lower {l : Bytes}
    (h : (l.all fun p => opensslIsalnum p || p = '-'.toUInt8) = true) :
    '.'.toUInt8 ∉ lower l := by
  intro hmem
  obtain ⟨c, hc, hlow⟩ := List.mem_map.mp hmem
  have hchar := List.all_eq_true.mp h c hc
  rw [(opensslTolower_eq_dot c).mp hlow] at hchar
  exact absurd hchar (by decide)

lemma wildcardMatch_expands {d : Bytes} (hd : d.head? = some '.'.toUInt8)
    (hmatch : wildcardMatch [] d h = true) : Expands ('*'.toUInt8 :: d) h := by
  unfold wildcardMatch at hmatch
  simp only [length_nil, zero_add, drop_zero, Nat.sub_zero] at hmatch
  split_ifs at hmatch with hlen hpre hend hidna hxn hwild
  all_goals
    have hl : '.'.toUInt8 ∉ lower (h.take (h.length - d.length)) := by
      first
        | (rw [hwild]; decide)
        | exact dot_notMem_lower hmatch
    exact ⟨d, _, _, rfl, hd, (take_append_drop _ _).symm,
      equalNocase_lower (by simpa using hend), hl⟩

/-- A host that matches a name of a certificate is the name itself, or it is one of a wildcard. -/
lemma equalWildcard_cases (heq : equalWildcard p h = true) : lower p = lower h ∨ Expands p h := by
  unfold equalWildcard at heq
  simp only at heq
  split at heq
  · exact .inl (equalNocase_lower heq)
  · rename_i star hstar
    split_ifs at hstar
    obtain ⟨rfl, d, rfl, hd⟩ := validStar_eq_some hstar
    exact .inr (wildcardMatch_expands hd heq)

lemma suffix_of_notMem {x : α} {t e : List α} : ∀ {l : List α},
    x :: t <:+ l ++ e → x ∉ l → x :: t <:+ e
  | [], h, _ => h
  | y :: l, h, hl => by
    rcases suffix_cons_iff.mp h with heq | hs
    · exact absurd (by rw [(List.cons.inj heq).1]; simp) hl
    · exact suffix_of_notMem hs fun hmem => hl (mem_cons_of_mem _ hmem)

lemma Expands.suffix_iff {t : Bytes} (hx : Expands p h) :
    '.'.toUInt8 :: t <:+ lower p ↔ '.'.toUInt8 :: t <:+ lower h := by
  obtain ⟨d, l, e, rfl, -, rfl, hed, hl⟩ := hx
  have hp : lower ('*'.toUInt8 :: d) = ['*'.toUInt8] ++ lower d := by
    simp [lower, (opensslTolower_eq_star _).mpr rfl]
  have hh : lower (l ++ e) = lower l ++ lower d := by
    rw [← hed]
    simp [lower]
  rw [hp, hh]
  exact ⟨fun h => (suffix_of_notMem h (by decide)).trans (suffix_append _ _),
    fun h => (suffix_of_notMem h hl).trans (suffix_append _ _)⟩

lemma lower_of_dot (h : base.head? = some '.'.toUInt8) : ∃ t, lower base = '.'.toUInt8 :: t := by
  obtain ⟨t, rfl⟩ := head?_eq_some_iff.mp h
  exact ⟨lower t, by simp [lower, (opensslTolower_eq_dot _).mpr rfl]⟩

/-- A wildcard and a host of it are in the same subtrees but for those of the two themselves. -/
lemma Expands.inDnsSubtree (hx : Expands p h) :
    (InDnsSubtree p base → lower base ≠ lower p → InDnsSubtree h base)
      ∧ (InDnsSubtree h base → lower base ≠ lower h → InDnsSubtree p base) := by
  constructor
  · rintro (hb | ⟨hb, hs⟩ | heq | hs) hbase
    · exact .inl hb
    · obtain ⟨t, ht⟩ := lower_of_dot hb
      rw [ht, hx.suffix_iff, ← ht] at hs
      exact .inr (.inl ⟨hb, hs⟩)
    · exact absurd heq.symm hbase
    · exact .inr (.inr (.inr (hx.suffix_iff.mp hs)))
  · rintro (hb | ⟨hb, hs⟩ | heq | hs) hbase
    · exact .inl hb
    · obtain ⟨t, ht⟩ := lower_of_dot hb
      rw [ht, ← hx.suffix_iff, ← ht] at hs
      exact .inr (.inl ⟨hb, hs⟩)
    · exact absurd heq.symm hbase
    · exact .inr (.inr (.inr (hx.suffix_iff.mpr hs)))

/-- Nothing but the wildcard is in its subtree. -/
lemma Expands.notIn_wildcard (hx : Expands p h) (hin : InDnsSubtree h base)
    (hbase : lower base = lower p) : lower base = lower h := by
  have hlower : ∃ t, lower base = '*'.toUInt8 :: t := by
    obtain ⟨d, -, -, rfl, -⟩ := hx
    exact ⟨lower d, hbase.trans (by simp [lower, (opensslTolower_eq_star _).mpr rfl])⟩
  obtain ⟨t, ht⟩ := hlower
  rcases hin with rfl | ⟨hdot, -⟩ | heq | hs
  · cases ht
  · obtain ⟨t', ht'⟩ := lower_of_dot hdot
    rw [ht'] at ht
    exact absurd (List.cons.inj ht).1 (by decide)
  · exact heq.symm
  · rw [hbase, ← hx.suffix_iff] at hs
    have := hs.length_le
    simp at this

/-- The constraints treat the host `h` as they treat the name `p` that matches it: `h` is `p`, or it
is no excluded base, and a permitted base is `h` or has `p` in it and is not `p`. -/
def Spares (nc : NameConstraints) (p h : Bytes) : Prop :=
  lower p = lower h ∨
    ((dnsBases nc.permittedSubtrees ≠ [] → ∃ base ∈ dnsBases nc.permittedSubtrees,
        lower base = lower h ∨ (InDnsSubtree p base ∧ lower base ≠ lower p))
      ∧ ∀ base ∈ dnsBases nc.excludedSubtrees, lower base ≠ lower h)

instance (nc : NameConstraints) (p h : Bytes) : Decidable (Spares nc p h) := by
  unfold Spares
  infer_instance

lemma Obeys.of_lower_eq (hp : Obeys nc p) (hsame : lower p = lower h) :
    Obeys nc h ↔ Spares nc p h := by
  simpa only [Obeys, Spares, InDnsSubtree.congr hsame, hsame, true_or, iff_true] using hp

lemma Expands.obeys_iff (hx : Expands p h) (hp : Obeys nc p) : Obeys nc h ↔ Spares nc p h := by
  by_cases hsame : lower p = lower h
  · exact hp.of_lower_eq hsame
  simp only [Spares, hsame, false_or]
  refine and_congr (imp_congr_right fun _ => exists_congr fun base => and_congr_right fun _ => ?_)
    (forall₂_congr fun base hb => ?_)
  · constructor
    · intro hin
      by_cases hself : lower base = lower h
      · exact .inl hself
      · exact .inr ⟨hx.inDnsSubtree.2 hin hself, fun hbase => hself (hx.notIn_wildcard hin hbase)⟩
    · rintro (hself | ⟨hin, hbase⟩)
      · exact .inr (.inr (.inl hself.symm))
      · exact hx.inDnsSubtree.1 hin hbase
  · exact ⟨fun hnot hself => hnot (.inr (.inr (.inl hself.symm))),
      fun hself hin => hp.2 base hb (hx.inDnsSubtree.2 hin hself)⟩

lemma equalFn_obeys_iff {flags : HostFlags} (heq : equalFn .dns flags p h = true)
    (hp : Obeys nc p) : Obeys nc h ↔ Spares nc p h := by
  have hcases : lower p = lower h ∨ Expands p h := by
    unfold equalFn at heq
    simp only at heq
    split_ifs at heq
    · exact .inl (equalNocase_lower heq)
    · exact equalWildcard_cases heq
  rcases hcases with hsame | hx
  · exact hp.of_lower_eq hsame
  · exact hx.obeys_iff hp

end NameCheck

namespace StoreCtx

open NameCheck

variable {env : VerifyEnv} {ctx : StoreCtx}

/-! ## Hosts -/

lemma firstNonzero_pos : ∀ {rvs : List ℤ}, 0 < firstNonzero rvs → ∃ rv ∈ rvs, 0 < rv
  | [], h => by simp [firstNonzero] at h
  | rv :: rvs, h => by
    rw [firstNonzero] at h
    split_ifs at h
    · exact ⟨rv, by simp, h⟩
    · obtain ⟨rv', hmem, hpos⟩ := firstNonzero_pos h
      exact ⟨rv', mem_cons_of_mem _ hmem, hpos⟩

lemma x509CheckHost_pos {flags : HostFlags} (hpos : 0 < x509CheckHost env.toUtf8 x h flags) :
    (∃ gens p, x.altname.get = some gens ∧ .dns p ∈ gens ∧ equalFn .dns flags p h = true)
    ∨ (x.altname.get = none ∧ ∃ cn ∈ x.subject.byNid nidCommonName, ∃ idval,
        env.toUtf8 cn = some idval ∧ x509v3LooksLikeDnsName idval = true) := by
  unfold x509CheckHost at hpos
  split_ifs at hpos
  · exact absurd hpos (by decide)
  unfold doX509Check at hpos
  cases halt : x.altname.get with
  | some gens =>
    simp only [halt] at hpos
    obtain ⟨rv, hrv, hpos⟩ := firstNonzero_pos hpos
    obtain ⟨p, hp, rfl⟩ := List.mem_map.mp hrv
    obtain ⟨gen, hgen, hstr⟩ := mem_filterMap.mp hp
    obtain rfl : gen = .dns p := by
      cases gen <;> simp [altString] at hstr
      rw [hstr]
    refine .inl ⟨gens, p, rfl, hgen, ?_⟩
    by_contra heq
    simp [checkAltString, heq] at hpos
  | none =>
    simp only [halt] at hpos
    split_ifs at hpos
    · exact absurd hpos (by decide)
    obtain ⟨rv, hrv, hpos⟩ := firstNonzero_pos hpos
    obtain ⟨cn, hcn, rfl⟩ := List.mem_map.mp hrv
    refine .inr ⟨rfl, cn, hcn, ?_⟩
    unfold checkSubjectString at hpos
    split_ifs at hpos
    · exact absurd hpos (by decide)
    cases hutf : env.toUtf8 cn with
    | none => simp [hutf] at hpos
    | some idval =>
      grind

lemma rejectDnsNameInCommonName_ok : ∀ {cns : List Asn1String},
    rejectDnsNameInCommonName env cns = .ok →
    ∀ cn ∈ cns, ∃ idval, env.toUtf8 cn = some idval ∧ x509v3LooksLikeDnsName idval = false
  | [], _ => by simp
  | cn :: cns, h => by
    rw [rejectDnsNameInCommonName] at h
    cases hutf : env.toUtf8 cn with
    | none => simp [hutf] at h
    | some idval =>
      simp only [hutf] at h
      split_ifs at h with hlooks
      exact forall_mem_cons.mpr
        ⟨⟨idval, hutf, by simpa using hlooks⟩, rejectDnsNameInCommonName_ok h⟩

lemma checkConstraints_ok : ∀ {above : List X509}, checkConstraints x above = .ok () →
    ∀ y ∈ above, ∀ nc, y.cert.nc.get = some nc → nameConstraintsCheck x nc = .ok
  | [], _ => by simp
  | y :: above, h => by
    rw [checkConstraints] at h
    cases hnc : y.cert.nc.get with
    | none =>
      rw [hnc] at h
      refine forall_mem_cons.mpr ⟨fun nc hsome => ?_, checkConstraints_ok h⟩
      simp [hnc] at hsome
    | some nc =>
      simp only [hnc, bind_eq_ok, failIf_eq_ok] at h
      obtain ⟨⟨⟩, hcheck, h⟩ := h
      refine forall_mem_cons.mpr ⟨fun nc' hsome => ?_, checkConstraints_ok h⟩
      obtain rfl : nc = nc' := by simpa [hnc] using hsome
      simpa using hcheck

lemma checkNamesBelow_ok : ∀ {below above : List X509} {leaf : X509},
    checkNamesBelow above (below ++ [leaf]) = .ok () →
    ∀ y ∈ above ++ below, ∀ nc, y.cert.nc.get = some nc → nameConstraintsCheck leaf.cert nc = .ok
  | [], above, leaf, h => by
    simp only [nil_append, checkNamesBelow, ne_eq, not_true_eq_false, false_and, if_false,
      bind_eq_ok] at h
    obtain ⟨⟨⟩, hcheck, -⟩ := h
    simpa using checkConstraints_ok hcheck
  | x :: below, above, leaf, h => by
    have hnext : checkNamesBelow (above ++ [x]) (below ++ [leaf]) = .ok () := by
      simp only [cons_append, checkNamesBelow] at h
      split at h <;> exact (bind_eq_ok.mp h).choose_spec.2
    simpa using checkNamesBelow_ok hnext

lemma checkNameConstraints_ok {c : Chain} {leaf : X509} {rest : List X509}
    (h : checkNameConstraints env c = .ok ()) (hcerts : c.certs = leaf :: rest) :
    (∀ y ∈ rest, ∀ nc, y.cert.nc.get = some nc → nameConstraintsCheck leaf.cert nc = .ok)
    ∧ ((∃ y ∈ rest, y.cert.nc.get.isSome) → leaf.cert.altname.get = none →
      rejectDnsNameInCommonName env (leaf.cert.subject.byNid nidCommonName) = .ok) := by
  simp only [checkNameConstraints, hcerts, reverse_cons, bind_eq_ok] at h
  obtain ⟨⟨⟩, hbelow, h⟩ := h
  refine ⟨by simpa using checkNamesBelow_ok hbelow, fun hsome hnone => ?_⟩
  have hhas : hasNameConstraints c = true := by
    simpa [hasNameConstraints, hcerts] using hsome
  simp only [hhas, hnone, Option.isNone_none, and_self, if_true, failIf_eq_ok] at h
  simpa using h

lemma checkId_host (hid : ctx.checkId env = .ok ()) (hhosts : ctx.param.hosts = some [h]) :
    0 < x509CheckHost env.toUtf8 ctx.cert.cert h ctx.param.hostflags := by
  simp only [checkId, bind_eq_ok, failIf_eq_ok] at hid
  obtain ⟨-, -, ⟨⟩, hhost, -⟩ := hid
  simpa [hhosts, checkHosts] using hhost

/-- Above the leaf of a verified chain there are constraints only if a name in its extension matches
the host, and the host obeys them exactly if they treat it as they treat that name. -/
theorem x509VerifyCert_host_obeys (env : VerifyEnv) (ctx : StoreCtx) (c : Chain) (h : Bytes)
    (hverify : ctx.x509VerifyCert env = .ok c) (hhosts : ctx.param.hosts = some [h]) :
    Collision env ctx ∨ ∀ x ∈ c.certs.tail, ∀ nc, x.cert.nc.get = some nc →
      ∃ gens, ctx.cert.cert.altname.get = some gens
        ∧ (∃ p, .dns p ∈ gens ∧ equalFn .dns ctx.param.hostflags p h = true)
        ∧ ∀ p, .dns p ∈ gens → equalFn .dns ctx.param.hostflags p h = true →
          (Obeys nc h ↔ Spares nc p h) := by
  refine or_iff_not_imp_left.mpr fun hno x hx nc hnc => ?_
  have hv := x509VerifyCert_ok hverify
  obtain ⟨leaf, rest, hcerts, hleaf⟩ := (buildChain_ok hv.built).leaf.resolve_left hno
  obtain ⟨hcheck, hcn⟩ := checkNameConstraints_ok hv.names hcerts
  rw [hcerts, tail_cons] at hx
  have hpos := checkId_host hv.id hhosts
  rw [hleaf] at hcheck hcn
  rcases x509CheckHost_pos hpos with
    ⟨gens, p, halt, hp, heq⟩ | ⟨hnone, cn, hmem, idval, hutf, hlooks⟩
  · refine ⟨gens, halt, ⟨p, hp, heq⟩, fun p hp heq => ?_⟩
    have hmatch := ncMatchAll_ok (nameConstraintsCheck_ok (hcheck x hx nc hnc)) (.dns p)
      (by simpa [halt] using hp)
    exact equalFn_obeys_iff heq (obeys_of_ncMatch hmatch)
  -- The common name is not looked at when there are constraints.
  · obtain ⟨idval', hutf', hno⟩ := rejectDnsNameInCommonName_ok
      (hcn ⟨x, hx, by simp [hnc]⟩ hnone) cn hmem
    obtain rfl : idval = idval' := by simpa [hutf] using hutf'
    simp [hlooks] at hno

def wildcardLeaf : X509 :=
  ⟨1, { plainCert 1 2 .absent with altname := .present [.dns [42, 46, 97, 46, 98]] }, none⟩

def constrainedRoot (nc : NameConstraints) : X509 :=
  ⟨2, { plainCert 2 2 plainCa with nc := .present nc }, none⟩

def hostCtx (nc : NameConstraints) : StoreCtx where
  objs := [constrainedRoot nc]
  cert := wildcardLeaf
  untrusted := []
  trustedStack := none
  param := { plainParam with hosts := some [[115, 46, 97, 46, 98]] }

def broadConstraints : NameConstraints :=
  ⟨[⟨.dns [98], false, false⟩], [⟨.dns [120, 46, 97, 46, 98], false, false⟩]⟩

theorem x509VerifyCert_host_obeys_broad :
    (hostCtx broadConstraints).x509VerifyCert plainEnv
      = .ok ⟨[wildcardLeaf, constrainedRoot broadConstraints], 1⟩ ∧
    Spares broadConstraints [42, 46, 97, 46, 98] [115, 46, 97, 46, 98] ∧
    Obeys broadConstraints [115, 46, 97, 46, 98] := by
  have hrun : (hostCtx broadConstraints).x509VerifyCert plainEnv
      = .ok ⟨[wildcardLeaf, constrainedRoot broadConstraints], 1⟩ := by decide +kernel
  have hno : ¬ Collision plainEnv (hostCtx broadConstraints) := by
    unfold Collision
    decide +kernel
  have hspares : Spares broadConstraints [42, 46, 97, 46, 98] [115, 46, 97, 46, 98] := by
    decide +kernel
  obtain ⟨gens, hgens, -, hobeys⟩ :=
    (x509VerifyCert_host_obeys plainEnv _ _ _ hrun rfl).resolve_left
    hno _ (mem_singleton_self _) broadConstraints rfl
  obtain rfl : [.dns [42, 46, 97, 46, 98]] = gens := Option.some.inj hgens
  exact ⟨hrun, hspares, (hobeys _ (mem_singleton_self _) (by decide +kernel)).mpr hspares⟩

def excludesHost : NameConstraints := ⟨[], [⟨.dns [115, 46, 97, 46, 98], false, false⟩]⟩

def permitsWildcard : NameConstraints := ⟨[⟨.dns [42, 46, 97, 46, 98], false, false⟩], []⟩

theorem x509VerifyCert_host_disobeys :
    ((hostCtx excludesHost).x509VerifyCert plainEnv
        = .ok ⟨[wildcardLeaf, constrainedRoot excludesHost], 1⟩
      ∧ plainEnv.certHash (constrainedRoot excludesHost).cert ≠ plainEnv.certHash wildcardLeaf.cert
      ∧ ¬ Obeys excludesHost [115, 46, 97, 46, 98]) ∧
    ((hostCtx permitsWildcard).x509VerifyCert plainEnv
        = .ok ⟨[wildcardLeaf, constrainedRoot permitsWildcard], 1⟩
      ∧ plainEnv.certHash (constrainedRoot permitsWildcard).cert
        ≠ plainEnv.certHash wildcardLeaf.cert
      ∧ ¬ Obeys permitsWildcard [115, 46, 97, 46, 98]) := by
  decide +kernel

end StoreCtx

end BoringSSL
