import BoringSSL.Oid
import BoringSSL.Lib.Bits
import BoringSSL.Proofs.Cbs

/-!
# Object identifiers and their text

Both functions are read as relations between components, bytes and text: an object identifier is the
base-128 groups of its components, the first of which holds the first two numbers of the text
(`firstArcs`), and the text is their decimals with dots between (`cbsAsn1OidToText_iff`,
`oidFromText_iff`).
-/

namespace BoringSSL

open ByteLib List

variable {v : ℕ} {d n : ℕ} {s rest text : Bytes} {ns : List ℕ}

/-! ## Decimals -/

lemma decimal_of_lt_ten (h : d < 10) : decimal d = [UInt8.ofNat (0x30 + d)] := by
  rw [decimal]
  split
  · simp [*]
  · rw [Nat.digits_of_lt 10 d (by assumption) h]
    rfl

lemma decimal_step (hn : 0 < n) (hd : d < 10) :
    decimal (10 * n + d) = decimal n ++ [UInt8.ofNat (0x30 + d)] := by
  rw [decimal, decimal, if_neg (by omega), if_neg (by omega), add_comm,
    Nat.digits_add 10 (by norm_num) d n hd (Or.inr (by omega))]
  simp

lemma decimal_ne_nil (n : ℕ) : decimal n ≠ [] := by
  rw [decimal]
  split
  · simp
  · simpa using Nat.digits_ne_nil_iff_ne_zero.mpr (by assumption)

/-- No digit follows. -/
def NoDigit (rest : Bytes) : Prop := ∀ c ∈ rest.head?, opensslIsdigit c = false

lemma digitValue_toNat (hd : d < 10) : (UInt8.ofNat (0x30 + d) - 0x30).toUInt64.toNat = d := by
  have : ∀ d < 10, (UInt8.ofNat (0x30 + d) - 0x30).toUInt64.toNat = d := by decide
  exact this d hd

lemma getU64DecimalLoop_digit (v : UInt64) (seen : Bool) (hd : d < 10) (s : Bytes) :
    getU64DecimalLoop v seen (UInt8.ofNat (0x30 + d) :: s)
      = if (v = 0 ∧ seen = true) ∨ 2 ^ 64 ≤ 10 * v.toNat + d then none
        else getU64DecimalLoop (UInt64.ofNat (10 * v.toNat + d)) true s := by
  have hdigit : opensslIsdigit (UInt8.ofNat (0x30 + d)) = true :=
    opensslIsdigit_iff.mpr ⟨d, hd, rfl⟩
  have hlow := digitValue_toNat hd
  have htenth : v > 0xffffffffffffffff / 10 ↔ 1844674407370955161 < v.toNat := by
    rfl
  have hover : v > 0xffffffffffffffff / 10
      ∨ v * 10 > 0xffffffffffffffff - (UInt8.ofNat (0x30 + d) - 0x30).toUInt64
      ↔ 2 ^ 64 ≤ 10 * v.toNat + d := by
    by_cases hbig : v > 0xffffffffffffffff / 10
    · have := htenth.mp hbig
      simp only [hbig, true_or, true_iff]
      omega
    · have hsmall := mt htenth.mpr hbig
      have hmul : (v * 10).toNat = v.toNat * 10 := by
        rw [UInt64.toNat_mul]
        exact Nat.mod_eq_of_lt (by simp only [UInt64.reduceToNat]; omega)
      have hsub : ((0xffffffffffffffff : UInt64) - (UInt8.ofNat (0x30 + d) - 0x30).toUInt64).toNat
          = 0xffffffffffffffff - d := by
        rw [UInt64.toNat_sub_of_le _ _ (by
          rw [UInt64.le_iff_toNat_le, hlow]
          simp only [UInt64.reduceToNat]
          omega), hlow]
        rfl
      simp only [hbig, false_or, gt_iff_lt, UInt64.lt_iff_toNat_lt, hmul, hsub]
      omega
  rw [getU64DecimalLoop]
  simp only [hdigit, Bool.not_true, Bool.false_eq_true, if_false, hover]
  by_cases hstop : (v = 0 ∧ seen = true) ∨ 2 ^ 64 ≤ 10 * v.toNat + d
  · rw [if_pos hstop, if_pos hstop]
  · rw [if_neg hstop, if_neg hstop]
    congr 1
    apply UInt64.toNat_inj.mp
    rw [UInt64.toNat_add, UInt64.toNat_mul, hlow, UInt64.toNat_ofNat']
    simp only [UInt64.reduceToNat]
    omega

lemma getU64DecimalLoop_decimal (s : Bytes) : ∀ n : ℕ, n < 2 ^ 64 →
    getU64DecimalLoop 0 false (decimal n ++ s) = getU64DecimalLoop (UInt64.ofNat n) true s := by
  intro n
  induction n using Nat.strong_induction_on generalizing s with
  | _ n ih =>
    intro hn
    by_cases hten : n < 10
    · rw [decimal_of_lt_ten hten, singleton_append, getU64DecimalLoop_digit _ _ hten, if_neg]
      · simp
      · grind
    · have hquot : (UInt64.ofNat (n / 10)).toNat = n / 10 := by
        rw [UInt64.toNat_ofNat']
        omega
      have hne : UInt64.ofNat (n / 10) ≠ 0 := fun h => by
        have := congrArg UInt64.toNat h
        rw [hquot, UInt64.toNat_zero] at this
        omega
      rw [← Nat.div_add_mod n 10, decimal_step (by omega) (Nat.mod_lt _ (by norm_num)),
        append_assoc, ih (n / 10) (by omega) _ (by omega), singleton_append,
        getU64DecimalLoop_digit _ _ (Nat.mod_lt _ (by norm_num)), hquot, if_neg]
      simp only [hne, false_and, false_or]
      omega

lemma getU64DecimalLoop_sound : ∀ {s rest : Bytes} {v n : UInt64} {seen : Bool},
    (seen = false → v = 0) → getU64DecimalLoop v seen s = some (n, rest) →
    (if seen then decimal v.toNat else []) ++ s = decimal n.toNat ++ rest ∧ NoDigit rest
  | [], rest, v, n, seen, _, h => by
    cases seen with
    | false => simp [getU64DecimalLoop] at h
    | true =>
      obtain ⟨rfl, rfl⟩ := h
      simp [NoDigit]
  | c :: s, rest, v, n, seen, hv, h => by
    by_cases hc : opensslIsdigit c = true
    · obtain ⟨d, hd, rfl⟩ := opensslIsdigit_iff.mp hc
      rw [getU64DecimalLoop_digit _ _ hd] at h
      split at h
      · simp at h
      rename_i hgo
      have hfits : (UInt64.ofNat (10 * v.toNat + d)).toNat = 10 * v.toNat + d := by
        rw [UInt64.toNat_ofNat']
        omega
      obtain ⟨heq, hno⟩ := getU64DecimalLoop_sound (fun h => by simp at h) h
      refine ⟨?_, hno⟩
      rw [← heq, hfits]
      cases seen with
      | false => simp [hv rfl, decimal_of_lt_ten hd]
      | true =>
        have hpos : 0 < v.toNat := Nat.pos_of_ne_zero fun h0 =>
          hgo (Or.inl ⟨UInt64.toNat_inj.mp h0, rfl⟩)
        simp [decimal_step hpos hd]
    · rw [getU64DecimalLoop, Bool.not_eq_true] at *
      cases seen with
      | false => simp [hc] at h
      | true =>
        simp only [hc, Bool.not_false, if_true, Option.some.injEq, Prod.mk.injEq] at h
        obtain ⟨rfl, rfl⟩ := h
        simp [NoDigit, hc]

lemma cbsGetU64Decimal_iff {n : UInt64} :
    cbsGetU64Decimal s = some (n, rest) ↔ s = decimal n.toNat ++ rest ∧ NoDigit rest := by
  constructor
  · intro h
    simpa using getU64DecimalLoop_sound (fun _ => rfl) h
  · rintro ⟨rfl, hno⟩
    rw [cbsGetU64Decimal, getU64DecimalLoop_decimal _ _ n.toNat_lt, UInt64.ofNat_toNat]
    cases rest with
    | nil => rfl
    | cons c rest =>
      have hc : opensslIsdigit c = false := hno c rfl
      simp [getU64DecimalLoop, hc]

lemma parseDottedDecimal_iff {v : UInt64} :
    parseDottedDecimal s = some (v, rest) ↔
      s = decimal v.toNat ++ (if rest = [] then [] else 0x2e :: rest) := by
  rw [parseDottedDecimal]
  constructor
  · intro h
    obtain ⟨⟨n, cbs⟩, hn, hdots⟩ := Option.bind_eq_some_iff.mp h
    obtain ⟨rfl, -⟩ := cbsGetU64Decimal_iff.mp hn
    cases cbs with
    | nil =>
      grind
    | cons dot cbs =>
      grind
  · rintro rfl
    by_cases hrest : rest = []
    · subst hrest
      rw [if_pos rfl, cbsGetU64Decimal_iff.mpr ⟨rfl, by simp [NoDigit]⟩]
      rfl
    · rw [if_neg hrest, cbsGetU64Decimal_iff.mpr ⟨rfl, by simp [NoDigit, opensslIsdigit]⟩]
      simp [hrest]

/-! ## Components -/

def firstArcs (v : ℕ) : ℕ × ℕ := if 80 ≤ v then (2, v - 80) else (v / 40, v % 40)

def dotted (ns : List ℕ) : Bytes := ns.flatMap fun n => 0x2e :: decimal n

def oidBytes (v : ℕ) (ns : List ℕ) : Bytes := base128 v ++ ns.flatMap base128

def oidText (v : ℕ) (ns : List ℕ) : Bytes :=
  decimal (firstArcs v).1 ++ dotted ((firstArcs v).2 :: ns)

/-- The arcs fit in 64 bits. -/
def Fits64 (ns : List ℕ) : Prop := ∀ n ∈ ns, n < 2 ^ 64

lemma parseBase128Integer_base128 (hn : n < 2 ^ 64) (rest : Bytes) :
    parseBase128Integer 0 (base128 n ++ rest) = some (UInt64.ofNat n, rest) := by
  rw [parseBase128Integer_iff, UInt64.toNat_ofNat', Nat.mod_eq_of_lt hn]

lemma base128_length_pos (n : ℕ) : 0 < (base128 n).length :=
  length_pos_iff.mpr (base128_ne_nil n)

/-! ## From bytes to text -/

lemma oidToTextLoop_iff {t : Bytes} : ∀ {fuel : ℕ} {s : Bytes}, s.length ≤ fuel →
    (oidToTextLoop fuel s = some t ↔
      ∃ ns, Fits64 ns ∧ s = ns.flatMap base128 ∧ t = dotted ns)
  | fuel, [], _ => by
    have hnil : ∀ ns : List ℕ, [] = ns.flatMap base128 ↔ ns = [] := by
      intro ns
      cases ns with
      | nil => simp
      | cons n ns => simp [base128_ne_nil]
    cases fuel <;> simp [oidToTextLoop, hnil, Fits64, dotted, eq_comm]
  | 0, _ :: _, h => by simp at h
  | fuel + 1, b :: s, h => by
    simp only [oidToTextLoop, Option.bind_eq_bind, Option.pure_def, Option.bind_eq_some_iff,
      Prod.exists, Option.some.injEq]
    constructor
    · rintro ⟨v, rest, hv, text, htext, rfl⟩
      rw [parseBase128Integer_iff] at hv
      have hlen := congrArg List.length hv
      rw [length_append] at hlen
      have hpos := base128_length_pos v.toNat
      obtain ⟨ns, hfits, rfl, rfl⟩ := (oidToTextLoop_iff (by omega)).mp htext
      refine ⟨v.toNat :: ns, ?_, by simpa using hv, by simp [dotted]⟩
      exact forall_mem_cons.mpr ⟨v.toNat_lt, hfits⟩
    · rintro ⟨ns, hfits, hs, rfl⟩
      cases ns with
      | nil => simp at hs
      | cons n ns =>
        obtain ⟨hn, hfits⟩ := forall_mem_cons.mp hfits
        rw [flatMap_cons] at hs
        have hlen := congrArg List.length hs
        rw [length_append] at hlen
        have hpos := base128_length_pos n
        refine ⟨UInt64.ofNat n, ns.flatMap base128, ?_, dotted ns, ?_, ?_⟩
        · rw [hs, parseBase128Integer_base128 hn]
        · exact (oidToTextLoop_iff (by omega)).mpr ⟨ns, hfits, rfl, rfl⟩
        · rw [UInt64.toNat_ofNat', Nat.mod_eq_of_lt hn]
          simp [dotted]

lemma firstArcs_text (v : UInt64) :
    (if v ≥ 80 then [0x32, 0x2e] ++ decimal (v - 80).toNat
      else decimal (v / 40).toNat ++ [0x2e] ++ decimal (v % 40).toNat)
      = decimal (firstArcs v.toNat).1 ++ 0x2e :: decimal (firstArcs v.toNat).2 := by
  have hge : v ≥ 80 ↔ 80 ≤ v.toNat := by
    rfl
  rw [firstArcs]
  by_cases h : 80 ≤ v.toNat
  · rw [if_pos (hge.mpr h), if_pos h, UInt64.toNat_sub_of_le _ _ (hge.mpr h)]
    simp [decimal_of_lt_ten (show 2 < 10 by norm_num)]
  · rw [if_neg (mt hge.mp h), if_neg h, UInt64.toNat_div, UInt64.toNat_mod]
    simp

lemma cbsAsn1OidToText_iff {o t : Bytes} : cbsAsn1OidToText o = some t ↔
    ∃ v ns, v < 2 ^ 64 ∧ Fits64 ns ∧ o = oidBytes v ns ∧ t = oidText v ns := by
  simp only [cbsAsn1OidToText, Option.bind_eq_bind, Option.pure_def, Option.bind_eq_some_iff,
    Prod.exists, Option.some.injEq, firstArcs_text]
  constructor
  · rintro ⟨v, rest, hv, text, htext, rfl⟩
    rw [parseBase128Integer_iff] at hv
    obtain ⟨ns, hfits, rfl, rfl⟩ := (oidToTextLoop_iff le_rfl).mp htext
    exact ⟨v.toNat, ns, v.toNat_lt, hfits, hv, by simp [oidText, dotted]⟩
  · rintro ⟨v, ns, hv, hfits, rfl, rfl⟩
    refine ⟨UInt64.ofNat v, ns.flatMap base128, parseBase128Integer_base128 hv _, dotted ns,
      (oidToTextLoop_iff le_rfl).mpr ⟨ns, hfits, rfl, rfl⟩, ?_⟩
    rw [UInt64.toNat_ofNat', Nat.mod_eq_of_lt hv]
    simp [oidText, dotted]

/-! ## From text to bytes -/

lemma appends_addBase128Integer (hv : v < 2 ^ 64) :
    Appends (fun cbb d => addBase128Integer cbb d v) (base128 v) := by
  have hgroups := appends_base128Groups v ((Nat.digits 128 (v / 128)).length + 1) (Nat.succ_pos _)
  rw [base128Groups_eq (v := v) rfl] at hgroups
  intro cbb lim oc front fs hs
  simp only [addBase128Integer, base128LenLen_or_one hv]
  exact hgroups hs

/-- The text that is left after a component: its dot has been read. -/
def AfterDot (text : Bytes) (ns : List ℕ) : Prop :=
  (if text = [] then [] else 0x2e :: text) = dotted ns

lemma afterDot_nil : AfterDot [] ns ↔ ns = [] := by
  cases ns with
  | nil => simp [AfterDot, dotted]
  | cons n ns => simp [AfterDot, dotted]

lemma afterDot_cons_iff : AfterDot text (n :: ns) ↔ text = decimal n ++ dotted ns := by
  rw [AfterDot]
  by_cases htext : text = []
  · simp [htext, dotted, decimal_ne_nil]
  · simp [htext, dotted]

lemma afterDot_cons : AfterDot text (n :: ns) ↔
    ∃ rest, text = decimal n ++ (if rest = [] then [] else 0x2e :: rest) ∧ AfterDot rest ns := by
  rw [afterDot_cons_iff]
  constructor
  · rintro rfl
    cases ns with
    | nil => exact ⟨[], by simp [dotted], afterDot_nil.mpr rfl⟩
    | cons m ns =>
      have hne : decimal m ++ dotted ns ≠ [] := by simp [decimal_ne_nil]
      refine ⟨decimal m ++ dotted ns, ?_, ?_⟩
      · rw [if_neg hne]
        simp [dotted]
      · rw [AfterDot, if_neg hne]
        simp [dotted]
  · rintro ⟨rest, rfl, hrest⟩
    rw [hrest]

lemma afterDot_cons_parse (hn : n < 2 ^ 64) :
    AfterDot text (n :: ns) ↔
      ∃ rest, parseDottedDecimal text = some (UInt64.ofNat n, rest) ∧ AfterDot rest ns := by
  simp only [afterDot_cons, parseDottedDecimal_iff, UInt64.toNat_ofNat', Nat.mod_eq_of_lt hn]

lemma length_parseDottedDecimal {v : UInt64} (h : parseDottedDecimal s = some (v, rest)) :
    rest.length < s.length := by
  have hpos := length_pos_iff.mpr (decimal_ne_nil v.toNat)
  rw [parseDottedDecimal_iff.mp h, length_append]
  split
  · simp [*]
  · simp only [length_cons]
    omega

section Writing

variable {lim : ℕ} {oc : List CbbChild}

/-- A call on a CBB with nothing open below it succeeds for the lists of components in `P`, where
their bytes fit, and appends them. -/
def WritesOid (run : Bool × Cbb) (lim : ℕ) (oc : List CbbChild) (front : Bytes)
    (P : List ℕ → Prop) : Prop :=
  (run.1 = true → ∃ ns, P ns) ∧ ∀ ns, P ns →
    ((front ++ ns.flatMap base128).length ≤ lim →
      run.1 = true ∧ Stands run.2 lim oc (front ++ ns.flatMap base128) [])
    ∧ (¬ (front ++ ns.flatMap base128).length ≤ lim → run.1 = false)

lemma addOidComponents_writes : ∀ {fuel : ℕ} {text : Bytes} {cbb : Cbb} {front : Bytes},
    text.length ≤ fuel → Stands cbb lim oc front [] →
    WritesOid (addOidComponents fuel text cbb oc.length) lim oc front
      fun ns => Fits64 ns ∧ AfterDot text ns
  | fuel, [], cbb, front, _, hs => by
    have hrun : addOidComponents fuel [] cbb oc.length = (true, cbb) := by
      cases fuel <;> rfl
    rw [hrun]
    refine ⟨fun _ => ⟨[], by simp [Fits64], afterDot_nil.mpr rfl⟩, ?_⟩
    rintro ns ⟨-, hns⟩
    rw [afterDot_nil.mp hns]
    exact ⟨fun _ => ⟨rfl, by simpa using hs⟩, fun h => absurd (by simpa using hs.length_le) h⟩
  | 0, _ :: _, _, _, h, _ => by simp at h
  | fuel + 1, c :: text, cbb, front, hfuel, hs => by
    simp only [addOidComponents]
    cases hparse : parseDottedDecimal (c :: text) with
    | none =>
      refine ⟨fun h => by simp at h, ?_⟩
      rintro ns ⟨hfits, hns⟩
      cases ns with
      | nil => simp [AfterDot, dotted] at hns
      | cons n ns =>
        obtain ⟨rest, hsome, -⟩ := (afterDot_cons_parse (hfits n mem_cons_self)).mp hns
        simp [hparse] at hsome
    | some r =>
      obtain ⟨a, rest⟩ := r
      simp only []
      have hrest : rest.length ≤ fuel := by
        have := length_parseDottedDecimal hparse
        omega
      have ha := a.toNat_lt
      obtain ⟨hok, hbad⟩ := appends_addBase128Integer ha hs
      simp only [frameBytes, List.append_nil, FramesFit, true_and] at hok hbad
      by_cases hfit : (front ++ base128 a.toNat).length ≤ lim
      · obtain ⟨hadd, hstands⟩ := hok hfit
        obtain ⟨hsome, hrun⟩ := addOidComponents_writes hrest hstands
        simp only [hadd, Bool.not_true, Bool.false_eq_true, if_false]
        refine ⟨fun h => ?_, ?_⟩
        · obtain ⟨ms, hfits, hms⟩ := hsome h
          refine ⟨a.toNat :: ms, forall_mem_cons.mpr ⟨ha, hfits⟩, ?_⟩
          exact (afterDot_cons_parse ha).mpr ⟨rest, by rw [hparse, UInt64.ofNat_toNat], hms⟩
        · rintro ns ⟨hfits, hns⟩
          cases ns with
          | nil => simp [AfterDot, dotted] at hns
          | cons n ms =>
            obtain ⟨hn, hms⟩ := forall_mem_cons.mp hfits
            obtain ⟨rest', hsome', hafter⟩ := (afterDot_cons_parse hn).mp hns
            rw [hparse, Option.some.injEq, Prod.mk.injEq] at hsome'
            obtain ⟨ha', rfl⟩ := hsome'
            obtain rfl : a.toNat = n := by rw [ha', UInt64.toNat_ofNat', Nat.mod_eq_of_lt hn]
            simpa using hrun ms ⟨hms, hafter⟩
      · obtain ⟨hadd, -⟩ := hbad hfit
        rw [if_pos (by simp [hadd])]
        refine ⟨fun h => absurd (hadd.symm.trans h) (by simp), ?_⟩
        rintro ns ⟨hfits, hns⟩
        cases ns with
        | nil => simp [AfterDot, dotted] at hns
        | cons n ms =>
          have hn := hfits n mem_cons_self
          obtain ⟨rest', hsome', -⟩ := (afterDot_cons_parse hn).mp hns
          rw [hparse, Option.some.injEq, Prod.mk.injEq] at hsome'
          obtain rfl : a.toNat = n := by rw [hsome'.1, UInt64.toNat_ofNat', Nat.mod_eq_of_lt hn]
          refine ⟨fun hle => absurd ?_ hfit, fun _ => hadd⟩
          simp only [flatMap_cons, length_append] at hle ⊢
          omega

lemma firstArcs_eq_iff {a b : ℕ} : v < 2 ^ 64 ∧ firstArcs v = (a, b) ↔
    v = 40 * a + b ∧ a ≤ 2 ∧ (a < 2 → b ≤ 39) ∧ b ≤ 2 ^ 64 - 1 - 80 := by
  rw [firstArcs]
  split <;> simp only [Prod.mk.injEq] <;> omega

lemma refusesArcs_iff (a b : UInt64) :
    (a > 2 ∨ (a < 2 ∧ b > 39) ∨ b > 0xffffffffffffffff - 80)
      ↔ ¬ (a.toNat ≤ 2 ∧ (a.toNat < 2 → b.toNat ≤ 39) ∧ b.toNat ≤ 2 ^ 64 - 1 - 80) := by
  have hmax : ((0xffffffffffffffff : UInt64) - 80).toNat = 2 ^ 64 - 1 - 80 := rfl
  simp only [gt_iff_lt, UInt64.lt_iff_toNat_lt, hmax, UInt64.reduceToNat]
  omega

lemma afterDot_oidText {text : Bytes} {ns : List ℕ} :
    text = oidText v ns ↔ AfterDot text ((firstArcs v).1 :: (firstArcs v).2 :: ns) := by
  rw [afterDot_cons_iff]
  rfl

lemma cbbAddAsn1OidFromText_writes {cbb : Cbb} {front : Bytes} (text : Bytes)
    (hs : Stands cbb lim oc front []) :
    WritesOid (cbbAddAsn1OidFromText cbb oc.length text) lim oc front
      fun ns => Fits64 ns ∧ ∃ v ms, ns = v :: ms ∧ text = oidText v ms := by
  obtain ⟨c1, hflush, hs1⟩ := hs.flush.1 ⟨trivial, by simpa [frameBytes] using hs.length_le⟩
  simp only [cbbAddAsn1OidFromText, hflush, Bool.not_true, Bool.false_eq_true, if_false]
  -- the numbers of a text that is one, as they are parsed from it
  have hparsed : ∀ v ms, v < 2 ^ 64 → text = oidText v ms → ∃ a b rest rest',
      parseDottedDecimal text = some (a, rest) ∧ parseDottedDecimal rest = some (b, rest')
        ∧ firstArcs v = (a.toNat, b.toNat) ∧ AfterDot rest' ms := by
    intro v ms hv htext
    obtain ⟨⟨a, b⟩, harcs⟩ : ∃ r, firstArcs v = r := ⟨_, rfl⟩
    obtain ⟨-, h1, h2, h3⟩ := firstArcs_eq_iff.mp ⟨hv, harcs⟩
    have ha : a < 2 ^ 64 := by omega
    have hb : b < 2 ^ 64 := by omega
    have htext' := afterDot_oidText.mp htext
    rw [harcs] at htext'
    obtain ⟨rest, hp, hafter⟩ := (afterDot_cons_parse ha).mp htext'
    obtain ⟨rest', hp', hafter'⟩ := (afterDot_cons_parse hb).mp hafter
    refine ⟨_, _, rest, rest', hp, hp', ?_, hafter'⟩
    rw [harcs, UInt64.toNat_ofNat', UInt64.toNat_ofNat', Nat.mod_eq_of_lt ha, Nat.mod_eq_of_lt hb]
  cases hp : parseDottedDecimal text with
  | none =>
    refine ⟨fun h => by simp at h, ?_⟩
    rintro ns ⟨hfits, v, ms, rfl, htext⟩
    obtain ⟨a, b, rest, rest', hp', -⟩ := hparsed v ms (hfits v mem_cons_self) htext
    simp [hp] at hp'
  | some r =>
    obtain ⟨a, rest⟩ := r
    cases hq : parseDottedDecimal rest with
    | none =>
      simp only [hq]
      refine ⟨fun h => by simp at h, ?_⟩
      rintro ns ⟨hfits, v, ms, rfl, htext⟩
      obtain ⟨a', b, rest₁, rest', hp', hq', -⟩ := hparsed v ms (hfits v mem_cons_self) htext
      rw [hp, Option.some.injEq, Prod.mk.injEq] at hp'
      simp [← hp'.2, hq] at hq'
    | some r =>
      obtain ⟨b, rest'⟩ := r
      simp only [hq]
      have hcomponents : ∀ v ms, v < 2 ^ 64 → text = oidText v ms →
          firstArcs v = (a.toNat, b.toNat) ∧ AfterDot rest' ms := by
        grind
      by_cases hrefuse : a > 2 ∨ (a < 2 ∧ b > 39) ∨ b > 0xffffffffffffffff - 80
      · rw [if_pos hrefuse]
        refine ⟨fun h => by simp at h, ?_⟩
        rintro ns ⟨hfits, v, ms, rfl, htext⟩
        have hv := hfits v mem_cons_self
        have harcs := (firstArcs_eq_iff.mp ⟨hv, (hcomponents v ms hv htext).1⟩).2
        exact absurd harcs ((refusesArcs_iff a b).mp hrefuse)
      · rw [if_neg hrefuse]
        have hallowed := not_not.mp (mt (refusesArcs_iff a b).mpr hrefuse)
        obtain ⟨hv, harcs⟩ := firstArcs_eq_iff.mpr ⟨rfl, hallowed⟩
        have hsum : (40 * a + b).toNat = 40 * a.toNat + b.toNat := by
          rw [UInt64.toNat_add, UInt64.toNat_mul]
          simp only [UInt64.reduceToNat]
          omega
        rw [hsum]
        obtain ⟨hok, hbad⟩ := appends_addBase128Integer hv hs1
        simp only [frameBytes, List.append_nil, FramesFit, true_and] at hok hbad
        -- the first component is what the two numbers make
        have hfirst : ∀ v ms, v < 2 ^ 64 → text = oidText v ms →
            v = 40 * a.toNat + b.toNat ∧ AfterDot rest' ms := by
          intro v ms hv' htext
          obtain ⟨h1, h2⟩ := hcomponents v ms hv' htext
          exact ⟨(firstArcs_eq_iff.mp ⟨hv', h1⟩).1, h2⟩
        by_cases hfit : (front ++ base128 (40 * a.toNat + b.toNat)).length ≤ lim
        · obtain ⟨hadd, hstands⟩ := hok hfit
          obtain ⟨hsome, hrun⟩ := addOidComponents_writes (le_refl rest'.length) hstands
          simp only [hadd, Bool.not_true, Bool.false_eq_true, if_false]
          refine ⟨fun h => ?_, ?_⟩
          · obtain ⟨ms, hfits, hafter⟩ := hsome h
            refine ⟨_ :: ms, forall_mem_cons.mpr ⟨hv, hfits⟩, _, ms, rfl, ?_⟩
            rw [afterDot_oidText, harcs]
            refine (afterDot_cons_parse a.toNat_lt).mpr ⟨rest, by rw [hp, UInt64.ofNat_toNat], ?_⟩
            exact (afterDot_cons_parse b.toNat_lt).mpr
              ⟨rest', by rw [hq, UInt64.ofNat_toNat], hafter⟩
          · rintro ns ⟨hfits, v, ms, rfl, htext⟩
            obtain ⟨hv', hms⟩ := forall_mem_cons.mp hfits
            obtain ⟨rfl, hafter⟩ := hfirst v ms hv' htext
            simpa using hrun ms ⟨hms, hafter⟩
        · obtain ⟨hadd, -⟩ := hbad hfit
          rw [if_pos (by simp [hadd])]
          refine ⟨fun h => absurd (hadd.symm.trans h) (by simp), ?_⟩
          rintro ns ⟨hfits, v, ms, rfl, htext⟩
          obtain ⟨rfl, -⟩ := hfirst v ms (hfits v mem_cons_self) htext
          refine ⟨fun hle => absurd ?_ hfit, fun _ => hadd⟩
          simp only [flatMap_cons, length_append] at hle ⊢
          omega

end Writing

/-! ## Validity -/

/-- A loop that stands in a component, of which it has read the groups of `m`. -/
lemma isValidAsn1OidLoop_sound : ∀ {s : Bytes} {prev : UInt8} {m : ℕ},
    (prev &&& 0x80 = 0 ↔ m = 0) → isValidAsn1OidLoop prev s = true →
    ∃ ns : List ℕ, base128Cont m ++ s = ns.flatMap base128
  | [], prev, m, hm, h => by
    have hzero : m = 0 := hm.mp (by simpa [isValidAsn1OidLoop] using h)
    exact ⟨[], by simp [hzero, base128Cont_zero]⟩
  | v :: s, prev, m, hm, h => by
    rw [isValidAsn1OidLoop] at h
    split at h
    · simp at h
    rename_i hmin
    have hv := v.toNat_lt
    by_cases hlow : v.toNat < 128
    · obtain ⟨ns, hns⟩ := isValidAsn1OidLoop_sound (m := 0) (by simp [highBit_iff, hlow]) h
      refine ⟨(128 * m + v.toNat) :: ns, ?_⟩
      have hdiv : (128 * m + v.toNat) / 128 = m := by omega
      have hmod : (128 * m + v.toNat) % 128 = v.toNat := by omega
      rw [base128Cont_zero, nil_append] at hns
      rw [flatMap_cons, base128_eq_cont, hdiv, hmod, UInt8.ofNat_toNat, ← hns]
      simp
    · have hpos : 0 < 128 * m + v.toNat % 128 := by
        by_contra hzero
        have hm0 : m = 0 := by omega
        refine hmin ⟨hm.mpr hm0, UInt8.toNat_inj.mp ?_⟩
        have h128 : (0x80 : UInt8).toNat = 128 := rfl
        omega
      obtain ⟨ns, hns⟩ := isValidAsn1OidLoop_sound (m := 128 * m + v.toNat % 128)
        (by rw [highBit_iff]; omega) h
      refine ⟨ns, ?_⟩
      have hdiv : (128 * m + v.toNat % 128) / 128 = m := by omega
      have hmod : 128 + (128 * m + v.toNat % 128) % 128 = v.toNat := by omega
      rw [base128Cont_pos hpos, hdiv, hmod, UInt8.ofNat_toNat] at hns
      simpa using hns

lemma isValidAsn1OidLoop_cont (s : Bytes) {prev : UInt8} (hprev : prev &&& 0x80 = 0) :
    ∀ m : ℕ, ∃ last : UInt8, (last &&& 0x80 = 0 ↔ m = 0)
      ∧ isValidAsn1OidLoop prev (base128Cont m ++ s) = isValidAsn1OidLoop last s := by
  intro m
  induction m using Nat.strong_induction_on generalizing s with
  | _ m ih =>
    by_cases hm : m = 0
    · exact ⟨prev, by simp [hprev, hm], by simp [hm, base128Cont_zero]⟩
    · have hbyte : (UInt8.ofNat (128 + m % 128)).toNat = 128 + m % 128 := by
        rw [UInt8.toNat_ofNat']
        omega
      obtain ⟨last, hlast, hrun⟩ := ih (m / 128) (by omega) (UInt8.ofNat (128 + m % 128) :: s)
      refine ⟨UInt8.ofNat (128 + m % 128), by rw [highBit_iff, hbyte]; omega, ?_⟩
      rw [base128Cont_pos (by omega), append_assoc, singleton_append, hrun,
        isValidAsn1OidLoop, if_neg]
      rintro ⟨hfirst, heq⟩
      have := congrArg UInt8.toNat heq
      have hdiv := hlast.mp hfirst
      simp only [UInt8.reduceToNat] at this
      omega

lemma isValidAsn1OidLoop_base128 : ∀ {ns : List ℕ} {prev : UInt8}, prev &&& 0x80 = 0 →
    isValidAsn1OidLoop prev (ns.flatMap base128) = true
  | [], prev, h => by simp [isValidAsn1OidLoop, h]
  | n :: ns, prev, h => by
    obtain ⟨last, hlast, hrun⟩ :=
      isValidAsn1OidLoop_cont ([UInt8.ofNat (n % 128)] ++ ns.flatMap base128) h (n / 128)
    have hbyte : (UInt8.ofNat (n % 128)).toNat = n % 128 := by
      rw [UInt8.toNat_ofNat']
      omega
    rw [flatMap_cons, base128_eq_cont, append_assoc, hrun, singleton_append,
      isValidAsn1OidLoop, if_neg]
    · exact isValidAsn1OidLoop_base128 (by rw [highBit_iff, hbyte]; omega)
    · rintro ⟨-, heq⟩
      have := congrArg UInt8.toNat heq
      simp only [UInt8.reduceToNat] at this
      omega

lemma cbsIsValidAsn1Oid_iff {o : Bytes} :
    cbsIsValidAsn1Oid o = true ↔ ∃ v ns, o = oidBytes v ns := by
  rw [cbsIsValidAsn1Oid]
  constructor
  · intro h
    cases o with
    | nil => simp at h
    | cons b o =>
      have hloop : isValidAsn1OidLoop 0 (b :: o) = true := by simpa using h
      obtain ⟨ns, hns⟩ := isValidAsn1OidLoop_sound (m := 0) (by simp) hloop
      cases ns with
      | nil => simp at hns
      | cons v ns => exact ⟨v, ns, hns⟩
  · rintro ⟨v, ns, rfl⟩
    have hne : (oidBytes v ns).isEmpty = false := by
      simp [oidBytes, base128_ne_nil]
    rw [hne]
    have hloop : isValidAsn1OidLoop 0 ((v :: ns).flatMap base128) = true :=
      isValidAsn1OidLoop_base128 (by decide)
    exact hloop

/-! ## The round trip -/

lemma oidFromText_iff (cap : Fin sizeMod) (fill : UInt8) {text o : Bytes} :
    oidFromText cap fill text = some o ↔ o.length < sizeMod
      ∧ ∃ v ns, v < 2 ^ 64 ∧ Fits64 ns ∧ text = oidText v ns ∧ o = oidBytes v ns := by
  have hroot := (CbbRoot.growable cap fill).stands
  obtain ⟨hsome, hrun⟩ := cbbAddAsn1OidFromText_writes text hroot
  have hlim : (CbbRoot.growable cap fill).limit = sizeMod - 1 := rfl
  have hsize : 0 < sizeMod := by decide
  simp only [length_nil, nil_append] at hsome hrun
  simp only [oidFromText]
  constructor
  · intro h
    split at h
    · rename_i hok
      obtain ⟨ns, hfits, v, ms, rfl, htext⟩ := hsome hok
      have hlen : ((v :: ms).flatMap base128).length ≤ sizeMod - 1 := by
        grind
      obtain ⟨-, hstands⟩ := (hrun _ ⟨hfits, v, ms, rfl, htext⟩).1 (by rwa [hlim])
      rw [hstands.finish ⟨trivial, by simpa [frameBytes] using hstands.length_le⟩,
        Option.some.injEq] at h
      have ho : o = oidBytes v ms := by
        rw [← h]
        simp [frameBytes, oidBytes]
      obtain ⟨hv, hms⟩ := forall_mem_cons.mp hfits
      refine ⟨?_, v, ms, hv, hms, htext, ho⟩
      rw [ho, oidBytes, ← flatMap_cons]
      omega
    · simp at h
  · rintro ⟨hlen, v, ns, hv, hns, htext, rfl⟩
    have hfits : Fits64 (v :: ns) := forall_mem_cons.mpr ⟨hv, hns⟩
    have hbytes : (v :: ns).flatMap base128 = oidBytes v ns := rfl
    obtain ⟨hok, hstands⟩ := (hrun _ ⟨hfits, v, ns, rfl, htext⟩).1 (by
      rw [hlim, hbytes]
      omega)
    rw [hbytes] at hstands
    rw [if_pos hok, hstands.finish ⟨trivial, by simpa [frameBytes] using hstands.length_le⟩]
    simp [frameBytes]

/-- Bytes and text are turned into each other and back, and only a component of more than 64 bits
keeps a valid object identifier from being turned into text. -/
theorem oid_text_roundTrip (cap : Fin sizeMod) (fill : UInt8) :
    (∀ (o : SizedBytes) (t : Bytes), cbsAsn1OidToText o.1 = some t →
      cbsIsValidAsn1Oid o.1 = true ∧ oidFromText cap fill t = some o.1)
    ∧ (∀ t o : Bytes, oidFromText cap fill t = some o → cbsAsn1OidToText o = some t)
    ∧ ∀ o : Bytes, cbsIsValidAsn1Oid o = true → cbsAsn1OidToText o = none →
      (∃ ns : List ℕ, o = ns.flatMap base128)
        ∧ ∀ ns : List ℕ, o = ns.flatMap base128 → ∃ n ∈ ns, 2 ^ 64 ≤ n := by
  refine ⟨fun o t h => ?_, fun t o h => ?_, fun o hvalid hnone => ?_⟩
  · obtain ⟨v, ns, hv, hns, ho, ht⟩ := cbsAsn1OidToText_iff.mp h
    exact ⟨cbsIsValidAsn1Oid_iff.mpr ⟨v, ns, ho⟩,
      (oidFromText_iff cap fill).mpr ⟨o.2, v, ns, hv, hns, ht, ho⟩⟩
  · obtain ⟨-, v, ns, hv, hns, ht, ho⟩ := (oidFromText_iff cap fill).mp h
    exact cbsAsn1OidToText_iff.mpr ⟨v, ns, hv, hns, ho, ht⟩
  · obtain ⟨v, ns, rfl⟩ := cbsIsValidAsn1Oid_iff.mp hvalid
    refine ⟨⟨v :: ns, rfl⟩, fun ms hms => ?_⟩
    by_contra hsmall
    have hfits : Fits64 ms := fun n hn => by
      by_contra hbig
      exact hsmall ⟨n, hn, Nat.le_of_not_lt hbig⟩
    cases ms with
    | nil => simp [oidBytes, base128_ne_nil] at hms
    | cons w ms =>
      obtain ⟨hw, hms'⟩ := forall_mem_cons.mp hfits
      have hsome := cbsAsn1OidToText_iff.mpr ⟨w, ms, hw, hms', hms, rfl⟩
      simp [hnone] at hsome

theorem oid_text_roundTrip_rsadsi :
    cbsAsn1OidToText [0x2a, 0x86, 0x48] = some [0x31, 0x2e, 0x32, 0x2e, 0x38, 0x34, 0x30]
      ∧ cbsIsValidAsn1Oid [0x2a, 0x86, 0x48] = true
      ∧ oidFromText 0 0 [0x31, 0x2e, 0x32, 0x2e, 0x38, 0x34, 0x30] = some [0x2a, 0x86, 0x48]
      ∧ cbsIsValidAsn1Oid [0x2a, 0x82, 0x80, 0x80, 0x80, 0x80, 0x80, 0x80, 0x80, 0x80, 0x00] = true
      ∧ cbsAsn1OidToText [0x2a, 0x82, 0x80, 0x80, 0x80, 0x80, 0x80, 0x80, 0x80, 0x80, 0x00] = none
      ∧ ∃ ns : List ℕ, [0x2a, 0x82, 0x80, 0x80, 0x80, 0x80, 0x80, 0x80, 0x80, 0x80, 0x00]
        = ns.flatMap base128 := by
  obtain ⟨hto, -, hbig⟩ := oid_text_roundTrip 0 0
  have htext : cbsAsn1OidToText [0x2a, 0x86, 0x48]
      = some [0x31, 0x2e, 0x32, 0x2e, 0x38, 0x34, 0x30] := by
    decide +kernel
  obtain ⟨hvalid, hback⟩ := hto ⟨[0x2a, 0x86, 0x48], by decide⟩ _ htext
  have hlong : cbsAsn1OidToText
      [0x2a, 0x82, 0x80, 0x80, 0x80, 0x80, 0x80, 0x80, 0x80, 0x80, 0x00] = none := by
    decide +kernel
  exact ⟨htext, hvalid, hback, by decide, hlong, (hbig _ (by decide) hlong).1⟩

end BoringSSL
