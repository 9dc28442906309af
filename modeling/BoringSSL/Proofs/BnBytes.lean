import BoringSSL.BnBytes

/-!
# Reading a number from bytes overwrites the old one, but not always its sign

`BN_bin2bn` of no bytes keeps the sign of the number it writes to (`bnBin2bn_reads_iff`), and
`BN_lebin2bn` of some bytes does (`bnLebin2bn_reads_iff`).  Both leave what they read exactly when
that number is not negative (`bytesMeet_iff`).
-/

namespace BoringSSL.BigNum

open ByteLib List

variable {bn : Bignum} {words v : ℕ} {s : Bytes} {bs : Bytes} {ret : Bignum} {neg : Bool}

lemma beNat_replicate_zero (k : ℕ) : beNat (replicate k 0) = 0 := by
  induction k with
  | zero => rfl
  | succ k ih => rw [replicate_succ', beNat_concat, ih]; rfl

lemma beNat_pad (k : ℕ) (bs : Bytes) : beNat (replicate k 0 ++ bs) = beNat bs := by
  rw [beNat_append, beNat_replicate_zero, zero_mul, zero_add]

lemma leNat_pad (bs : Bytes) (k : ℕ) : leNat (bs ++ replicate k 0) = leNat bs := by
  rw [leNat, reverse_append, reverse_replicate, beNat_pad, leNat]

lemma leNat_append (as bs : Bytes) : leNat (as ++ bs) = leNat bs * 256 ^ as.length + leNat as := by
  rw [leNat, reverse_append, beNat_append, length_reverse, leNat, leNat]

lemma beBytes_pad {w : ℕ} (h : bs.length ≤ w) :
    beBytes w (beNat bs) = replicate (w - bs.length) 0 ++ bs := by
  have hfull := beBytes_beNat (replicate (w - bs.length) 0 ++ bs)
  rwa [beNat_pad, length_append, length_replicate, Nat.sub_add_cancel h] at hfull

lemma foldl_or_eq_zero (bs : Bytes) (acc : UInt8) :
    bs.foldl (· ||| ·) acc = 0 ↔ acc = 0 ∧ ∀ b ∈ bs, b = 0 := by
  induction bs generalizing acc with
  | nil => simp
  | cons b bs ih => simp [ih, and_assoc]

lemma leNat_eq_zero : leNat bs = 0 ↔ ∀ b ∈ bs, b = 0 := by
  induction bs with
  | nil => simp [leNat]
  | cons b bs ih =>
    have hone : leNat [b] = b.toNat := Nat.zero_add _
    have hzero : b.toNat = 0 ↔ b = 0 := by rw [← UInt8.toNat_inj]; rfl
    rw [forall_mem_cons, ← ih, ← singleton_append, leNat_append, hone, ← hzero]
    simp [and_comm]

lemma fitsInBytes_iff (bytes : Bytes) (n : ℕ) :
    fitsInBytes bytes n = true ↔ leNat bytes < 256 ^ n := by
  have hsplit := leNat_append (bytes.take n) (bytes.drop n)
  rw [take_append_drop] at hsplit
  have hlow : leNat (bytes.take n) < 256 ^ (bytes.take n).length := by
    simpa [leNat] using beNat_lt (bytes.take n).reverse
  rw [fitsInBytes, beq_iff_eq, foldl_or_eq_zero, ← leNat_eq_zero, hsplit]
  rcases Nat.le_total bytes.length n with hlen | hlen
  · have hpow : 256 ^ bytes.length ≤ 256 ^ n := Nat.pow_le_pow_right (by omega) hlen
    rw [take_of_length_le hlen] at hlow ⊢
    simp [drop_of_length_le hlen, leNat] at *
    omega
  · rw [length_take_of_le hlen] at hlow ⊢
    refine ⟨fun h => by rw [h.2]; omega, fun h => ⟨rfl, ?_⟩⟩
    by_contra hne
    have := Nat.le_mul_of_pos_left (256 ^ n) (Nat.pos_of_ne_zero hne)
    omega

lemma padded_eq {bytes : Bytes} {n : ℕ} (h : leNat bytes < 256 ^ n) :
    bytes.take (if n < bytes.length then n else bytes.length) ++
      replicate (n - if n < bytes.length then n else bytes.length) 0 =
      (beBytes n (leNat bytes)).reverse := by
  have hfits := (fitsInBytes_iff bytes n).mpr h
  rw [fitsInBytes, beq_iff_eq, foldl_or_eq_zero] at hfits
  rw [leNat]
  by_cases hlt : n < bytes.length
  · have hdrop := eq_replicate_of_mem hfits.2
    have hbytes := take_append_drop n bytes
    rw [hdrop] at hbytes
    have hval := leNat_pad (bytes.take n) (bytes.drop n).length
    rw [hbytes, leNat, leNat] at hval
    have hlen : (bytes.take n).reverse.length = n := by
      rw [length_reverse, length_take_of_le hlt.le]
    rw [if_pos hlt, hval, beBytes_pad hlen.le, hlen]
    simp
  · rw [if_neg hlt, beBytes_pad (by rw [length_reverse]; omega)]
    simp

lemma bnBn2lePadded_eq (n : ℕ) (x : Bignum) :
    bnBn2lePadded n x = if x.value < 256 ^ n then .ok (beBytes n x.value).reverse
      else .error .silent := by
  rw [bnBn2lePadded, Bignum.value]
  by_cases h : leNat x.bytes < 256 ^ n
  · rw [if_pos ((fitsInBytes_iff _ _).mpr h), if_pos h]
    exact congrArg Except.ok (padded_eq h)
  · rw [if_neg (by rwa [fitsInBytes_iff]), if_neg h]

lemma bnBn2binPadded_eq (n : ℕ) (x : Bignum) :
    bnBn2binPadded n x = if x.value < 256 ^ n then .ok (beBytes n x.value)
      else .error .silent := by
  rw [bnBn2binPadded, Bignum.value]
  by_cases h : leNat x.bytes < 256 ^ n
  · have hfits := (fitsInBytes_iff _ _).mpr h
    rw [if_pos hfits, if_pos h, bnWordsToBigEndian, assert, if_pos hfits]
    refine congrArg Except.ok (reverse_injective ?_)
    rw [reverse_append, reverse_reverse, reverse_replicate]
    exact padded_eq h
  · rw [if_neg (by rwa [fitsInBytes_iff]), if_neg h]

lemma foldl_word : ∀ {bs : Bytes}, bs.length ≤ 8 →
    bs.foldl (fun word b => (word <<< 8 ||| b.toNat) % 2 ^ 64) 0 = beNat bs := by
  intro bs
  induction bs using reverseRecOn with
  | nil => simp
  | append_singleton bs b ih =>
    intro hlen
    rw [length_append, length_singleton] at hlen
    have hlt := beNat_lt (bs ++ [b])
    have hpow : 256 ^ (bs ++ [b]).length ≤ 256 ^ 8 := Nat.pow_le_pow_right (by omega) (by simpa)
    rw [foldl_append, ih (by omega)]
    rw [beNat_concat] at hlt ⊢
    rw [foldl_cons, foldl_nil, ← Nat.shiftLeft_add_eq_or_of_lt b.toNat_lt,
      Nat.shiftLeft_eq, Nat.mod_eq_of_lt (by omega)]

lemma wordBytes_beNat (h : bs.length ≤ 8) :
    wordBytes (beNat bs) = bs.reverse ++ replicate (8 - bs.length) 0 := by
  rw [wordBytes, beBytes_pad h, reverse_append, reverse_replicate]

lemma flatMap_wordBytes_zero (k : ℕ) :
    (replicate k 0).flatMap wordBytes = replicate (8 * k) 0 := by
  induction k with
  | zero => rfl
  | succ k ih =>
    rw [replicate_succ, flatMap_cons, ih, Nat.mul_succ, Nat.add_comm, replicate_add]
    rfl

lemma loadWords_bytes : ∀ {n : ℕ} {input : Bytes}, input.length ≤ 8 * n →
    (loadWords n input).flatMap wordBytes =
      input.reverse ++ replicate (8 * n - input.length) 0
  | 0, input, h => by
    obtain rfl : input = [] := length_eq_zero_iff.mp (by omega)
    rfl
  | n + 1, input, h => by
    rw [loadWords]
    by_cases hfull : 8 ≤ input.length
    · have hlow : (input.take (input.length - 8)).length = input.length - 8 :=
        length_take_of_le (Nat.sub_le _ _)
      have hhigh : (input.drop (input.length - 8)).length = 8 := by
        rw [length_drop]; omega
      rw [if_pos hfull, flatMap_cons, wordBytes_beNat hhigh.le, hhigh,
        loadWords_bytes (by omega), hlow, Nat.sub_self, replicate_zero, List.append_nil,
        ← append_assoc, ← reverse_append, take_append_drop]
      congr 2
      omega
    · rw [if_neg hfull]
      by_cases hne : input ≠ []
      · rw [if_pos hne, flatMap_cons, foldl_word (by omega), wordBytes_beNat (by omega),
          flatMap_wordBytes_zero, append_assoc, ← replicate_add]
        congr 2
        omega
      · obtain rfl := not_not.mp hne
        rw [if_neg hne, flatMap_wordBytes_zero]
        rfl

/-- The words for so many bytes can be allocated, or are there already. -/
def Fits (bn : Bignum) (len : ℕ) : Prop := (len + 7) / 8 ≤ max bn.dmax bnMaxWords

lemma bnWexpand_of_fits (h : words ≤ max bn.dmax bnMaxWords) : ∃ b, bnWexpand bn words = .ok b := by
  rw [bnWexpand]
  by_cases hd : words ≤ bn.dmax
  · exact ⟨_, dif_pos hd⟩
  · exact ⟨_, by rw [dif_neg hd, if_neg (by omega)]⟩

lemma bnWexpand_of_not_fits (h : ¬words ≤ max bn.dmax bnMaxWords) :
    bnWexpand bn words = put .bignumTooLong := by
  rw [bnWexpand, dif_neg (by omega), if_pos (by omega)]

/-- What reading some bytes leaves. -/
structure Reads (r : Ret Bignum) (neg : Bool) (v : ℕ) : Prop where
  reads : ∃ b, r = .ok b ∧ b.neg = neg ∧ b.value = v

lemma bnBin2bn_cons (hs : s ≠ []) : (Fits ret s.length → Reads (bnBin2bn s ret) false (beNat s)) ∧
      (¬Fits ret s.length → bnBin2bn s ret = put .bignumTooLong) := by
  have hpos := length_pos_iff.mpr hs
  have hwords : (s.length - 1) / 8 + 1 = (s.length + 7) / 8 := by omega
  rw [Fits, ← hwords, bnBin2bn, if_neg (by omega)]
  refine ⟨fun hfits => ?_, fun hfits => by simp only [bnWexpand_of_not_fits hfits]; rfl⟩
  obtain ⟨⟨b, hneg, hlen⟩, hb⟩ := bnWexpand_of_fits hfits
  simp only [hb, bnBigEndianToWords, assert, if_pos (show s.length ≤ ((s.length - 1) / 8 + 1) * 8 by
    omega)]
  refine ⟨_, rfl, rfl, ?_⟩
  have hbytes := loadWords_bytes (show s.length ≤ 8 * ((s.length - 1) / 8 + 1) by omega)
  have hlen' : ((loadWords ((s.length - 1) / 8 + 1) s).flatMap wordBytes).length =
      8 * ((s.length - 1) / 8 + 1) := by
    rw [hbytes, length_append, length_reverse, length_replicate]
    omega
  rw [Bignum.value, Bignum.bytes]
  simp only [overwrite, take_zero, nil_append]
  rw [take_left' hlen', hbytes, leNat_pad, leNat, reverse_reverse]

lemma bnLebin2bn_cons (hs : s ≠ []) :
    (Fits ret s.length → Reads (bnLebin2bn s ret) ret.neg (leNat s)) ∧
      (¬Fits ret s.length → bnLebin2bn s ret = put .bignumTooLong) := by
  have hpos := length_pos_iff.mpr hs
  have hwords : (s.length - 1) / 8 + 1 = (s.length + 7) / 8 := by omega
  rw [Fits, ← hwords, bnLebin2bn, if_neg (by omega)]
  refine ⟨fun hfits => ?_, fun hfits => by simp only [bnWexpand_of_not_fits hfits]; rfl⟩
  obtain ⟨⟨b, hneg, hlen⟩, hb⟩ := bnWexpand_of_fits hfits
  simp only [hb]
  refine ⟨_, rfl, hneg, ?_⟩
  rw [Bignum.value, Bignum.bytes]
  simp only [overwrite, take_zero, nil_append, length_replicate, zero_add]
  have hlow : (b.d.take (8 * ((s.length - 1) / 8 + 1 - 1))).length = 8 * ((s.length - 1) / 8) :=
    length_take_of_le (by omega)
  -- the bytes that are not written lie in the last word, which was cleared
  rw [take_append, take_of_length_le (by omega), append_assoc, drop_append,
    drop_of_length_le (by omega), nil_append, hlow,
    drop_append_of_le_length (by rw [length_replicate]; omega), drop_replicate,
    take_append_of_le_length (by rw [length_replicate]; omega), take_replicate,
    leNat_pad]

/-- What the functions are to do: read `s` into `ret`, and write the magnitude of `x` on `n` bytes
and read it back. -/
structure BytesMeet (s : Bytes) (ret x : Bignum) (n : ℕ) : Prop where
  bin : Reads (bnBin2bn s ret) false (beNat s)
  le : Reads (bnLebin2bn s ret) false (leNat s)
  tooLong : 256 ^ n ≤ x.value →
    bnBn2binPadded n x = .error .silent ∧ bnBn2lePadded n x = .error .silent
  binPadded : x.value < 256 ^ n → ∃ out, bnBn2binPadded n x = .ok out ∧
    (∀ bs : Bytes, bs.length = n ∧ beNat bs = x.value ↔ bs = out) ∧
    Reads (bnBin2bn out bnNew) false x.value
  lePadded : x.value < 256 ^ n → ∃ out, bnBn2lePadded n x = .ok out ∧
    (∀ bs : Bytes, bs.length = n ∧ leNat bs = x.value ↔ bs = out) ∧
    Reads (bnLebin2bn out bnNew) false x.value

lemma reads_nil {b : Bignum} :
    Reads (.ok { b with width := 0, neg := neg, width_le := by simp }) neg 0 :=
  ⟨_, rfl, rfl, by simp [Bignum.value, Bignum.bytes, leNat]⟩

lemma not_reads_put {reason : Reason} : ¬Reads (put reason) neg v :=
  fun ⟨_, h, _⟩ => absurd h nofun

lemma Reads.neg_eq {r : Ret Bignum} {neg' : Bool} {v' : ℕ} (h : Reads r neg v)
    (h' : Reads r neg' v') : neg = neg' := by
  obtain ⟨b, hb, rfl, -⟩ := h
  obtain ⟨b', hb', rfl, -⟩ := h'
  cases hb.symm.trans hb'
  rfl

lemma Reads.iff {r : Ret Bignum} {fits : Prop} {neg' : Bool} (hok : fits → Reads r neg v)
    (hfail : ¬fits → r = put .bignumTooLong) : Reads r neg' v ↔ fits ∧ neg = neg' := by
  refine ⟨fun h => ?_, fun ⟨hfits, heq⟩ => heq ▸ hok hfits⟩
  have hfits : fits := by
    by_contra hnot
    exact not_reads_put (hfail hnot ▸ h)
  exact ⟨hfits, (hok hfits).neg_eq h⟩

lemma fits_zero (bn : Bignum) : Fits bn 0 := by
  rw [Fits]
  omega

lemma bnBin2bn_reads_iff : Reads (bnBin2bn s ret) false (beNat s) ↔
    Fits ret s.length ∧ (s = [] → ret.neg = false) := by
  by_cases hs : s = []
  · subst hs
    exact (Reads.iff (fun _ => reads_nil) (absurd (fits_zero ret))).trans (by simp)
  · exact (Reads.iff (bnBin2bn_cons hs).1 (bnBin2bn_cons hs).2).trans (by simp [hs])

lemma bnLebin2bn_reads_iff : Reads (bnLebin2bn s ret) false (leNat s) ↔
    Fits ret s.length ∧ (s ≠ [] → ret.neg = false) := by
  by_cases hs : s = []
  · subst hs
    exact (Reads.iff (fun _ => reads_nil) (absurd (fits_zero ret))).trans (by simp)
  · exact (Reads.iff (bnLebin2bn_cons hs).1 (bnLebin2bn_cons hs).2).trans (by simp [hs])

/-- The contract holds exactly for an output that was not negative, and lengths for which there is
memory. -/
theorem bytesMeet_iff (s : Bytes) (ret x : Bignum) (n : ℕ) :
    BytesMeet s ret x n ↔
      ret.neg = false ∧ Fits ret s.length ∧ (x.value < 256 ^ n → Fits bnNew n) := by
  refine ⟨fun h => ?_, fun ⟨hneg, hfits, hn⟩ => ?_⟩
  · obtain ⟨hfits, hnil⟩ := bnBin2bn_reads_iff.mp h.bin
    have hcons := (bnLebin2bn_reads_iff.mp h.le).2
    refine ⟨by_cases hnil hcons, hfits, fun hlt => ?_⟩
    obtain ⟨out, -, hout, hread⟩ := h.binPadded hlt
    obtain ⟨rfl, hval⟩ := (hout out).mpr rfl
    exact (bnBin2bn_reads_iff.mp (hval ▸ hread)).1
  · have hbe := fun hlt : x.value < 256 ^ n =>
      (beNat_beBytes n x.value).trans (Nat.mod_eq_of_lt hlt)
    have hunique : ∀ bs : Bytes, bs.length = n → beNat bs = x.value → bs = beBytes n x.value := by
      rintro bs rfl hbs
      rw [← hbs, beBytes_beNat]
    refine ⟨bnBin2bn_reads_iff.mpr ⟨hfits, fun _ => hneg⟩,
      bnLebin2bn_reads_iff.mpr ⟨hfits, fun _ => hneg⟩, fun h => ?_, fun h => ?_, fun h => ?_⟩
    · rw [bnBn2binPadded_eq, bnBn2lePadded_eq]
      exact ⟨if_neg (by omega), if_neg (by omega)⟩
    · refine ⟨_, by rw [bnBn2binPadded_eq, if_pos h],
        fun bs => ⟨fun hb => hunique bs hb.1 hb.2, ?_⟩, ?_⟩
      · rintro rfl
        exact ⟨beBytes_length _ _, hbe h⟩
      · have hread := (bnBin2bn_reads_iff (s := beBytes n x.value)).mpr
          ⟨by rw [beBytes_length]; exact hn h, fun _ => show bnNew.neg = false from rfl⟩
        rwa [hbe h] at hread
    · refine ⟨_, by rw [bnBn2lePadded_eq, if_pos h], fun bs => ⟨fun hb => ?_, ?_⟩, ?_⟩
      · exact reverse_eq_iff.mp (hunique _ (by simp [hb.1]) hb.2)
      · rintro rfl
        exact ⟨by simp, by rw [leNat, reverse_reverse, hbe h]⟩
      · have hval : leNat (beBytes n x.value).reverse = x.value := by
          rw [leNat, reverse_reverse, hbe h]
        have hread := (bnLebin2bn_reads_iff (s := (beBytes n x.value).reverse)).mpr
          ⟨by rw [length_reverse, beBytes_length]; exact hn h,
            fun _ => show bnNew.neg = false from rfl⟩
        rwa [hval] at hread

def minusOne : Bignum := ⟨[1, 0, 0, 0, 0, 0, 0, 0], 1, true, by decide⟩

theorem bnLebin2bn_minusOne :
    (bnLebin2bn [5] minusOne).map (fun b => (b.neg, b.value)) = .ok (true, 5) ∧
      (bnBin2bn [] minusOne).map (fun b => (b.neg, b.value)) = .ok (true, 0) := by
  decide +kernel

end BoringSSL.BigNum
