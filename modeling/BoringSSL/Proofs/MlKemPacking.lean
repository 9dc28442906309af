import BoringSSL.Lib.Canonical
import BoringSSL.MlKemEncoding

/-!
# The packing of ML-KEM is canonical

The encoder keeps the number its bytes and the begun byte spell, and the decoder the number that is
left to read; a chunk moves some of the lowest bits from one to the other.
-/

namespace BoringSSL.MlKem

open ByteLib List
open ByteLib.Checked

variable {c m n : ℕ} {r : Reader}

lemma and_masks (hpos : 0 < c) (hle : c ≤ 8) (x : ℕ) : x &&& masks.getD (c - 1) 0 = x % 2 ^ c := by
  have hmask : masks.getD (c - 1) 0 = 2 ^ c - 1 := by interval_cases c <;> rfl
  rw [hmask, Nat.and_two_pow_sub_one_eq_mod]

namespace Writer

/-- The bits written. -/
def bits (w : Writer) : ℕ := 8 * w.out.length + w.outByteBits

/-- The bits written, as a number. -/
def value (w : Writer) : ℕ := leNat w.out + 256 ^ w.out.length * w.outByte

/-- The last byte has the bits counted. -/
structure Ok (w : Writer) : Prop where
  bits_lt : w.outByteBits < 8
  byte_lt : w.outByte < 2 ^ w.outByteBits

lemma ok_empty (out : Bytes) : Ok ⟨out, 0, 0⟩ := ⟨Nat.zero_lt_succ 7, Nat.zero_lt_one⟩

/-- `w'` holds `x` of `n` bits behind what `w` holds. -/
structure Appends (w w' : Writer) (n x : ℕ) : Prop where
  ok : w'.Ok
  bits : w'.bits = w.bits + n
  value : w'.value = w.value + 2 ^ w.bits * x

lemma Appends.trans {a b c : Writer} {x y : ℕ} (hab : Appends a b m x)
    (hbc : Appends b c n y) : Appends a c (m + n) (x + 2 ^ m * y) := by
  refine ⟨hbc.ok, by rw [hbc.bits, hab.bits, add_assoc], ?_⟩
  rw [hbc.value, hab.value, hab.bits, pow_add]
  ring

lemma pow_bits (w : Writer) : 2 ^ w.bits = 256 ^ w.out.length * 2 ^ w.outByteBits := by
  rw [bits, pow_add, pow_mul]
  norm_num

end Writer

variable {w : Writer}

lemma fill_eq (hw : w.Ok) (hpos : 0 < c) (hle : w.outByteBits + c ≤ 8) (element : ℕ) :
    (w.outByte ||| (element &&& masks.getD (c - 1) 0) <<< w.outByteBits) % 2 ^ 8
      = w.outByte + element % 2 ^ c * 2 ^ w.outByteBits ∧
    w.outByte + element % 2 ^ c * 2 ^ w.outByteBits < 2 ^ (w.outByteBits + c) := by
  have hlt : w.outByte + element % 2 ^ c * 2 ^ w.outByteBits < 2 ^ (w.outByteBits + c) := by
    have hbyte := hw.byte_lt
    have hmod : element % 2 ^ c + 1 ≤ 2 ^ c := Nat.mod_lt _ (by positivity)
    calc w.outByte + element % 2 ^ c * 2 ^ w.outByteBits
        < 2 ^ w.outByteBits + element % 2 ^ c * 2 ^ w.outByteBits := by omega
      _ = (element % 2 ^ c + 1) * 2 ^ w.outByteBits := by ring
      _ ≤ 2 ^ c * 2 ^ w.outByteBits := Nat.mul_le_mul_right _ hmod
      _ = 2 ^ (w.outByteBits + c) := by rw [add_comm, pow_add]
  refine ⟨?_, hlt⟩
  rw [and_masks hpos (by omega), or_shiftLeft hw.byte_lt]
  exact Nat.mod_eq_of_lt (hlt.trans_le (Nat.pow_le_pow_right (by decide) hle))

lemma appends_byte (hw : w.Ok) (element : ℕ) :
    Writer.Appends w ⟨w.out ++ [UInt8.ofNat ((w.outByte |||
      (element &&& masks.getD (8 - w.outByteBits - 1) 0) <<< w.outByteBits) % 2 ^ 8)], 0, 0⟩
      (8 - w.outByteBits) (element % 2 ^ (8 - w.outByteBits)) := by
  have hbits := hw.bits_lt
  obtain ⟨hfill, hlt⟩ := fill_eq hw (c := 8 - w.outByteBits) (by omega) (by omega) element
  rw [Nat.add_sub_of_le hbits.le] at hlt
  refine ⟨Writer.ok_empty _, ?_, ?_⟩
  · simp only [Writer.bits, length_append, length_singleton]
    omega
  · rw [hfill, Writer.pow_bits, Writer.value, Writer.value, leNat_append]
    simp only [leNat]
    rw [UInt8.toNat_ofNat', Nat.mod_eq_of_lt hlt]
    ring

lemma appends_bits (hw : w.Ok) (element : ℕ) (hpos : 0 < c) (hlt : w.outByteBits + c < 8) :
    Writer.Appends w ⟨w.out, (w.outByte |||
      (element &&& masks.getD (c - 1) 0) <<< w.outByteBits) % 2 ^ 8, w.outByteBits + c⟩
      c (element % 2 ^ c) := by
  obtain ⟨hfill, hbyte⟩ := fill_eq hw hpos hlt.le element
  refine ⟨⟨hlt, by rwa [hfill]⟩, by simp only [Writer.bits]; omega, ?_⟩
  rw [hfill, Writer.pow_bits, Writer.value, Writer.value]
  ring

lemma encodeChunks_appends {bits : ℕ} : ∀ {fuel : ℕ} {w : Writer} {element done : ℕ}, w.Ok →
    done ≤ bits → bits - done ≤ fuel → element < 2 ^ (bits - done) →
    Writer.Appends w (encodeChunks bits fuel w element done) (bits - done) element
  | 0, w, element, done, hw, hle, hfuel, hlt => by
    obtain rfl : done = bits := by omega
    rw [Nat.sub_self, pow_zero, Nat.lt_one_iff] at hlt
    rw [encodeChunks, Nat.sub_self, hlt]
    exact ⟨hw, rfl, rfl⟩
  | fuel + 1, w, element, done, hw, hle, hfuel, hlt => by
    have hbits := hw.bits_lt
    rw [encodeChunks]
    by_cases hdone : done < bits
    · rw [if_pos hdone]
      -- What is left of the element after a chunk.
      have hrest {c : ℕ} (hc : c ≤ bits - done) : element >>> c < 2 ^ (bits - (done + c)) := by
        rw [Nat.shiftRight_eq_div_pow]
        refine Nat.div_lt_of_lt_mul ?_
        rwa [← pow_add, show c + (bits - (done + c)) = bits - done by omega]
      have hsplit (c : ℕ) : element % 2 ^ c + 2 ^ c * (element >>> c) = element := by
        rw [Nat.shiftRight_eq_div_pow]
        exact Nat.mod_add_div element _
      by_cases hchunk : bits - done ≥ 8 - w.outByteBits
      · have h := (appends_byte hw element).trans
          (encodeChunks_appends (Writer.ok_empty _) (by omega) (by omega : _ ≤ fuel) (hrest hchunk))
        rw [hsplit, show 8 - w.outByteBits + (bits - (done + (8 - w.outByteBits))) = bits - done by
          omega] at h
        simpa only [if_pos hchunk] using h
      · have hstep := appends_bits hw element (c := bits - done) (by omega) (by omega)
        have h := hstep.trans
          (encodeChunks_appends hstep.ok (by omega) (by omega : _ ≤ fuel) (hrest le_rfl))
        rw [hsplit, show bits - done + (bits - (done + (bits - done))) = bits - done by omega] at h
        simpa only [if_neg hchunk] using h
    · obtain rfl : done = bits := by omega
      rw [Nat.sub_self, pow_zero, Nat.lt_one_iff] at hlt
      rw [if_neg hdone, Nat.sub_self, hlt]
      exact ⟨hw, rfl, rfl⟩

lemma foldl_encodeChunks {bits : ℕ} : ∀ {s : Scalar} {w : Writer}, w.Ok →
    (∀ c ∈ s, c < 2 ^ bits) →
    Writer.Appends w (s.foldl (fun w element => encodeChunks bits bits w element 0) w)
      (bits * s.length) (Nat.ofDigits (2 ^ bits) s)
  | [], w, hw, _ => ⟨hw, rfl, rfl⟩
  | c :: s, w, hw, hs => by
    have hfirst : Writer.Appends w (encodeChunks bits bits w c 0) bits c :=
      encodeChunks_appends hw (Nat.zero_le bits) (Nat.sub_le bits 0) (hs c mem_cons_self)
    have h := hfirst.trans
      (foldl_encodeChunks hfirst.ok fun d hd => hs d (mem_cons_of_mem c hd))
    rw [foldl_cons, length_cons, Nat.mul_succ, add_comm, Nat.ofDigits_cons]
    exact h

lemma scalarEncode_packs {bits : ℕ} {s : Scalar} (hbits : bits ≤ 16 ∧ bits ≠ 1)
    (hlen : s.length = degree) (hs : ∀ c ∈ s, c < 2 ^ bits) :
    ∃ bs, scalarEncode s bits = .ok bs ∧ Packs bits s bs := by
  have h := foldl_encodeChunks (Writer.ok_empty []) hs
  rw [scalarEncode, assert_bind hbits]
  generalize s.foldl (fun w element => encodeChunks bits bits w element 0) ⟨[], 0, 0⟩ = w at h
  obtain ⟨⟨hlt, hbyte⟩, htotal, hvalue⟩ := h
  simp only [Writer.bits, length_nil, hlen, degree] at htotal
  have hzero : w.outByteBits = 0 := by omega
  rw [hzero, pow_zero, Nat.lt_one_iff] at hbyte
  refine ⟨w.out, ?_, ?_, hs, ?_⟩
  · dsimp only
    rw [hzero]
    rfl
  · rw [hlen, degree]
    omega
  · simpa [Writer.value, Writer.bits, hbyte, leNat] using hvalue.symm

namespace Reader

/-- The bits left. -/
def bits (r : Reader) : ℕ := 8 * r.input.length + r.inByteBitsLeft

/-- The bits left, as a number. -/
def value (r : Reader) : ℕ := r.inByte + 2 ^ r.inByteBitsLeft * leNat r.input

/-- The last byte has the bits counted. -/
structure Ok (r : Reader) : Prop where
  bits_le : r.inByteBitsLeft ≤ 8
  byte_lt : r.inByte < 2 ^ r.inByteBitsLeft

/-- Reading `n` bits. -/
structure Reads (r r' : Reader) (n : ℕ) : Prop where
  ok : r'.Ok
  bits : r'.bits + n = r.bits
  value : r'.value = r.value / 2 ^ n

lemma Reads.trans {a b c : Reader} (hab : Reads a b m) (hbc : Reads b c n) : Reads a c (m + n) := by
  refine ⟨hbc.ok, ?_, ?_⟩
  · have := hab.bits
    have := hbc.bits
    omega
  · rw [hbc.value, hab.value, Nat.div_div_eq_div_mul, ← pow_add]

lemma refill_spec (hr : r.Ok) (hbits : 0 < r.bits) :
    Reads r r.refill 0 ∧ 0 < r.refill.inByteBitsLeft := by
  rw [refill]
  split_ifs with hleft
  · have hbyte := hr.byte_lt
    rw [hleft, pow_zero, Nat.lt_one_iff] at hbyte
    cases hinput : r.input with
    | nil => simp [Reader.bits, hleft, hinput] at hbits
    | cons b input =>
      refine ⟨⟨⟨le_rfl, b.toNat_lt⟩, ?_, ?_⟩, Nat.zero_lt_succ 7⟩
      · simp only [Reader.bits, hinput, hleft, tail_cons, length_cons]
        omega
      · simp [Reader.value, hinput, hleft, hbyte, leNat]
  · exact ⟨⟨hr, rfl, by simp⟩, Nat.pos_of_ne_zero hleft⟩

lemma chunk_spec (hr : r.Ok) (hc : c ≤ r.inByteBitsLeft) :
    Reads r ⟨r.input, r.inByte >>> c, r.inByteBitsLeft - c⟩ c ∧
      r.value % 2 ^ c = r.inByte % 2 ^ c := by
  have hpow : 2 ^ r.inByteBitsLeft = 2 ^ c * 2 ^ (r.inByteBitsLeft - c) := by
    rw [← pow_add, Nat.add_sub_of_le hc]
  have hbits := hr.bits_le
  refine ⟨⟨⟨by simp only; omega, ?_⟩, by simp only [Reader.bits]; omega, ?_⟩, ?_⟩
  · simp only [Nat.shiftRight_eq_div_pow]
    refine Nat.div_lt_of_lt_mul ?_
    rw [← hpow]
    exact hr.byte_lt
  · simp only [Reader.value, Nat.shiftRight_eq_div_pow]
    rw [hpow, mul_assoc, Nat.add_mul_div_left _ _ (by positivity)]
  · rw [Reader.value, hpow, mul_assoc, Nat.add_mul_mod_self_left]

end Reader

lemma decodeChunks_spec {bits : ℕ} (hbits : bits ≤ 16) :
    ∀ {fuel : ℕ} {r : Reader} {element done : ℕ}, r.Ok → done ≤ bits → bits - done ≤ fuel →
    bits - done ≤ r.bits → element < 2 ^ done →
    ∃ r', decodeChunks bits fuel r element done
        = (element + 2 ^ done * (r.value % 2 ^ (bits - done)), r') ∧ r.Reads r' (bits - done)
  | 0, r, element, done, hr, hle, hfuel, hleft, hlt => by
    rw [decodeChunks, show bits - done = 0 by omega, pow_zero, Nat.mod_one, mul_zero]
    exact ⟨r, rfl, hr, rfl, by simp⟩
  | fuel + 1, r, element, done, hr, hle, hfuel, hleft, hlt => by
    rw [decodeChunks]
    by_cases hdone : done < bits
    · obtain ⟨hrefill, hpos⟩ := Reader.refill_spec hr (by omega)
      have hsame := hrefill.value
      have hsameBits := hrefill.bits
      rw [pow_zero, Nat.div_one] at hsame
      generalize r.refill = q at *
      rw [if_pos hdone]
      dsimp only
      set c := if bits - done > q.inByteBitsLeft then q.inByteBitsLeft else bits - done with hc
      have hcpos : 0 < c := by
        rw [hc]
        split_ifs <;> omega
      have hcbits : c ≤ bits - done := by
        rw [hc]
        split_ifs <;> omega
      have hcleft : c ≤ q.inByteBitsLeft := by
        rw [hc]
        split_ifs <;> omega
      obtain ⟨hchunk, hmod⟩ := Reader.chunk_spec hrefill.ok hcleft
      have hle8 := hrefill.ok.bits_le
      have hsum : element + 2 ^ done * (q.value % 2 ^ c) < 2 ^ (done + c) := by
        have hmod' : q.value % 2 ^ c + 1 ≤ 2 ^ c := Nat.mod_lt _ (by positivity)
        calc element + 2 ^ done * (q.value % 2 ^ c)
            < 2 ^ done + 2 ^ done * (q.value % 2 ^ c) := by omega
          _ = 2 ^ done * (q.value % 2 ^ c + 1) := by ring
          _ ≤ 2 ^ done * 2 ^ c := Nat.mul_le_mul_left _ hmod'
          _ = 2 ^ (done + c) := (pow_add 2 done c).symm
      have helement : (element ||| (q.inByte &&& masks.getD (c - 1) 0) <<< done) % 2 ^ 16
          = element + 2 ^ done * (q.value % 2 ^ c) := by
        rw [and_masks hcpos (by omega), ← hmod, or_shiftLeft hlt, mul_comm]
        exact Nat.mod_eq_of_lt (hsum.trans_le (Nat.pow_le_pow_right (by decide) (by omega)))
      have hchunkBits := hchunk.bits
      obtain ⟨r', hr', hreads⟩ := decodeChunks_spec hbits hchunk.ok
        (by omega : done + c ≤ bits) (by omega : _ ≤ fuel) (by omega) hsum
      refine ⟨r', ?_, ?_⟩
      · rw [helement, hr', hchunk.value, hsame]
        have hsplit : bits - done = c + (bits - (done + c)) := by omega
        rw [hsplit, pow_add 2 c, Nat.mod_mul, pow_add]
        ring_nf
      · have hall := (hrefill.trans hchunk).trans hreads
        rwa [show 0 + c + (bits - (done + c)) = bits - done by omega] at hall
    · rw [if_neg hdone, show bits - done = 0 by omega, pow_zero, Nat.mod_one, mul_zero]
      exact ⟨r, rfl, hr, rfl, by simp⟩

lemma scalarDecodeFrom_spec {bits : ℕ} (hbits : bits ≤ 16) : ∀ {n : ℕ} {r : Reader}, r.Ok →
    bits * n ≤ r.bits → ∃ ds, ds.length = n ∧ (∀ d ∈ ds, d < 2 ^ bits) ∧
      Nat.ofDigits (2 ^ bits) ds = r.value % 2 ^ (bits * n) ∧
      scalarDecodeFrom bits n r = if ∀ d ∈ ds, d < prime then .ok ds else .error .fail
  | 0, r, _, _ => ⟨[], rfl, by simp, by simp [Nat.mod_one], by simp [scalarDecodeFrom]⟩
  | n + 1, r, hr, hle => by
    rw [Nat.mul_succ] at hle
    obtain ⟨r', hr', hreads⟩ := decodeChunks_spec hbits hr (Nat.zero_le bits)
      (by omega : bits - 0 ≤ bits) (by omega) Nat.zero_lt_one
    simp only [pow_zero, one_mul, zero_add, Nat.sub_zero] at hr' hreads
    have hleft := hreads.bits
    obtain ⟨ds, hlen, hlt, hvalue, hdec⟩ :=
      scalarDecodeFrom_spec hbits hreads.ok (n := n) (by omega)
    refine ⟨r.value % 2 ^ bits :: ds, by rw [length_cons, hlen], ?_, ?_, ?_⟩
    · exact forall_mem_cons.mpr ⟨Nat.mod_lt _ (by positivity), hlt⟩
    · rw [Nat.ofDigits_cons, hvalue, hreads.value, Nat.mul_succ, add_comm (bits * n), pow_add,
        Nat.mod_mul]
    · rw [scalarDecodeFrom, hr']
      simp only [forall_mem_cons]
      by_cases helement : r.value % 2 ^ bits < prime
      · rw [if_neg (by omega), hdec]
        by_cases hall : ∀ d ∈ ds, d < prime
        · rw [if_pos hall, if_pos ⟨helement, hall⟩]
          rfl
        · rw [if_neg hall, if_neg fun h => hall h.2]
          rfl
      · rw [if_pos (by omega), if_neg fun h => helement h.1]
        rfl

lemma scalarDecode_packs {bits : ℕ} (hbits : bits ≤ 16 ∧ bits ≠ 1) {bs : Bytes}
    (hlen : bs.length = 32 * bits) : ∃ ds, Packs bits ds bs ∧ scalarDecode bs bits
      = if ∀ d ∈ ds, d < prime then .ok ds else .error .fail := by
  have hall : bits * degree = Reader.bits ⟨bs, 0, 0⟩ := by
    simp only [Reader.bits, hlen, degree]
    omega
  obtain ⟨ds, hds, hlt, hvalue, hdec⟩ := scalarDecodeFrom_spec hbits.1 (r := ⟨bs, 0, 0⟩)
    ⟨Nat.zero_le 8, Nat.zero_lt_one⟩ hall.le
  refine ⟨ds, ⟨by rw [hds, hall]; rfl, hlt, ?_⟩, by rw [scalarDecode, assert_bind hbits, hdec]⟩
  have hbs := leNat_lt bs
  rw [hvalue, hall]
  simp only [Reader.value, Reader.bits, pow_zero, one_mul, zero_add, add_zero]
  rw [pow_mul]
  exact Nat.mod_eq_of_lt hbs

lemma scalar_canonical {bits : ℕ} (hbits : bits ≤ 16 ∧ bits ≠ 1) (hprime : prime ≤ 2 ^ bits) :
    Canonical (32 * bits) (fun s => scalarEncode s bits) (fun bs => scalarDecode bs bits)
      (fun s => s.length = degree ∧ ∀ c ∈ s, c < prime) (OutOfRange bits prime) := by
  have hpos : 0 < bits := Nat.pos_of_ne_zero fun h => absurd hprime (by rw [h]; decide)
  refine Canonical.of_packs (f := id) (g := id) hpos (by rw [degree]; omega) (fun c hc => ⟨hc, rfl⟩)
    (fun d hd => ⟨hd, rfl⟩) (fun s hlen hs => ?_) fun bs hlen => ?_
  · rw [List.map_id]
    exact scalarEncode_packs hbits hlen fun c hc => (hs c hc).trans_le hprime
  · obtain ⟨ds, hds, hdec⟩ := scalarDecode_packs hbits hlen
    exact ⟨ds, hds, by rw [hdec, List.map_id]⟩

lemma scalarBytes_eq_part (input : Bytes) (bits i : ℕ) :
    scalarBytes input bits i = Canonical.part (32 * bits) input i :=
  Canonical.part_bits input bits i

/-- Polynomials with reduced coefficients. -/
def ValidVector (rank : ℕ) (v : List Scalar) : Prop :=
  v.length = rank ∧ ∀ s ∈ v, s.length = degree ∧ ∀ c ∈ s, c < prime

/-- A coefficient is not reduced. -/
def VectorOutOfRange (rank : ℕ) (bs : Bytes) : Prop :=
  ∃ i < rank, OutOfRange log2Prime prime (Canonical.part (32 * log2Prime) bs i)

lemma vector_canonical (rank : ℕ) :
    Canonical (rank * 384) (fun v => vectorEncode v log2Prime)
      (fun bs => vectorDecode rank bs log2Prime) (ValidVector rank) (VectorOutOfRange rank) := by
  simp only [vectorDecode, scalarBytes_eq_part]
  have h : Canonical (32 * log2Prime) _ _ _ _ := scalar_canonical (by decide) (by decide)
  exact h.vector rank

end BoringSSL.MlKem
