import BoringSSL.DtlsBitmap

/-!
# The bitmap is a set of bits

`MarkRange` adds its range to the marked bits (`marked_markRange`), and `NextUnmarkedRange` returns
the first run of unmarked bits (`nextUnmarkedRange_spec`), in every bitmap that keeps
`first_unmarked_byte_` right (`Ok`).
-/

namespace BoringSSL

open ByteLib

variable {start stop i : ℕ}

lemma byteBit_bitRange {j : ℕ} (hs : start ≤ 8) (he : stop ≤ 8) (hj : j < 8) :
    byteBit (bitRange start stop) j = decide (start ≤ j ∧ j < stop) := by
  have h : ∀ start < 9, ∀ stop < 9, ∀ j < 8,
      byteBit (bitRange start stop) j = decide (start ≤ j ∧ j < stop) := by decide +kernel
  exact h start (by omega) stop (by omega) j hj

lemma firstUnmarkedRangeInByte_spec (b : UInt8) (r : BitmapRange)
    (hr : firstUnmarkedRangeInByte b = r) :
    r.start ≤ r.stop ∧ r.stop ≤ 8 ∧ (b ≠ 0xff → r.start < r.stop)
      ∧ (∀ j < r.start, byteBit b j = true)
      ∧ (∀ j < r.stop, r.start ≤ j → byteBit b j = false)
      ∧ (r.stop < 8 → byteBit b r.stop = true) := by
  subst hr
  revert b
  refine forall_byte ?_
  decide +kernel

namespace DtlsMessageBitmap

variable {bm : DtlsMessageBitmap}

lemma not_marked_lt (h : ¬ bm.Marked i) : i < 8 * bm.bytes.length :=
  lt_of_bitAt_eq_false (by simpa [Marked] using h)

lemma marked_nil (f i : ℕ) : (⟨[], f⟩ : DtlsMessageBitmap).Marked i :=
  bitAt_of_ge (Nat.zero_le _)

lemma bitAt_setBits {bytes : Bytes} (h : start < stop) (i : ℕ) :
    bitAt (setBits bytes start stop) i = (bitAt bytes i || decide (start ≤ i ∧ i < stop)) := by
  have hi := Nat.mod_lt i (show 0 < 8 by norm_num)
  unfold setBits
  split_ifs with hsame hend
  · rw [bitAt_modify_or, byteBit_bitRange (by omega) (by omega) hi, ← Bool.decide_and]
    congr 2
    simp only [eq_iff_iff]
    omega
  · rw [bitAt_modify_or, bitAt_fillFF, bitAt_modify_or, byteBit_bitRange (by omega) (by omega) hi,
      byteBit_bitRange (by omega) (by omega) hi]
    simp only [← Bool.decide_and, Bool.or_assoc, ← Bool.decide_or]
    congr 2
    simp only [eq_iff_iff]
    omega
  · rw [bitAt_fillFF, bitAt_modify_or, byteBit_bitRange (by omega) (by omega) hi]
    simp only [← Bool.decide_and, Bool.or_assoc, ← Bool.decide_or]
    congr 2
    simp only [eq_iff_iff]
    omega

lemma exists_not_marked_of_getD {k : ℕ} (h : bm.bytes.getD k 0xff ≠ 0xff) :
    ∃ i, i / 8 = k ∧ ¬ bm.Marked i := by
  obtain ⟨j, hj, hbit⟩ := exists_byteBit_of_ne_ff h
  refine ⟨8 * k + j, by omega, ?_⟩
  have h1 : (8 * k + j) / 8 = k := by omega
  have h2 : (8 * k + j) % 8 = j := by omega
  rw [Marked, bitAt, h1, h2, hbit]
  simp

lemma getD_ne_ff_of_not_marked (h : ¬ bm.Marked i) :
    bm.bytes.getD (i / 8) 0xff ≠ 0xff := fun hn => h (bitAt_of_getD_ff hn)

lemma isComplete_iff (h : bm.Ok) : bm.isComplete = true ↔ ∀ i, bm.Marked i := by
  constructor
  · intro hc i
    rw [isComplete, List.isEmpty_iff] at hc
    exact bitAt_of_ge (by simp [hc])
  · intro hall
    rw [isComplete, List.isEmpty_iff]
    by_contra hn
    obtain ⟨i, -, hi⟩ := exists_not_marked_of_getD (h.unmarked hn)
    exact hi (hall i)

lemma markRange_spec (h : bm.Ok) (start stop : ℕ) :
    (bm.markRange start stop).Ok
      ∧ ∀ i, (bm.markRange start stop).Marked i ↔ bm.Marked i ∨ (start ≤ i ∧ i < stop) := by
  -- Clamping does not change which unmarked bits are in the range.
  have hclamp : ∀ i, ¬ bm.Marked i → ((min (max start (bm.firstUnmarkedByte * 8))
      (bm.bytes.length * 8) ≤ i ∧ i < min stop (bm.bytes.length * 8)) ↔
      (start ≤ i ∧ i < stop)) := by
    intro i hi
    have h1 := not_marked_lt hi
    have h2 : 8 * bm.firstUnmarkedByte ≤ i := by
      by_contra hn
      exact hi (h.marked i (by omega))
    omega
  unfold markRange
  set lo := min (max start (bm.firstUnmarkedByte * 8)) (bm.bytes.length * 8) with hlo
  set hi := min stop (bm.bytes.length * 8) with hhi
  simp only []
  split_ifs with hempty hall
  · grind
  all_goals
    set bytes := setBits bm.bytes lo hi with hbytes
    set first := scanFrom (· != 0xff) bytes bm.firstUnmarkedByte with hfirst
    have hbit : ∀ i, bitAt bytes i = true ↔ bm.Marked i ∨ (start ≤ i ∧ i < stop) := by
      intro i
      rw [hbytes, bitAt_setBits (by omega), Bool.or_eq_true, decide_eq_true_eq]
      by_cases hm : bm.Marked i
      · simp [hm, show bitAt bm.bytes i = true from hm]
      · rw [hclamp i hm]
        rfl
    have hbefore : ∀ i < 8 * first, bitAt bytes i = true := by
      intro i hi
      by_cases hf : i < 8 * bm.firstUnmarkedByte
      · exact (hbit i).mpr (Or.inl (h.marked i hf))
      · have := not_of_lt_scanFrom (· != 0xff) bytes 0xff
          (show bm.firstUnmarkedByte ≤ i / 8 by omega) (show i / 8 < first by omega)
        exact bitAt_of_getD_ff (by simpa using this)
  · refine ⟨⟨fun i _ => marked_nil _ i, fun hn => absurd rfl hn⟩, fun i => ?_⟩
    refine ⟨fun _ => (hbit i).mp ?_, fun _ => marked_nil _ i⟩
    by_cases hi : i < 8 * first
    · exact hbefore i hi
    · exact bitAt_of_ge (by omega)
  · refine ⟨⟨hbefore, fun _ => ?_⟩, hbit⟩
    have := scanFrom_spec (· != 0xff) bytes 0xff
      (Nat.lt_of_not_le hall)
    simpa using this

lemma Ok.markRange (h : bm.Ok) (start stop : ℕ) : (bm.markRange start stop).Ok :=
  (markRange_spec h start stop).1

lemma marked_markRange (h : bm.Ok) :
    (bm.markRange start stop).Marked i ↔ bm.Marked i ∨ (start ≤ i ∧ i < stop) :=
  (markRange_spec h start stop).2 i

lemma init_spec (n : ℕ) : (init n).Ok ∧ ∀ i, (init n).Marked i ↔ n ≤ i := by
  set zero : DtlsMessageBitmap := ⟨List.replicate ((n + 7) / 8) 0, 0⟩ with hzero
  have hok : zero.Ok := by
    refine ⟨fun i hi => absurd hi (Nat.not_lt_zero i), fun hn => ?_⟩
    have hpos : 0 < (n + 7) / 8 := by
      grind
    simp [hzero, List.getD_eq_getElem?_getD, hpos]
  have hmark : ∀ i, (init n).Marked i ↔ n ≤ i := by
    intro i
    have h1 : (init n).Marked i ↔ (zero.markRange n ((n + 7) / 8 * 8)).Marked i := Iff.rfl
    have h2 : zero.Marked i ↔ (n + 7) / 8 ≤ i / 8 := by
      unfold Marked bitAt
      simp only [hzero, List.getD_eq_getElem?_getD, List.getElem?_replicate]
      by_cases hi : i / 8 < (n + 7) / 8
      · simp [hi, byteBit_zero]
      · simp only [hi, if_false, Option.getD_none, byteBit_ff (Nat.mod_lt i (by norm_num : 0 < 8)),
          true_iff]
        omega
    rw [h1, marked_markRange hok, h2]
    omega
  refine ⟨⟨fun i hi => absurd hi (Nat.not_lt_zero i), fun hn => ?_⟩, hmark⟩
  have hpos : ¬ (init n).Marked 0 := by
    rw [hmark]
    rintro hle
    have h0 : n = 0 := by omega
    subst h0
    exact hn rfl
  exact getD_ne_ff_of_not_marked hpos

/-- `r` is the first run of unmarked bits from `start` on. -/
structure NextRun (bm : DtlsMessageBitmap) (start : ℕ) (r : BitmapRange) : Prop where
  le : start ≤ r.start
  lt : r.start < r.stop
  before : ∀ i, start ≤ i → i < r.start → bm.Marked i
  unmarked : ∀ i, r.start ≤ i → i < r.stop → ¬ bm.Marked i
  stop : bm.Marked r.stop

/-- What the search for a byte finds: everything before it is marked, and its bits are those of the
bitmap with the bits before `start` marked. -/
lemma findUnmarkedByte_spec (bytes : Bytes) (start : ℕ) {idx : ℕ} {byte : UInt8}
    (h : findUnmarkedByte bytes start = (idx, byte)) :
    start / 8 ≤ idx
      ∧ (∀ i, start ≤ i → i < 8 * idx → bitAt bytes i = true)
      ∧ (∀ j < 8, byteBit byte j = true ↔ 8 * idx + j < start ∨ bitAt bytes (8 * idx + j) = true)
      ∧ (idx < bytes.length → byte ≠ 0xff) := by
  have hbyte : ∀ j < 8, byteBit (bytes.getD (start / 8) 0xff ||| bitRange 0 (start % 8)) j = true
      ↔ 8 * (start / 8) + j < start ∨ bitAt bytes (8 * (start / 8) + j) = true := by
    intro j hj
    have h1 : (8 * (start / 8) + j) / 8 = start / 8 := by omega
    have h2 : (8 * (start / 8) + j) % 8 = j := by omega
    rw [byteBit_or, byteBit_bitRange (by omega) (by omega) hj, bitAt, h1, h2, Bool.or_eq_true,
      decide_eq_true_eq, or_comm]
    apply or_congr_left
    omega
  unfold findUnmarkedByte at h
  simp only [] at h
  split_ifs at h with hff <;> simp only [Prod.mk.injEq] at h <;> obtain ⟨rfl, rfl⟩ := h
  · have hle := le_scanFrom (· != 0xff) bytes (start / 8 + 1)
    refine ⟨by omega, fun i h1 h2 => ?_, fun j hj => ?_, fun hlt => ?_⟩
    · by_cases hi : i / 8 = start / 8
      · have h3 := (hbyte (i % 8) (by omega)).mp (by rw [hff, byteBit_ff (by omega)])
        have h4 : 8 * (start / 8) + i % 8 = i := by omega
        rw [h4] at h3
        exact h3.resolve_left (by omega)
      · have := not_of_lt_scanFrom (· != 0xff) bytes 0xff
          (show start / 8 + 1 ≤ i / 8 by omega) (by omega)
        exact bitAt_of_getD_ff (by simpa using this)
    · generalize scanFrom (· != 0xff) bytes (start / 8 + 1) = idx at hle
      have h1 : (8 * idx + j) / 8 = idx := by omega
      have h2 : (8 * idx + j) % 8 = j := by omega
      rw [bitAt, h1, h2]
      exact ⟨Or.inr, fun h => h.resolve_left (by omega)⟩
    · have := scanFrom_spec (· != 0xff) bytes 0xff hlt
      simpa using this
  · exact ⟨le_rfl, fun i h1 h2 => by omega, hbyte, fun _ => hff⟩

lemma nextUnmarkedRange_spec (h : bm.Ok) (start : ℕ) :
    (bm.nextUnmarkedRange start = ⟨0, 0⟩ ∧ ∀ i, start ≤ i → bm.Marked i)
      ∨ NextRun bm start (bm.nextUnmarkedRange start) := by
  unfold nextUnmarkedRange
  set lo := max start (bm.firstUnmarkedByte * 8) with hlo
  -- The bits skipped at the start are all marked.
  have hskip : ∀ i, start ≤ i → i < lo → bm.Marked i := fun i h1 h2 => h.marked i (by omega)
  rcases hfind : findUnmarkedByte bm.bytes lo with ⟨idx, byte⟩
  obtain ⟨hidx, hbefore, hbits, hne⟩ := findUnmarkedByte_spec bm.bytes lo hfind
  have hbelow : ∀ i, start ≤ i → i < 8 * idx → bm.Marked i := by
    intro i h1 h2
    by_cases hl : i < lo
    · exact hskip i h1 hl
    · exact hbefore i (by omega) h2
  simp only [hfind]
  split_ifs with hpast hend hext hextra
  · refine Or.inl ⟨rfl, fun i hi => ?_⟩
    by_cases hl : i < lo
    · exact hskip i hi hl
    · exact bitAt_of_ge (by omega)
  · refine Or.inl ⟨rfl, fun i hi => ?_⟩
    by_cases h2 : i < 8 * idx
    · exact hbelow i hi h2
    · exact bitAt_of_ge (by omega)
  all_goals
    obtain ⟨-, hle8, hlt, hones, hzeros, hone⟩ := firstUnmarkedRangeInByte_spec byte _ rfl
    replace hlt := hlt (hne (by omega))
    set r := firstUnmarkedRangeInByte byte with hr
    have hstart : lo ≤ 8 * idx + r.start := by
      grind
    have hfirst : ∀ i, start ≤ i → i < r.start + idx * 8 → bm.Marked i := by
      intro i h1 h2
      by_cases hi : i < 8 * idx
      · exact hbelow i h1 hi
      · by_cases hl : i < lo
        · exact hskip i h1 hl
        · have := (hbits (i - 8 * idx) (by omega)).mp (hones _ (by omega))
          rw [Nat.add_sub_cancel' (by omega)] at this
          exact this.resolve_left hl
    have hin : ∀ i, r.start + idx * 8 ≤ i → i < r.stop + idx * 8 → ¬ bm.Marked i := by
      intro i h1 h2 hm
      have := (hbits (i - 8 * idx) (by omega)).mpr (Or.inr (by
        rw [Nat.add_sub_cancel' (by omega)]; exact hm))
      rw [hzeros (i - 8 * idx) (by omega) (by omega)] at this
      simp at this
  · refine Or.inr ⟨by simp only []; omega, by simp only []; omega, hfirst, hin, ?_⟩
    have := (hbits r.stop (by omega)).mp (hone (by omega))
    rw [add_comm r.stop, mul_comm]
    exact this.resolve_left (by omega)
  all_goals
    set next := scanFrom (· != 0) bm.bytes (idx + 1) with hnext
    have hle : idx + 1 ≤ next := le_scanFrom _ _ _
    have hzero : ∀ i, r.start + idx * 8 ≤ i → i < next * 8 → ¬ bm.Marked i := by
      intro i h1 h2
      by_cases hi : i < r.stop + idx * 8
      · exact hin i h1 hi
      · have := not_of_lt_scanFrom (· != 0) bm.bytes 0xff
          (show idx + 1 ≤ i / 8 by omega) (by omega)
        simp only [bne_eq_false_iff_eq] at this
        rw [Marked, bitAt, this, byteBit_zero]
        simp
    have hbitn : ∀ j < 8, bitAt bm.bytes (next * 8 + j) = byteBit (bm.bytes.getD next 0xff) j := by
      intro j hj
      rw [bitAt, show (next * 8 + j) / 8 = next by omega, show (next * 8 + j) % 8 = j by omega]
    obtain ⟨-, hle8', -, hones', hzeros', hone'⟩ :=
      firstUnmarkedRangeInByte_spec (bm.bytes.getD next 0xff) _ rfl
    set e := firstUnmarkedRangeInByte (bm.bytes.getD next 0xff) with he
  · obtain ⟨hlen, hs0⟩ := hextra
    refine Or.inr ⟨by simp only []; omega, by simp only []; omega, hfirst, fun i h1 h2 => ?_, ?_⟩
    · by_cases hi : i < next * 8
      · exact hzero i h1 hi
      · have := hbitn (i - next * 8) (by simp only [] at h2; omega)
        rw [Nat.add_sub_cancel' (by omega), hzeros' _ (by simp only [] at h2; omega) (by omega)]
          at this
        rw [Marked, this]
        simp
    · have hnz : bm.bytes.getD next 0xff ≠ 0 := by
        have := scanFrom_spec (· != 0) bm.bytes 0xff hlen
        simpa using this
      obtain ⟨j, hj, hbit⟩ := exists_byteBit_of_ne_zero hnz
      have hlt8 : e.stop < 8 := by
        grind
      show bitAt bm.bytes (next * 8 + e.stop) = true
      rw [hbitn _ hlt8, hone' hlt8]
  · refine Or.inr ⟨by simp only []; omega, by simp only []; omega, hfirst, hzero, ?_⟩
    by_cases hlen : next < bm.bytes.length
    · have hpos : 0 < e.start := Nat.pos_of_ne_zero fun h0 => hextra ⟨hlen, h0⟩
      have := hbitn 0 (by norm_num)
      rw [add_zero, hones' 0 hpos] at this
      exact this
    · exact bitAt_of_ge (by simp only []; omega)

/-- The bits in the ranges. -/
def marks (ranges : List BitmapRange) : Set ℕ := {i | ∃ r ∈ ranges, r.start ≤ i ∧ i < r.stop}

/-- The bitmap after the calls of `MarkRange`, the first one first. -/
def markRanges (bm : DtlsMessageBitmap) (ranges : List BitmapRange) : DtlsMessageBitmap :=
  ranges.foldl (fun bm r => bm.markRange r.start r.stop) bm

/-- The bits of `[0, n)` from `s` on that are not in `marked`. -/
def unmarkedFrom (n : ℕ) (marked : Set ℕ) (s : ℕ) : Set ℕ := {i | s ≤ i ∧ i < n ∧ i ∉ marked}

lemma markRanges_spec : ∀ (ranges : List BitmapRange) {bm : DtlsMessageBitmap}, bm.Ok →
    (bm.markRanges ranges).Ok
      ∧ ∀ i, (bm.markRanges ranges).Marked i ↔ bm.Marked i ∨ i ∈ marks ranges
  | [], bm, h => ⟨h, fun i => by simp [markRanges, marks]⟩
  | r :: ranges, bm, h => by
    obtain ⟨hok, hmarked⟩ := markRanges_spec ranges (h.markRange r.start r.stop)
    refine ⟨hok, fun i => ?_⟩
    have hstep : (bm.markRanges (r :: ranges)).Marked i
        ↔ (bm.markRange r.start r.stop).Marked i ∨ i ∈ marks ranges := hmarked i
    rw [hstep, marked_markRange h, or_assoc]
    simp [marks, or_and_right, exists_or]

/-- After any marks, the queries are those on the set of the bits that were marked. -/
theorem markRanges_refines_set (n : ℕ) (hn : n + 7 < 2 ^ 64) :
    ∃ bm, tryInit n = some bm ∧ ∀ ranges : List BitmapRange,
      ((bm.markRanges ranges).isComplete = true ↔ ∀ i < n, i ∈ marks ranges)
      ∧ ∀ s, let r := (bm.markRanges ranges).nextUnmarkedRange s
        (r.empty = true ↔ unmarkedFrom n (marks ranges) s = ∅)
        ∧ (r.empty = false → IsLeast (unmarkedFrom n (marks ranges) s) r.start
          ∧ IsLeast {i | r.start < i ∧ (i ∈ marks ranges ∨ i = n)} r.stop) := by
  obtain ⟨hinit, hbits⟩ := init_spec n
  refine ⟨init n, ?_, fun ranges => ?_⟩
  · rw [tryInit, if_neg]
    omega
  obtain ⟨hok, hspec⟩ := markRanges_spec ranges hinit
  have hmarked : ∀ i, ((init n).markRanges ranges).Marked i ↔ n ≤ i ∨ i ∈ marks ranges := by
    intro i
    rw [hspec, hbits]
  have hunmarked : ∀ i, ¬ ((init n).markRanges ranges).Marked i ↔ i < n ∧ i ∉ marks ranges := by
    intro i
    rw [hmarked, not_or, not_le]
  refine ⟨?_, fun s => ?_⟩
  · rw [isComplete_iff hok]
    refine forall_congr' fun i => ?_
    rw [hmarked, or_iff_not_imp_left, not_le]
  intro r
  rcases nextUnmarkedRange_spec hok s with ⟨hzero, hall⟩ | hrun
  · have hr : r = ⟨0, 0⟩ := hzero
    have hnone : unmarkedFrom n (marks ranges) s = ∅ := by
      ext i
      simp only [unmarkedFrom, Set.mem_ofPred_eq, Set.mem_empty_iff_false, iff_false]
      exact fun ⟨hs, hi⟩ => (hunmarked i).mpr hi (hall i hs)
    simp [hr, BitmapRange.empty, hnone]
  · have hne : r.empty = false := by
      simpa [BitmapRange.empty] using hrun.lt.ne
    have hfirst := (hunmarked r.start).mp (hrun.unmarked r.start le_rfl hrun.lt)
    have hmem : r.start ∈ unmarkedFrom n (marks ranges) s := ⟨hrun.le, hfirst⟩
    have hinside : ∀ i, r.start ≤ i → i < r.stop → i < n ∧ i ∉ marks ranges :=
      fun i h1 h2 => (hunmarked i).mp (hrun.unmarked i h1 h2)
    refine ⟨?_, fun _ => ⟨⟨hmem, fun i hi => ?_⟩, ⟨⟨hrun.lt, ?_⟩, fun i hi => ?_⟩⟩⟩
    · rw [hne]
      simpa using Set.nonempty_iff_ne_empty.mp ⟨r.start, hmem⟩
    · by_contra hlt
      exact (hunmarked i).mpr hi.2 (hrun.before i hi.1 (Nat.lt_of_not_le hlt))
    · rcases (hmarked r.stop).mp hrun.stop with hpast | hin
      · have hlast := hinside (r.stop - 1) (by have := hrun.lt; omega) (by have := hrun.lt; omega)
        omega
      · exact Or.inl hin
    · grind

theorem markRanges_refines_set_twelve : 12 + 7 < 2 ^ 64 ∧ ∃ bm, tryInit 12 = some bm
    ∧ (bm.markRanges [⟨0, 2⟩, ⟨9, 2 ^ 64 - 1⟩]).nextUnmarkedRange 0 = ⟨2, 9⟩
    ∧ IsLeast (unmarkedFrom 12 (marks [⟨0, 2⟩, ⟨9, 2 ^ 64 - 1⟩]) 0) 2 := by
  obtain ⟨bm, hbm, hspec⟩ := markRanges_refines_set 12 (by decide)
  have hrun : (bm.markRanges [⟨0, 2⟩, ⟨9, 2 ^ 64 - 1⟩]).nextUnmarkedRange 0 = ⟨2, 9⟩ := by
    cases Option.some.inj ((show tryInit 12 = some (init 12) from rfl).symm.trans hbm)
    decide +kernel
  refine ⟨by decide, bm, hbm, hrun, ?_⟩
  have hleast := ((hspec [⟨0, 2⟩, ⟨9, 2 ^ 64 - 1⟩]).2 0).2
  simp only [hrun] at hleast
  exact (hleast rfl).1

end DtlsMessageBitmap

end BoringSSL
