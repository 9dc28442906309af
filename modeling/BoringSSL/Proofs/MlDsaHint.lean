import BoringSSL.Lib.Canonical
import BoringSSL.MlDsaEncoding

/-!
# The encoding of hints is canonical

The rows of a hint are given by the ascending lists of the positions of their ones.  The encoding
holds these lists one after the other, zeros up to `omega`, and for each row where its list ends.
-/

namespace BoringSSL.MlDsa

open ByteLib List
open ByteLib.Checked

variable {x n count : ℕ} {row : Scalar} {bs : Bytes}
  {ps : List ℕ} {h : List Scalar} {rows : List (List ℕ)}

def rowOf (ps : List ℕ) : Scalar := (range degree).map fun j => if j ∈ ps then 1 else 0

/-- The positions of the coefficients that are not zero, where the first is at `j`. -/
def positionsFrom : ℕ → Scalar → List ℕ
  | _, [] => []
  | j, c :: cs => if c ≠ 0 then j :: positionsFrom (j + 1) cs else positionsFrom (j + 1) cs

lemma mem_positionsFrom : ∀ {cs : Scalar} {j : ℕ},
    x ∈ positionsFrom j cs ↔ j ≤ x ∧ cs.getD (x - j) 0 ≠ 0
  | [], j => by simp [positionsFrom]
  | c :: cs, j => by
    have hrest : x ∈ positionsFrom (j + 1) cs ↔ j + 1 ≤ x ∧ (c :: cs).getD (x - j) 0 ≠ 0 := by
      rw [mem_positionsFrom]
      refine and_congr_right fun hx => ?_
      rw [show x - j = x - (j + 1) + 1 by omega, getD_cons_succ]
    by_cases hx : x = j
    · subst hx
      rw [positionsFrom]
      split_ifs with hc
      · simpa using hc
      · rw [hrest]
        simpa using hc
    · have hle : j ≤ x ↔ j + 1 ≤ x := by omega
      rw [positionsFrom, hle]
      split_ifs
      · rw [mem_cons, hrest, or_iff_right hx]
      · exact hrest

lemma pairwise_positionsFrom : ∀ (cs : Scalar) (j : ℕ), (positionsFrom j cs).Pairwise (· < ·)
  | [], _ => .nil
  | c :: cs, j => by
    rw [positionsFrom]
    split_ifs
    · exact .cons (fun x hx => (mem_positionsFrom.mp hx).1) (pairwise_positionsFrom cs _)
    · exact pairwise_positionsFrom cs _

lemma length_rowOf (ps : List ℕ) : (rowOf ps).length = degree := by
  rw [rowOf, length_map, length_range]

lemma getD_rowOf {j : ℕ} (hj : j < degree) : (rowOf ps).getD j 0 = if j ∈ ps then 1 else 0 := by
  rw [getD_eq_getElem _ _ (by rwa [length_rowOf])]
  simp [rowOf]

lemma positionsFrom_rowOf (hps : ps.Pairwise (· < ·)) (hlt : ∀ p ∈ ps, p < degree) :
    positionsFrom 0 (rowOf ps) = ps := by
  refine (pairwise_positionsFrom _ 0).eq_of_mem_iff hps fun x => ?_
  rw [mem_positionsFrom, Nat.sub_zero]
  by_cases hx : x < degree
  · rw [getD_rowOf hx]
    simp
  · have hnot : x ∉ ps := fun hmem => hx (hlt x hmem)
    rw [getD_eq_default _ _ (by rw [length_rowOf]; omega)]
    simpa using hnot

lemma rowOf_positionsFrom (hlen : row.length = degree) (hrow : ∀ c ∈ row, c ≤ 1) :
    rowOf (positionsFrom 0 row) = row := by
  refine ext_getElem (by rw [length_rowOf, hlen]) fun j hj hj' => ?_
  have hentry := hrow row[j] (getElem_mem hj')
  rw [length_rowOf] at hj
  have hval : (rowOf (positionsFrom 0 row)).getD j 0 = if j ∈ positionsFrom 0 row then 1 else 0 :=
    getD_rowOf hj
  rw [getD_eq_getElem _ _ (by rwa [length_rowOf])] at hval
  have hmem : j ∈ positionsFrom 0 row ↔ row[j] ≠ 0 := by
    rw [mem_positionsFrom, Nat.sub_zero, getD_eq_getElem _ _ hj']
    exact and_iff_right (Nat.zero_le j)
  rw [hval]
  by_cases hzero : row[j] = 0
  · rw [if_neg fun h => hmem.mp h hzero, hzero]
  · rw [if_pos (hmem.mpr hzero)]
    omega

lemma positionsFrom_lt (hx : x ∈ positionsFrom 0 row) : x < row.length := by
  obtain ⟨-, hx⟩ := mem_positionsFrom.mp hx
  by_contra hle
  exact hx (getD_eq_default _ _ (by omega))

lemma rowOf_nil : rowOf [] = replicate degree 0 := by
  simp [rowOf, map_const']

lemma set_rowOf (ps : List ℕ) (x : ℕ) : (rowOf ps).set x 1 = rowOf (ps ++ [x]) := by
  refine ext_getElem (by simp [length_rowOf]) fun j hj hj' => ?_
  simp only [getElem_set, rowOf, getElem_map, getElem_range, mem_append, mem_singleton]
  by_cases hx : x = j
  · rw [if_pos hx, if_pos (.inr hx.symm)]
  · simp only [if_neg hx, or_iff_left (Ne.symm hx)]

lemma foldl_set_rowOf : ∀ (qs ps : List ℕ),
    qs.foldl (fun c x => c.set x 1) (rowOf ps) = rowOf (ps ++ qs)
  | [], ps => by simp
  | x :: qs, ps => by
    rw [foldl_cons, set_rowOf, foldl_set_rowOf qs, append_assoc]
    rfl

/-- Where the list of each row ends, if the first starts at `index`. -/
def limitsFrom : ℕ → List (List ℕ) → List ℕ
  | _, [] => []
  | index, ps :: rows => (index + ps.length) :: limitsFrom (index + ps.length) rows

lemma length_limitsFrom : ∀ (rows : List (List ℕ)) (index : ℕ),
    (limitsFrom index rows).length = rows.length
  | [], _ => rfl
  | ps :: rows, index => by
    rw [limitsFrom, length_cons, length_limitsFrom rows, length_cons]

def padTo (n : ℕ) (bs : Bytes) : Bytes := bs ++ replicate (n - bs.length) 0

lemma length_padTo (h : bs.length ≤ n) : (padTo n bs).length = n := by
  rw [padTo, length_append, length_replicate]
  omega

lemma set_padTo (h : bs.length < n) (b : UInt8) (tail : Bytes) :
    (padTo n bs ++ tail).set bs.length b = padTo n (bs ++ [b]) ++ tail := by
  rw [padTo, padTo, append_assoc, set_append_right _ _ le_rfl, Nat.sub_self,
    show n - bs.length = n - (bs ++ [b]).length + 1 by simp; omega, replicate_succ]
  simp

/-- The encoding of the rows given by their positions. -/
def hintBytes (omega : ℕ) (rows : List (List ℕ)) : Bytes :=
  padTo omega (rows.flatten.map UInt8.ofNat) ++ (limitsFrom 0 rows).map UInt8.ofNat

lemma hintBitPackScalar_eq (omega : ℕ) (tail : Bytes) : ∀ (cs : Scalar) (j : ℕ) (front : Bytes),
    front.length + (positionsFrom j cs).length ≤ omega →
    hintBitPackScalar omega j cs (padTo omega front ++ tail) front.length
      = .ok (padTo omega (front ++ (positionsFrom j cs).map UInt8.ofNat) ++ tail,
        front.length + (positionsFrom j cs).length)
  | [], j, front, _ => by simp [hintBitPackScalar, positionsFrom]
  | c :: cs, j, front, hle => by
    rw [hintBitPackScalar]
    rw [positionsFrom] at hle ⊢
    split_ifs at hle with hc
    · rw [length_cons] at hle
      have hrest := hintBitPackScalar_eq omega tail cs (j + 1) (front ++ [UInt8.ofNat j])
        (by rw [length_append, length_singleton]; omega)
      rw [length_append, length_singleton] at hrest
      rw [if_pos hc, if_pos hc, assert_bind (by omega), set_padTo (by omega), hrest]
      simp [add_assoc, add_comm 1]
    · rw [if_neg hc, if_neg hc, hintBitPackScalar_eq omega tail cs (j + 1) front hle]

lemma hintBitPackFrom_eq (omega : ℕ) : ∀ (h : List Scalar) (i : ℕ) (front lims : Bytes),
    lims.length = i → front.length + (h.map (positionsFrom 0)).flatten.length ≤ omega →
    hintBitPackFrom omega i h (padTo omega front ++ (lims ++ replicate h.length 0))
      front.length = .ok (padTo omega (front ++ (h.map (positionsFrom 0)).flatten.map UInt8.ofNat)
        ++ (lims ++ (limitsFrom front.length (h.map (positionsFrom 0))).map UInt8.ofNat))
  | [], i, front, lims, _, _ => by simp [hintBitPackFrom, limitsFrom]
  | s :: h, i, front, lims, hi, hle => by
    simp only [map_cons, flatten_cons, length_append, limitsFrom] at hle ⊢
    rw [hintBitPackFrom, hintBitPackScalar_eq omega _ s 0 front (by omega), ok_bind]
    have hfront : (front ++ (positionsFrom 0 s).map UInt8.ofNat).length
        = front.length + (positionsFrom 0 s).length := by simp
    -- The limit of the row is written behind those before it.
    have hset : (padTo omega (front ++ (positionsFrom 0 s).map UInt8.ofNat) ++
        (lims ++ replicate (s :: h).length 0)).set (omega + i)
          (UInt8.ofNat (front.length + (positionsFrom 0 s).length))
        = padTo omega (front ++ (positionsFrom 0 s).map UInt8.ofNat) ++
          (lims ++ [UInt8.ofNat (front.length + (positionsFrom 0 s).length)] ++
            replicate h.length 0) := by
      have hpad := length_padTo (n := omega) (hfront.trans_le (by omega))
      rw [set_append_right _ _ (by omega), hpad, Nat.add_sub_cancel_left,
        set_append_right _ _ (by omega), hi, Nat.sub_self, length_cons,
        replicate_succ]
      simp
    have hrest := hintBitPackFrom_eq omega h (i + 1) _
      (lims ++ [UInt8.ofNat (front.length + (positionsFrom 0 s).length)])
      (by simp [hi]) (by rw [hfront]; omega)
    rw [hfront] at hrest
    simp only
    rw [hset, hrest]
    simp

lemma hintBitPack_eq {p : Params} (hlen : h.length = p.k)
    (hle : (h.map (positionsFrom 0)).flatten.length ≤ p.omega) :
    hintBitPack p h = .ok (hintBytes p.omega (h.map (positionsFrom 0))) := by
  have hstart : replicate (p.omega + p.k) (0 : UInt8)
      = padTo p.omega [] ++ ([] ++ replicate h.length 0) := by
    rw [padTo, hlen, replicate_add]
    simp
  rw [hintBitPack, hstart, hintBytes]
  exact hintBitPackFrom_eq p.omega h 0 [] [] rfl (by simpa using hle)

section Unpack

variable (input : Bytes) {omega index : ℕ} {p : Params}

def byteAt (i : ℕ) : ℕ := (input.getD i 0).toNat

def segment (index count : ℕ) : List ℕ := (range' index count).map (byteAt input)

lemma segment_succ (index count : ℕ) :
    segment input index (count + 1) = byteAt input index :: segment input (index + 1) count := rfl

lemma hintBitUnpackScalar_eq : ∀ (count index : ℕ) (last : ℤ) (c : Scalar),
    hintBitUnpackScalar input count index last c
      = if (last :: (segment input index count).map Nat.cast).IsChain (· < ·)
        then .ok ((segment input index count).foldl (fun c x => c.set x 1) c) else .error .fail
  | 0, index, last, c => by simp [hintBitUnpackScalar, segment]
  | count + 1, index, last, c => by
    rw [hintBitUnpackScalar, segment_succ, map_cons, foldl_cons]
    change (if last ≥ 0 ∧ (byteAt input index : ℤ) ≤ last then _ else _) = _
    by_cases hlast : last < byteAt input index
    · rw [if_neg (by omega)]
      simp only [isChain_cons_cons, hlast, true_and]
      exact hintBitUnpackScalar_eq count (index + 1) _ _
    · rw [if_pos (by omega), if_neg fun h => hlast (isChain_cons_cons.mp h).1]
      rfl

lemma hintBitUnpackScalar_row (count index : ℕ) :
    hintBitUnpackScalar input count index (-1) (replicate degree 0)
      = if (segment input index count).Pairwise (· < ·) then .ok (rowOf (segment input index count))
        else .error .fail := by
  have hchain : ((-1) :: (segment input index count).map (Nat.cast : ℕ → ℤ)).IsChain (· < ·)
      ↔ (segment input index count).Pairwise (· < ·) := by
    rw [isChain_iff_pairwise, pairwise_cons, pairwise_map]
    simp only [List.mem_map, Nat.cast_lt]
    refine and_iff_right ?_
    omega
  rw [hintBitUnpackScalar_eq, ← rowOf_nil, foldl_set_rowOf, nil_append]
  simp only [hchain]

lemma segment_add (index a b : ℕ) :
    segment input index (a + b) = segment input index a ++ segment input (index + a) b := by
  rw [segment, segment, segment, ← map_append, range'_append_1]

lemma length_segment (index count : ℕ) : (segment input index count).length = count := by
  rw [segment, length_map, length_range']

lemma byteAt_lt (i : ℕ) : byteAt input i < degree := (input.getD i 0).toNat_lt

/-- Where the positions of row `i` start, which is where those of the row before it end. -/
def rowStart (omega : ℕ) : ℕ → ℕ
  | 0 => 0
  | i + 1 => byteAt input (omega + i)

def rowAt (omega i : ℕ) : List ℕ :=
  segment input (rowStart input omega i) (rowStart input omega (i + 1) - rowStart input omega i)

/-- A row that the parser accepts. -/
def RowOk (omega i : ℕ) : Prop :=
  rowStart input omega i ≤ rowStart input omega (i + 1) ∧ rowStart input omega (i + 1) ≤ omega ∧
    (rowAt input omega i).Pairwise (· < ·)

instance (omega i : ℕ) : Decidable (RowOk input omega i) :=
  inferInstanceAs (Decidable (_ ∧ _ ∧ _))

lemma hintBitUnpackFrom_eq : ∀ (m i : ℕ),
    hintBitUnpackFrom omega input (range' i m) (rowStart input omega i)
      = if ∀ j ∈ range' i m, RowOk input omega j
        then .ok (((range' i m).map (rowAt input omega)).map rowOf, rowStart input omega (i + m))
        else .error .fail
  | 0, i => by simp [hintBitUnpackFrom]
  | m + 1, i => by
    have hrest := hintBitUnpackFrom_eq m (i + 1)
    rw [range'_succ, hintBitUnpackFrom, hintBitUnpackScalar_row]
    change (if rowStart input omega (i + 1) < rowStart input omega i ∨
        rowStart input omega (i + 1) > omega then reject else
      (if (rowAt input omega i).Pairwise (· < ·) then _ else _) >>= fun s =>
      hintBitUnpackFrom omega input _ (rowStart input omega (i + 1)) >>= _) = _
    simp only [forall_mem_cons]
    by_cases hrow : RowOk input omega i
    · have ⟨hge, hle, hasc⟩ := hrow
      rw [if_neg (by omega), if_pos hasc, ok_bind, hrest, add_right_comm i 1]
      by_cases hall : ∀ j ∈ range' (i + 1) m, RowOk input omega j
      · rw [if_pos hall, if_pos ⟨hrow, hall⟩]
        rfl
      · rw [if_neg hall, if_neg fun h => hall h.2]
        rfl
    · by_cases hlim : rowStart input omega (i + 1) < rowStart input omega i ∨
          rowStart input omega (i + 1) > omega
      · rw [if_pos hlim, if_neg fun h => hrow h.1]
        rfl
      · rw [if_neg hlim, if_neg fun hasc => hrow ⟨by omega, by omega, hasc⟩,
          if_neg fun h => hrow h.1]
        rfl

/-- The bytes hold rows one after the other, with their limits. -/
lemma segments_iff : ∀ (rows : List (List ℕ)) (i : ℕ),
    segment input (rowStart input omega i) rows.flatten.length = rows.flatten ∧
      segment input (omega + i) rows.length = limitsFrom (rowStart input omega i) rows ↔
    (range' i rows.length).map (rowAt input omega) = rows ∧
      ∀ j ∈ range' i rows.length, rowStart input omega j ≤ rowStart input omega (j + 1)
  | [], i => by simp [segment, limitsFrom]
  | ps :: rows, i => by
    have hfirst : segment input (rowStart input omega i) ps.length = ps ∧
        rowStart input omega (i + 1) = rowStart input omega i + ps.length ↔
        rowAt input omega i = ps ∧ rowStart input omega i ≤ rowStart input omega (i + 1) := by
      constructor
      · rintro ⟨hps, hlim⟩
        rw [rowAt, hlim, Nat.add_sub_cancel_left]
        exact ⟨hps, Nat.le_add_right _ _⟩
      · rintro ⟨rfl, hle⟩
        rw [rowAt, length_segment]
        exact ⟨rfl, by omega⟩
    have hrest := segments_iff rows (i + 1)
    simp only [length_cons, range'_succ, map_cons, forall_mem_cons, flatten_cons, length_append,
      segment_add, segment_succ, limitsFrom, cons.injEq]
    constructor
    · rintro ⟨hpos, hlim, hlims⟩
      obtain ⟨hps, hpos⟩ := append_inj hpos (length_segment input _ _)
      rw [← show rowStart input omega (i + 1) = _ from hlim] at hpos hlims
      obtain ⟨hrow, hle⟩ := hfirst.mp ⟨hps, hlim⟩
      obtain ⟨hrows, hmono⟩ := hrest.mp ⟨hpos, hlims⟩
      exact ⟨⟨hrow, hrows⟩, hle, hmono⟩
    · rintro ⟨⟨hrow, hrows⟩, hle, hmono⟩
      obtain ⟨hps, hlim⟩ := hfirst.mpr ⟨hrow, hle⟩
      obtain ⟨hpos, hlims⟩ := hrest.mpr ⟨hrows, hmono⟩
      rw [← hlim, hps, hpos]
      exact ⟨rfl, rfl, hlims⟩

lemma rowStart_add : ∀ {m i : ℕ},
    (∀ j ∈ range' i m, rowStart input omega j ≤ rowStart input omega (j + 1)) →
    rowStart input omega (i + m) = rowStart input omega i +
      ((range' i m).map (rowAt input omega)).flatten.length
  | 0, _, _ => rfl
  | m + 1, i, h => by
    rw [range'_succ, forall_mem_cons] at h
    rw [range'_succ, map_cons, flatten_cons, length_append, rowAt, length_segment,
      ← add_assoc, add_right_comm, rowStart_add h.2]
    omega

lemma segment_eq (hle : index + count ≤ input.length) :
    segment input index count = ((input.drop index).take count).map UInt8.toNat := by
  refine ext_getElem ?_ fun j hj hj' => ?_
  · simp [length_segment]
    omega
  · rw [length_segment] at hj
    simp only [segment, getElem_map, getElem_range', getElem_take, getElem_drop, byteAt]
    rw [getD_eq_getElem _ _ (by omega)]
    simp

lemma limitsFrom_le : ∀ {rows : List (List ℕ)} {index x : ℕ}, x ∈ limitsFrom index rows →
    x ≤ index + rows.flatten.length
  | ps :: rows, index, x, hx => by
    rw [flatten_cons, length_append]
    rw [limitsFrom, mem_cons] at hx
    rcases hx with rfl | hx
    · omega
    · have := limitsFrom_le hx
      omega

lemma map_toNat_ofNat {xs : List ℕ} (hlt : ∀ x ∈ xs, x < 256) :
    (xs.map UInt8.ofNat).map UInt8.toNat = xs := by
  rw [List.map_map]
  refine (map_congr_left fun x hx => ?_).trans xs.map_id
  exact UInt8.toNat_ofNat_of_lt (hlt x hx)

lemma eq_hintBytes_iff {k : ℕ} (hlen : input.length = omega + k) (hrows : rows.length = k)
    (hlt : ∀ x ∈ rows.flatten, x < degree) (hle : rows.flatten.length ≤ omega)
    (homega : omega < 256) :
    input = hintBytes omega rows ↔ segment input 0 rows.flatten.length = rows.flatten ∧
      segment input rows.flatten.length (omega - rows.flatten.length)
        = replicate (omega - rows.flatten.length) 0 ∧
      segment input omega rows.length = limitsFrom 0 rows := by
  have hbytes : (hintBytes omega rows).map UInt8.toNat = rows.flatten ++
      (replicate (omega - rows.flatten.length) 0 ++ limitsFrom 0 rows) := by
    rw [hintBytes, padTo, map_append, map_append, map_toNat_ofNat hlt,
      map_toNat_ofNat fun x hx => ?_, map_replicate, length_map, append_assoc]
    · rfl
    · have := limitsFrom_le hx
      omega
  have hinput : input.map UInt8.toNat = segment input 0 rows.flatten.length ++
      (segment input rows.flatten.length (omega - rows.flatten.length) ++
        segment input omega rows.length) := by
    have hseg : segment input 0 input.length = _ := segment_eq input (by omega)
    rw [drop_zero, take_length] at hseg
    rw [← hseg, hlen, hrows]
    conv_lhs => rw [← Nat.add_sub_of_le hle, add_assoc, segment_add, segment_add, zero_add,
      Nat.add_sub_of_le hle]
  have hinj : input = hintBytes omega rows ↔
      input.map UInt8.toNat = (hintBytes omega rows).map UInt8.toNat :=
    (map_injective_iff.mpr fun _ _ => UInt8.toNat.inj).eq_iff.symm
  rw [hinj, hbytes, hinput]
  constructor
  · intro h
    obtain ⟨hpos, h⟩ := append_inj h (length_segment input _ _)
    exact ⟨hpos, append_inj h (by rw [length_segment, length_replicate])⟩
  · rintro ⟨hpos, hzero, hlims⟩
    rw [hpos, hzero, hlims]

lemma padding_iff (hlen : omega ≤ input.length) (hle : index ≤ omega) :
    ((input.take omega).drop index).any (· ≠ 0) = false ↔
      segment input index (omega - index) = replicate (omega - index) 0 := by
  rw [segment_eq input (by omega), drop_take, List.any_eq_false, eq_replicate_iff]
  simp only [length_map, length_take, length_drop, List.forall_mem_map]
  rw [and_iff_right (by omega)]
  simp [← UInt8.toNat_inj]

/-- What the parser rejects. -/
inductive HintMalformed (p : Params) : Prop where
  | decreasing (i : ℕ) (hi : i < p.k)
      (h : rowStart input p.omega (i + 1) < rowStart input p.omega i)
  | tooLarge (i : ℕ) (hi : i < p.k) (h : p.omega < rowStart input p.omega (i + 1))
  | notIncreasing (i j : ℕ) (hi : i < p.k) (hj : rowStart input p.omega i ≤ j)
      (hj' : j + 1 < rowStart input p.omega (i + 1)) (h : byteAt input (j + 1) ≤ byteAt input j)
  | padding (j : ℕ) (hj : rowStart input p.omega p.k ≤ j) (hj' : j < p.omega)
      (h : byteAt input j ≠ 0)

lemma segment_pairwise_iff : (segment input index count).Pairwise (· < ·) ↔
      ∀ j, index ≤ j → j + 1 < index + count → byteAt input j < byteAt input (j + 1) := by
  rw [← isChain_iff_pairwise, isChain_iff_getElem]
  simp only [segment, length_map, length_range', getElem_map, getElem_range', one_mul, ← add_assoc]
  constructor
  · intro h j hj hj'
    have := h (j - index) (by omega)
    rwa [Nat.add_sub_of_le hj] at this
  · intro h i hi
    exact h (index + i) (by omega) (by omega)

lemma rowStart_le (hok : ∀ j ∈ range' 0 p.k, RowOk input p.omega j) :
    rowStart input p.omega p.k ≤ p.omega := by
  cases hk : p.k with
  | zero => exact Nat.zero_le _
  | succ m => exact (hok m (by simp [hk])).2.1

lemma not_hintMalformed_iff (hlen : input.length = p.omega + p.k) :
    ¬ HintMalformed input p ↔ (∀ j ∈ range' 0 p.k, RowOk input p.omega j) ∧
      ((input.take p.omega).drop (rowStart input p.omega p.k)).any (· ≠ 0) = false := by
  have hpad (hok : ∀ j ∈ range' 0 p.k, RowOk input p.omega j) :
      ((input.take p.omega).drop (rowStart input p.omega p.k)).any (· ≠ 0) = false ↔
        ∀ j, rowStart input p.omega p.k ≤ j → j < p.omega → byteAt input j = 0 := by
    have hle := rowStart_le input hok
    rw [padding_iff input (by omega) hle, eq_replicate_iff, segment]
    simp only [length_map, length_range', List.forall_mem_map, mem_range'_1,
      Nat.add_sub_of_le hle, and_imp, true_and]
  constructor
  · intro hgood
    have hok : ∀ j ∈ range' 0 p.k, RowOk input p.omega j := by
      intro i hi
      rw [mem_range'_1] at hi
      have hge : rowStart input p.omega i ≤ rowStart input p.omega (i + 1) :=
        not_lt.mp fun h => hgood (.decreasing i (by omega) h)
      refine ⟨hge, not_lt.mp fun h => hgood (.tooLarge i (by omega) h), ?_⟩
      refine (segment_pairwise_iff input).mpr fun j hj hj' => not_le.mp fun h => ?_
      exact hgood (.notIncreasing i j (by omega) hj (by omega) h)
    exact ⟨hok, (hpad hok).mpr fun j hj hj' => by_contra fun h => hgood (.padding j hj hj' h)⟩
  · rintro ⟨hok, hzero⟩ hbad
    have hrow {i : ℕ} (hi : i < p.k) : RowOk input p.omega i := hok i (by simpa using hi)
    cases hbad with
    | decreasing i hi hlt => exact absurd (hrow hi).1 (by omega)
    | tooLarge i hi hlt => exact absurd (hrow hi).2.1 (by omega)
    | notIncreasing i j hi hj hj' hle =>
      obtain ⟨hge, -, hpair⟩ := hrow hi
      exact absurd ((segment_pairwise_iff input).mp hpair j hj (by omega)) (by omega)
    | padding j hj hj' hne => exact hne ((hpad hok).mp hzero j hj hj')

open Classical in
lemma hintBitUnpack_eq (hlen : input.length = p.omega + p.k) :
    hintBitUnpack p input = if HintMalformed input p then .error .fail
      else .ok (((range' 0 p.k).map (rowAt input p.omega)).map rowOf) := by
  have hfrom : hintBitUnpackFrom p.omega input (range' 0 p.k) 0 = _ :=
    hintBitUnpackFrom_eq input p.k 0
  have hgood := not_hintMalformed_iff input hlen
  rw [hintBitUnpack, range_eq_range', hfrom, zero_add]
  by_cases hok : ∀ j ∈ range' 0 p.k, RowOk input p.omega j
  · rw [if_pos hok, ok_bind]
    dsimp only
    cases hpad : ((input.take p.omega).drop (rowStart input p.omega p.k)).any (· ≠ 0) with
    | true =>
      rw [if_pos rfl, if_pos (by_contra fun h => nomatch hpad.symm.trans (hgood.mp h).2)]
      rfl
    | false =>
      rw [if_neg (by decide), if_neg (hgood.mpr ⟨hok, hpad⟩)]
      rfl
  · rw [if_neg hok, if_pos (by_contra fun h => hok (hgood.mp h).1)]
    rfl

end Unpack

def hintWeight (h : List Scalar) : ℕ := (h.map fun s => s.countP (· ≠ 0)).sum

lemma length_positionsFrom : ∀ (cs : Scalar) (j : ℕ),
    (positionsFrom j cs).length = cs.countP (· ≠ 0)
  | [], _ => rfl
  | c :: cs, j => by
    rw [positionsFrom, countP_cons]
    split_ifs <;> simp_all [length_positionsFrom cs]

lemma length_flatten_positions (h : List Scalar) :
    (h.map (positionsFrom 0)).flatten.length = hintWeight h := by
  rw [List.length_flatten, List.map_map, hintWeight]
  simp only [Function.comp_def, length_positionsFrom]

lemma length_hintBytes {omega : ℕ} (hle : rows.flatten.length ≤ omega) :
    (hintBytes omega rows).length = omega + rows.length := by
  rw [hintBytes, length_append, length_padTo (by rwa [length_map]), length_map, length_limitsFrom]

/-- The positions of a hint. -/
structure ValidRows (p : Params) (rows : List (List ℕ)) : Prop where
  length : rows.length = p.k
  ascending : ∀ ps ∈ rows, ps.Pairwise (· < ·)
  lt : ∀ x ∈ rows.flatten, x < degree
  total : rows.flatten.length ≤ p.omega

variable {p : Params}

lemma hintBitUnpack_hintBytes (homega : p.omega < 256) (hrows : ValidRows p rows) :
    (hintBytes p.omega rows).length = p.omega + p.k ∧
      hintBitUnpack p (hintBytes p.omega rows) = .ok (rows.map rowOf) := by
  obtain ⟨hlen, hasc, hlt, htotal⟩ := hrows
  have hbs := length_hintBytes htotal
  rw [hlen] at hbs
  refine ⟨hbs, ?_⟩
  generalize hbytes : hintBytes p.omega rows = bs at *
  obtain ⟨hpos, hzero, hlims⟩ := (eq_hintBytes_iff bs hbs hlen hlt htotal homega).mp hbytes.symm
  obtain ⟨hat, hmono⟩ := (segments_iff bs rows 0).mp ⟨hpos, hlims⟩
  have hend : rowStart bs p.omega p.k = rows.flatten.length := by
    have := rowStart_add bs hmono
    rwa [hat, hlen, zero_add, rowStart, zero_add] at this
  rw [hlen] at hat hmono
  rw [hintBitUnpack_eq bs hbs, if_neg ?_, hat]
  refine (not_hintMalformed_iff bs hbs).mpr ⟨fun j hj => ⟨hmono j hj, ?_, ?_⟩, ?_⟩
  · refine le_trans (show _ ≤ 0 + rows.flatten.length from limitsFrom_le ?_) (by omega)
    rw [← hlims, segment, hlen, range'_eq_map_range]
    exact mem_map_of_mem (by simpa using hj)
  · exact hasc _ (hat ▸ mem_map_of_mem hj)
  · rw [hend]
    exact (padding_iff bs (by omega) htotal).mpr hzero

lemma hintBytes_rowAt (homega : p.omega < 256) (hbs : bs.length = p.omega + p.k)
    (hgood : ¬ HintMalformed bs p) :
    ValidRows p ((range' 0 p.k).map (rowAt bs p.omega)) ∧
      hintBytes p.omega ((range' 0 p.k).map (rowAt bs p.omega)) = bs := by
  obtain ⟨hok, hpad⟩ := (not_hintMalformed_iff bs hbs).mp hgood
  have hle := rowStart_le bs hok
  have hend := rowStart_add bs fun j hj => (hok j hj).1
  have hasc : ∀ ps ∈ (range' 0 p.k).map (rowAt bs p.omega), ps.Pairwise (· < ·) :=
    List.forall_mem_map.mpr fun j hj => (hok j hj).2.2
  have hlen : ((range' 0 p.k).map (rowAt bs p.omega)).length = p.k := by simp
  obtain ⟨hpos, hlims⟩ := (@segments_iff bs p.omega _ 0).mpr
    ⟨by rw [hlen], by rw [hlen]; exact fun j hj => (hok j hj).1⟩
  rw [zero_add, rowStart, zero_add] at hend
  rw [hend] at hle hpad
  generalize (range' 0 p.k).map (rowAt bs p.omega) = rows at *
  have hlt : ∀ x ∈ rows.flatten, x < degree := by
    rw [← hpos]
    exact List.forall_mem_map.mpr fun i _ => byteAt_lt bs i
  refine ⟨⟨hlen, hasc, hlt, hle⟩, Eq.symm ?_⟩
  exact (eq_hintBytes_iff bs hbs hlen hlt hle homega).mpr
    ⟨hpos, (padding_iff bs (by omega) hle).mp hpad, hlims⟩

lemma hint_canonical (homega : p.omega < 256) :
    Canonical (p.omega + p.k) (hintBitPack p) (hintBitUnpack p)
      (fun h => (h.length = p.k ∧ ∀ s ∈ h, s.length = degree ∧ ∀ c ∈ s, c ≤ 1) ∧
        hintWeight h ≤ p.omega) fun bs => HintMalformed bs p := by
  refine ⟨?_, ?_, ?_, ?_⟩
  · rintro h ⟨⟨hlen, hrows⟩, hweight⟩
    rw [← length_flatten_positions] at hweight
    have hvalid : ValidRows p (h.map (positionsFrom 0)) := by
      refine ⟨by rw [length_map, hlen], List.forall_mem_map.mpr fun s _ =>
        pairwise_positionsFrom s 0, fun x hx => ?_, hweight⟩
      obtain ⟨ps, hps, hx⟩ := mem_flatten.mp hx
      obtain ⟨s, hs, rfl⟩ := List.mem_map.mp hps
      exact (positionsFrom_lt hx).trans_eq (hrows s hs).1
    obtain ⟨hbs, hunpack⟩ := hintBitUnpack_hintBytes homega hvalid
    refine ⟨_, hintBitPack_eq hlen hweight, hbs, hunpack.trans (congrArg Except.ok ?_)⟩
    rw [List.map_map]
    refine (map_congr_left fun s hs => ?_).trans h.map_id
    exact rowOf_positionsFrom (hrows s hs).1 (hrows s hs).2
  · intro bs h hbs hparse
    rw [hintBitUnpack_eq bs hbs] at hparse
    by_cases hbad : HintMalformed bs p
    · rw [if_pos hbad] at hparse
      cases hparse
    rw [if_neg hbad] at hparse
    obtain ⟨⟨hlen, hasc, hlt, htotal⟩, hbytes⟩ := hintBytes_rowAt homega hbs hbad
    generalize (range' 0 p.k).map (rowAt bs p.omega) = rows at *
    cases hparse
    have hid : (rows.map rowOf).map (positionsFrom 0) = rows := by
      rw [List.map_map]
      refine (map_congr_left fun ps hps => ?_).trans rows.map_id
      exact positionsFrom_rowOf (hasc ps hps) fun x hx => hlt x (mem_flatten.mpr ⟨ps, hps, hx⟩)
    refine ⟨⟨⟨by rw [length_map, hlen], List.forall_mem_map.mpr fun ps _ =>
      ⟨length_rowOf ps, List.forall_mem_map.mpr fun j _ => ?_⟩⟩, ?_⟩, ?_⟩
    · split_ifs <;> omega
    · rwa [← length_flatten_positions, hid]
    · rw [hintBitPack_eq (by rw [length_map, hlen]) (by rwa [hid]), hid, hbytes]
  · intro bs hbs
    rw [hintBitUnpack_eq bs hbs]
    split_ifs with hbad <;> simp [hbad]
  · intro bs hbs
    rw [hintBitUnpack_eq bs hbs]
    split_ifs <;> simp

end BoringSSL.MlDsa
