import BoringSSL.Lib.Checked
import BoringSSL.Lib.Packing

/-!
# Canonical encodings

A format of `n` bytes in which each valid value has one encoding, each encoding that is accepted is
that of a valid value, and what is not accepted is `Malformed`.  Such formats can be put one after
the other (`Canonical.prod`), repeated (`Canonical.vector`), and made of packed numbers
(`Canonical.of_packs`).
-/

namespace ByteLib

open Checked List

variable {bs : Bytes}

/-- Valid values and well-formed strings correspond one to one. -/
structure Canonical {V : Type} (n : ℕ) (marshal : V → Checked Bytes) (parse : Bytes → Checked V)
    (Valid : V → Prop) (Malformed : Bytes → Prop) : Prop where
  parse_marshal : ∀ v, Valid v → ∃ bs, marshal v = .ok bs ∧ bs.length = n ∧ parse bs = .ok v
  marshal_parse : ∀ bs v, bs.length = n → parse bs = .ok v → Valid v ∧ marshal v = .ok bs
  parse_fail : ∀ bs, bs.length = n → (parse bs = .error .fail ↔ Malformed bs)
  parse_abort : ∀ bs, bs.length = n → parse bs ≠ .error .abort

/-- Some of the numbers of `w` bits packed into `bs` is not below `bound`. -/
def OutOfRange (w bound : ℕ) (bs : Bytes) : Prop := ∃ ds, Packs w ds bs ∧ ∃ d ∈ ds, bound ≤ d

namespace Canonical

section Two

variable {V W : Type} {n m : ℕ} {mV : V → Checked Bytes} {pV : Bytes → Checked V}
  {ValidV : V → Prop}
  {BadV : Bytes → Prop} {mW : W → Checked Bytes} {pW : Bytes → Checked W} {ValidW : W → Prop}
  {BadW : Bytes → Prop}

lemma cases (h : Canonical n mV pV ValidV BadV) (hbs : bs.length = n) :
    (∃ v, pV bs = .ok v ∧ ¬ BadV bs) ∨ (pV bs = .error .fail ∧ BadV bs) := by
  have hfail := h.parse_fail bs hbs
  cases hp : pV bs with
  | ok v =>
    rw [hp] at hfail
    exact .inl ⟨v, rfl, fun hbad => nomatch hfail.mpr hbad⟩
  | error e =>
    cases e with
    | abort => exact absurd hp (h.parse_abort bs hbs)
    | fail => exact .inr ⟨rfl, hfail.mp hp⟩

lemma injective (h : Canonical n mV pV ValidV BadV) {a b : Bytes} (ha : a.length = n)
    (hb : b.length = n) {v : V} (hav : pV a = .ok v) (hbv : pV b = .ok v) : a = b := by
  have hma := (h.marshal_parse a v ha hav).2
  rw [(h.marshal_parse b v hb hbv).2] at hma
  exact (Except.ok.inj hma).symm

lemma raw (n : ℕ) : Canonical n (fun bs : Bytes => .ok bs) (fun bs => .ok bs)
    (fun bs => bs.length = n) fun _ => False := by
  refine ⟨fun v hv => ⟨v, rfl, hv, rfl⟩, fun bs v hbs h => ?_, fun bs _ => ?_, fun bs _ h => ?_⟩
  · cases h
    exact ⟨hbs, rfl⟩
  · exact Iff.intro (fun h => nomatch h) False.elim
  · cases h

lemma prod (hV : Canonical n mV pV ValidV BadV) (hW : Canonical m mW pW ValidW BadW) :
    Canonical (n + m)
      (fun x : V × W => do
        let a ← mV x.1
        let b ← mW x.2
        return a ++ b)
      (fun bs => do
        let v ← pV (bs.take n)
        let w ← pW (bs.drop n)
        return (v, w))
      (fun x => ValidV x.1 ∧ ValidW x.2) fun bs => BadV (bs.take n) ∨ BadW (bs.drop n) := by
  have hlens {bs : Bytes} (hbs : bs.length = n + m) :
      (bs.take n).length = n ∧ (bs.drop n).length = m := by
    rw [length_take, length_drop]
    omega
  refine ⟨?_, ?_, ?_, ?_⟩
  · rintro ⟨v, w⟩ ⟨hv, hw⟩
    obtain ⟨a, hma, hla, hpa⟩ := hV.parse_marshal v hv
    obtain ⟨b, hmb, hlb, hpb⟩ := hW.parse_marshal w hw
    refine ⟨a ++ b, by simp [hma, hmb], by simp [hla, hlb], ?_⟩
    rw [← hla, take_left, drop_left]
    simp [hpa, hpb]
  · rintro bs ⟨v, w⟩ hbs h
    obtain ⟨v', hv', h⟩ := bind_eq_ok.mp h
    obtain ⟨w', hw', h⟩ := bind_eq_ok.mp h
    cases h
    obtain ⟨hvalid, hmv⟩ := hV.marshal_parse _ _ (hlens hbs).1 hv'
    obtain ⟨hvalid', hmw⟩ := hW.marshal_parse _ _ (hlens hbs).2 hw'
    refine ⟨⟨hvalid, hvalid'⟩, ?_⟩
    simp [hmv, hmw]
  · intro bs hbs
    rcases hV.cases (hlens hbs).1 with ⟨v, hv, hgood⟩ | ⟨hv, hbad⟩
    · rcases hW.cases (hlens hbs).2 with ⟨w, hw, hgood'⟩ | ⟨hw, hbad'⟩
      · simp [hv, hw, hgood, hgood']
      · simp [hv, hw, hbad', bind, Except.bind]
    · simp [hv, hbad, bind, Except.bind]
  · intro bs hbs
    rcases hV.cases (hlens hbs).1 with ⟨v, hv, -⟩ | ⟨hv, -⟩
    · rcases hW.cases (hlens hbs).2 with ⟨w, hw, -⟩ | ⟨hw, -⟩ <;> simp [hv, hw, bind, Except.bind]
    · simp [hv, bind, Except.bind]

/-- The same format for values of another type, that may keep something computed from the
encoding. -/
lemma cached (hV : Canonical n mV pV ValidV BadV) (f : V → Bytes → W)
    (hm : ∀ v bs, mW (f v bs) = mV v)
    (hp : ∀ bs, bs.length = n → pW bs = (pV bs).map fun v => f v bs)
    (hbad : ∀ bs, bs.length = n → (BadW bs ↔ BadV bs))
    (hvalid : ∀ w, ValidW w ↔ ∃ v bs, ValidV v ∧ mV v = .ok bs ∧ f v bs = w) :
    Canonical n mW pW ValidW BadW := by
  refine ⟨?_, ?_, ?_, ?_⟩
  · intro w hw
    obtain ⟨v, bs, hv, hmbs, rfl⟩ := (hvalid w).mp hw
    obtain ⟨bs', hmbs', hlen, hpbs⟩ := hV.parse_marshal v hv
    cases hmbs.symm.trans hmbs'
    refine ⟨bs, by rw [hm, hmbs], hlen, ?_⟩
    rw [hp bs hlen, hpbs, Except.map]
  · intro bs w hbs h
    rw [hp bs hbs] at h
    cases hv : pV bs with
    | error e => rw [hv] at h; cases h
    | ok v =>
      rw [hv] at h
      cases h
      obtain ⟨hok, hmv⟩ := hV.marshal_parse bs v hbs hv
      exact ⟨(hvalid _).mpr ⟨v, bs, hok, hmv, rfl⟩, by rw [hm, hmv]⟩
  · intro bs hbs
    rcases hV.cases hbs with ⟨v, hv, hgood⟩ | ⟨hv, hb⟩ <;> simp [Except.map, *]
  · intro bs hbs
    rw [hp bs hbs]
    rcases hV.cases hbs with ⟨v, hv, hgood⟩ | ⟨hv, hb⟩ <;> simp [hv, Except.map]

lemma map (hV : Canonical n mV pV ValidV BadV) (f : V → W) (hm : ∀ v, mW (f v) = mV v)
    (hp : ∀ bs, bs.length = n → pW bs = (pV bs).map f)
    (hbad : ∀ bs, bs.length = n → (BadW bs ↔ BadV bs))
    (hvalid : ∀ w, ValidW w ↔ ∃ v, ValidV v ∧ f v = w) : Canonical n mW pW ValidW BadW := by
  refine hV.cached (fun v _ => f v) (fun v _ => hm v) hp hbad fun w => ?_
  rw [hvalid]
  constructor
  · rintro ⟨v, hv, hf⟩
    obtain ⟨bs, hbs, -⟩ := hV.parse_marshal v hv
    exact ⟨v, bs, hv, hbs, hf⟩
  · rintro ⟨v, -, hv, -, hf⟩
    exact ⟨v, hv, hf⟩

end Two

section Vector

variable {V : Type} {n : ℕ} {m : V → Checked Bytes} {p : Bytes → Checked V} {Valid : V → Prop}
  {Bad : Bytes → Prop}

/-- Part `i` of a string of parts of `n` bytes. -/
def part (n : ℕ) (bs : Bytes) (i : ℕ) : Bytes := (bs.drop (i * n)).take n

lemma part_zero (bs : Bytes) : part n bs 0 = bs.take n := by
  rw [part, zero_mul, drop_zero]

/-- The parts of 256 numbers of `bits` bits. -/
lemma part_bits (bs : Bytes) (bits i : ℕ) :
    (bs.drop (i * bits * 256 / 8)).take (bits * 256 / 8) = part (32 * bits) bs i := by
  have hstart : i * bits * 256 / 8 = i * (32 * bits) := by
    rw [show i * bits * 256 = i * (32 * bits) * 8 by ring, Nat.mul_div_cancel _ (by decide)]
  have hsize : bits * 256 / 8 = 32 * bits := by
    rw [show bits * 256 = 32 * bits * 8 by ring, Nat.mul_div_cancel _ (by decide)]
  rw [hstart, hsize, part]

lemma part_succ (bs : Bytes) (i : ℕ) : part n bs (i + 1) = part n (bs.drop n) i := by
  rw [part, part, drop_drop, Nat.add_mul, one_mul, add_comm]

lemma part_take {i k : ℕ} (hi : i < k) : part n (bs.take (k * n)) i = part n bs i := by
  have hle : i * n + n ≤ k * n := by
    rw [← Nat.succ_mul]
    exact Nat.mul_le_mul_right n hi
  rw [part, part, drop_take, take_take, min_eq_left (by omega)]

lemma part_drop (bs : Bytes) (i k : ℕ) : part n (bs.drop (k * n)) i = part n bs (k + i) := by
  rw [part, part, drop_drop, Nat.add_mul]

lemma mapM_part_succ (k : ℕ) (bs : Bytes) :
    (range (k + 1)).mapM (fun i => p (part n bs i)) = (do
      let v ← p (bs.take n)
      let vs ← (range k).mapM fun i => p (part n (bs.drop n) i)
      return v :: vs) := by
  rw [range_succ_eq_map, mapM_cons, mapM_map, part_zero]
  simp only [Function.comp_def, part_succ]

lemma vector (h : Canonical n m p Valid Bad) : ∀ k : ℕ,
    Canonical (k * n) (fun vs => do return (← vs.mapM m).flatten)
      (fun bs => (range k).mapM fun i => p (part n bs i))
      (fun vs => vs.length = k ∧ ∀ v ∈ vs, Valid v) fun bs => ∃ i < k, Bad (part n bs i)
  | 0 => by
    refine ⟨?_, ?_, ?_, ?_⟩
    · simp
    · simp
    · simp
    · intro bs _ hp
      cases hp
  | k + 1 => by
    have hprod := h.prod (vector h k)
    rw [show n + k * n = (k + 1) * n by ring] at hprod
    refine hprod.map (fun x => x.1 :: x.2) ?_ ?_ ?_ ?_
    · simp [mapM_cons]
    · intro bs _
      rw [mapM_part_succ]
      cases p (bs.take n) with
      | error e => rfl
      | ok v => cases (range k).mapM fun i => p (part n (bs.drop n) i) <;> rfl
    · intro bs _
      rw [Nat.exists_lt_succ_left, part_zero]
      simp only [part_succ]
    · intro vs
      cases vs with
      | nil => simp
      | cons v vs => simp [and_assoc, and_left_comm]

end Vector

section Groups

variable {w m n bound : ℕ} {enc : List ℕ → Checked Bytes} {dec : Bytes → Checked (List ℕ)}
  {f g : ℕ → ℕ} {P : ℕ → Prop}

lemma encode_groups (hnil : enc [] = .ok [])
    (hstep : ∀ vs s, vs.length = m → (∀ c ∈ vs, P c) → ∃ bs, Packs w (vs.map f) bs ∧
      ∀ rest, enc s = .ok rest → enc (vs ++ s) = .ok (bs ++ rest)) :
    ∀ (k : ℕ) (s : List ℕ), s.length = m * k → (∀ c ∈ s, P c) →
      ∃ bs, enc s = .ok bs ∧ Packs w (s.map f) bs
  | 0, s, hlen, _ => by
    obtain rfl := length_eq_zero_iff.mp hlen
    exact ⟨[], hnil, Packs.nil⟩
  | k + 1, s, hlen, hs => by
    rw [Nat.mul_succ] at hlen
    obtain ⟨bs, hbs, henc⟩ := hstep (s.take m) (s.drop m) (by rw [length_take]; omega)
      fun c hc => hs c (mem_of_mem_take hc)
    obtain ⟨rest, hrest, hpacks⟩ := encode_groups hnil hstep k (s.drop m)
      (by rw [length_drop]; omega) fun c hc => hs c (mem_of_mem_drop hc)
    refine ⟨bs ++ rest, ?_, ?_⟩
    · rw [← henc rest hrest, take_append_drop]
    · rw [← take_append_drop m s, map_append]
      exact hbs.append hpacks

/-- A decoder that unpacks `n` bytes at a time, and fails at the first group with a value that is
not below the bound. -/
lemma decode_groups (dec : Bytes → Checked (List ℕ)) (hnil : dec [] = .ok [])
    (hstep : ∀ bs rest, bs.length = n → ∃ ds, Packs w ds bs ∧ dec (bs ++ rest)
      = if ∀ d ∈ ds, d < bound then (dec rest).map (ds.map g ++ ·) else .error .fail) :
    ∀ (k : ℕ) (bs : Bytes), bs.length = n * k → ∃ ds, Packs w ds bs ∧
      dec bs = if ∀ d ∈ ds, d < bound then .ok (ds.map g) else .error .fail
  | 0, bs, hlen => by
    obtain rfl := length_eq_zero_iff.mp hlen
    exact ⟨[], Packs.nil, by simp [hnil]⟩
  | k + 1, bs, hlen => by
    rw [Nat.mul_succ] at hlen
    obtain ⟨ds, hds, hdec⟩ := hstep (bs.take n) (bs.drop n) (by rw [length_take]; omega)
    obtain ⟨rest, hrest, hdec'⟩ := decode_groups dec hnil hstep k (bs.drop n)
      (by rw [length_drop]; omega)
    rw [take_append_drop] at hdec
    refine ⟨ds ++ rest, ?_, ?_⟩
    · rw [← take_append_drop n bs]
      exact hds.append hrest
    · rw [hdec, hdec']
      simp only [forall_mem_append, map_append]
      by_cases h : ∀ d ∈ ds, d < bound
      · by_cases h' : ∀ d ∈ rest, d < bound
        · rw [if_pos h, if_pos h', if_pos ⟨h, h'⟩]
          rfl
        · rw [if_pos h, if_neg h', if_neg fun hall => h' hall.2]
          rfl
      · rw [if_neg h, if_neg fun hall => h hall.1]

/-- Numbers `f c` of `w` bits packed into bytes, of which those below `bound` are accepted. -/
lemma of_packs {count : ℕ} (hw : 0 < w) (hn : w * count = 8 * n)
    (hf : ∀ c, P c → f c < bound ∧ g (f c) = c) (hg : ∀ d < bound, P (g d) ∧ f (g d) = d)
    (henc : ∀ s, s.length = count → (∀ c ∈ s, P c) → ∃ bs, enc s = .ok bs ∧ Packs w (s.map f) bs)
    (hdec : ∀ bs, bs.length = n → ∃ ds, Packs w ds bs ∧
      dec bs = if ∀ d ∈ ds, d < bound then .ok (ds.map g) else .error .fail) :
    Canonical n enc dec (fun s => s.length = count ∧ ∀ c ∈ s, P c) (OutOfRange w bound) := by
  have hbad {bs : Bytes} {ds : List ℕ} (hds : Packs w ds bs) :
      OutOfRange w bound bs ↔ ¬ ∀ d ∈ ds, d < bound := by
    constructor
    · rintro ⟨ds', hds', d, hd, hle⟩ hall
      rw [hds'.digits_unique hw hds] at hd
      exact absurd (hall d hd) (by omega)
    · intro hnot
      push Not at hnot
      exact ⟨ds, hds, hnot⟩
  refine ⟨?_, ?_, ?_, ?_⟩
  · rintro s ⟨hlen, hs⟩
    obtain ⟨bs, hbs, hpacks⟩ := henc s hlen hs
    have hbslen : bs.length = n := by
      have := hpacks.length
      rw [length_map, hlen] at this
      omega
    obtain ⟨ds, hds, hdec⟩ := hdec bs hbslen
    obtain rfl := hds.digits_unique hw hpacks
    refine ⟨bs, hbs, hbslen, ?_⟩
    rw [hdec, if_pos, List.map_map]
    · congr 1
      exact (map_congr_left fun c hc => (hf c (hs c hc)).2).trans s.map_id
    · grind
  · intro bs s hbslen hs
    obtain ⟨ds, hds, hdec⟩ := hdec bs hbslen
    rw [hdec] at hs
    by_cases hall : ∀ d ∈ ds, d < bound
    · rw [if_pos hall] at hs
      cases hs
      have hlen : (ds.map g).length = count := by
        have := hds.length
        rw [hbslen, ← hn] at this
        rw [length_map, Nat.eq_of_mul_eq_mul_left hw this]
      have hvalid : ∀ c ∈ ds.map g, P c := by
        grind
      obtain ⟨bs', hbs', hpacks⟩ := henc _ hlen hvalid
      have hid : (ds.map g).map f = ds := by
        rw [List.map_map]
        exact (map_congr_left fun d hd => (hg d (hall d hd)).2).trans ds.map_id
      rw [hid] at hpacks
      exact ⟨⟨hlen, hvalid⟩, by rw [hbs', hpacks.bytes_unique hds]⟩
    · rw [if_neg hall] at hs
      cases hs
  · grind
  · grind

end Groups

end Canonical

end ByteLib
