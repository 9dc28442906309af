import BoringSSL.Proofs.X509Names

/-!
# Which hosts a name matches

The state machine of `valid_star` accepts, after the star and its dot, the labels that the dots
separate (`validStarLoop_labels`).  What `wildcard_match` then compares is the rest of the host from
the dot after its first label on, which gives the hosts that `equal_wildcard` accepts.
-/

namespace BoringSSL

open ByteLib List

namespace NameCheck

variable {p : Bytes} {l s d h : Bytes} {start hyphen : Bool} {k : ℕ}

def isLdh (c : UInt8) : Bool := opensslIsalnum c || c = '-'.toUInt8

/-- A label: letters, digits and inner hyphens. -/
structure IsLabel (l : Bytes) : Prop where
  chars : ∀ c ∈ l, isLdh c = true
  ne_nil : l ≠ []
  first : l.head? ≠ some '-'.toUInt8
  last : l.getLast? ≠ some '-'.toUInt8

/-- What may follow in a label: `start` says that nothing of it came before, and `hyphen` that the
character before was a hyphen. -/
def LabelRest : Bool → Bool → Bytes → Prop
  | start, hyphen, [] => start = false ∧ hyphen = false
  | start, _, c :: l => (opensslIsalnum c = true ∧ LabelRest false false l)
    ∨ (c = '-'.toUInt8 ∧ start = false ∧ LabelRest false true l)

lemma hyphen_not_alnum : opensslIsalnum '-'.toUInt8 = false := by decide

lemma labelRest_iff : ∀ {start hyphen : Bool} {l : Bytes}, LabelRest start hyphen l ↔
    (∀ c ∈ l, isLdh c = true) ∧ (start = true → l ≠ [] ∧ l.head? ≠ some '-'.toUInt8)
      ∧ (l = [] → hyphen = false) ∧ l.getLast? ≠ some '-'.toUInt8
  | start, hyphen, [] => by
    cases start <;> simp [LabelRest]
  | start, hyphen, c :: l => by
    have hlast : (c :: l).getLast? = some '-'.toUInt8 ↔
        (l = [] ∧ c = '-'.toUInt8) ∨ l.getLast? = some '-'.toUInt8 := by
      cases l <;> simp [getLast?_cons_cons]
    rw [LabelRest, labelRest_iff, labelRest_iff]
    simp only [ne_eq, hlast]
    by_cases halnum : opensslIsalnum c = true
    · have hne : c ≠ '-'.toUInt8 := by
        rintro rfl
        cases halnum
      simp [halnum, hne, isLdh]
    · by_cases hhyphen : c = '-'.toUInt8
      · subst hhyphen
        cases start <;> simp [hyphen_not_alnum, isLdh]
      · simp [halnum, hhyphen, isLdh]

lemma isLabel_iff : IsLabel l ↔ LabelRest true false l := by
  rw [labelRest_iff]
  constructor
  · rintro ⟨h1, h2, h3, h4⟩
    exact ⟨h1, fun _ => ⟨h2, h3⟩, fun _ => rfl, h4⟩
  · rintro ⟨h1, h2, -, h4⟩
    exact ⟨h1, (h2 rfl).1, (h2 rfl).2, h4⟩

/-- The rest of a label, and at least `k` labels after it. -/
def RestLabels (start hyphen : Bool) (k : ℕ) (s : Bytes) : Prop :=
  ∃ first more, s.splitOn '.'.toUInt8 = first :: more ∧ LabelRest start hyphen first
    ∧ (∀ l ∈ more, IsLabel l) ∧ k ≤ more.length

lemma restLabels_of_splitOn {first : Bytes} {more : List Bytes}
    (hs : s.splitOn '.'.toUInt8 = first :: more) : RestLabels start hyphen k s ↔
      LabelRest start hyphen first ∧ (∀ l ∈ more, IsLabel l) ∧ k ≤ more.length := by
  constructor
  · rintro ⟨first', more', hs', h⟩
    cases hs.symm.trans hs'
    exact h
  · exact fun h => ⟨first, more, hs, h⟩

lemma restLabels_nil : RestLabels start hyphen k [] ↔ start = false ∧ hyphen = false ∧ k = 0 := by
  rw [restLabels_of_splitOn (splitOn_nil _)]
  simp [LabelRest, and_assoc]

lemma restLabels_dot :
    RestLabels start hyphen k ('.'.toUInt8 :: s) ↔
      start = false ∧ hyphen = false ∧ RestLabels true false (k - 1) s := by
  obtain ⟨rest, more, hs⟩ := exists_cons_of_ne_nil (splitOn_ne_nil '.'.toUInt8 s)
  have hsplit : ('.'.toUInt8 :: s).splitOn '.'.toUInt8 = [] :: rest :: more := by
    rw [splitOn_cons_eq_if_modifyHead, hs, if_pos (by simp)]
  rw [restLabels_of_splitOn hsplit, restLabels_of_splitOn hs, forall_mem_cons, isLabel_iff,
    length_cons, Nat.sub_le_iff_le_add]
  simp only [LabelRest, and_assoc]

lemma restLabels_cons {c : UInt8} (hc : c ≠ '.'.toUInt8) : RestLabels start hyphen k (c :: s) ↔
      (opensslIsalnum c = true ∧ RestLabels false false k s)
        ∨ (c = '-'.toUInt8 ∧ start = false ∧ RestLabels false true k s) := by
  obtain ⟨rest, more, hs⟩ := exists_cons_of_ne_nil (splitOn_ne_nil '.'.toUInt8 s)
  have hsplit : (c :: s).splitOn '.'.toUInt8 = (c :: rest) :: more := by
    rw [splitOn_cons_eq_if_modifyHead, hs, if_neg (by simpa using hc), modifyHead_cons]
  rw [restLabels_of_splitOn hsplit, restLabels_of_splitOn hs, restLabels_of_splitOn hs, LabelRest]
  tauto

lemma validStarLoop_labels {n : ℕ} : ∀ {s : Bytes} {i : ℕ} {st : StarState}, st.star.isSome →
    ((∃ st', validStarLoop s i st = some st' ∧ st'.labelStart = false ∧ st'.labelHyphen = false
        ∧ n ≤ st'.dots) ↔ RestLabels st.labelStart st.labelHyphen (n - st.dots) s)
  | [], i, st, _ => by
    simp [validStarLoop, restLabels_nil, Nat.sub_eq_zero_iff_le]
  | c :: s, i, st, hstar => by
    have hdotAlnum : opensslIsalnum '.'.toUInt8 = false := by decide
    have hstarAlnum : opensslIsalnum '*'.toUInt8 = false := by decide
    rw [validStarLoop]
    by_cases hc : c = '*'.toUInt8
    · subst hc
      rw [restLabels_cons (by decide)]
      have hne : '*'.toUInt8 ≠ '-'.toUInt8 := by decide
      simp [hstar, hstarAlnum, hne]
    rw [if_neg hc]
    by_cases hdot : c = '.'.toUInt8
    · subst hdot
      rw [if_neg (by simp [hdotAlnum]), if_pos rfl, restLabels_dot]
      by_cases hend : st.labelHyphen = true ∨ st.labelStart = true
      · grind
      · rw [if_neg hend, validStarLoop_labels (by exact hstar)]
        simp only [not_or, Bool.not_eq_true] at hend
        simp [hend, Nat.sub_sub]
    rw [restLabels_cons hdot]
    by_cases halnum : opensslIsalnum c = true
    · have hne : c ≠ '-'.toUInt8 := by
        rintro rfl
        exact absurd halnum (by decide)
      simp only [if_pos halnum]
      rw [validStarLoop_labels (by exact hstar)]
      simp [halnum, hne]
    rw [if_neg halnum, if_neg hdot]
    by_cases hhyphen : c = '-'.toUInt8
    · rw [if_pos hhyphen]
      by_cases hstart : st.labelStart = true
      · simp [hstart, halnum]
      · rw [if_neg hstart, validStarLoop_labels (by exact hstar)]
        simp [hstart, hyphen_not_alnum, hhyphen]
    · simp [halnum, hhyphen]

/-- Two labels or more, dotted. -/
def IsDomain (d : Bytes) : Prop :=
  ∃ ls : List Bytes, 2 ≤ ls.length ∧ (∀ l ∈ ls, IsLabel l) ∧ d = ['.'.toUInt8].intercalate ls

lemma IsLabel.dot_notMem (h : IsLabel l) : '.'.toUInt8 ∉ l :=
  fun hmem => absurd (h.chars _ hmem) (by decide)

lemma isDomain_iff : IsDomain d ↔ RestLabels true false 1 d := by
  constructor
  · rintro ⟨ls, hlen, hls, rfl⟩
    obtain ⟨first, more, rfl⟩ := exists_cons_of_length_pos (show 0 < ls.length by omega)
    have hsplit := splitOn_intercalate (x := '.'.toUInt8)
      (fun l hl => (hls l hl).dot_notMem) (cons_ne_nil first more)
    obtain ⟨hfirst, hmore⟩ := forall_mem_cons.mp hls
    rw [length_cons] at hlen
    exact ⟨first, more, hsplit, isLabel_iff.mp hfirst, hmore, by omega⟩
  · rintro ⟨first, more, hsplit, hfirst, hmore, hlen⟩
    refine ⟨first :: more, by rw [length_cons]; omega,
      forall_mem_cons.mpr ⟨isLabel_iff.mpr hfirst, hmore⟩, ?_⟩
    rw [← hsplit, intercalate_splitOn]

lemma validStar_iff {star : ℕ} : validStar p = some star ↔
    star = 0 ∧ ∃ d, p = '*'.toUInt8 :: '.'.toUInt8 :: d ∧ IsDomain d := by
  have hrun : ∀ d, validStar ('*'.toUInt8 :: '.'.toUInt8 :: d)
      = (validStarLoop d 2 ⟨true, false, false, 1, some 0⟩).bind fun st =>
        if st.labelStart ∨ st.labelHyphen ∨ st.dots < 2 then none else st.star := by
    have hdot : opensslIsalnum '.'.toUInt8 = false := by decide
    have hne : '.'.toUInt8 ≠ '*'.toUInt8 := by decide
    simp [validStar, validStarLoop, hdot, hne]
  have hlabels : ∀ {d}, IsDomain d ↔ ∃ st', validStarLoop d 2 ⟨true, false, false, 1, some 0⟩
      = some st' ∧ st'.labelStart = false ∧ st'.labelHyphen = false ∧ 2 ≤ st'.dots := by
    intro d
    rw [isDomain_iff, validStarLoop_labels (by rfl)]
    rfl
  constructor
  · intro h
    obtain ⟨rfl, d, rfl, hd⟩ := validStar_eq_some h
    obtain ⟨d, rfl⟩ := head?_eq_some_iff.mp hd
    rw [hrun, Option.bind_eq_some_iff] at h
    obtain ⟨st, hloop, hst⟩ := h
    split_ifs at hst with hend
    simp only [not_or, Bool.not_eq_true, not_lt] at hend
    exact ⟨rfl, d, rfl, hlabels.mpr ⟨st, hloop, hend⟩⟩
  · rintro ⟨rfl, d, rfl, hd⟩
    obtain ⟨st, hloop, hstart, hhyphen, hdots⟩ := hlabels.mp hd
    rw [hrun, hloop, Option.bind_some, if_neg (by simp [hstart, hhyphen]; omega)]
    exact validStarLoop_some hloop rfl

/-- What a star stands for: another star, or letters, digits and hyphens. -/
def MatchesStar (l : Bytes) : Prop := l = ['*'.toUInt8] ∨ (l ≠ [] ∧ ∀ c ∈ l, isLdh c = true)

lemma wildcardMatch_append {t : Bytes} (hlen : t.length = d.length + 1) :
    wildcardMatch [] ('.'.toUInt8 :: d) (l ++ t) = true ↔
      (lower t = lower ('.'.toUInt8 :: d) ∧ 0 ∉ t) ∧ MatchesStar l := by
  have hstart : (l ++ t).length - (d.length + 1) = l.length := by
    rw [length_append]
    omega
  have hlong : ¬ (l ++ t).length < d.length + 1 := by
    rw [length_append]
    omega
  rw [← equalNocase_iff]
  simp only [wildcardMatch, length_nil, length_cons, zero_add, hlong, if_false,
    take_zero, drop_zero, Nat.sub_zero, hstart, take_left, drop_left,
    head?_cons, and_self, not_true, false_and]
  have hempty : equalNocase [] [] = true := rfl
  cases equalNocase t ('.'.toUInt8 :: d) with
  | false => simp [hempty]
  | true =>
    by_cases hnil : l = []
    · simp [hempty, hnil, MatchesStar]
    by_cases hstar : l = ['*'.toUInt8]
    · simp [hempty, hstar, MatchesStar]
    · simp [hempty, hnil, hstar, MatchesStar, isLdh]

lemma wildcardMatch_iff (hnul : 0 ∉ h) :
    wildcardMatch [] ('.'.toUInt8 :: d) h = true ↔
      ∃ l e, h = l ++ '.'.toUInt8 :: e ∧ lower e = lower d ∧ MatchesStar l := by
  have hdot : ∀ e, lower ('.'.toUInt8 :: e) = '.'.toUInt8 :: lower e := fun e => rfl
  constructor
  · intro hmatch
    have hlong : d.length + 1 ≤ h.length := by
      by_contra hshort
      rw [wildcardMatch, if_pos (by simp; omega)] at hmatch
      cases hmatch
    rw [← take_append_drop (h.length - (d.length + 1)) h,
      wildcardMatch_append (by rw [length_drop]; omega)] at hmatch
    obtain ⟨⟨htail, -⟩, hl⟩ := hmatch
    cases ht : h.drop (h.length - (d.length + 1)) with
    | nil => simp [ht, lower] at htail
    | cons c e =>
      rw [ht, hdot] at htail
      obtain ⟨hc, he⟩ := List.cons.inj htail
      rw [(opensslTolower_eq_dot c).mp hc] at ht
      exact ⟨_, e, by rw [← ht, take_append_drop], he, hl⟩
  · rintro ⟨l, e, rfl, he, hl⟩
    have hlen : e.length = d.length := by simpa [lower] using congrArg List.length he
    rw [wildcardMatch_append (by simp [hlen]), hdot, hdot, he]
    exact ⟨⟨rfl, fun h0 => hnul (mem_append_right l h0)⟩, hl⟩

lemma count_lower (s : Bytes) : (lower s).count '.'.toUInt8 = s.count '.'.toUInt8 := by
  rw [count_eq_countP, count_eq_countP, lower, countP_map]
  exact countP_congr fun c _ => by simp [opensslTolower_eq_dot]

lemma MatchesStar.dot_notMem (h : MatchesStar l) : '.'.toUInt8 ∉ l := by
  rcases h with rfl | ⟨-, hchars⟩
  · decide
  · exact fun hmem => absurd (hchars _ hmem) (by decide)

lemma MatchesStar.ne_nil (h : MatchesStar l) : l ≠ [] := by
  rcases h with rfl | ⟨hne, -⟩
  · simp
  · exact hne

/-- The host `h` is that of a wildcard for one label before a domain. -/
def IsOfWildcard (p h : Bytes) : Prop :=
  ∃ d l e, p = '*'.toUInt8 :: '.'.toUInt8 :: d ∧ IsDomain d ∧ h = l ++ '.'.toUInt8 :: e
    ∧ lower e = lower d ∧ MatchesStar l

lemma isOfWildcard_of_lower (hd : IsDomain d)
    (heq : lower ('*'.toUInt8 :: '.'.toUInt8 :: d) = lower h) :
    IsOfWildcard ('*'.toUInt8 :: '.'.toUInt8 :: d) h := by
  match h with
  | [] => simp [lower] at heq
  | [_] => simp [lower] at heq
  | a :: b :: e =>
    simp only [lower, map_cons, List.cons.injEq] at heq
    obtain ⟨ha, hb, he⟩ := heq
    obtain rfl := (opensslTolower_eq_star a).mp ha.symm
    obtain rfl := (opensslTolower_eq_dot b).mp hb.symm
    exact ⟨d, ['*'.toUInt8], e, rfl, hd, rfl, he.symm, .inl rfl⟩

lemma IsOfWildcard.head_ne_dot (hw : IsOfWildcard p h) : h.head? ≠ some '.'.toUInt8 := by
  obtain ⟨d, l, e, -, -, rfl, -, hl⟩ := hw
  obtain ⟨c, l, rfl⟩ := exists_cons_of_ne_nil hl.ne_nil
  have hc := hl.dot_notMem
  simp only [mem_cons, not_or] at hc
  simpa using Ne.symm hc.1

/-- A name matches a host if they are equal but for the case, or if it is a wildcard for one label
before a domain of two labels at least.  The host then has as many dots as the name. -/
theorem equalWildcard_iff {p h : Bytes} (hnul : 0 ∉ h) :
    (equalWildcard p h = true ↔ (lower p = lower h ∧ 0 ∉ p) ∨ IsOfWildcard p h)
    ∧ (equalWildcard p h = true → h.count '.'.toUInt8 = p.count '.'.toUInt8) := by
  have hiff : equalWildcard p h = true ↔ (lower p = lower h ∧ 0 ∉ p) ∨ IsOfWildcard p h := by
    unfold equalWildcard
    split_ifs with hdot
    · rw [equalNocase_iff, or_iff_left fun hw : IsOfWildcard p h => hw.head_ne_dot hdot.2]
    cases hstar : validStar p with
    | none =>
      have hno : ¬ IsOfWildcard p h := by
        rintro ⟨d, l, e, rfl, hd, -⟩
        rw [validStar_iff.mpr ⟨rfl, d, rfl, hd⟩] at hstar
        cases hstar
      simp only [equalNocase_iff, hno, or_false]
    | some star =>
      obtain ⟨rfl, d, rfl, hd⟩ := validStar_iff.mp hstar
      simp only [take_zero, zero_add, drop_one, tail_cons]
      rw [wildcardMatch_iff hnul, or_iff_right_of_imp fun h => isOfWildcard_of_lower hd h.1]
      constructor
      · rintro ⟨l, e, hh, he, hl⟩
        exact ⟨d, l, e, rfl, hd, hh, he, hl⟩
      · rintro ⟨d', l, e, hp, -, hh, he, hl⟩
        obtain rfl : d = d' := by simpa using hp
        exact ⟨l, e, hh, he, hl⟩
  refine ⟨hiff, fun heq => ?_⟩
  rcases hiff.mp heq with ⟨hlower, -⟩ | ⟨d, l, e, rfl, -, rfl, he, hl⟩
  · rw [← count_lower h, ← hlower, count_lower]
  · have hcount : e.count '.'.toUInt8 = d.count '.'.toUInt8 := by
      rw [← count_lower e, he, count_lower]
    have hne : '*'.toUInt8 ≠ '.'.toUInt8 := by decide
    rw [count_append, count_cons_self, count_eq_zero_of_not_mem hl.dot_notMem,
      count_cons_of_ne hne, count_cons_self, hcount, zero_add]

theorem equalWildcard_iff_www :
    IsOfWildcard [42, 46, 101, 120, 97, 109, 112, 108, 101, 46, 99, 111, 109]
      [119, 119, 119, 46, 69, 120, 97, 109, 112, 108, 101, 46, 99, 111, 109] := by
  have hnul : (0 : UInt8) ∉
      [119, 119, 119, 46, 69, 120, 97, 109, 112, 108, 101, 46, 99, 111, 109] := by decide
  refine ((equalWildcard_iff hnul).1.mp (by decide +kernel)).resolve_left ?_
  rintro ⟨h, -⟩
  exact absurd h (by decide +kernel)

end NameCheck

end BoringSSL
