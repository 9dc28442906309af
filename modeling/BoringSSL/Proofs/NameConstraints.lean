import BoringSSL.NameConstraints
import BoringSSL.Proofs.PkiName

/-!
# What name constraints permit

The subtrees are described apart from the code.  A certificate to which no error is added has all
its names in permitted subtrees and none in an excluded one, and what a wildcard stands for is too,
unless a permitted constraint is the wildcard itself.
-/

namespace BoringSSL.Pki

open ByteLib List

variable {n q l' ip : Bytes} {ci : Bool} {type : GeneralNameType} {a b s c name p d l : Bytes}

/-! ## Strings -/

lemma tolower_eq_dot_iff {c : UInt8} : opensslTolower c = 0x2e ↔ c = 0x2e :=
  forall_byte (P := fun c => opensslTolower c = 0x2e ↔ c = 0x2e) (by decide +kernel) c

example : opensslTolower 0x5b = 0x5b := by decide +kernel

/-- Equal but for case. -/
def EqNoCase (a b : Bytes) : Prop := a.map opensslTolower = b.map opensslTolower

lemma isEqualNoCase_iff : isEqualNoCase a b = true ↔ EqNoCase a b :=
  decide_eq_true_iff

lemma EqNoCase.length_eq (h : EqNoCase a b) : a.length = b.length := by
  simpa using congrArg List.length h

lemma endsWithNoCase_iff {t : Bytes} :
    endsWithNoCase s t = true ↔ ∃ p q, s = p ++ q ∧ EqNoCase q t := by
  rw [endsWithNoCase, Bool.and_eq_true, decide_eq_true_eq, isEqualNoCase_iff]
  constructor
  · rintro ⟨-, heq⟩
    exact ⟨_, _, (take_append_drop (s.length - t.length) s).symm, heq.symm⟩
  · rintro ⟨p, q, rfl, heq⟩
    have hlen := heq.length_eq
    rw [length_append]
    refine ⟨by omega, ?_⟩
    rw [show p.length + q.length - t.length = p.length by omega, drop_left]
    exact heq.symm

lemma EqNoCase.cons_iff {c d : UInt8} :
    EqNoCase (c :: a) (d :: b) ↔ opensslTolower c = opensslTolower d ∧ EqNoCase a b := by
  simp [EqNoCase]

lemma EqNoCase.dot_cons (h : EqNoCase a (0x2e :: b)) : ∃ a', a = 0x2e :: a' ∧ EqNoCase a' b := by
  cases a with
  | nil => cases h
  | cons c a' =>
    obtain ⟨hc, ha⟩ := cons_iff.mp h
    exact ⟨a', by rw [tolower_eq_dot_iff.mp (hc.trans rfl)], ha⟩

lemma EqNoCase.append_right (h : EqNoCase a (b ++ c)) :
    ∃ a₁ a₂, a = a₁ ++ a₂ ∧ EqNoCase a₁ b ∧ EqNoCase a₂ c := by
  rw [EqNoCase, map_append] at h
  obtain ⟨a₁, a₂, rfl, h₁, h₂⟩ := map_eq_append_iff.mp h
  exact ⟨a₁, a₂, rfl, h₁, h₂⟩

lemma EqNoCase.noDot (h : EqNoCase a b) (hb : 0x2e ∉ b) : (0x2e : UInt8) ∉ a := by
  intro ha
  have hmem : (0x2e : UInt8) ∈ b.map opensslTolower := by
    rw [← h]
    exact List.mem_map.mpr ⟨0x2e, ha, rfl⟩
  obtain ⟨c, hc, hdot⟩ := List.mem_map.mp hmem
  exact hb (tolower_eq_dot_iff.mp hdot ▸ hc)

/-! ## DNS names -/

/-- The name is the constraint, or adds labels to it on the left; a constraint that starts with a
dot asks for one.  A dot at the end of either does not count. -/
def InDnsSubtree (name dnsConstraint : Bytes) : Prop :=
  dnsConstraint = [] ∨ EqNoCase (removeTrailingDot name) (removeTrailingDot dnsConstraint) ∨
    ∃ p q, removeTrailingDot name = p ++ 0x2e :: q
      ∧ (EqNoCase q (removeTrailingDot dnsConstraint)
        ∨ EqNoCase (0x2e :: q) (removeTrailingDot dnsConstraint))

lemma dot_before_iff {k : ℕ} :
    n.length > k ∧ n[n.length - k - 1]? = some 0x2e ↔ ∃ p q, n = p ++ 0x2e :: q ∧ q.length = k := by
  constructor
  · rintro ⟨hlen, hdot⟩
    have hlt : n.length - k - 1 < n.length := by omega
    refine ⟨n.take (n.length - k - 1), n.drop (n.length - k - 1 + 1), ?_, by simp; omega⟩
    rw [getElem?_eq_getElem hlt, Option.some.injEq] at hdot
    rw [← hdot, getElem_cons_drop, take_append_drop]
  · grind

/-- The last steps of the code, on names without the dot at the end. -/
def subtreeMatch (n c : Bytes) : Bool :=
  if !endsWithNoCase n c then false
  else if n.length = c.length then true
  else
    let c := if c.head? = some 0x2e then c.tail else c
    n.length > c.length && n[n.length - c.length - 1]? = some 0x2e

lemma subtreeMatch_iff : subtreeMatch n c = true ↔
    EqNoCase n c ∨ ∃ p q, n = p ++ 0x2e :: q ∧ (EqNoCase q c ∨ EqNoCase (0x2e :: q) c) := by
  rw [subtreeMatch]
  by_cases hends : endsWithNoCase n c = true
  · obtain ⟨p₀, q₀, hn, hq₀⟩ := endsWithNoCase_iff.mp hends
    have hlen₀ := hq₀.length_eq
    have hn₀ : n.length = p₀.length + q₀.length := by rw [hn, length_append]
    rw [if_neg (by simpa using hends)]
    by_cases hlen : n.length = c.length
    · rw [if_pos hlen]
      have hnil : p₀ = [] := length_eq_zero_iff.mp (by omega)
      exact iff_of_true rfl (.inl (by rw [hn, hnil]; exact hq₀))
    rw [if_neg hlen]
    have hne : ¬ EqNoCase n c := fun h => hlen h.length_eq
    simp only [Bool.and_eq_true, decide_eq_true_eq, dot_before_iff, hne, false_or]
    by_cases hhead : c.head? = some 0x2e
    · obtain ⟨e, rfl⟩ : ∃ e, c = 0x2e :: e := by
        cases c with
        | nil => cases hhead
        | cons x e => exact ⟨e, by rw [Option.some.inj hhead]⟩
      obtain ⟨q, rfl, hq⟩ := hq₀.dot_cons
      exact iff_of_true ⟨p₀, q, hn, hq.length_eq⟩
        ⟨p₀, q, hn, .inr (EqNoCase.cons_iff.mpr ⟨rfl, hq⟩)⟩
    · rw [if_neg hhead]
      constructor
      · rintro ⟨p, q, hpq, hq⟩
        refine ⟨p, q, hpq, .inl ?_⟩
        have htail : (n.drop p₀.length) = q₀ := by rw [hn, drop_left]
        have htail' : n.drop p₀.length = q := by
          have hp : p₀.length = p.length + 1 := by
            rw [hpq, length_append, length_cons] at hn₀
            omega
          rw [hpq, hp]
          simp
        rw [← htail', htail]
        exact hq₀
      · rintro ⟨p, q, hpq, hq | hq⟩
        · exact ⟨p, q, hpq, hq.length_eq⟩
        · cases c with
          | nil => cases hq
          | cons x e =>
            obtain ⟨hx, -⟩ := EqNoCase.cons_iff.mp hq
            exact absurd (by rw [head?_cons, tolower_eq_dot_iff.mp (hx.symm.trans rfl)]) hhead
  · rw [if_pos (by simpa using hends)]
    refine iff_of_false Bool.false_ne_true fun h => hends (endsWithNoCase_iff.mpr ?_)
    rcases h with h | ⟨p, q, rfl, h | h⟩
    · exact ⟨[], n, rfl, h⟩
    · exact ⟨p ++ [0x2e], q, by simp, h⟩
    · exact ⟨p, 0x2e :: q, rfl, h⟩

lemma dnsNameMatches_eq {wildcardMatching : WildcardMatchType} (hc : c ≠ []) :
    dnsNameMatches name c wildcardMatching =
      (wildcardMatching = .partialMatch && wildcardMatches (removeTrailingDot name)
          (removeTrailingDot c)
        || subtreeMatch (removeTrailingDot name) (removeTrailingDot c)) := by
  rw [dnsNameMatches, if_neg hc]
  simp only [subtreeMatch]
  by_cases hw : (decide (wildcardMatching = .partialMatch)
      && wildcardMatches (removeTrailingDot name) (removeTrailingDot c)) = true
  · rw [if_pos hw, hw, Bool.true_or]
  · rw [if_neg hw, Bool.eq_false_iff.mpr hw, Bool.false_or]

lemma dnsNameMatches_full_iff : dnsNameMatches name c .fullMatch = true ↔ InDnsSubtree name c := by
  by_cases hc : c = []
  · rw [InDnsSubtree, dnsNameMatches, if_pos hc]
    simp [hc]
  · rw [dnsNameMatches_eq hc, InDnsSubtree, ← subtreeMatch_iff]
    simp [hc]

lemma dnsNameMatches_partial_of_inDnsSubtree (h : InDnsSubtree name c) :
    dnsNameMatches name c .partialMatch = true := by
  by_cases hc : c = []
  · rw [dnsNameMatches, if_pos hc]
  · rcases h with h | h
    · exact absurd h hc
    · rw [dnsNameMatches_eq hc, subtreeMatch_iff.mpr h, Bool.or_true]

/-! ## Wildcards -/

lemma removeTrailingDot_append (hd : d ≠ []) :
    removeTrailingDot (p ++ d) = p ++ removeTrailingDot d := by
  rw [removeTrailingDot, removeTrailingDot, getLast?_append_of_ne_nil _ hd]
  split_ifs
  · rw [dropLast_append_of_ne_nil hd]
  · rfl

def labelled (l d : Bytes) : Bytes := l ++ 0x2e :: d

lemma removeTrailingDot_labelled (hd : d ≠ []) :
    removeTrailingDot (labelled l d) = labelled l (removeTrailingDot d) := by
  rw [labelled, labelled, ← singleton_append, ← append_assoc, removeTrailingDot_append hd,
    append_assoc, singleton_append]

lemma length_removeTrailingDot_le : (removeTrailingDot d).length ≤ d.length := by
  rw [removeTrailingDot]
  split_ifs
  · simp
  · rfl

lemma labelled_split (hl : 0x2e ∉ l) (h : labelled l d = p ++ 0x2e :: q) :
    q = d ∨ ∃ p', d = p' ++ 0x2e :: q := by
  rcases append_eq_append_iff.mp h with ⟨a, rfl, ha⟩ | ⟨a, rfl, ha⟩
  · cases a with
    | nil => exact .inl (List.cons.inj ha).2.symm
    | cons c a =>
      obtain ⟨-, ha⟩ := List.cons.inj ha
      exact .inr ⟨a, ha⟩
  · cases a with
    | nil => exact .inl (List.cons.inj ha).2
    | cons c a =>
      obtain ⟨rfl, -⟩ := List.cons.inj ha
      simp at hl

lemma subtree_of_labelled (hl : 0x2e ∉ l)
    (h : ∃ p q, labelled l d = p ++ 0x2e :: q ∧ (EqNoCase q c ∨ EqNoCase (0x2e :: q) c)) :
    ∃ p q, labelled l' d = p ++ 0x2e :: q ∧ (EqNoCase q c ∨ EqNoCase (0x2e :: q) c) := by
  obtain ⟨p, q, hsplit, hq⟩ := h
  rcases labelled_split hl hsplit with rfl | ⟨p', rfl⟩
  · exact ⟨l', q, rfl, hq⟩
  · exact ⟨labelled l' p', q, by simp [labelled], hq⟩

def wildcardLabel : Bytes := [0x2a]

lemma dnsNameMatches_partial_of_labelled (hl : 0x2e ∉ l) (hd : removeTrailingDot d ≠ [])
    (h : InDnsSubtree (labelled l d) c) :
    dnsNameMatches (labelled wildcardLabel d) c .partialMatch = true := by
  have hd₀ : d ≠ [] := by
    rintro rfl
    exact hd rfl
  by_cases hc : c = []
  · rw [dnsNameMatches, if_pos hc]
  rw [dnsNameMatches_eq hc, removeTrailingDot_labelled hd₀, Bool.or_eq_true]
  rcases h with h | h | h
  · exact absurd h hc
  · left
    rw [removeTrailingDot_labelled hd₀] at h
    obtain ⟨c₁, c₂, hsplit, hc₁, hc₂⟩ := EqNoCase.append_right h.symm
    obtain ⟨c₃, rfl, hc₃⟩ := hc₂.dot_cons
    have hdrop : (removeTrailingDot c).dropWhile (· ≠ 0x2e) = 0x2e :: c₃ := by
      rw [hsplit, dropWhile_append_of_pos, dropWhile_cons_of_neg (by simp)]
      intro x hx
      have hno := hc₁.noDot hl
      exact decide_eq_true fun heq => hno (heq ▸ hx)
    have hpos := length_pos_iff.mpr hd
    rw [wildcardMatches, if_pos ⟨by simpa [labelled, wildcardLabel] using hpos, rfl⟩, hdrop]
    exact isEqualNoCase_iff.mpr hc₃.symm
  · right
    rw [removeTrailingDot_labelled hd₀] at h
    exact subtreeMatch_iff.mpr (.inr (subtree_of_labelled hl h))

/-- The wildcard is in the subtree, and the subtree is not that of the wildcard itself. -/
def Broader (d c : Bytes) : Prop :=
  InDnsSubtree (labelled wildcardLabel d) c
    ∧ ¬ EqNoCase (removeTrailingDot (labelled wildcardLabel d)) (removeTrailingDot c)

/-- Such a subtree holds all names the wildcard stands for. -/
lemma Broader.inDnsSubtree (h : Broader d c) (hd : removeTrailingDot d ≠ []) :
    InDnsSubtree (labelled l d) c := by
  have hd₀ : d ≠ [] := by
    rintro rfl
    exact hd rfl
  rcases h.1 with hc | heq | hsub
  · exact .inl hc
  · exact absurd heq h.2
  · refine .inr (.inr ?_)
    rw [removeTrailingDot_labelled hd₀] at hsub ⊢
    exact subtree_of_labelled (by decide) hsub

/-- A subtree that holds a name of a label longer than its constraint is such a one. -/
lemma broader_of_long (hlen : c.length < l.length) (hl : 0x2e ∉ l) (hd : removeTrailingDot d ≠ [])
    (h : InDnsSubtree (labelled l d) c) : Broader d c := by
  have hd₀ : d ≠ [] := by
    rintro rfl
    exact hd rfl
  have hc := length_removeTrailingDot_le (d := c)
  rw [Broader, removeTrailingDot_labelled hd₀]
  rcases h with rfl | heq | hsub
  · exact ⟨.inl rfl, fun heq => by simpa [labelled, removeTrailingDot] using heq.length_eq⟩
  · have hlong := heq.length_eq
    rw [removeTrailingDot_labelled hd₀, labelled, length_append] at hlong
    omega
  · rw [removeTrailingDot_labelled hd₀] at hsub
    refine ⟨.inr (.inr ?_), fun heq => ?_⟩
    · rw [removeTrailingDot_labelled hd₀]
      exact subtree_of_labelled hl hsub
    · obtain ⟨p, q, hsplit, hq⟩ := hsub
      have hwild := heq.length_eq
      simp only [labelled, wildcardLabel, singleton_append, length_cons] at hwild
      have hle : q.length ≤ (removeTrailingDot d).length := by
        rcases labelled_split hl hsplit with rfl | ⟨p', hp'⟩
        · rfl
        · rw [hp', length_append, length_cons]
          omega
      rcases hq with hq | hq
      · have := hq.length_eq
        omega
      · have := hq.length_eq
        rw [length_cons] at this
        omega

/-! ## Mailboxes -/

/-- The mailbox `localPart@domain` is the constraint, is on the host that it names, or is on a host
in the domain that it names with a dot in front. -/
inductive InRfc822Subtree (SameLocalPart : Bytes → Bytes → Prop) (localPart domain : Bytes) :
    Bytes → Prop where
  | mailbox {l d : Bytes} (hl : SameLocalPart localPart l) (hd : EqNoCase domain d) :
      InRfc822Subtree SameLocalPart localPart domain (l ++ 0x40 :: d)
  | host {d : Bytes} (hat : 0x40 ∉ d) (hd : EqNoCase domain d) :
      InRfc822Subtree SameLocalPart localPart domain d
  | domain {p q d : Bytes} (hat : 0x40 ∉ d) (heq : domain = p ++ q) (hd : EqNoCase q (0x2e :: d)) :
      InRfc822Subtree SameLocalPart localPart domain (0x2e :: d)

lemma at_not_mem_localPart (h : isAllowedRfc822LocalPart l = true) : 0x40 ∉ l := by
  intro hat
  have hall := List.all_eq_true.mp (Bool.and_eq_true_iff.mp h).2 _ hat
  revert hall
  decide

lemma at_not_mem_domain (h : isAllowedRfc822Domain d = true) : 0x40 ∉ d := by
  intro hat
  have hall := List.all_eq_true.mp (Bool.and_eq_true_iff.mp h).2 _ hat
  revert hall
  decide

lemma splitString_join {c : UInt8} {parts : List Bytes} (h : splitString s c = parts) :
    intercalate [c] parts = s := by
  rw [splitString] at h
  split_ifs at h with hnil
  · rw [← h, hnil]
    rfl
  · rw [← h, intercalate_splitOn]

lemma splitString_one {c : UInt8} (h : splitString s c = [a]) : s = a := by
  simpa [intercalate] using (splitString_join h).symm

lemma splitString_two {c : UInt8} (h : splitString s c = [a, b]) : s = a ++ c :: b := by
  simpa [intercalate] using (splitString_join h).symm

/-- The local parts are the same. -/
def SameLocalPart (caseInsensitive : Bool) (l l' : Bytes) : Prop :=
  if caseInsensitive then EqNoCase l l' else l = l'

lemma sameLocalPart_iff {caseInsensitive : Bool} :
    (if caseInsensitive then isEqualNoCase l l' else decide (l = l')) = true ↔
      SameLocalPart caseInsensitive l l' := by
  cases caseInsensitive
  · simp [SameLocalPart]
  · simp [SameLocalPart, isEqualNoCase_iff]

lemma exists_cons_of_head? {c : UInt8} (h : s.head? = some c) : ∃ t, s = c :: t := by
  cases s with
  | nil => cases h
  | cons x t => exact ⟨t, by rw [Option.some.inj h]⟩

lemma inRfc822Subtree_of_matches (h : rfc822NameMatches l d c .permitted ci = true) :
    InRfc822Subtree (SameLocalPart ci) l d c := by
  rw [rfc822NameMatches] at h
  split at h
  case h_1 cd hsplit =>
    obtain rfl := splitString_one hsplit
    by_cases hallowed : isAllowedRfc822Domain c = true
    · have hat := at_not_mem_domain hallowed
      rw [if_neg (by simpa using hallowed)] at h
      split_ifs at h with hdot
      · obtain ⟨e, rfl⟩ := exists_cons_of_head? hdot
        obtain ⟨p, q, heq, hq⟩ := endsWithNoCase_iff.mp h
        exact .domain (fun hmem => hat (mem_cons_of_mem _ hmem)) heq hq
      · exact .host hat (isEqualNoCase_iff.mp h)
    · rw [if_pos (by simpa using hallowed)] at h
      cases h
  case h_2 cl cd hsplit =>
    obtain rfl := splitString_two hsplit
    by_cases hallowed : isAllowedRfc822LocalPart cl = true ∧ isAllowedRfc822Domain cd = true
    · rw [if_neg (by simp [hallowed]), if_neg (by simp [hallowed]), Bool.and_eq_true,
        sameLocalPart_iff, isEqualNoCase_iff] at h
      exact .mailbox h.1 h.2
    · split_ifs at h with hlocal hdomain
      any_goals cases h
      all_goals simp_all
  case h_3 => cases h

/-- An excluded constraint matches what is in its subtree, and everything if it is not understood.
-/
lemma matches_of_inRfc822Subtree (h : InRfc822Subtree (SameLocalPart ci) l d c) :
    rfc822NameMatches l d c .excluded ci = true := by
  rw [rfc822NameMatches]
  split
  case h_1 cd hsplit =>
    obtain rfl := splitString_one hsplit
    by_cases hallowed : isAllowedRfc822Domain c = true
    · have hat := at_not_mem_domain hallowed
      rw [if_neg (by simpa using hallowed)]
      cases h with
      | mailbox => simp at hat
      | host _ hd =>
        split_ifs
        · exact endsWithNoCase_iff.mpr ⟨[], d, rfl, hd⟩
        · exact isEqualNoCase_iff.mpr hd
      | domain _ heq hd =>
        exact endsWithNoCase_iff.mpr ⟨_, _, heq, hd⟩
    · rw [if_pos (by simpa using hallowed)]
      rfl
  case h_2 cl cd hsplit =>
    have hc := splitString_two hsplit
    by_cases hlocal : isAllowedRfc822LocalPart cl = true
    · by_cases hdomain : isAllowedRfc822Domain cd = true
      · rw [if_neg (by simpa using hlocal), if_neg (by simpa using hdomain), Bool.and_eq_true,
          sameLocalPart_iff, isEqualNoCase_iff]
        cases h with
        | mailbox hl hd =>
          obtain ⟨rfl, -, rfl⟩ := (append_cons_inj_of_notMem (at_not_mem_localPart hlocal)
            (at_not_mem_domain hdomain)).mp hc.symm
          exact ⟨hl, hd⟩
        | host hat => simp [hc] at hat
        | domain hat =>
          grind
      · rw [if_neg (by simpa using hlocal), if_pos (by simpa using hdomain)]
        rfl
    · rw [if_pos (by simpa using hlocal)]
      rfl
  case h_3 => rfl

/-! ## Directory names -/

lemma normalForm_of_matching {a b : X509NameAttribute}
    (h : (decide (a.type = b.type) && verifyValueMatch a b) = true) :
    ∃ n, normalForm a = some n ∧ normalForm b = some n := by
  have hforms : ∃ na nb, normalForm a = some na ∧ normalForm b = some nb := by
    have hvalue := (Bool.and_eq_true_iff.mp h).2
    rw [verifyValueMatch] at hvalue
    rw [normalForm, normalForm]
    by_cases hsa : isNormalizableDirectoryString a.valueTag = true <;>
      by_cases hsb : isNormalizableDirectoryString b.valueTag = true <;>
      simp only [hsa, hsb, Bool.and_self, Bool.and_true, Bool.and_false, if_true, if_false,
        Bool.false_eq_true] at hvalue ⊢
    · split at hvalue
      · rename_i va vb hva hvb
        exact ⟨_, _, by rw [hva]; rfl, by rw [hvb]; rfl⟩
      · cases hvalue
    · split_ifs at hvalue with htag
      exact absurd (not_not.mp htag ▸ hsa) hsb
    · split_ifs at hvalue with htag
      exact absurd (not_not.mp htag ▸ hsb) hsa
    · exact ⟨_, _, rfl, rfl⟩
  obtain ⟨na, nb, hna, hnb⟩ := hforms
  exact ⟨na, hna, (matching_iff hna hnb).mp h ▸ hnb⟩

lemma matching_iff_normalForm {a b : X509NameAttribute} (ha : normalForm a ≠ none) :
    (decide (a.type = b.type) && verifyValueMatch a b) = true ↔ normalForm a = normalForm b := by
  constructor
  · intro h
    obtain ⟨n, hna, hnb⟩ := normalForm_of_matching h
    rw [hna, hnb]
  · intro h
    obtain ⟨n, hn⟩ := Option.ne_none_iff_exists'.mp ha
    exact (matching_iff hn (h ▸ hn)).mpr rfl

lemma normalForm_ne_none_of_match : ∀ {as bs : List X509NameAttribute},
    verifyAttributesMatch as bs = true → ∀ a ∈ as, normalForm a ≠ none
  | [], _, _ => by simp
  | a :: as, bs, h => by
    rw [verifyAttributesMatch] at h
    split_ifs at h with hany
    intro a' ha'
    rcases mem_cons.mp ha' with rfl | ha'
    · obtain ⟨b, -, hb⟩ := List.any_eq_true.mp hany
      obtain ⟨n, hn, -⟩ := normalForm_of_matching hb
      rw [hn]
      exact Option.some_ne_none n
    · exact normalForm_ne_none_of_match h a' ha'

/-- The RDNs have the same attributes, in any order. -/
def SameRdn (p q : Bytes) : Prop :=
  ∃ as bs, readRdn p = some as ∧ readRdn q = some bs ∧ (∀ a ∈ as, normalForm a ≠ none)
    ∧ (as.map normalForm).Perm (bs.map normalForm)

lemma verifyRdnMatch_iff_sameRdn : verifyRdnMatch p q = true ↔ SameRdn p q := by
  rw [verifyRdnMatch]
  constructor
  · intro h
    split at h
    · rename_i as bs has hbs
      obtain ⟨hlen, hmatch⟩ := Bool.and_eq_true_iff.mp h
      have hforms := normalForm_ne_none_of_match hmatch
      exact ⟨as, bs, has, hbs, hforms, (verifyAttributesMatch_iff (of_decide_eq_true hlen)
        fun a ha b _ => matching_iff_normalForm (hforms a ha)).mp hmatch⟩
    · cases h
  · rintro ⟨as, bs, has, hbs, hforms, hperm⟩
    have hlen : as.length = bs.length := by simpa using hperm.length_eq
    simp only [has, hbs, hlen, decide_true, Bool.true_and]
    exact (verifyAttributesMatch_iff hlen
      fun a ha b _ => matching_iff_normalForm (hforms a ha)).mpr hperm

/-- The name starts with the RDNs of the constraint. -/
inductive InDirectorySubtree : Bytes → Bytes → Prop where
  | all (name : Bytes) : InDirectorySubtree name []
  | rdn {p q p' q' name c : Bytes} (hp : IsTlv asn1Set p p') (hq : IsTlv asn1Set q q')
      (hsame : SameRdn p q) (hrest : InDirectorySubtree name c) :
      InDirectorySubtree (p' ++ name) (q' ++ c)

lemma inDirectorySubtree_of_matchRdns : ∀ {fuel : ℕ} {a b rest : Bytes},
    countRdns fuel a b = some (rest, []) → matchRdns fuel a b = true → InDirectorySubtree a b
  | fuel, [], b, rest, hcount, _ => by
    rw [countRdns.eq_def] at hcount
    obtain ⟨-, rfl⟩ := Prod.mk.inj (Option.some.inj hcount)
    exact .all []
  | fuel, x :: a, [], rest, _, _ => .all _
  | 0, x :: a, y :: b, rest, hcount, _ => by cases hcount
  | fuel + 1, x :: a, y :: b, rest, hcount, hmatch => by
    rw [countRdns] at hcount
    simp only [Option.bind_eq_bind, Option.bind_eq_some_iff, Prod.exists] at hcount
    obtain ⟨p, a', hreada, q, b', hreadb, hcount⟩ := hcount
    rw [matchRdns, readConstructed_set, hreada, hreadb] at hmatch
    obtain ⟨hrdn, hmatch⟩ := Bool.and_eq_true_iff.mp hmatch
    obtain ⟨p', hp, hpa⟩ := readTag_eq_some_iff.mp hreada
    obtain ⟨q', hq, hqb⟩ := readTag_eq_some_iff.mp hreadb
    rw [hpa, hqb]
    exact .rdn hp hq (verifyRdnMatch_iff_sameRdn.mp hrdn)
      (inDirectorySubtree_of_matchRdns hcount hmatch)

lemma matchRdns_of_inDirectorySubtree (h : InDirectorySubtree a b) :
    ∀ {fuel : ℕ}, a.length ≤ fuel →
      matchRdns fuel a b = true ∧ ∃ rest, countRdns fuel a b = some (rest, []) := by
  induction h with
  | all name =>
    intro fuel _
    rw [matchRdns.eq_def, countRdns.eq_def]
    cases name <;> simp
  | @rdn p q p' q' name c hp hq hsame hrest ih =>
    intro fuel hfuel
    have hpos := length_pos_iff.mpr hp.ne_nil
    rw [length_append] at hfuel
    obtain ⟨fuel, rfl⟩ : ∃ f, fuel = f + 1 := ⟨fuel - 1, by omega⟩
    obtain ⟨hmatch, rest, hcount⟩ := ih (show name.length ≤ fuel by omega)
    have hreada := (reads_tag asn1Set).read_append hp name
    have hreadb := (reads_tag asn1Set).read_append hq c
    obtain ⟨x, p', rfl⟩ := exists_cons_of_ne_nil hp.ne_nil
    obtain ⟨y, q', rfl⟩ := exists_cons_of_ne_nil hq.ne_nil
    rw [cons_append] at hreada hreadb
    rw [cons_append, cons_append, matchRdns, countRdns, readConstructed_set, hreada, hreadb]
    simp [hmatch, hcount, verifyRdnMatch_iff_sameRdn.mpr hsame]

lemma verifyNameInSubtree_iff : verifyNameInSubtree name c = true ↔ InDirectorySubtree name c := by
  rw [verifyNameInSubtree, verifyNameMatchInternal]
  constructor
  · intro h
    split at h
    · cases h
    · rename_i aRest bRest hcount
      split_ifs at h with hb hexact
      obtain rfl := not_not.mp hb
      exact inDirectorySubtree_of_matchRdns hcount h
  · intro h
    obtain ⟨hmatch, rest, hcount⟩ := matchRdns_of_inDirectorySubtree h le_rfl
    simp [hcount, hmatch]

/-! ## IP addresses -/

/-- The address agrees with that of the range wherever the mask has a one. -/
def InIpRange (ip : Bytes) (range : Bytes × Bytes) : Prop :=
  ip.length = range.1.length ∧ ip.length = range.2.length ∧
    ∀ i, ip.getD i 0 &&& range.2.getD i 0 = range.1.getD i 0 &&& range.2.getD i 0

lemma zipWith_and_eq_iff : ∀ {a b m : Bytes}, a.length = b.length → a.length = m.length →
    (zipWith (· &&& ·) a m = zipWith (· &&& ·) b m ↔
      ∀ i, a.getD i 0 &&& m.getD i 0 = b.getD i 0 &&& m.getD i 0)
  | [], [], [], _, _ => by simp
  | x :: a, y :: b, z :: m, hab, ham => by
    have ih := zipWith_and_eq_iff (Nat.succ.inj hab) (Nat.succ.inj ham)
    rw [zipWith_cons_cons, zipWith_cons_cons, List.cons.injEq, ih]
    constructor
    · rintro ⟨hhead, htail⟩ i
      cases i with
      | zero => exact hhead
      | succ i => exact htail i
    · intro h
      exact ⟨h 0, fun i => h (i + 1)⟩

lemma ipAddressMatchesWithNetmask_iff {range : Bytes × Bytes} :
    ipAddressMatchesWithNetmask ip range.1 range.2 = true ↔ InIpRange ip range := by
  rw [ipAddressMatchesWithNetmask, InIpRange]
  by_cases hlen : ip.length ≠ range.1.length ∨ ip.length ≠ range.2.length
  · grind
  · rw [if_neg hlen]
    rw [not_or, not_not, not_not] at hlen
    rw [decide_eq_true_eq, zipWith_and_eq_iff hlen.1 hlen.2]
    exact ⟨fun h => ⟨hlen.1, hlen.2, h⟩, fun h => h.2.2⟩

/-! ## Certificates -/

namespace NameConstraints

variable {nc : NameConstraints} {name : Bytes}

/-- A subtree of its type is permitted, if there are any, and none is excluded. -/
structure Respects {α : Type} (nc : NameConstraints) (type : GeneralNameType)
    (subtrees : GeneralNames → List α) (InPermitted InExcluded : α → Prop) : Prop where
  permitted : nc.permittedSubtrees.present type = true →
    ∃ c ∈ subtrees nc.permittedSubtrees, InPermitted c
  excluded : ∀ c ∈ subtrees nc.excludedSubtrees, ¬ InExcluded c

lemma Respects.of_isPermittedName {α : Type}
    {subtrees : GeneralNames → List α} {matchesExcluded matchesPermitted : α → Bool}
    {InPermitted InExcluded : α → Prop}
    (h : nc.isPermittedName type subtrees matchesExcluded matchesPermitted = true)
    (hpermitted : ∀ c, matchesPermitted c = true → InPermitted c)
    (hexcluded : ∀ c, InExcluded c → matchesExcluded c = true) :
    nc.Respects type subtrees InPermitted InExcluded := by
  rw [isPermittedName] at h
  split_ifs at h with hany hnone
  · exact ⟨fun hsome => by simp [hsome] at hnone,
      fun c hc hin => hany (List.any_eq_true.mpr ⟨c, hc, hexcluded c hin⟩)⟩
  · obtain ⟨c, hc, hmatch⟩ := List.any_eq_true.mp h
    exact ⟨fun _ => ⟨c, hc, hpermitted c hmatch⟩,
      fun c hc hin => hany (List.any_eq_true.mpr ⟨c, hc, hexcluded c hin⟩)⟩

lemma respects_dnsName (h : nc.isPermittedDnsName name = true) :
    nc.Respects .dnsName GeneralNames.dnsNames (InDnsSubtree name) (InDnsSubtree name) :=
  .of_isPermittedName h (fun _ => dnsNameMatches_full_iff.mp)
    fun _ => dnsNameMatches_partial_of_inDnsSubtree

/-- What a wildcard stands for is excluded with it. -/
lemma notExcluded_wildcard (h : nc.isPermittedDnsName (labelled wildcardLabel d) = true)
    (hd : removeTrailingDot d ≠ []) (hl : 0x2e ∉ l) :
    ∀ c ∈ nc.excludedSubtrees.dnsNames, ¬ InDnsSubtree (labelled l d) c := by
  have hrespects : nc.Respects .dnsName GeneralNames.dnsNames
      (InDnsSubtree (labelled wildcardLabel d)) (InDnsSubtree (labelled l d)) :=
    .of_isPermittedName h (fun _ => dnsNameMatches_full_iff.mp)
      fun _ => dnsNameMatches_partial_of_labelled hl hd
  exact hrespects.excluded

/-- What a wildcard stands for is permitted with it exactly if not only the wildcard is. -/
lemma respects_wildcard_iff (h : nc.isPermittedDnsName (labelled wildcardLabel d) = true)
    (hd : removeTrailingDot d ≠ []) :
    (∀ l, l ≠ [] → 0x2e ∉ l → nc.Respects .dnsName GeneralNames.dnsNames
        (InDnsSubtree (labelled l d)) (InDnsSubtree (labelled l d)))
      ↔ (nc.permittedSubtrees.present .dnsName = true →
        ∃ c ∈ nc.permittedSubtrees.dnsNames, Broader d c) := by
  constructor
  · intro hall hsome
    let l := replicate (nc.permittedSubtrees.dnsNames.flatten.length + 1) (0x61 : UInt8)
    have hl : 0x2e ∉ l := fun hmem => absurd (eq_of_mem_replicate hmem) (by decide)
    obtain ⟨c, hc, hin⟩ := (hall l (by simp [l]) hl).permitted hsome
    have hlen := (sublist_flatten_of_mem hc).length_le
    exact ⟨c, hc, broader_of_long (by rw [length_replicate]; omega) hl hd hin⟩
  · intro hbroader l _ hl
    refine ⟨fun hsome => ?_, notExcluded_wildcard h hd hl⟩
    obtain ⟨c, hc, hbroad⟩ := hbroader hsome
    exact ⟨c, hc, hbroad.inDnsSubtree hd⟩

/-- The mailbox is in the subtree. -/
def InMailboxSubtree (caseInsensitiveLocalPart : Bool) (name c : Bytes) : Prop :=
  ∃ l d, name = l ++ 0x40 :: d ∧ InRfc822Subtree (SameLocalPart caseInsensitiveLocalPart) l d c

lemma respects_rfc822Name (h : nc.isPermittedRfc822Name name ci = true) :
    nc.Respects .rfc822Name GeneralNames.rfc822Names (InMailboxSubtree false name)
      (InMailboxSubtree ci name) := by
  rw [isPermittedRfc822Name] at h
  split at h
  · rename_i l d hsplit
    split_ifs at h with hallowed
    have hlocal : isAllowedRfc822LocalPart l = true := by
      by_contra hnot
      simp [hnot] at hallowed
    have hdomain : isAllowedRfc822Domain d = true := by
      by_contra hnot
      simp [hnot] at hallowed
    have hname := splitString_two hsplit
    refine .of_isPermittedName h
      (fun c hmatch => ⟨l, d, hname, inRfc822Subtree_of_matches hmatch⟩) ?_
    rintro c ⟨l', d', hname', hin⟩
    rw [hname] at hname'
    obtain ⟨rfl, -, rfl⟩ := (append_cons_inj_of_notMem (at_not_mem_localPart hlocal)
      (at_not_mem_domain hdomain)).mp hname'
    exact matches_of_inRfc822Subtree hin
  · cases h

lemma respects_directoryName (h : nc.isPermittedDirectoryName name = true) :
    nc.Respects .directoryName GeneralNames.directoryNames (InDirectorySubtree name)
      (InDirectorySubtree name) :=
  .of_isPermittedName h (fun _ => verifyNameInSubtree_iff.mp) fun _ => verifyNameInSubtree_iff.mpr

lemma respects_ipAddress (h : nc.isPermittedIp ip = true) :
    nc.Respects .ipAddress GeneralNames.ipAddressRanges (InIpRange ip) (InIpRange ip) :=
  .of_isPermittedName h (fun _ => ipAddressMatchesWithNetmask_iff.mp)
    fun _ => ipAddressMatchesWithNetmask_iff.mpr

lemma constrained_of_supported (h : type ∈ kSupportedNameTypes) :
    nc.constrained type =
      (nc.permittedSubtrees.present type || nc.excludedSubtrees.present type) := by
  simp [constrained, h]

lemma rfc822Names_eq_nil {names : GeneralNames} (h : names.present .rfc822Name = false) :
    names.rfc822Names = [] := by
  rw [GeneralNames.rfc822Names, filterMap_eq_nil_iff]
  rintro (_ | name | _ | _ | _ | _ | _ | _ | _ | _) hname
  case rfc822Name =>
    rw [GeneralNames.present, List.any_eq_false] at h
    exact absurd (decide_eq_true rfl) (h _ hname)
  all_goals rfl

lemma respects_unconstrained {InPermitted InExcluded : Bytes → Prop}
    (h : nc.constrained .rfc822Name = false) :
    nc.Respects .rfc822Name GeneralNames.rfc822Names InPermitted InExcluded := by
  rw [constrained_of_supported (by decide), Bool.or_eq_false_iff] at h
  refine ⟨fun hsome => by simp [h.1] at hsome, fun c hc => ?_⟩
  rw [rfc822Names_eq_nil h.2] at hc
  cases hc

/-- The names of a certificate to which no error is added. -/
structure NamesPermitted (nc : NameConstraints) (subject : Bytes) (san : Option GeneralNames) :
    Prop where
  dnsName : ∀ names ∈ san, ∀ name ∈ names.dnsNames,
    nc.Respects .dnsName GeneralNames.dnsNames (InDnsSubtree name) (InDnsSubtree name)
  wildcardExcluded : ∀ names ∈ san, ∀ l d, labelled wildcardLabel d ∈ names.dnsNames →
    removeTrailingDot d ≠ [] → 0x2e ∉ l →
      ∀ c ∈ nc.excludedSubtrees.dnsNames, ¬ InDnsSubtree (labelled l d) c
  wildcard : ∀ names ∈ san, ∀ d, labelled wildcardLabel d ∈ names.dnsNames →
    removeTrailingDot d ≠ [] →
      ((∀ l, l ≠ [] → 0x2e ∉ l → nc.Respects .dnsName GeneralNames.dnsNames
          (InDnsSubtree (labelled l d)) (InDnsSubtree (labelled l d)))
        ↔ (nc.permittedSubtrees.present .dnsName = true →
          ∃ c ∈ nc.permittedSubtrees.dnsNames, Broader d c))
  rfc822Name : ∀ names ∈ san, ∀ name ∈ names.rfc822Names,
    nc.Respects .rfc822Name GeneralNames.rfc822Names (InMailboxSubtree false name)
      (InMailboxSubtree false name)
  directoryName : ∀ names ∈ san, ∀ name ∈ names.directoryNames,
    nc.Respects .directoryName GeneralNames.directoryNames (InDirectorySubtree name)
      (InDirectorySubtree name)
  ipAddress : ∀ names ∈ san, ∀ ip ∈ names.ipAddresses,
    nc.Respects .ipAddress GeneralNames.ipAddressRanges (InIpRange ip) (InIpRange ip)
  subjectName : san = none ∨ subject ≠ [] →
    nc.Respects .directoryName GeneralNames.directoryNames (InDirectorySubtree subject)
      (InDirectorySubtree subject)
  /-- The local parts of these are excluded in any case. -/
  emailAddress : san = none →
    nc.permittedSubtrees.present .rfc822Name || nc.excludedSubtrees.present .rfc822Name →
      ∃ emailAddresses, findEmailAddressesInName subject = some emailAddresses ∧
        ∀ name ∈ emailAddresses, nc.Respects .rfc822Name GeneralNames.rfc822Names
          (InMailboxSubtree false name) (InMailboxSubtree true name)
  supported : ∀ names ∈ san, ∀ name ∈ names, nc.isCritical = true →
    nc.permittedSubtrees.present name.type || nc.excludedSubtrees.present name.type →
      name.type ∈ kSupportedNameTypes

lemma isPermittedSubjectAltNames_iff {san : GeneralNames} :
    nc.isPermittedSubjectAltNames san = true ↔
      (∀ name ∈ san, nc.constrained name.type = true → name.type ∈ kSupportedNameTypes)
      ∧ (nc.constrained .rfc822Name = true →
        ∀ name ∈ san.rfc822Names, nc.isPermittedRfc822Name name false = true)
      ∧ (∀ name ∈ san.dnsNames, nc.isPermittedDnsName name = true)
      ∧ (∀ name ∈ san.directoryNames, nc.isPermittedDirectoryName name = true)
      ∧ ∀ ip ∈ san.ipAddresses, nc.isPermittedIp ip = true := by
  rw [isPermittedSubjectAltNames]
  split_ifs <;> simp_all

lemma isPermittedCert_eq_none {subject : Bytes} {san : Option GeneralNames}
    (h : nc.isPermittedCert subject san = none) :
    (∀ names ∈ san, nc.isPermittedSubjectAltNames names = true)
      ∧ (∃ emailAddresses, nc.subjectEmailAddressesToCheck subject san = some emailAddresses
        ∧ ∀ name ∈ emailAddresses, nc.isPermittedRfc822Name name true = true)
      ∧ (san = none ∨ subject ≠ [] → nc.isPermittedDirectoryName subject = true) := by
  rw [isPermittedCert] at h
  by_cases hmany : nc.tooManyChecks subject san = true
  · rw [if_pos hmany] at h
    cases h
  rw [if_neg hmany] at h
  split at h
  · cases h
  · rename_i emailAddresses hemail
    by_cases hsan : (san.any fun names => !nc.isPermittedSubjectAltNames names) = true
    · rw [if_pos hsan] at h
      cases h
    by_cases hall : (!emailAddresses.all (nc.isPermittedRfc822Name · true)) = true
    · rw [if_neg hsan, if_pos hall] at h
      cases h
    refine ⟨?_, ⟨emailAddresses, hemail, by simpa using hall⟩, fun hchecked => ?_⟩
    · rintro names rfl
      simpa using hsan
    · grind

/-- No name of a certificate to which no error is added is outside the permitted subtrees of its
type or in an excluded one, and the same holds of what a wildcard stands for exactly if a permitted
subtree is broader than the wildcard. -/
theorem isPermittedCert_sound {subject : Bytes} {san : Option GeneralNames}
    (h : nc.isPermittedCert subject san = none) : nc.NamesPermitted subject san := by
  obtain ⟨hsan, ⟨emailAddresses, hemail, hall⟩, hsubject⟩ := isPermittedCert_eq_none h
  simp only [isPermittedSubjectAltNames_iff] at hsan
  exact {
    dnsName := fun names hnames name hname =>
      respects_dnsName ((hsan names hnames).2.2.1 name hname)
    wildcardExcluded := fun names hnames l d hname hd hl =>
      notExcluded_wildcard ((hsan names hnames).2.2.1 _ hname) hd hl
    wildcard := fun names hnames d hname hd =>
      respects_wildcard_iff ((hsan names hnames).2.2.1 _ hname) hd
    rfc822Name := fun names hnames name hname => by
      by_cases hconstrained : nc.constrained .rfc822Name = true
      · exact respects_rfc822Name ((hsan names hnames).2.1 hconstrained name hname)
      · exact respects_unconstrained (Bool.eq_false_iff.mpr hconstrained)
    directoryName := fun names hnames name hname =>
      respects_directoryName ((hsan names hnames).2.2.2.1 name hname)
    ipAddress := fun names hnames ip hip => respects_ipAddress ((hsan names hnames).2.2.2.2 ip hip)
    subjectName := fun hchecked => respects_directoryName (hsubject hchecked)
    emailAddress := fun hnone hconstrained => by
      rw [← constrained_of_supported (by decide)] at hconstrained
      rw [subjectEmailAddressesToCheck, if_pos ⟨hnone, hconstrained⟩] at hemail
      exact ⟨emailAddresses, hemail, fun name hname => respects_rfc822Name (hall name hname)⟩
    supported := fun names hnames name hname hcritical hpresent =>
      (hsan names hnames).1 name hname (by simp [constrained, hcritical, hpresent]) }

/-- The name `*.d.e` where `d.e` and `*.d.e` are permitted and `x.e` is excluded. -/
theorem isPermittedCert_sound_wildcard :
    ∃ c ∈ [[0x2a, 0x2e, 0x64, 0x2e, 0x65], [0x64, 0x2e, 0x65]],
      InDnsSubtree [0x61, 0x2e, 0x64, 0x2e, 0x65] c := by
  have hcert : isPermittedCert
      ⟨[.dnsName [0x2a, 0x2e, 0x64, 0x2e, 0x65], .dnsName [0x64, 0x2e, 0x65]],
        [.dnsName [0x78, 0x2e, 0x65]], true⟩ []
      (some [.dnsName [0x2a, 0x2e, 0x64, 0x2e, 0x65]]) = none := by decide +kernel
  have hbroad : Broader [0x64, 0x2e, 0x65] [0x64, 0x2e, 0x65] :=
    ⟨dnsNameMatches_full_iff.mp (by decide +kernel), fun heq => absurd heq.length_eq (by decide)⟩
  have hall := ((isPermittedCert_sound hcert).wildcard _ rfl [0x64, 0x2e, 0x65]
    (by decide +kernel) (by decide)).mpr fun _ => ⟨_, by decide +kernel, hbroad⟩
  exact (hall [0x61] (by decide) (by decide)).permitted rfl

/-- With the constraint `*.d` the name `*.d` is permitted, and `a.d`, which it stands for, is not.
-/
theorem isPermittedCert_wildcard_constraint :
    isPermittedCert ⟨[.dnsName [0x2a, 0x2e, 0x64]], [], true⟩ []
        (some [.dnsName [0x2a, 0x2e, 0x64]]) = none
      ∧ ∀ c ∈ GeneralNames.dnsNames [.dnsName [0x2a, 0x2e, 0x64]],
        ¬ InDnsSubtree [0x61, 0x2e, 0x64] c := by
  refine ⟨by decide +kernel, fun c hc => ?_⟩
  obtain rfl : c = [0x2a, 0x2e, 0x64] := by simpa [GeneralNames.dnsNames] using hc
  rw [← dnsNameMatches_full_iff]
  decide +kernel

end NameConstraints

end BoringSSL.Pki
