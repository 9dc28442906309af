import Mathlib.Data.List.Nodup

/-!
# The links of a doubly linked list

The nodes of a list each have a link to the node after them and to the one before; the last and the
first have one to the ends of the list.  `nextIn l` and `prevIn l` are the links when the list is
`l`; a node that is not in it has none.
-/

/-- A pointer to a node, or to an end. -/
inductive Link (S : Type) where
  | null
  | node (s : S)
  /-- The end before the first node. -/
  | front
  /-- The end after the last node. -/
  | back
  deriving DecidableEq, Repr

namespace Link

open List

variable {S : Type} {s x : S} {l₂ : List S}

/-- The link to the first node of what comes after. -/
def toFirst : List S → Link S
  | [] => .back
  | s :: _ => .node s

/-- The link to the last node of what comes before. -/
def toLast (l : List S) : Link S :=
  match l.getLast? with
  | none => .front
  | some s => .node s

variable [DecidableEq S]

/-- What follows a node of the list. -/
def nextIn : List S → S → Link S
  | [], _ => .null
  | a :: l, s => if s = a then toFirst l else nextIn l s

def prevFrom (before : Link S) : List S → S → Link S
  | [], _ => .null
  | a :: l, s => if s = a then before else prevFrom (.node a) l s

/-- What precedes a node of the list. -/
def prevIn (l : List S) (s : S) : Link S := prevFrom .front l s

omit [DecidableEq S] in
lemma toFirst_ne_null (l : List S) : toFirst l ≠ .null := by
  cases l <;> simp [toFirst]

omit [DecidableEq S] in
lemma toLast_ne_null (l : List S) : toLast l ≠ .null := by
  unfold toLast
  split <;> simp

lemma nextIn_of_notMem : ∀ {l : List S}, s ∉ l → nextIn l s = .null
  | [], _ => rfl
  | a :: l, h => by
    rw [mem_cons, not_or] at h
    rw [nextIn, if_neg h.1, nextIn_of_notMem h.2]

lemma prevFrom_of_notMem : ∀ {l : List S} {before : Link S}, s ∉ l →
    prevFrom before l s = .null
  | [], _, _ => rfl
  | a :: l, before, h => by
    rw [mem_cons, not_or] at h
    rw [prevFrom, if_neg h.1, prevFrom_of_notMem h.2]

lemma nextIn_self : ∀ {l₁ : List S}, s ∉ l₁ →
    nextIn (l₁ ++ s :: l₂) s = toFirst l₂
  | [], _ => by rw [nil_append, nextIn, if_pos rfl]
  | a :: l₁, h => by
    rw [mem_cons, not_or] at h
    rw [cons_append, nextIn, if_neg h.1, nextIn_self h.2]

/-- The link before what follows `l₁`. -/
def lastFrom (before : Link S) (l₁ : List S) : Link S := (l₁.getLast?.map .node).getD before

omit [DecidableEq S] in
lemma lastFrom_cons (before : Link S) (a : S) (l : List S) :
    lastFrom before (a :: l) = lastFrom (.node a) l := by
  rw [lastFrom, lastFrom, getLast?_cons]
  cases l.getLast? <;> rfl

omit [DecidableEq S] in
lemma lastFrom_front (l : List S) : lastFrom .front l = toLast l := by
  unfold lastFrom toLast
  cases l.getLast? <;> rfl

lemma prevFrom_self : ∀ {l₁ : List S} {before : Link S}, s ∉ l₁ →
    prevFrom before (l₁ ++ s :: l₂) s = lastFrom before l₁
  | [], before, _ => by
    rw [nil_append, prevFrom, if_pos rfl]
    rfl
  | a :: l₁, before, h => by
    rw [mem_cons, not_or] at h
    rw [cons_append, prevFrom, if_neg h.1, prevFrom_self h.2, lastFrom_cons]

lemma prevIn_self {l₁ : List S} (h : s ∉ l₁) : prevIn (l₁ ++ s :: l₂) s = toLast l₁ := by
  rw [prevIn, prevFrom_self h, lastFrom_front]

lemma nextIn_remove (hxs : x ≠ s) : ∀ {l₁ : List S}, l₁.Nodup →
    nextIn (l₁ ++ l₂) x
      = if l₁.getLast? = some x then toFirst l₂ else nextIn (l₁ ++ s :: l₂) x
  | [], _ => by
    rw [nil_append, nil_append, nextIn, if_neg hxs]
    rfl
  | [a], _ => by
    simp only [cons_append, nil_append, nextIn, getLast?_singleton, Option.some.injEq]
    by_cases hxa : x = a
    · rw [if_pos hxa, if_pos hxa.symm]
    · rw [if_neg hxa, if_neg (Ne.symm hxa), if_neg hxa, if_neg hxs]
  | a :: b :: l₁, h => by
    have hrest : nextIn (b :: l₁ ++ l₂) x = if (b :: l₁).getLast? = some x then toFirst l₂
        else nextIn (b :: l₁ ++ s :: l₂) x := nextIn_remove hxs h.of_cons
    have hne : x = a → (b :: l₁).getLast? ≠ some x := by
      grind
    have hstep (l : List S) : nextIn (a :: b :: l₁ ++ l) x
        = if x = a then .node b else nextIn (b :: l₁ ++ l) x := rfl
    rw [getLast?_cons_cons, hstep, hstep, hrest]
    by_cases hxa : x = a
    · rw [if_pos hxa, if_neg (hne hxa), if_pos hxa]
    · rw [if_neg hxa, if_neg hxa]

lemma prevFrom_remove (hxs : x ≠ s) : ∀ {l₁ : List S} {before : Link S},
    (l₁ ++ l₂).Nodup → prevFrom before (l₁ ++ l₂) x
      = if l₂.head? = some x then lastFrom before l₁ else prevFrom before (l₁ ++ s :: l₂) x
  | [], before, _ => by
    rw [nil_append, nil_append, prevFrom, if_neg hxs]
    cases l₂ with
    | nil => rfl
    | cons b l₂ =>
      simp only [prevFrom, head?_cons, Option.some.injEq]
      by_cases hxb : x = b
      · rw [if_pos hxb, if_pos hxb.symm]
        rfl
      · rw [if_neg hxb, if_neg (Ne.symm hxb), if_neg hxb]
  | a :: l₁, before, h => by
    have hrest : prevFrom (.node a) (l₁ ++ l₂) x = if l₂.head? = some x then lastFrom (.node a) l₁
        else prevFrom (.node a) (l₁ ++ s :: l₂) x := prevFrom_remove hxs h.of_cons
    have hne : x = a → l₂.head? ≠ some x := by
      rintro rfl hhead
      exact (nodup_cons.mp h).1 (mem_append_right _ (mem_of_mem_head? hhead))
    rw [cons_append, prevFrom, cons_append, prevFrom, hrest, lastFrom_cons]
    by_cases hxa : x = a
    · rw [if_pos hxa, if_neg (hne hxa), if_pos hxa]
    · rw [if_neg hxa, if_neg hxa]

lemma prevIn_remove {l₁ : List S} (hxs : x ≠ s) (h : (l₁ ++ l₂).Nodup) :
    prevIn (l₁ ++ l₂) x
      = if l₂.head? = some x then toLast l₁ else prevIn (l₁ ++ s :: l₂) x := by
  rw [prevIn, prevFrom_remove hxs h, lastFrom_front, prevIn]

lemma prevIn_cons {l : List S} (hxs : x ≠ s) :
    prevIn (s :: l) x = if l.head? = some x then .node s else prevIn l x := by
  rw [prevIn, prevFrom, if_neg hxs]
  cases l with
  | nil => rfl
  | cons a l =>
    simp only [prevIn, prevFrom, head?_cons, Option.some.injEq]
    by_cases hxa : x = a
    · rw [if_pos hxa, if_pos hxa.symm]
    · rw [if_neg hxa, if_neg (Ne.symm hxa), if_neg hxa]

end Link
