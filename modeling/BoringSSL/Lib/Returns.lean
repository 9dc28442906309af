import Mathlib.Data.List.Range

/-!
# Programs on a state whose result is known

`Returns P x v Q` says that `x`, started in any state of `P`, does not abort, returns `v` and leaves
a state of `Q`.  The value may not depend on which state of `P` it was: this is how a program that
works in shared scratch memory is shown to compute a function of its arguments alone.
-/

namespace ByteLib

open List

variable {σ α β : Type} {P Q R : σ → Prop}

/-- From `P` the program returns `v` and leaves `Q`. -/
def Returns (P : σ → Prop) (x : StateT σ Option α) (v : α) (Q : σ → Prop) : Prop :=
  ∀ s, P s → ∃ s', x.run s = some (v, s') ∧ Q s'

/-- Fails unless the condition holds. -/
def check (c : Prop) [Decidable c] : StateT σ Option Unit := if c then pure () else failure

namespace Returns

variable {x : StateT σ Option α} {v : α} {w : β}

lemma pure (v : α) : Returns P (Pure.pure v) v P := fun s hs => ⟨s, rfl, hs⟩

lemma bind {f : α → StateT σ Option β} (hx : Returns P x v Q) (hf : Returns Q (f v) w R) :
    Returns P (x >>= f) w R := by
  intro s hs
  obtain ⟨s', hrun, hs'⟩ := hx s hs
  obtain ⟨s'', hrun', hs''⟩ := hf s' hs'
  refine ⟨s'', ?_, hs''⟩
  rw [StateT.run_bind, hrun]
  exact hrun'

lemma mono {P' Q' : σ → Prop} (hx : Returns P x v Q) (hpre : ∀ s, P' s → P s)
    (hpost : ∀ s, Q s → Q' s) : Returns P' x v Q' := by
  intro s hs
  obtain ⟨s', hrun, hs'⟩ := hx s (hpre s hs)
  exact ⟨s', hrun, hpost s' hs'⟩

lemma run' {s : σ} (hx : Returns P x v Q) (hs : P s) : x.run' s = some v := by
  obtain ⟨s', hrun, -⟩ := hx s hs
  rw [StateT.run'_eq, hrun]
  rfl

lemma get_bind {f : σ → StateT σ Option β} (hf : ∀ s, P s → Returns P (f s) w R) :
    Returns P (get >>= f) w R := fun s hs => hf s hs s hs

lemma modify_bind {g : σ → σ} {f : PUnit → StateT σ Option β} (hg : ∀ s, P s → Q (g s))
    (hf : Returns Q (f ⟨⟩) w R) :
    Returns P (modify g >>= f) w R := fun s hs => hf (g s) (hg s hs)

lemma check_bind {c : Prop} [Decidable c] {f : Unit → StateT σ Option β} (hc : c)
    (hf : Returns P (f ()) w R) : Returns P (check c >>= f) w R := by
  rw [check, if_pos hc]
  exact hf

/-- A loop that collects what its passes return, each in a state of `P`. -/
lemma mapM {f : β → StateT σ Option α} {g : β → α} :
    ∀ l : List β, (∀ i ∈ l, Returns P (f i) (g i) P) → Returns P (l.mapM f) (l.map g) P
  | [], _ => Returns.pure []
  | i :: l, h => by
    rw [mapM_cons, map_cons]
    have htail := mapM l fun j hj => h j (mem_cons_of_mem i hj)
    exact (h i mem_cons_self).bind (htail.bind (Returns.pure _))

/-- A loop with an accumulator whose passes all keep `P`. -/
lemma foldlM {f : α → β → StateT σ Option α} {g : α → β → α}
    (h : ∀ x i, Returns P (f x i) (g x i) P) :
    ∀ (l : List β) (x : α), Returns P (l.foldlM f x) (l.foldl g x) P
  | [], x => Returns.pure x
  | i :: l, x => by
    exact (h x i).bind (foldlM h l (g x i))

/-- A counting loop: pass `k` finds the accumulator `g k` and a state of `I k`. -/
lemma foldlM_range {f : α → ℕ → StateT σ Option α} (g : ℕ → α) (I : ℕ → σ → Prop) :
    ∀ n : ℕ, (∀ k < n, Returns (I k) (f (g k) k) (g (k + 1)) (I (k + 1))) →
      Returns (I 0) ((range n).foldlM f (g 0)) (g n) (I n)
  | 0, _ => Returns.pure (g 0)
  | n + 1, h => by
    rw [range_succ, foldlM_append]
    refine (foldlM_range g I n fun k hk => h k (by omega)).bind ?_
    exact (h n (by omega)).bind (Returns.pure _)

end Returns

end ByteLib
