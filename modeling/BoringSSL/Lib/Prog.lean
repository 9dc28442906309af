import Mathlib.Data.Nat.Notation

/-!
# Programs on a state that can fail or abort

`Ends x s Q` says that `x`, started in `s`, neither aborts nor runs on for ever, and that what it
ends with and the state it leaves satisfy `Q`.  The rules below take it apart along a program.
-/

namespace ByteLib

/-- Programs on a state `σ` that may fail with an error of `ε`, which keeps the state, or abort. -/
abbrev Prog (ε σ : Type) := ExceptT ε (StateT σ Option)

namespace Prog

variable {ε σ α β : Type} {s : σ} {x : Prog ε σ α} {Q R : Except ε α → σ → Prop} {r : Except ε α}
  {s' : σ} {a : α} {P : Except ε β → σ → Prop}

/-- Ends the process. -/
def abort : Prog ε σ α := ExceptT.mk fun _ => none

def orAbort : Option α → Prog ε σ α
  | some a => pure a
  | none => abort

/-- Changes the state if the program fails. -/
def onError (x : Prog ε σ α) (f : σ → σ) : Prog ε σ α :=
  tryCatch x fun e => do
    modify f
    throw e

/-- The program ends, with a result and a state as `Q` says. -/
def Ends (x : Prog ε σ α) (s : σ) (Q : Except ε α → σ → Prop) : Prop :=
  ∃ r s', x.run.run s = some (r, s') ∧ Q r s'

/-- One condition for the end of a program that succeeds, and one for when it fails. -/
def post (ok : α → σ → Prop) (error : σ → Prop) : Except ε α → σ → Prop
  | .ok a, s => ok a s
  | .error _, s => error s

lemma Ends.mono (h : Ends x s R) (himp : ∀ r s', R r s' → Q r s') : Ends x s Q := by
  obtain ⟨r, s', hrun, hR⟩ := h
  exact ⟨r, s', hrun, himp r s' hR⟩

lemma Ends.of_run (h : Ends x s Q) (hrun : x.run.run s = some (r, s')) : Q r s' := by
  obtain ⟨r₁, s₁, hrun₁, hQ⟩ := h
  cases hrun₁.symm.trans hrun
  exact hQ

lemma ends_of_run_eq (hrun : x.run.run s = some (r, s')) : Ends x s Q ↔ Q r s' :=
  ⟨fun h => h.of_run hrun, fun h => ⟨r, s', hrun, h⟩⟩

@[simp] lemma ends_pure : Ends (pure a : Prog ε σ α) s Q ↔ Q (.ok a) s :=
  ends_of_run_eq rfl

@[simp] lemma ends_throw {e : ε} : Ends (throw e : Prog ε σ α) s Q ↔ Q (.error e) s :=
  ends_of_run_eq rfl

@[simp] lemma ends_set {Q : Except ε PUnit → σ → Prop} :
    Ends (set s' : Prog ε σ PUnit) s Q ↔ Q (.ok ⟨⟩) s' :=
  ends_of_run_eq rfl

@[simp] lemma ends_modify {f : σ → σ} {Q : Except ε PUnit → σ → Prop} :
    Ends (modify f : Prog ε σ PUnit) s Q ↔ Q (.ok ⟨⟩) (f s) :=
  ends_of_run_eq rfl

lemma Ends.bind {f : α → Prog ε σ β} (h : Ends x s R) (hok : ∀ a s', R (.ok a) s' → Ends (f a) s' P)
    (herror : ∀ e s', R (.error e) s' → P (.error e) s') : Ends (x >>= f) s P := by
  obtain ⟨r, s', hrun, hR⟩ := h
  rcases r with e | a
  · have hbind : (x >>= f).run.run s = some (.error e, s') := by
      change (x.run.run s).bind _ = _
      rw [hrun]
      rfl
    exact ⟨_, s', hbind, herror e s' hR⟩
  · have hbind : (x >>= f).run.run s = (f a).run.run s' := by
      change (x.run.run s).bind _ = _
      rw [hrun]
      rfl
    obtain ⟨r₁, s₁, hrun₁, hP⟩ := hok a s' hR
    exact ⟨r₁, s₁, hbind.trans hrun₁, hP⟩

@[simp] lemma ends_get_bind {f : σ → Prog ε σ β} :
    Ends (get >>= f) s P ↔ Ends (f s) s P := Iff.rfl

@[simp] lemma ends_set_bind {f : PUnit → Prog ε σ β} :
    Ends (set s' >>= f) s P ↔ Ends (f ⟨⟩) s' P := Iff.rfl

@[simp] lemma ends_modify_bind {g : σ → σ} {f : PUnit → Prog ε σ β} :
    Ends (modify g >>= f) s P ↔ Ends (f ⟨⟩) (g s) P := Iff.rfl

lemma ends_orAbort_bind {o : Option α} {f : α → Prog ε σ β} (h : o = some a) :
    Ends (orAbort o >>= f) s P ↔ Ends (f a) s P := by
  rw [h]
  rfl

lemma Ends.onError {f : σ → σ} (h : Ends x s R) (hok : ∀ a s', R (.ok a) s' → Q (.ok a) s')
    (herror : ∀ e s', R (.error e) s' → Q (.error e) (f s')) : Ends (onError x f) s Q := by
  obtain ⟨r, s', hrun, hR⟩ := h
  rcases r with e | a
  · refine ⟨.error e, f s', ?_, herror e s' hR⟩
    change (x.run.run s).bind _ = _
    rw [hrun]
    rfl
  · refine ⟨.ok a, s', ?_, hok a s' hR⟩
    change (x.run.run s).bind _ = _
    rw [hrun]
    rfl

/-- The state a program leaves. -/
def after (x : Prog ε σ α) (s : σ) : σ := ((x.run.run s).map Prod.snd).getD s

lemma run_eq_after (h : (x.run.run s).map Prod.fst = some r) :
    x.run.run s = some (r, after x s) := by
  obtain ⟨⟨r', s'⟩, hrun, rfl⟩ := Option.map_eq_some_iff.mp h
  rw [after, hrun]
  rfl

end Prog

end ByteLib
