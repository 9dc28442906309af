import Mathlib.Data.List.Basic

/-!
# Functions that can return failure, and assertions in them

A computation ends with a result, with the failure its function reports to the caller, or in an
assertion that does not hold.
-/

namespace ByteLib

lemma bind_eq_ok {ε α β : Type} {x : Except ε α} {f : α → Except ε β} {b : β} :
    (x >>= f) = .ok b ↔ ∃ a, x = .ok a ∧ f a = .ok b := by
  cases x with
  | error e => simp [bind, Except.bind]
  | ok a => simp [bind, Except.bind]

/-- How a function stops early. -/
inductive Stop where
  /-- An assertion does not hold. -/
  | abort
  /-- The function returns failure. -/
  | fail
  deriving DecidableEq, Repr

/-- A result or a stop. -/
abbrev Checked := Except Stop

namespace Checked

variable {α β γ : Type}

/-- Stops unless the condition holds. -/
def assert (c : Prop) [Decidable c] : Checked Unit := if c then .ok () else .error .abort

/-- Returns failure. -/
def reject : Checked α := .error .fail

@[simp] lemma ok_bind (a : α) (f : α → Checked β) : (Except.ok a >>= f) = f a := rfl

@[simp] lemma pure_eq_ok (a : α) : (pure a : Checked α) = .ok a := rfl

lemma assert_bind {c : Prop} [Decidable c] (h : c) (f : Unit → Checked β) :
    (assert c >>= f) = f () := by
  rw [assert, if_pos h]
  rfl

lemma mapM_eq_ok {f : α → Checked β} {g : α → β} :
    ∀ {l : List α}, (∀ a ∈ l, f a = .ok (g a)) → l.mapM f = .ok (l.map g)
  | [], _ => rfl
  | a :: l, h => by
    rw [List.mapM_cons, h a List.mem_cons_self, ok_bind,
      mapM_eq_ok fun b hb => h b (List.mem_cons_of_mem a hb), ok_bind]
    rfl

end Checked

end ByteLib
