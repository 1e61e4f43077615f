import SeparationKernel.Check

/-! Requests carried out step by step. A step that fails ends the request, and what the steps before
it have done to the state stays done. -/
namespace SeparationKernel

abbrev Attempt (σ ε α : Type) := ExceptT ε (StateM σ) α

namespace Attempt

variable {σ ε α β : Type}

/-- The answer, and the state that is left behind. -/
def on (a : Attempt σ ε α) (s : σ) : Except ε α × σ := a.run s

/-- Goes on unless something speaks against it. -/
def check (v : σ → Verdict ε) : Attempt σ ε Unit := do
  MonadExcept.ofExcept (v (← get))

theorem on_bind (a : Attempt σ ε α) (f : α → Attempt σ ε β) (s : σ) :
    on (a >>= f) s =
      match on a s with
      | (.ok x, s') => on (f x) s'
      | (.error e, s') => (.error e, s') := by
  change (ExceptT.bindCont f (a.run s).1 : StateM σ (Except ε β)) (a.run s).2 = _
  rcases h : a.run s with ⟨_ | _, _⟩ <;> simp only [on, h] <;> rfl

@[simp] theorem on_pure (x : α) (s : σ) : on (pure x : Attempt σ ε α) s = (.ok x, s) := rfl

@[simp] theorem on_get (s : σ) : on (get : Attempt σ ε σ) s = (.ok s, s) := rfl

@[simp] theorem on_modify (f : σ → σ) (s : σ) :
    on (modify f : Attempt σ ε Unit) s = (.ok (), f s) := rfl

theorem on_get_bind (f : σ → Attempt σ ε β) (s : σ) : on (get >>= f) s = on (f s) s := rfl

@[simp] theorem on_check (v : σ → Verdict ε) (s : σ) : on (check v) s = (v s, s) := by
  rw [check, on_get_bind]
  cases v s <;> rfl

/-- A request that checks first, and then changes the state by steps that cannot fail. -/
theorem on_check_modify (v : σ → Verdict ε) (f : σ → σ) (s : σ) :
    on (check v >>= fun _ => modify f) s = Verdict.commit (v s) s (f s) := by
  rw [on_bind, on_check]
  cases v s <;> rfl

end Attempt
end SeparationKernel
