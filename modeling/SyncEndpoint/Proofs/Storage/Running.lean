import SyncEndpoint.Proofs.Storage.Unreliable

set_option autoImplicit false

/-! # Runs on a backend

A backend has one answer to each call, so that what a program ends with on it, and which calls it
makes on the way, can be computed along the program: one equation for each way to build a program or
an attempt. -/

namespace SyncEndpoint.Storage

variable {σ R W α β ε δ : Type}

namespace Program

variable (backend : Backend σ R W)

@[simp]
theorem run_pure (a : α) (w : World σ) : (pure a : Program R W α).run backend w = (a, w) := rfl

theorem run_bind (p : Program R W α) (f : α → Program R W β) (w : World σ) :
    (p >>= f).run backend w = (f (p.run backend w).1).run backend (p.run backend w).2 := by
  induction p generalizing w with
  | done a => rfl
  | call c next ih => exact ih _ _
  | mint next ih => exact ih _ _

/-- The calls that a run makes, in order. -/
def calls : Program R W α → World σ → List (Call R W)
  | .done _, _ => []
  | .call c next, w =>
    let (reply, storage) := backend c w.storage
    c :: (next reply).calls { w with storage }
  | .mint next, w => (next (Uuid.ofNat w.minted)).calls { w with minted := w.minted + 1 }

theorem calls_bind (p : Program R W α) (f : α → Program R W β) (w : World σ) :
    (p >>= f).calls backend w =
      p.calls backend w ++ (f (p.run backend w).1).calls backend (p.run backend w).2 := by
  induction p generalizing w with
  | done a => rfl
  | call c next ih => exact congrArg (c :: ·) (ih _ _)
  | mint next ih => exact ih _ _

end Program

/-! ## Attempts -/

namespace Attempt

variable (backend : Backend σ R W)

@[simp]
theorem run_pure (a : α) (w : World σ) :
    (pure a : Attempt R W ε α).run.run backend w = (.ok a, w) := rfl

@[simp]
theorem run_throw (e : ε) (w : World σ) :
    (throw e : Attempt R W ε α).run.run backend w = (.error e, w) := rfl

theorem run_bind (x : Attempt R W ε α) (f : α → Attempt R W ε β) (w : World σ) :
    (x >>= f).run.run backend w =
      match x.run.run backend w with
      | (.ok a, w') => (f a).run.run backend w'
      | (.error e, w') => (.error e, w') := by
  refine (Program.run_bind backend x.run _ w).trans ?_
  obtain ⟨result, w'⟩ := x.run.run backend w
  cases result <;> rfl

theorem run_lift (p : Program R W α) (w : World σ) :
    (ExceptT.lift p : Attempt R W ε α).run.run backend w =
      (.ok (p.run backend w).1, (p.run backend w).2) :=
  Program.run_bind backend p _ w

theorem run_withError (f : ε → δ) (x : Attempt R W ε α) (w : World σ) :
    (withError f x).run.run backend w =
      ((x.run.run backend w).1.mapError f, (x.run.run backend w).2) := by
  refine (Program.run_bind backend x.run _ w).trans ?_
  obtain ⟨result, w'⟩ := x.run.run backend w
  cases result <;> rfl

theorem run_map (f : α → β) (x : Attempt R W ε α) (w : World σ) :
    (f <$> x).run.run backend w = ((x.run.run backend w).1.map f, (x.run.run backend w).2) := by
  refine (Program.run_bind backend x.run _ w).trans ?_
  obtain ⟨result, w'⟩ := x.run.run backend w
  cases result <;> rfl

/-- The calls of an attempt, and, if there is a result, those of what is done with it. -/
theorem calls_bind (x : Attempt R W ε α) (f : α → Attempt R W ε β) (w : World σ) :
    (x >>= f).run.calls backend w = x.run.calls backend w ++
      match x.run.run backend w with
      | (.ok a, w') => (f a).run.calls backend w'
      | (.error _, _) => [] := by
  refine (Program.calls_bind backend x.run _ w).trans ?_
  obtain ⟨result, w'⟩ := x.run.run backend w
  cases result <;> rfl

/-- What holds of all calls of an attempt, and of all that follow if there is a result. -/
theorem forall_mem_calls_bind {backend : Backend σ R W} {x : Attempt R W ε α}
    {f : α → Attempt R W ε β} {w : World σ} {kind : Call R W → Prop}
    (hx : ∀ c ∈ x.run.calls backend w, kind c)
    (hf : ∀ a w', ∀ c ∈ (f a).run.calls backend w', kind c) :
    ∀ c ∈ (x >>= f).run.calls backend w, kind c := by
  rw [calls_bind, List.forall_mem_append]
  refine ⟨hx, ?_⟩
  obtain ⟨result, w'⟩ := x.run.run backend w
  cases result with
  | ok a => exact hf a w'
  | error e => exact fun c hc => nomatch hc

theorem calls_lift (p : Program R W α) (w : World σ) :
    (ExceptT.lift p : Attempt R W ε α).run.calls backend w = p.calls backend w :=
  (Program.calls_bind backend p _ w).trans (List.append_nil _)

/-- The calls of the result of a program, error or not, and of what is done with it. -/
theorem calls_lift_bind (p : Program R W α) (f : α → Attempt R W ε β) (w : World σ) :
    (ExceptT.lift p >>= f).run.calls backend w =
      p.calls backend w ++ (f (p.run backend w).1).run.calls backend (p.run backend w).2 := by
  rw [calls_bind, calls_lift, run_lift]

end Attempt

end SyncEndpoint.Storage
