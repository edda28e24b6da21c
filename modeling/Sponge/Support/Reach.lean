import Mathlib.Logic.Relation
import Sponge.Support.Run

/-!
# States that a machine reaches

A run names its operations.  Where only the states matter, the runs of a
machine are the reflexive and transitive closure of its steps, and a step of a
larger machine can be shown to be any number of steps of a smaller one.
-/

namespace Sponge

variable {σ τ ι κ : Type*}

/-- Some admitted operation leads from the first state to the second. -/
def Takes (step : σ → ι → σ) (ok : σ → ι → Prop) (s s' : σ) : Prop :=
  ∃ op, ok s op ∧ step s op = s'

/-- Admitted operations lead from the first state to the second. -/
def Reaches (step : σ → ι → σ) (ok : σ → ι → Prop) : σ → σ → Prop :=
  Relation.ReflTransGen (Takes step ok)

section Reaches

variable {step : σ → ι → σ} {ok : σ → ι → Prop} {s s' s'' : σ}

theorem Reaches.refl (s : σ) : Reaches step ok s s :=
  Relation.ReflTransGen.refl

theorem Reaches.trans
    (h : Reaches step ok s s') (h' : Reaches step ok s' s'') :
    Reaches step ok s s'' :=
  Relation.ReflTransGen.trans h h'

theorem Reaches.concat
    (h : Reaches step ok s s') {op : ι} (hop : ok s' op) :
    Reaches step ok s (step s' op) :=
  Relation.ReflTransGen.tail h ⟨op, hop, rfl⟩

theorem Reaches.mono
    {ok' : σ → ι → Prop} (hok : ∀ s op, ok s op → ok' s op)
    (h : Reaches step ok s s') : Reaches step ok' s s' := by
  refine Relation.ReflTransGen.mono ?_ _ _ h
  rintro t t' ⟨op, hop, heq⟩
  exact ⟨op, hok t op hop, heq⟩

/-- What every admitted step keeps holds of the states that are reached. -/
theorem Reaches.invariant
    {Inv : σ → Prop} (hstep : ∀ s op, Inv s → ok s op → Inv (step s op))
    (h : Reaches step ok s s') (hs : Inv s) : Inv s' := by
  induction h with
  | refl => exact hs
  | tail _ hlast ih =>
      obtain ⟨op, hop, rfl⟩ := hlast
      exact hstep _ op ih hop

/-- If every step of one machine is a step of another, what the first one
reaches the other one reaches. -/
theorem Reaches.lift
    {step' : τ → κ → τ} {ok' : τ → κ → Prop} (f : σ → τ)
    (hstep : ∀ s op, ok s op → Takes step' ok' (f s) (f (step s op)))
    (h : Reaches step ok s s') : Reaches step' ok' (f s) (f s') := by
  refine Relation.ReflTransGen.lift f ?_ _ _ h
  rintro t t' ⟨op, hop, rfl⟩
  exact hstep t op hop

/-- What is reached is the end of a run. -/
theorem Reaches.exists_run (h : Reaches step ok s s') :
    ∃ ops, Guarded step ok s ops ∧ run step s ops = s' := by
  induction h with
  | refl => exact ⟨[], trivial, rfl⟩
  | tail _ hlast ih =>
      obtain ⟨ops, hops, rfl⟩ := ih
      obtain ⟨op, hop, rfl⟩ := hlast
      exact ⟨ops ++ [op], guarded_concat.mpr ⟨hops, hop⟩,
        run_concat step s ops op⟩

end Reaches

end Sponge
