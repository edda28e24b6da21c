import Mathlib.Data.List.Basic
import Mathlib.Data.List.Infix

/-!
# Runs of a deterministic machine

A component of this development is a state together with a step function that
takes one operation.  A run is a finite list of operations, applied from left
to right.  Properties of runs are proved in two parts: an invariant that one
step preserves, and the induction below, which is the same for every machine.

Some results hold only for the runs whose steps all meet a condition.  The
condition may depend on the state in which the step is taken, so it is
threaded through the run by `Guarded`.
-/

namespace Sponge

variable {σ ι : Type*}

/-- The state reached from `s` by the operations `ops`, in order. -/
def run (step : σ → ι → σ) (s : σ) (ops : List ι) : σ :=
  ops.foldl step s

@[simp] theorem run_nil (step : σ → ι → σ) (s : σ) :
    run step s [] = s := rfl

@[simp] theorem run_cons (step : σ → ι → σ) (s : σ) (op : ι) (ops : List ι) :
    run step s (op :: ops) = run step (step s op) ops := rfl

theorem run_append (step : σ → ι → σ) (s : σ) (ops more : List ι) :
    run step s (ops ++ more) = run step (run step s ops) more :=
  List.foldl_append

theorem run_concat (step : σ → ι → σ) (s : σ) (ops : List ι) (op : ι) :
    run step s (ops ++ [op]) = step (run step s ops) op := by
  rw [run_append, run_cons, run_nil]

/-- Every operation of the list meets `ok` in the state in which it is
taken. -/
def Guarded (step : σ → ι → σ) (ok : σ → ι → Prop) : σ → List ι → Prop
  | _, [] => True
  | s, op :: ops => ok s op ∧ Guarded step ok (step s op) ops

instance guardedDecidable (step : σ → ι → σ) (ok : σ → ι → Prop)
    [∀ s op, Decidable (ok s op)] :
    ∀ s ops, Decidable (Guarded step ok s ops)
  | _, [] => isTrue trivial
  | s, op :: ops =>
      @instDecidableAnd _ _ _ (guardedDecidable step ok (step s op) ops)

theorem guarded_append
    {step : σ → ι → σ} {ok : σ → ι → Prop} {s : σ} {ops more : List ι} :
    Guarded step ok s (ops ++ more) ↔
      Guarded step ok s ops ∧ Guarded step ok (run step s ops) more := by
  induction ops generalizing s with
  | nil => simp [Guarded]
  | cons op ops ih =>
      simp only [List.cons_append, Guarded, run_cons]
      rw [ih, and_assoc]

theorem guarded_concat
    {step : σ → ι → σ} {ok : σ → ι → Prop} {s : σ} {ops : List ι} {op : ι} :
    Guarded step ok s (ops ++ [op]) ↔
      Guarded step ok s ops ∧ ok (run step s ops) op := by
  rw [guarded_append]
  simp [Guarded]

/-- A run is guarded if every operation meets the condition in the state that
the operations before it lead to. -/
theorem guarded_iff_forall
    {step : σ → ι → σ} {ok : σ → ι → Prop} {s : σ} {ops : List ι} :
    Guarded step ok s ops ↔
      ∀ pre op, pre ++ [op] <+: ops → ok (run step s pre) op := by
  constructor
  · rintro h pre op ⟨rest, rfl⟩
    exact (guarded_concat.mp (guarded_append.mp h).1).2
  · intro h
    induction ops generalizing s with
    | nil => trivial
    | cons op ops ih =>
        refine ⟨h [] op ⟨ops, rfl⟩, ih fun pre op' hpre => ?_⟩
        exact h (op :: pre) op' (List.cons_prefix_cons.mpr ⟨rfl, hpre⟩)

theorem guarded_of_forall
    {step : σ → ι → σ} {ok : σ → ι → Prop} (h : ∀ s op, ok s op)
    (s : σ) (ops : List ι) : Guarded step ok s ops := by
  induction ops generalizing s with
  | nil => trivial
  | cons op ops ih => exact ⟨h s op, ih _⟩

/-- A condition on the operations alone. -/
theorem guarded_iff_forall_mem
    {step : σ → ι → σ} {ok : ι → Prop} {ops : List ι} {s : σ} :
    Guarded step (fun _ op => ok op) s ops ↔ ∀ op ∈ ops, ok op := by
  induction ops generalizing s with
  | nil => simp [Guarded]
  | cons op ops ih => simp only [Guarded, ih, List.forall_mem_cons]

/-- If an admitted step changes nothing about what is admitted, the start of
the run decides. -/
theorem guarded_iff_of_stable
    {step : σ → ι → σ} {ok : σ → ι → Prop}
    (hstable : ∀ s op op', ok s op → (ok (step s op) op' ↔ ok s op'))
    {s : σ} {ops : List ι} :
    Guarded step ok s ops ↔ ∀ op ∈ ops, ok s op := by
  induction ops generalizing s with
  | nil => simp [Guarded]
  | cons op ops ih =>
      rw [Guarded, ih, List.forall_mem_cons]
      apply and_congr_right
      intro hop
      exact forall₂_congr fun op' _ => hstable s op op' hop

theorem guarded_of_forall_mem
    {step : σ → ι → σ} {ok : ι → Prop} {ops : List ι}
    (h : ∀ op ∈ ops, ok op) (s : σ) :
    Guarded step (fun _ op => ok op) s ops :=
  guarded_iff_forall_mem.mpr h

/-- What holds at the start and is kept by every admitted step holds at the
end of every admitted run. -/
theorem run_invariant
    {step : σ → ι → σ} {ok : σ → ι → Prop} {Inv : σ → Prop}
    (hstep : ∀ s op, Inv s → ok s op → Inv (step s op))
    {s : σ} {ops : List ι} (hs : Inv s) (hops : Guarded step ok s ops) :
    Inv (run step s ops) := by
  induction ops generalizing s with
  | nil => exact hs
  | cons op ops ih => exact ih (hstep s op hs hops.1) hops.2

/-- The same for a machine all of whose steps are admitted. -/
theorem run_preserves
    {step : σ → ι → σ} {P : σ → Prop}
    (hstep : ∀ s op, P s → P (step s op))
    {s : σ} (hs : P s) (ops : List ι) : P (run step s ops) := by
  induction ops generalizing s with
  | nil => exact hs
  | cons op ops ih => exact ih (hstep s op hs)

/-- A relation that is reflexive, transitive and contains every admitted step
from a state with the invariant relates the ends of every admitted run. -/
theorem run_related
    {step : σ → ι → σ} {ok : σ → ι → Prop} {Inv : σ → Prop}
    (R : σ → σ → Prop)
    (hrefl : ∀ s, R s s) (htrans : ∀ s t u, R s t → R t u → R s u)
    (hstep : ∀ s op, Inv s → ok s op → Inv (step s op) ∧ R s (step s op))
    {s : σ} {ops : List ι} (hs : Inv s) (hops : Guarded step ok s ops) :
    R s (run step s ops) := by
  induction ops generalizing s with
  | nil => exact hrefl s
  | cons op ops ih =>
      obtain ⟨hinv, hrel⟩ := hstep s op hs hops.1
      exact htrans _ _ _ hrel (ih hinv hops.2)

/-- If safe steps keep the invariant and lead to states with `P`, and other
steps lead to states without `P`, then `P` holds throughout an admitted run
exactly when all its steps are safe. -/
theorem forall_prefix_iff_guarded_of_breaks
    {step : σ → ι → σ} {ok safe : σ → ι → Prop} {Inv P : σ → Prop}
    (hkeeps : ∀ s op, Inv s → ok s op → safe s op →
      Inv (step s op) ∧ P (step s op))
    (hbreaks : ∀ s op, Inv s → ok s op → ¬ safe s op → ¬ P (step s op))
    {s : σ} {ops : List ι} (hs : Inv s) (hP : P s)
    (hops : Guarded step ok s ops) :
    (∀ pre, pre <+: ops → P (run step s pre)) ↔
      Guarded step safe s ops := by
  induction ops generalizing s with
  | nil =>
      refine ⟨fun _ => trivial, fun _ pre hpre => ?_⟩
      rw [List.prefix_nil.mp hpre]
      exact hP
  | cons op ops ih =>
      constructor
      · intro hall
        have hafter : P (step s op) := hall [op] ⟨ops, rfl⟩
        have hsafe : safe s op := by
          by_contra hbad
          exact hbreaks s op hs hops.1 hbad hafter
        have hinv := (hkeeps s op hs hops.1 hsafe).1
        refine ⟨hsafe, (ih hinv hafter hops.2).mp fun pre hpre => ?_⟩
        exact hall (op :: pre) (List.cons_prefix_cons.mpr ⟨rfl, hpre⟩)
      · rintro ⟨hsafe, hrest⟩ pre hpre
        obtain ⟨hinv, hafter⟩ := hkeeps s op hs hops.1 hsafe
        rcases pre with _ | ⟨op', pre⟩
        · exact hP
        · obtain ⟨rfl, hpre'⟩ := List.cons_prefix_cons.mp hpre
          exact (ih hinv hafter hops.2).mpr hrest pre hpre'

/-- If, from a state with the invariant and with `P`, a step leads to a state
with `P` exactly when it is safe, then `P` holds throughout an admitted run
exactly when all its steps are safe. -/
theorem forall_prefix_iff_guarded
    {step : σ → ι → σ} {ok safe : σ → ι → Prop} {Inv P : σ → Prop}
    (hinv : ∀ s op, Inv s → ok s op → Inv (step s op))
    (hsafe : ∀ s op, Inv s → ok s op → P s →
      (P (step s op) ↔ safe s op))
    {s : σ} {ops : List ι} (hs : Inv s) (hP : P s)
    (hops : Guarded step ok s ops) :
    (∀ pre, pre <+: ops → P (run step s pre)) ↔
      Guarded step safe s ops := by
  refine forall_prefix_iff_guarded_of_breaks
    (fun r op (hr : Inv r ∧ P r) hop hsafeOp => ?_)
    (fun r op hr hop hbad hafter => ?_) ⟨hs, hP⟩ hP hops
  · have hafter := (hsafe r op hr.1 hop hr.2).mpr hsafeOp
    exact ⟨⟨hinv r op hr.1 hop, hafter⟩, hafter⟩
  · exact hbad ((hsafe r op hr.1 hop hr.2).mp hafter)

end Sponge
