import Mathlib.Data.List.Basic

/-!
# Paths of a labelled relation

A relation `R s a t` tells how a label `a` leads from `s` to `t`.  A path reads
a list of labels one after the other.  Queues are described by paths: what is
read at the front starts where the path starts, and what is appended at the
back continues where it stops.
-/

namespace Sponge

variable {S α : Type*}

/-- The labels lead from the first state to the second, in order. -/
def Path (R : S → α → S → Prop) : S → List α → S → Prop
  | s, [], t => s = t
  | s, a :: labels, t => ∃ m, R s a m ∧ Path R m labels t

section Path

variable {R : S → α → S → Prop} {s t : S} {labels more : List α}

theorem path_append :
    Path R s (labels ++ more) t ↔ ∃ m, Path R s labels m ∧ Path R m more t := by
  induction labels generalizing s with
  | nil => exact ⟨fun h => ⟨s, rfl, h⟩, fun ⟨m, hm, h⟩ => hm ▸ h⟩
  | cons a labels ih =>
      constructor
      · rintro ⟨r, hr, hrest⟩
        obtain ⟨m, hm, hmore⟩ := ih.mp hrest
        exact ⟨m, ⟨r, hr, hm⟩, hmore⟩
      · rintro ⟨m, ⟨r, hr, hm⟩, hmore⟩
        exact ⟨r, hr, ih.mpr ⟨m, hm, hmore⟩⟩

theorem path_singleton {a : α} : Path R s [a] t ↔ R s a t :=
  ⟨fun ⟨_, hm, heq⟩ => heq ▸ hm, fun h => ⟨t, h, rfl⟩⟩

/-- Labels that lead nowhere. -/
theorem path_of_forall (h : ∀ a ∈ labels, R s a s) : Path R s labels s := by
  induction labels with
  | nil => rfl
  | cons a labels ih =>
      obtain ⟨ha, hrest⟩ := List.forall_mem_cons.mp h
      exact ⟨s, ha, ih hrest⟩

/-- Labels can be exchanged for others if the relation reads no more of them
than `f` shows. -/
theorem Path.congr
    {β : Type*} {f : α → β} (hf : ∀ s t a b, f a = f b → R s a t → R s b t)
    (h : Path R s labels t) (hlabels : labels.map f = more.map f) :
    Path R s more t := by
  induction labels generalizing s more with
  | nil =>
      obtain rfl := List.map_eq_nil_iff.mp hlabels.symm
      exact h
  | cons a labels ih =>
      obtain ⟨b, more, rfl, hb, hmore⟩ := List.map_eq_cons_iff.mp hlabels.symm
      obtain ⟨m, hm, hrest⟩ := h
      exact ⟨m, hf s m a b hb.symm hm, ih hrest hmore.symm⟩

/-- What every label preserves, a path preserves. -/
theorem Path.preserves
    {P : S → Prop} (h : Path R s labels t)
    (hstep : ∀ s a t, a ∈ labels → R s a t → P s → P t) (hs : P s) : P t := by
  induction labels generalizing s with
  | nil =>
      obtain rfl : s = t := h
      exact hs
  | cons a labels ih =>
      obtain ⟨m, hm, hrest⟩ := h
      exact ih hrest
        (fun s b t hb => hstep s b t (List.mem_cons_of_mem a hb))
        (hstep s a m List.mem_cons_self hm hs)

end Path

end Sponge
