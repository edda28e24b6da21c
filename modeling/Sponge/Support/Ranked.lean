import Mathlib.Data.List.Forall2
import Mathlib.Data.List.Sort

/-!
# Tables that are sorted by a rank

Entries of equal rank may stand in any order.  A table is searched from its
end, so the entry that is found has the greatest rank among those that match.
If no two matching entries have the same rank, the order in which the entries
were inserted makes no difference.
-/

namespace Sponge

variable {α β : Type*}

/-- The last entry that matches. -/
def lastMatch (p : α → Prop) [DecidablePred p] (l : List α) : Option α :=
  l.reverse.find? fun a => p a

/-- The table with one more entry, somewhere. -/
def InsertedIn (a : α) (l l' : List α) : Prop :=
  ∃ before after, l = before ++ after ∧ l' = before ++ a :: after

theorem InsertedIn.perm {a : α} {l l' : List α} (h : InsertedIn a l l') :
    l'.Perm (a :: l) := by
  obtain ⟨before, after, rfl, rfl⟩ := h
  exact List.perm_middle

theorem insertedIn_orderedInsert (r : α → α → Prop) [DecidableRel r]
    (a : α) (l : List α) : InsertedIn a l (l.orderedInsert r a) :=
  ⟨_, _, List.takeWhile_append_dropWhile.symm,
    List.orderedInsert_eq_take_drop r a l⟩

section LastMatch

variable {p : α → Prop} [DecidablePred p] {l l' : List α} {a : α}

theorem lastMatch_eq_none_iff : lastMatch p l = none ↔ ∀ b ∈ l, ¬ p b := by
  simp [lastMatch]

variable [Preorder β] {rank : α → β}

theorem rank_le_of_lastMatch
    (hsorted : l.Pairwise fun b c => rank b ≤ rank c)
    (h : lastMatch p l = some a) :
    a ∈ l ∧ p a ∧ ∀ b ∈ l, p b → rank b ≤ rank a := by
  rw [lastMatch, List.find?_eq_some_iff_append] at h
  obtain ⟨hp, after, before, hl, hafter⟩ := h
  have hsplit : l = before.reverse ++ a :: after.reverse := by
    rw [← List.reverse_reverse l, hl]
    simp
  rw [hsplit] at hsorted ⊢
  refine ⟨by simp, by simpa using hp, ?_⟩
  intro b hb hpb
  rw [List.mem_append, List.mem_cons] at hb
  rcases hb with hbefore | rfl | hlater
  · exact (List.pairwise_append.mp hsorted).2.2 b hbefore a List.mem_cons_self
  · exact le_rfl
  · have hnot := hafter b (List.mem_reverse.mp hlater)
    simp [hpb] at hnot

end LastMatch

section Unique

variable [PartialOrder β] {rank : α → β} {p : α → Prop} [DecidablePred p]
  {l l' : List α}

/-- The last match is the match of the greatest rank. -/
theorem lastMatch_eq_some_iff
    (hsorted : l.Pairwise fun b c => rank b ≤ rank c)
    (hunique : ∀ b ∈ l, ∀ c ∈ l, p b → p c → rank b = rank c → b = c)
    {a : α} :
    lastMatch p l = some a ↔
      a ∈ l ∧ p a ∧ ∀ b ∈ l, p b → rank b ≤ rank a := by
  refine ⟨rank_le_of_lastMatch hsorted, ?_⟩
  rintro ⟨ha, hp, hgreatest⟩
  cases hlast : lastMatch p l with
  | none => exact absurd hp (lastMatch_eq_none_iff.mp hlast a ha)
  | some b =>
      obtain ⟨hb, hpb, hgreatest'⟩ := rank_le_of_lastMatch hsorted hlast
      have hrank := le_antisymm (hgreatest b hb hpb) (hgreatest' a ha hp)
      rw [hunique b hb a ha hpb hp hrank]

/-- The order of the entries makes no difference. -/
theorem lastMatch_eq_of_perm
    (hsorted : l.Pairwise fun b c => rank b ≤ rank c)
    (hsorted' : l'.Pairwise fun b c => rank b ≤ rank c)
    (hperm : l.Perm l')
    (hunique : ∀ b ∈ l, ∀ c ∈ l, p b → p c → rank b = rank c → b = c) :
    lastMatch p l = lastMatch p l' := by
  have hunique' : ∀ b ∈ l', ∀ c ∈ l', p b → p c → rank b = rank c → b = c := by
    intro b hb c hc
    exact hunique b (hperm.mem_iff.mpr hb) c (hperm.mem_iff.mpr hc)
  apply Option.ext
  intro a
  rw [lastMatch_eq_some_iff hsorted hunique,
    lastMatch_eq_some_iff hsorted' hunique']
  simp only [hperm.mem_iff]

end Unique

/-! ## Two tables with entries that are alike -/

section Alike

variable {R : α → α → Prop} {l l' : List α}

theorem forall₂_orderedInsert
    {r : α → α → Prop} [DecidableRel r] {a a' : α}
    (hr : ∀ b b' c c', R b b' → R c c' → (r b c ↔ r b' c'))
    (ha : R a a') (h : List.Forall₂ R l l') :
    List.Forall₂ R (l.orderedInsert r a) (l'.orderedInsert r a') := by
  induction h with
  | nil => exact List.Forall₂.cons ha List.Forall₂.nil
  | @cons b b' l l' hb hl ih =>
      rw [List.orderedInsert_cons, List.orderedInsert_cons]
      by_cases hab : r a b
      · rw [if_pos hab, if_pos ((hr a a' b b' ha hb).mp hab)]
        exact List.Forall₂.cons ha (List.Forall₂.cons hb hl)
      · rw [if_neg hab, if_neg (mt (hr a a' b b' ha hb).mpr hab)]
        exact List.Forall₂.cons hb ih

/-- Tables whose entries are alike find entries that are alike. -/
theorem lastMatch_map_eq_of_forall₂
    {p : α → Prop} [DecidablePred p] {f : α → β}
    (hp : ∀ b b', R b b' → (p b ↔ p b')) (hf : ∀ b b', R b b' → f b = f b')
    (h : List.Forall₂ R l l') :
    (lastMatch p l).map f = (lastMatch p l').map f := by
  have hreverse := List.rel_reverse h
  rw [lastMatch, lastMatch]
  generalize l.reverse = m, l'.reverse = m' at hreverse
  induction hreverse with
  | nil => rfl
  | @cons b b' m m' hb hm ih =>
      rw [List.find?_cons, List.find?_cons]
      by_cases hpb : p b
      · have hpb' := (hp b b' hb).mp hpb
        simp [hpb, hpb', hf b b' hb]
      · have hpb' := mt (hp b b' hb).mpr hpb
        simpa [hpb, hpb'] using ih

end Alike

end Sponge
