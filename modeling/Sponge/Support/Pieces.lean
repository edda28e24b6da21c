import Mathlib.Algebra.GroupWithZero.Nat
import Mathlib.Data.Finset.Card
import Mathlib.Order.Interval.Finset.Nat
import Sponge.Support.Slice

/-!
# Separated pieces of a sequence

A piece is a start index with the elements stored from there on.  A list of
pieces is separated when every piece ends strictly before the next one starts,
so that neither overlapping nor adjacent pieces are kept apart.

The central construction replaces all pieces that touch an interval `[i, j]`
by one piece, their hull.  The lemmas say that the touching pieces stand
together in the list, that the result is separated again, and that it covers
exactly the indices covered before and those of `[i, j)`.
-/

namespace Sponge

variable {α : Type*}

/-- A start index and the elements stored from there on. -/
abbrev Piece (α : Type*) := ℕ × List α

/-- The index after the last element of a piece. -/
def Piece.stop (p : Piece α) : ℕ := p.1 + p.2.length

theorem Piece.start_le_stop (p : Piece α) : p.1 ≤ p.stop :=
  Nat.le_add_right _ _

/-- Every piece ends strictly before the later ones start. -/
def Separated (ps : List (Piece α)) : Prop :=
  ps.Pairwise fun p q => p.stop < q.1

theorem Separated.sorted {ps : List (Piece α)} (h : Separated ps) :
    ps.Pairwise fun p q => p.1 < q.1 :=
  h.imp fun {p _} hpq => lt_of_le_of_lt p.start_le_stop hpq

/-- The indices that lie in one of the pieces. -/
def covered (ps : List (Piece α)) : Finset ℕ :=
  ps.foldr (fun p K => Finset.Ico p.1 p.stop ∪ K) ∅

theorem mem_covered {ps : List (Piece α)} {x : ℕ} :
    x ∈ covered ps ↔ ∃ p ∈ ps, p.1 ≤ x ∧ x < p.stop := by
  induction ps with
  | nil => simp [covered]
  | cons p ps ih =>
      have hcons : covered (p :: ps) =
          Finset.Ico p.1 p.stop ∪ covered ps := rfl
      rw [hcons, Finset.mem_union, Finset.mem_Ico, ih]
      simp

/-- The total number of stored elements. -/
def totalLength (ps : List (Piece α)) : ℕ :=
  (ps.map fun p => p.2.length).sum

@[simp] theorem totalLength_nil : totalLength ([] : List (Piece α)) = 0 := rfl

@[simp] theorem totalLength_cons (p : Piece α) (ps : List (Piece α)) :
    totalLength (p :: ps) = p.2.length + totalLength ps := by
  simp [totalLength]

@[simp] theorem totalLength_append (ps qs : List (Piece α)) :
    totalLength (ps ++ qs) = totalLength ps + totalLength qs := by
  simp [totalLength]

/-- Separated pieces hold as many elements as they cover indices. -/
theorem card_covered {ps : List (Piece α)} (h : Separated ps) :
    (covered ps).card = totalLength ps := by
  induction ps with
  | nil => rfl
  | cons p ps ih =>
      obtain ⟨hp, hps⟩ := List.pairwise_cons.mp h
      have hdisjoint : Disjoint (Finset.Ico p.1 p.stop) (covered ps) := by
        rw [Finset.disjoint_left]
        intro x hx hcov
        obtain ⟨q, hq, hqx, -⟩ := mem_covered.mp hcov
        have hpq := hp q hq
        have hxp := (Finset.mem_Ico.mp hx).2
        omega
      have hcons : covered (p :: ps) =
          Finset.Ico p.1 p.stop ∪ covered ps := rfl
      rw [hcons, Finset.card_union_of_disjoint hdisjoint, ih hps,
        Nat.card_Ico, totalLength_cons]
      simp [Piece.stop]

/-- Separated pieces between two indices hold at most as many elements as
there are indices between them. -/
theorem totalLength_le
    {ps : List (Piece α)} (h : Separated ps) {lo hi : ℕ}
    (hlo : ∀ p ∈ ps, lo ≤ p.1) (hhi : ∀ p ∈ ps, p.stop ≤ hi) :
    totalLength ps ≤ hi - lo := by
  have hsub : covered ps ⊆ Finset.Ico lo hi := by
    intro x hx
    obtain ⟨p, hp, hlow, hhigh⟩ := mem_covered.mp hx
    exact Finset.mem_Ico.mpr
      ⟨(hlo p hp).trans hlow, lt_of_lt_of_le hhigh (hhi p hp)⟩
  rw [← card_covered h, ← Nat.card_Ico]
  exact Finset.card_le_card hsub

/-! ## The pieces that touch an interval -/

/-- Pieces that end before `i`. -/
def before (ps : List (Piece α)) (i : ℕ) : List (Piece α) :=
  ps.filter fun p => p.stop < i

/-- Pieces that overlap `[i, j)` or are adjacent to it. -/
def touching (ps : List (Piece α)) (i j : ℕ) : List (Piece α) :=
  ps.filter fun p => i ≤ p.stop ∧ p.1 ≤ j

/-- Pieces that start after `j`. -/
def after (ps : List (Piece α)) (j : ℕ) : List (Piece α) :=
  ps.filter fun p => j < p.1

theorem mem_before {ps : List (Piece α)} {i : ℕ} {p : Piece α} :
    p ∈ before ps i ↔ p ∈ ps ∧ p.stop < i := by
  simp [before]

theorem mem_touching {ps : List (Piece α)} {i j : ℕ} {p : Piece α} :
    p ∈ touching ps i j ↔ p ∈ ps ∧ i ≤ p.stop ∧ p.1 ≤ j := by
  simp [touching]

theorem mem_after {ps : List (Piece α)} {j : ℕ} {p : Piece α} :
    p ∈ after ps j ↔ p ∈ ps ∧ j < p.1 := by
  simp [after]

theorem touching_eq_nil_of_lt
    {ps : List (Piece α)} {i j : ℕ} (h : ∀ p ∈ ps, j < p.1) :
    touching ps i j = [] := by
  refine List.filter_eq_nil_iff.mpr ?_
  intro p hp
  have hjp := h p hp
  simp only [decide_eq_true_eq]
  omega

theorem before_eq_nil_of_le
    {ps : List (Piece α)} {i : ℕ} (h : ∀ p ∈ ps, i ≤ p.1) :
    before ps i = [] := by
  refine List.filter_eq_nil_iff.mpr ?_
  intro p hp
  have hip := h p hp
  have hstop := p.start_le_stop
  simp only [decide_eq_true_eq]
  omega

/-- In a separated list the three groups stand one after the other. -/
theorem before_touching_after
    {ps : List (Piece α)} (h : Separated ps) {i j : ℕ} (hij : i ≤ j) :
    before ps i ++ touching ps i j ++ after ps j = ps := by
  induction ps with
  | nil => rfl
  | cons p ps ih =>
      obtain ⟨hp, hps⟩ := List.pairwise_cons.mp h
      have ih := ih hps
      have hstop := p.start_le_stop
      rcases lt_or_ge p.stop i with hlow | hlow
      · have hnot : ¬ (i ≤ p.stop ∧ p.1 ≤ j) := by omega
        have hnlt : ¬ j < p.1 := by omega
        simpa [before, touching, after, hlow, hnot, hnlt] using ih
      · have hbefore : before ps i = [] :=
          before_eq_nil_of_le fun q hq => hlow.trans (hp q hq).le
        have hb : before (p :: ps) i = [] := by
          rw [before, List.filter_cons_of_neg (by simpa using hlow)]
          exact hbefore
        rcases le_or_gt p.1 j with htouch | hhigh
        · have ht : touching (p :: ps) i j = p :: touching ps i j :=
            List.filter_cons_of_pos (by simpa using ⟨hlow, htouch⟩)
          have ha : after (p :: ps) j = after ps j :=
            List.filter_cons_of_neg (by simpa using htouch)
          rw [hbefore, List.nil_append] at ih
          rw [hb, ht, ha, List.nil_append, List.cons_append, ih]
        · have hbeyond : ∀ q ∈ p :: ps, j < q.1 := by
            intro q hq
            rcases List.mem_cons.mp hq with rfl | hq
            · exact hhigh
            · exact hhigh.trans (lt_of_le_of_lt hstop (hp q hq))
          have ha : after (p :: ps) j = p :: ps :=
            List.filter_eq_self.mpr fun q hq => by simpa using hbeyond q hq
          rw [hb, touching_eq_nil_of_lt hbeyond, ha]
          rfl

/-! ## The hull of the touching pieces -/

/-- Where the hull of an interval from `i` and the pieces touching it
starts. -/
def hullStart (ts : List (Piece α)) (i : ℕ) : ℕ :=
  match ts.head? with
  | none => i
  | some p => min i p.1

/-- Where the hull of an interval up to `j` and the pieces touching it
ends. -/
def hullStop (ts : List (Piece α)) (j : ℕ) : ℕ :=
  match ts.getLast? with
  | none => j
  | some p => max j p.stop

theorem hullStart_le (ts : List (Piece α)) (i : ℕ) :
    hullStart ts i ≤ i := by
  unfold hullStart
  split
  · exact le_rfl
  · exact min_le_left _ _

theorem le_hullStop (ts : List (Piece α)) (j : ℕ) :
    j ≤ hullStop ts j := by
  unfold hullStop
  split
  · exact le_rfl
  · exact le_max_left _ _

theorem hullStart_le_start
    {ts : List (Piece α)} (hts : Separated ts) {i : ℕ} {p : Piece α}
    (hp : p ∈ ts) : hullStart ts i ≤ p.1 := by
  cases ts with
  | nil => exact absurd hp (by simp)
  | cons q ts =>
      have hq : hullStart (q :: ts) i = min i q.1 := rfl
      rw [hq]
      rcases List.mem_cons.mp hp with rfl | hp
      · exact min_le_right _ _
      · have hlt := (List.pairwise_cons.mp hts).1 p hp
        have hstop := q.start_le_stop
        omega

theorem stop_le_hullStop
    {ts : List (Piece α)} (hts : Separated ts) {j : ℕ} {p : Piece α}
    (hp : p ∈ ts) : p.stop ≤ hullStop ts j := by
  rcases List.eq_nil_or_concat ts with rfl | ⟨ts, q, rfl⟩
  · exact absurd hp (by simp)
  · have hq : hullStop (ts ++ [q]) j = max j q.stop := by
      simp [hullStop]
    rw [List.concat_eq_append, hq]
    rw [List.concat_eq_append] at hp hts
    rcases List.mem_append.mp hp with hp | hp
    · have hlt := (List.pairwise_append.mp hts).2.2 p hp q (by simp)
      have hstop := q.start_le_stop
      omega
    · have heq : p = q := by simpa using hp
      rw [heq]
      exact le_max_right _ _

theorem Separated.touching {ps : List (Piece α)} (h : Separated ps)
    (i j : ℕ) : Separated (touching ps i j) :=
  h.filter _

theorem hullStart_mem
    {ts : List (Piece α)} {i : ℕ} (h : hullStart ts i < i) :
    ∃ p ∈ ts, p.1 = hullStart ts i := by
  cases ts with
  | nil => exact absurd h (by simp [hullStart])
  | cons q ts =>
      have hq : hullStart (q :: ts) i = min i q.1 := rfl
      refine ⟨q, by simp, ?_⟩
      rw [hq] at h ⊢
      omega

theorem hullStop_mem
    {ts : List (Piece α)} {j : ℕ} (h : j < hullStop ts j) :
    ∃ p ∈ ts, p.stop = hullStop ts j := by
  rcases List.eq_nil_or_concat ts with rfl | ⟨ts, q, rfl⟩
  · exact absurd h (by simp [hullStop])
  · rw [List.concat_eq_append] at h ⊢
    have hq : hullStop (ts ++ [q]) j = max j q.stop := by
      simp [hullStop]
    refine ⟨q, by simp, ?_⟩
    rw [hq] at h ⊢
    omega

section Hull

variable {ps : List (Piece α)} {i j : ℕ} {q : Piece α}

/-- Replacing the touching pieces by their hull keeps the list separated. -/
theorem Separated.hull
    (h : Separated ps) (hij : i ≤ j)
    (hstart : q.1 = hullStart (Sponge.touching ps i j) i)
    (hstop : q.stop = hullStop (Sponge.touching ps i j) j) :
    Separated (before ps i ++ q :: after ps j) := by
  have hsplit := before_touching_after h hij
  have hall : Separated
      (before ps i ++ Sponge.touching ps i j ++ after ps j) := by
    rw [hsplit]
    exact h
  have hparts := List.pairwise_append.mp hall
  have hlow := List.pairwise_append.mp hparts.1
  refine List.pairwise_append.mpr
    ⟨hlow.1, List.pairwise_cons.mpr ⟨?_, hparts.2.1⟩, ?_⟩
  · intro p hp
    have hjp := (mem_after.mp hp).2
    rcases lt_or_ge j (hullStop (Sponge.touching ps i j) j) with hj | hj
    · obtain ⟨t, ht, htstop⟩ := hullStop_mem hj
      rw [hstop, ← htstop]
      exact hparts.2.2 t (List.mem_append_right _ ht) p hp
    · rw [hstop]
      exact lt_of_le_of_lt hj hjp
  · intro p hp r hr
    have hpi := (mem_before.mp hp).2
    rcases List.mem_cons.mp hr with rfl | hr
    · rcases lt_or_ge (hullStart (Sponge.touching ps i j) i) i with hi | hi
      · obtain ⟨t, ht, htstart⟩ := hullStart_mem hi
        rw [hstart, ← htstart]
        exact hlow.2.2 p hp t ht
      · rw [hstart]
        exact lt_of_lt_of_le hpi hi
    · exact hparts.2.2 p (List.mem_append_left _ hp) r hr

/-- The hull covers what the touching pieces and the interval cover. -/
theorem mem_hull
    (h : Separated ps) {x : ℕ} :
    (hullStart (Sponge.touching ps i j) i ≤ x ∧
        x < hullStop (Sponge.touching ps i j) j) ↔
      (∃ p ∈ Sponge.touching ps i j, p.1 ≤ x ∧ x < p.stop) ∨
        (i ≤ x ∧ x < j) := by
  have hts := h.touching i j
  constructor
  · rintro ⟨hlow, hhigh⟩
    rcases lt_or_ge x i with hxi | hxi
    · obtain ⟨p, hp, hstart⟩ := hullStart_mem (lt_of_le_of_lt hlow hxi)
      have htouch := (mem_touching.mp hp).2
      exact Or.inl ⟨p, hp, by omega, by omega⟩
    · rcases lt_or_ge x j with hxj | hxj
      · exact Or.inr ⟨hxi, hxj⟩
      · obtain ⟨p, hp, hstop⟩ := hullStop_mem (lt_of_le_of_lt hxj hhigh)
        have htouch := (mem_touching.mp hp).2
        exact Or.inl ⟨p, hp, by omega, by omega⟩
  · rintro (⟨p, hp, hlow, hhigh⟩ | ⟨hlow, hhigh⟩)
    · exact ⟨(hullStart_le_start hts hp).trans hlow,
        lt_of_lt_of_le hhigh (stop_le_hullStop hts hp)⟩
    · exact ⟨(hullStart_le _ _).trans hlow,
        lt_of_lt_of_le hhigh (le_hullStop _ _)⟩

/-- The indices covered after the replacement. -/
theorem covered_hull
    (h : Separated ps) (hij : i ≤ j)
    (hstart : q.1 = hullStart (Sponge.touching ps i j) i)
    (hstop : q.stop = hullStop (Sponge.touching ps i j) j) :
    covered (before ps i ++ q :: after ps j) =
      covered ps ∪ Finset.Ico i j := by
  ext x
  have hmem := mem_hull h (i := i) (j := j) (x := x)
  rw [← hstart, ← hstop] at hmem
  rw [Finset.mem_union, Finset.mem_Ico, mem_covered, mem_covered]
  conv_rhs => rw [← before_touching_after h hij]
  simp only [List.mem_append, List.mem_cons]
  constructor
  · rintro ⟨p, hp | rfl | hp, hx⟩
    · exact Or.inl ⟨p, Or.inl (Or.inl hp), hx⟩
    · rcases hmem.mp hx with ⟨t, ht, htx⟩ | hx
      · exact Or.inl ⟨t, Or.inl (Or.inr ht), htx⟩
      · exact Or.inr hx
    · exact Or.inl ⟨p, Or.inr hp, hx⟩
  · rintro (⟨p, (hp | hp) | hp, hx⟩ | hx)
    · exact ⟨p, Or.inl hp, hx⟩
    · exact ⟨q, Or.inr (Or.inl rfl), hmem.mpr (Or.inl ⟨p, hp, hx⟩)⟩
    · exact ⟨p, Or.inr (Or.inr hp), hx⟩
    · exact ⟨q, Or.inr (Or.inl rfl), hmem.mpr (Or.inr hx)⟩

end Hull

end Sponge
