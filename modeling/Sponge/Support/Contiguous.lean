import Mathlib.Algebra.GroupWithZero.Nat
import Mathlib.Data.List.Induction
import Mathlib.Algebra.BigOperators.Group.List.Basic
import Mathlib.Algebra.Order.Group.Nat

/-!
# Items laid end to end

Items with a length are placed one after the other on a line of natural
numbers.  An item is listed with the position at which it starts, or, under
`stops`, with the position at which it ends.  A cursor that only moves over
whole items splits the list in two.
-/

namespace Sponge

variable {α : Type*} {len : α → ℕ}

/-- The items of the list cover the stretch from `a` to `b`, each starting
where the one before it ends. -/
def Contiguous (len : α → ℕ) : ℕ → List (ℕ × α) → ℕ → Prop
  | a, [], b => a = b
  | a, e :: es, b => e.1 = a ∧ Contiguous len (a + len e.2) es b

theorem contiguous_append
    {a b : ℕ} {es fs : List (ℕ × α)} :
    Contiguous len a (es ++ fs) b ↔
      ∃ m, Contiguous len a es m ∧ Contiguous len m fs b := by
  induction es generalizing a with
  | nil => simp [Contiguous]
  | cons e es ih =>
      simp only [List.cons_append, Contiguous, ih]
      constructor
      · rintro ⟨hstart, m, hes, hfs⟩
        exact ⟨m, ⟨hstart, hes⟩, hfs⟩
      · rintro ⟨m, ⟨hstart, hes⟩, hfs⟩
        exact ⟨hstart, m, hes, hfs⟩

theorem Contiguous.concat
    {a b : ℕ} {es : List (ℕ × α)} (h : Contiguous len a es b) (x : α) :
    Contiguous len a (es ++ [(b, x)]) (b + len x) :=
  contiguous_append.mpr ⟨b, h, rfl, rfl⟩

theorem Contiguous.le
    {a b : ℕ} {es : List (ℕ × α)} (h : Contiguous len a es b) : a ≤ b := by
  induction es generalizing a with
  | nil => exact le_of_eq h
  | cons e es ih => exact (Nat.le_add_right _ _).trans (ih h.2)

/-- The stretch is as long as its items together. -/
theorem Contiguous.sum_eq
    {a b : ℕ} {es : List (ℕ × α)} (h : Contiguous len a es b) :
    a + (es.map fun e => len e.2).sum = b := by
  induction es generalizing a with
  | nil => exact h
  | cons e es ih =>
      rw [List.map_cons, List.sum_cons, ← Nat.add_assoc]
      exact ih h.2

theorem Contiguous.mem_bounds
    {a b : ℕ} {es : List (ℕ × α)} (h : Contiguous len a es b)
    {e : ℕ × α} (he : e ∈ es) : a ≤ e.1 ∧ e.1 + len e.2 ≤ b := by
  obtain ⟨front, back, rfl⟩ := List.append_of_mem he
  obtain ⟨m, hfront, hstart, hback⟩ := contiguous_append.mp h
  rw [hstart]
  exact ⟨hfront.le, hback.le⟩

/-- The items, each with the position at which it ends. -/
def stops (len : α → ℕ) (es : List (ℕ × α)) : List (ℕ × α) :=
  es.map fun e => (e.1 + len e.2, e.2)

theorem stops_append (es fs : List (ℕ × α)) :
    stops len (es ++ fs) = stops len es ++ stops len fs :=
  List.map_append

theorem Contiguous.stop_le
    {a b : ℕ} {es : List (ℕ × α)} (h : Contiguous len a es b)
    {e : ℕ × α} (he : e ∈ stops len es) : e.1 ≤ b := by
  obtain ⟨d, hd, rfl⟩ := List.mem_map.mp he
  exact (h.mem_bounds hd).2

theorem Contiguous.lt_stop
    {a b : ℕ} {es : List (ℕ × α)} (h : Contiguous len a es b)
    (hpos : ∀ e ∈ es, 0 < len e.2) {e : ℕ × α} (he : e ∈ stops len es) :
    a < e.1 := by
  obtain ⟨d, hd, rfl⟩ := List.mem_map.mp he
  exact lt_of_le_of_lt (h.mem_bounds hd).1
    (Nat.lt_add_of_pos_right (hpos d hd))

/-- The last item ends at the end. -/
theorem Contiguous.exists_mem_stops
    {a b : ℕ} {es : List (ℕ × α)} (h : Contiguous len a es b)
    (hne : es ≠ []) : ∃ x, (b, x) ∈ stops len es := by
  obtain ⟨front, e, rfl⟩ := (List.eq_nil_or_concat' es).resolve_left hne
  obtain ⟨m, -, hstart, hend⟩ := contiguous_append.mp h
  refine ⟨e.2, List.mem_map.mpr ⟨e, by simp, ?_⟩⟩
  rw [hstart, hend]

/-- No item ends behind a point at or after the start exactly if the stretch
does not. -/
theorem Contiguous.filter_stops_eq_nil_iff
    {a b m : ℕ} {es : List (ℕ × α)} (h : Contiguous len a es b)
    (hm : a ≤ m) :
    (stops len es).filter (fun e => m < e.1) = [] ↔ b ≤ m := by
  simp only [List.filter_eq_nil_iff, decide_eq_true_eq, not_lt]
  constructor
  · intro hall
    by_cases hnone : es = []
    · subst hnone
      exact h ▸ hm
    · obtain ⟨x, hx⟩ := h.exists_mem_stops hnone
      exact hall _ hx
  · intro hle e he
    exact (h.stop_le he).trans hle

/-- The cursor is at the end exactly when no item is left. -/
theorem Contiguous.eq_nil_iff
    {a b : ℕ} {es : List (ℕ × α)} (h : Contiguous len a es b)
    (hpos : ∀ e ∈ es, 0 < len e.2) : es = [] ↔ a = b := by
  constructor
  · rintro rfl
    exact h
  · rintro rfl
    by_contra hne
    obtain ⟨e, he⟩ := List.exists_mem_of_ne_nil es hne
    have hbounds := h.mem_bounds he
    have hlen := hpos e he
    omega

/-- The items that end before and after an item are those listed before and
after it. -/
theorem Contiguous.split_at_stop
    {a b k : ℕ} {x : α} {es : List (ℕ × α)} (h : Contiguous len a es b)
    (hpos : ∀ e ∈ es, 0 < len e.2) (hmem : (k, x) ∈ stops len es) :
    ∃ front m back, es = front ++ (m, x) :: back ∧ m + len x = k ∧
      Contiguous len a front m ∧ Contiguous len k back b ∧
      (stops len es).filter (fun e => e.1 < k) = stops len front ∧
      (stops len es).filter (fun e => k < e.1) = stops len back := by
  obtain ⟨⟨m, y⟩, hd, hdk⟩ := List.mem_map.mp hmem
  obtain ⟨hkey, rfl⟩ := Prod.mk.inj hdk
  obtain ⟨front, back, rfl⟩ := List.append_of_mem hd
  obtain ⟨m', hfront, hstart, hback⟩ := contiguous_append.mp h
  have hm : m = m' := hstart
  subst hm
  have hkey' : m + len y = k := hkey
  rw [hkey'] at hback
  have hlow : ∀ e ∈ stops len front, e.1 < k := by
    intro e he
    have hle := hfront.stop_le he
    have hlen : 0 < len y := hpos (m, y) hd
    omega
  have hhigh : ∀ e ∈ stops len back, k < e.1 := by
    intro e he
    refine hback.lt_stop (fun d hd' => hpos d ?_) he
    exact List.mem_append_right _ (List.mem_cons_of_mem _ hd')
  have hsplit : stops len (front ++ (m, y) :: back) =
      stops len front ++ (k, y) :: stops len back := by
    rw [stops_append, ← hkey']
    rfl
  refine ⟨front, m, back, rfl, hkey', hfront, hback, ?_, ?_⟩
  · rw [hsplit, List.filter_append, List.filter_eq_self.mpr,
      List.filter_eq_nil_iff.mpr, List.append_nil]
    · intro e he
      rcases List.mem_cons.mp he with rfl | he
      · simp
      · simpa using (hhigh e he).le
    · exact fun e he => decide_eq_true (hlow e he)
  · rw [hsplit, List.filter_append, List.filter_eq_nil_iff.mpr,
      List.nil_append, List.filter_cons_of_neg (by simp),
      List.filter_eq_self.mpr]
    · exact fun e he => decide_eq_true (hhigh e he)
    · exact fun e he => by simpa using (hlow e he).le

theorem sum_stops (es : List (ℕ × α)) :
    ((stops len es).map fun e => len e.2).sum =
      (es.map fun e => len e.2).sum := by
  rw [stops, List.map_map]
  rfl

/-- Subtracting one after the other is subtracting the sum. -/
theorem foldl_sub_eq {β : Type*} (f : β → ℕ) (xs : List β) (n : ℕ) :
    xs.foldl (fun n x => n - f x) n = n - (xs.map f).sum := by
  induction xs generalizing n with
  | nil => simp
  | cons x xs ih => rw [List.foldl_cons, ih, List.map_cons, List.sum_cons,
      Nat.sub_add_eq]

end Sponge
