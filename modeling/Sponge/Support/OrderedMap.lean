import Mathlib.Order.Lattice
import Mathlib.Data.List.Basic

/-!
# Ordered maps

An ordered map with the operations of `std::map` that the development uses.
The entries are kept as a list that is strictly increasing in the keys, which
is also the order in which an iterator meets them.  In particular `insert`
does not overwrite: inserting at a key that is present changes nothing.
-/

namespace Sponge

variable {κ α : Type*}

/-- A finite map, stored as its entries in increasing order of the keys. -/
structure OrderedMap (κ α : Type*) [LT κ] where
  entries : List (κ × α)
  sorted : entries.Pairwise fun p q => p.1 < q.1

namespace OrderedMap

section Basic

variable [LT κ]

/-- The map without entries. -/
def empty : OrderedMap κ α := ⟨[], List.Pairwise.nil⟩

/-- `map::empty`. -/
def isEmpty (m : OrderedMap κ α) : Bool := m.entries.isEmpty

/-- Keep the entries whose key satisfies `p`. -/
def filterKeys (m : OrderedMap κ α) (p : κ → Bool) : OrderedMap κ α :=
  ⟨m.entries.filter fun e => p e.1, m.sorted.filter _⟩

@[simp] theorem filterKeys_entries (m : OrderedMap κ α) (p : κ → Bool) :
    (m.filterKeys p).entries = m.entries.filter fun e => p e.1 := rfl

variable [DecidableEq κ]

/-- `map::find`, as the value stored at the key. -/
def find? (m : OrderedMap κ α) (k : κ) : Option α :=
  (m.entries.find? fun e => e.1 = k).map Prod.snd

theorem mem_of_find? {m : OrderedMap κ α} {k : κ} {v : α}
    (h : m.find? k = some v) : (k, v) ∈ m.entries := by
  rw [find?, Option.map_eq_some_iff] at h
  obtain ⟨e, hfind, rfl⟩ := h
  have hkey := List.find?_some hfind
  rw [decide_eq_true_iff] at hkey
  rw [← hkey]
  exact List.mem_of_find?_eq_some hfind

/-- Looking up a key after a selection of keys. -/
theorem find?_filterKeys (m : OrderedMap κ α) (p : κ → Bool) (k : κ) :
    (m.filterKeys p).find? k = if p k then m.find? k else none := by
  simp only [find?, filterKeys_entries]
  induction m.entries with
  | nil => simp
  | cons e es ih =>
      by_cases hk : e.1 = k
      · by_cases hp : p k
        · simp [hk, hp]
        · have hpe : p e.1 = false := by
            rw [hk]
            exact Bool.eq_false_iff.mpr hp
          rw [List.filter_cons_of_neg (by simp [hpe]), ih, if_neg hp,
            if_neg hp]
      · rw [List.find?_cons_of_neg (by simpa), ← ih]
        by_cases hp : p e.1
        · simp [hp, hk]
        · simp [hp]

/-- `map::erase` of the entry at one key. -/
def erase (m : OrderedMap κ α) (k : κ) : OrderedMap κ α :=
  m.filterKeys fun k' => k' ≠ k

theorem find?_erase (m : OrderedMap κ α) (k k' : κ) :
    (m.erase k).find? k' = if k' = k then none else m.find? k' := by
  rw [erase, find?_filterKeys]
  by_cases hk : k' = k <;> simp [hk]

/-- Looking up a key after several keys have been erased. -/
theorem find?_foldl_erase (m : OrderedMap κ α) (ks : List κ) (k : κ) :
    (ks.foldl erase m).find? k = if k ∈ ks then none else m.find? k := by
  induction ks generalizing m with
  | nil => simp
  | cons d ks ih =>
      rw [List.foldl_cons, ih, find?_erase]
      by_cases hks : k ∈ ks
      · simp [hks]
      · by_cases hd : k = d <;> simp [hks, hd]

theorem foldl_erase_entries (m : OrderedMap κ α) (es : List (κ × α)) :
    (es.foldl (fun m e => m.erase e.1) m).entries =
      m.entries.filter fun e => e.1 ∉ es.map Prod.fst := by
  induction es generalizing m with
  | nil => simp
  | cons d es ih =>
      rw [List.foldl_cons, ih]
      simp only [erase, filterKeys_entries, List.filter_filter]
      apply List.filter_congr
      intro e _
      simp only [List.map_cons, List.mem_cons, not_or, ne_eq,
        Bool.decide_and]
      rw [Bool.and_comm]

end Basic

variable [LinearOrder κ]

/-- Erasing the middle of the entries leaves the two ends. -/
theorem filter_not_mem_middle
    {lo mid hi : List (κ × α)}
    (h : (lo ++ mid ++ hi).Pairwise fun p q => p.1 < q.1) :
    (lo ++ mid ++ hi).filter (fun e => e.1 ∉ mid.map Prod.fst) =
      lo ++ hi := by
  obtain ⟨hlomid, -, hhi⟩ := List.pairwise_append.mp h
  obtain ⟨-, -, hlo⟩ := List.pairwise_append.mp hlomid
  have hkeepLo : lo.filter (fun e => e.1 ∉ mid.map Prod.fst) = lo := by
    refine List.filter_eq_self.mpr fun e he => ?_
    simp only [List.mem_map, not_exists, not_and, decide_eq_true_eq]
    intro d hd heq
    exact absurd heq (hlo e he d hd).ne'
  have hkeepHi : hi.filter (fun e => e.1 ∉ mid.map Prod.fst) = hi := by
    refine List.filter_eq_self.mpr fun e he => ?_
    simp only [List.mem_map, not_exists, not_and, decide_eq_true_eq]
    intro d hd heq
    exact absurd heq (hhi d (List.mem_append_right lo hd) e he).ne
  have hdropMid : mid.filter (fun e => e.1 ∉ mid.map Prod.fst) = [] := by
    refine List.filter_eq_nil_iff.mpr fun e he => ?_
    simp only [decide_eq_true_eq, not_not]
    exact List.mem_map_of_mem he
  rw [List.filter_append, List.filter_append, hkeepLo, hdropMid, hkeepHi,
    List.append_nil]

/-- Insertion on the list of entries; a key that is present keeps its
value. -/
def insertEntry (k : κ) (v : α) : List (κ × α) → List (κ × α)
  | [] => [(k, v)]
  | e :: es =>
      if k < e.1 then (k, v) :: e :: es
      else if k = e.1 then e :: es
      else e :: insertEntry k v es

theorem insertEntry_subset
    {k : κ} {v : α} {es : List (κ × α)} {e : κ × α}
    (he : e ∈ insertEntry k v es) : e = (k, v) ∨ e ∈ es := by
  induction es with
  | nil => exact Or.inl (by simpa [insertEntry] using he)
  | cons d es ih =>
      unfold insertEntry at he
      split at he
      · simpa using he
      · split at he
        · exact Or.inr he
        · rcases List.mem_cons.mp he with rfl | he
          · exact Or.inr (by simp)
          · exact (ih he).imp_right (List.mem_cons_of_mem d)

theorem insertEntry_sorted
    {k : κ} {v : α} {es : List (κ × α)}
    (hes : es.Pairwise fun p q => p.1 < q.1) :
    (insertEntry k v es).Pairwise fun p q => p.1 < q.1 := by
  induction es with
  | nil => simp [insertEntry]
  | cons d es ih =>
      have hd := List.pairwise_cons.mp hes
      unfold insertEntry
      split
      next hlt =>
        refine List.pairwise_cons.mpr ⟨?_, hes⟩
        intro e he
        rcases List.mem_cons.mp he with rfl | he
        · exact hlt
        · exact hlt.trans (hd.1 e he)
      next hnlt =>
        split
        · exact hes
        next hne =>
          refine List.pairwise_cons.mpr ⟨?_, ih hd.2⟩
          intro e he
          rcases insertEntry_subset he with rfl | he
          · exact lt_of_le_of_ne (not_lt.mp hnlt) (Ne.symm hne)
          · exact hd.1 e he

/-- `map::insert`. -/
def insert (m : OrderedMap κ α) (k : κ) (v : α) : OrderedMap κ α :=
  ⟨insertEntry k v m.entries, insertEntry_sorted m.sorted⟩

/-- An entry is found under its key. -/
theorem find?_of_mem {m : OrderedMap κ α} {k : κ} {v : α}
    (h : (k, v) ∈ m.entries) : m.find? k = some v := by
  obtain ⟨entries, hsorted⟩ := m
  rw [find?]
  simp only at h ⊢
  induction entries with
  | nil => exact nomatch h
  | cons d es ih =>
      have hd := List.pairwise_cons.mp hsorted
      rcases List.mem_cons.mp h with rfl | h
      · rw [List.find?_cons_of_pos (by simp)]
        rfl
      · have hne : d.1 ≠ k := (hd.1 _ h).ne
        rw [List.find?_cons_of_neg (by simpa)]
        exact ih hd.2 h

theorem find?_insertEntry (k k' : κ) (v : α) (es : List (κ × α))
    (hes : es.Pairwise fun p q => p.1 < q.1) :
    ((insertEntry k v es).find? fun e => e.1 = k').map Prod.snd =
      if k' = k then
        some (((es.find? fun e => e.1 = k).map Prod.snd).getD v)
      else (es.find? fun e => e.1 = k').map Prod.snd := by
  induction es with
  | nil =>
      by_cases hk : k' = k
      · simp [insertEntry, hk]
      · simp [insertEntry, hk, Ne.symm hk]
  | cons d es ih =>
      have hd := List.pairwise_cons.mp hes
      unfold insertEntry
      split
      next hlt =>
        have hnotMem : ((d :: es).find? fun e => e.1 = k) = none := by
          rw [List.find?_eq_none]
          intro e he heq
          rw [decide_eq_true_iff] at heq
          rcases List.mem_cons.mp he with rfl | he
          · exact absurd heq hlt.ne'
          · exact absurd heq (hlt.trans (hd.1 e he)).ne'
        rw [hnotMem]
        by_cases hk : k' = k
        · simp [hk]
        · rw [List.find?_cons_of_neg (by simpa using Ne.symm hk), if_neg hk]
      next =>
        split
        next hkey =>
          by_cases hk : k' = k
          · simp [hk, hkey]
          · rw [if_neg hk]
        next hkey =>
          by_cases hdk : d.1 = k'
          · have hk : k' ≠ k := by
              rw [← hdk]
              exact Ne.symm hkey
            rw [if_neg hk, List.find?_cons_of_pos (by simpa),
              List.find?_cons_of_pos (by simpa)]
          · rw [List.find?_cons_of_neg (by simpa), ih hd.2,
              List.find?_cons_of_neg (by simpa using Ne.symm hkey),
              List.find?_cons_of_neg (by simpa)]

/-- Looking up a key after an insertion, which does not overwrite. -/
theorem find?_insert (m : OrderedMap κ α) (k k' : κ) (v : α) :
    (m.insert k v).find? k' =
      if k' = k then some ((m.find? k).getD v) else m.find? k' :=
  find?_insertEntry k k' v m.entries m.sorted

/-- Assignment through `map::operator[]`, which overwrites. -/
def set (m : OrderedMap κ α) (k : κ) (v : α) : OrderedMap κ α :=
  (m.erase k).insert k v

theorem find?_set (m : OrderedMap κ α) (k k' : κ) (v : α) :
    (m.set k v).find? k' = if k' = k then some v else m.find? k' := by
  rw [set, find?_insert, find?_erase, if_pos rfl, Option.getD_none,
    find?_erase]
  by_cases hk : k' = k <;> simp [hk]

/-- Insertion between the smaller and the larger keys. -/
theorem insertEntry_append
    {k : κ} {v : α} {lo hi : List (κ × α)}
    (hlo : ∀ e ∈ lo, e.1 < k) (hhi : ∀ e ∈ hi, k < e.1) :
    insertEntry k v (lo ++ hi) = lo ++ (k, v) :: hi := by
  induction lo with
  | nil =>
      cases hi with
      | nil => rfl
      | cons e hi => simp [insertEntry, hhi e (by simp)]
  | cons d lo ih =>
      have hd : d.1 < k := hlo d (by simp)
      have htail := ih fun e he => hlo e (List.mem_cons_of_mem d he)
      simp [insertEntry, not_lt.mpr hd.le, hd.ne', htail]

/-- Insertion above every key appends. -/
theorem insert_entries_of_lt
    {m : OrderedMap κ α} {k : κ} {v : α}
    (h : ∀ e ∈ m.entries, e.1 < k) :
    (m.insert k v).entries = m.entries ++ [(k, v)] := by
  have happend : insertEntry k v (m.entries ++ []) =
      m.entries ++ (k, v) :: [] :=
    insertEntry_append h (by simp)
  simpa [insert] using happend

end OrderedMap

end Sponge
