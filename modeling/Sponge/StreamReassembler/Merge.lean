import Sponge.Support.Pieces
import Sponge.StreamReassembler.Model

/-!
# What `merge` does to the stored pieces

The loop of `merge` joins the new substring with the first and with the last
piece it touches and deletes every piece in between.  When the stored pieces
are separated, this is the replacement of all touching pieces by their hull.

The pieces and the new substring are assumed to end below `2 ^ 64`, so that
none of the sums in the loop wraps around.
-/

namespace Sponge

namespace StreamReassembler

/-- Every piece ends below `2 ^ 64`. -/
def EndsBelow (es : List (Piece UInt8)) : Prop :=
  ∀ p ∈ es, p.stop < 2 ^ 64

/-! ## Joining two strings -/

theorem substr_of_le {s : Bytes} {pos len : ℕ} (h : s.length ≤ pos + len) :
    substr s pos len = s.drop pos := by
  apply List.take_of_length_le
  rw [List.length_drop]
  omega

/-- A string joined with one that starts inside it, or right after it. -/
theorem mergeString_eq
    {str1 str2 : Bytes} {ind1 ind2 : ℕ}
    (hstart : ind1 ≤ ind2) (htouch : ind2 ≤ ind1 + str1.length)
    (h1 : ind1 + str1.length < 2 ^ 64) (h2 : ind2 + str2.length < 2 ^ 64) :
    mergeString str1 ind1 str2 ind2 =
      str1 ++ str2.drop (ind1 + str1.length - ind2) := by
  have hadd : add64 ind1 str1.length = ind1 + str1.length := add64_eq h1
  have hsub : sub64 (ind1 + str1.length) ind2 =
      ind1 + str1.length - ind2 := sub64_eq h1 htouch
  unfold mergeString
  rw [if_neg (by omega), if_neg (by omega), if_pos hstart, hadd, hsub]
  simp only
  split
  next hlt =>
    rw [substr_of_le]
    rw [sub64_eq (by omega) hlt.le]
    omega
  next hge =>
    rw [List.drop_eq_nil_of_le (not_lt.mp hge), List.append_nil]

/-! ## The loop -/

section Loop

variable {data : Bytes} {index : ℕ}

theorem mergeScan_before
    {es : List (Piece UInt8)} (rest : List (Piece UInt8)) (scan : MergeScan)
    (hlow : ∀ p ∈ es, p.stop < index)
    (hbelow : index + data.length < 2 ^ 64) :
    ∃ itPrev, mergeScan data index (es ++ rest) scan =
      mergeScan data index rest { scan with itPrev := itPrev } := by
  induction es generalizing scan with
  | nil => exact ⟨scan.itPrev, rfl⟩
  | cons p es ih =>
      have hp : p.1 + p.2.length < index := hlow p (by simp)
      have hadd : add64 index data.length = index + data.length :=
        add64_eq hbelow
      have hstop : add64 p.1 p.2.length = p.1 + p.2.length :=
        add64_eq (by omega)
      obtain ⟨itPrev, hrest⟩ :=
        ih { scan with itPrev := p }
          fun q hq => hlow q (List.mem_cons_of_mem p hq)
      refine ⟨itPrev, ?_⟩
      have hnot : ¬ (index ≤ add64 p.1 p.2.length ∧
          p.1 ≤ add64 index data.length) := by
        rw [hstop]
        omega
      have hcont : ¬ p.1 > add64 index data.length := by
        rw [hadd]
        omega
      rw [List.cons_append, mergeScan, if_neg hnot]
      simp only [if_neg hcont]
      exact hrest

theorem mergeScan_after
    {es : List (Piece UInt8)} (scan : MergeScan)
    (hhigh : ∀ p ∈ es, index + data.length < p.1)
    (hbelow : index + data.length < 2 ^ 64) :
    mergeScan data index es scan = scan := by
  cases es with
  | nil => rfl
  | cons p es =>
      have hp := hhigh p (by simp)
      have hadd : add64 index data.length = index + data.length :=
        add64_eq hbelow
      have hnot : ¬ (index ≤ add64 p.1 p.2.length ∧
          p.1 ≤ add64 index data.length) := by
        rw [hadd]
        omega
      have hbreak : p.1 > add64 index data.length := by
        rw [hadd]
        exact hp
      rw [mergeScan, if_neg hnot]
      simp only [if_pos hbreak]

theorem mergeScan_touch
    {p : Piece UInt8} {rest : List (Piece UInt8)} (scan : MergeScan)
    (htouch : index ≤ p.stop ∧ p.1 ≤ index + data.length)
    (hp : p.stop < 2 ^ 64) (hbelow : index + data.length < 2 ^ 64) :
    mergeScan data index (p :: rest) scan =
      mergeScan data index rest
        { scan.touch data index p with itPrev := p } := by
  have hadd : add64 index data.length = index + data.length :=
    add64_eq hbelow
  have hstop : add64 p.1 p.2.length = p.stop := add64_eq hp
  have hyes : index ≤ add64 p.1 p.2.length ∧
      p.1 ≤ add64 index data.length := by
    rw [hadd, hstop]
    exact htouch
  have hcont : ¬ p.1 > add64 index data.length := by
    rw [hadd]
    omega
  rw [mergeScan, if_pos hyes]
  simp only [if_neg hcont]

theorem touch_of_not_first
    {scan : MergeScan} (hfirst : scan.first = false) (it : Piece UInt8) :
    scan.touch data index it =
      { scan with
        first := true
        index := min index it.1
        s := if index < it.1 then scan.s
          else mergeString it.2 it.1 data index
        toBeDeleted := scan.toBeDeleted ++ [it] } := by
  by_cases hlt : index < it.1
  · simp [MergeScan.touch, hfirst, hlt, hlt.le]
  · simp [MergeScan.touch, hfirst, hlt, not_lt.mp hlt]

/-- After the first touching piece the loop only collects. -/
theorem mergeScan_touching
    {ts rest : List (Piece UInt8)} (scan : MergeScan)
    (hfirst : scan.first = true)
    (htouch : ∀ p ∈ ts, index ≤ p.stop ∧ p.1 ≤ index + data.length)
    (hts : EndsBelow ts) (hbelow : index + data.length < 2 ^ 64) :
    mergeScan data index (ts ++ rest) scan =
      mergeScan data index rest
        { scan with
          toBeDeleted := scan.toBeDeleted ++ ts
          itPrev := ts.getLast?.getD scan.itPrev } := by
  induction ts generalizing scan with
  | nil => simp
  | cons p ts ih =>
      have hkeep : scan.touch data index p =
          { scan with toBeDeleted := scan.toBeDeleted ++ [p] } := by
        simp [MergeScan.touch, hfirst]
      rw [List.cons_append,
        mergeScan_touch scan (htouch p (by simp)) (hts p (by simp)) hbelow,
        hkeep, ih]
      · rw [List.getLast?_cons]
        simp
      · exact hfirst
      · exact fun q hq => htouch q (List.mem_cons_of_mem p hq)
      · exact fun q hq => hts q (List.mem_cons_of_mem p hq)

end Loop

/-! ## The string stored for the hull -/

/-- The new substring, joined with the first and the last of the pieces it
touches. -/
def hullString (data : Bytes) (index : ℕ) : List (Piece UInt8) → Bytes
  | [] => data
  | t :: ts =>
      let last := (t :: ts).getLast (List.cons_ne_nil t ts)
      if index < t.1 then
        data ++ last.2.drop (index + data.length - last.1)
      else
        let s := t.2 ++ data.drop (t.stop - index)
        s ++ last.2.drop (t.1 + s.length - last.1)

section HullString

variable {data : Bytes} {index : ℕ} {t : Piece UInt8}
  {ts : List (Piece UInt8)}

theorem getLast_touches
    (htouch : ∀ p ∈ t :: ts, index ≤ p.stop ∧ p.1 ≤ index + data.length) :
    let last := (t :: ts).getLast (List.cons_ne_nil t ts)
    index ≤ last.stop ∧ last.1 ≤ index + data.length :=
  htouch _ (List.getLast_mem _)

theorem head_le_getLast (hsep : Separated (t :: ts)) :
    let last := (t :: ts).getLast (List.cons_ne_nil t ts)
    t.1 ≤ last.1 ∧ t.stop ≤ last.stop := by
  intro last
  rcases List.mem_cons.mp (List.getLast_mem (List.cons_ne_nil t ts)) with
    heq | hmem
  · have hlast : last = t := heq
    rw [hlast]
    exact ⟨le_rfl, le_rfl⟩
  · have hlt : t.stop < last.1 := (List.pairwise_cons.mp hsep).1 last hmem
    have hstart := t.start_le_stop
    have hstop := last.start_le_stop
    omega

theorem hullStart_cons (t : Piece UInt8) (ts : List (Piece UInt8)) (i : ℕ) :
    hullStart (t :: ts) i = min i t.1 := rfl

theorem hullStop_cons (t : Piece UInt8) (ts : List (Piece UInt8)) (j : ℕ) :
    hullStop (t :: ts) j =
      max j ((t :: ts).getLast (List.cons_ne_nil t ts)).stop := by
  simp [hullStop, List.getLast?_eq_some_getLast]

/-- The string of the hull is as long as the hull. -/
theorem length_hullString
    {ps : List (Piece UInt8)} (hsep : Separated ps)
    (htouch : ∀ p ∈ ps, index ≤ p.stop ∧ p.1 ≤ index + data.length) :
    hullStart ps index + (hullString data index ps).length =
      hullStop ps (index + data.length) := by
  cases ps with
  | nil => rfl
  | cons t ts =>
      rw [hullStart_cons, hullStop_cons]
      have hlast := getLast_touches htouch
      have hhead := head_le_getLast hsep
      have ht := htouch t (by simp)
      simp only [hullString, Piece.stop] at hlast hhead ht ⊢
      split
      · rw [List.length_append, List.length_drop]
        omega
      · simp only [List.length_append, List.length_drop]
        omega

/-- Pieces of one sequence join to a piece of that sequence. -/
theorem hullString_eq_extract
    {S : Bytes} {ps : List (Piece UInt8)} (hsep : Separated ps)
    (htouch : ∀ p ∈ ps, index ≤ p.stop ∧ p.1 ≤ index + data.length)
    (hps : ∀ p ∈ ps, p.2 = S.extract p.1 p.stop)
    (hdata : data = S.extract index (index + data.length)) :
    hullString data index ps =
      S.extract (hullStart ps index)
        (hullStop ps (index + data.length)) := by
  cases ps with
  | nil => exact hdata
  | cons t ts =>
      rw [hullStart_cons, hullStop_cons]
      have hlast := getLast_touches htouch
      have hhead := head_le_getLast hsep
      have ht := htouch t (by simp)
      have htS := hps t (by simp)
      have hlastS := hps _ (List.getLast_mem (List.cons_ne_nil t ts))
      simp only [hullString] at hlast hhead hlastS ⊢
      generalize (t :: ts).getLast (List.cons_ne_nil t ts) = last at *
      split
      next hlt =>
        rw [min_eq_left hlt.le, hlastS]
        conv_lhs => rw [hdata]
        have hjoin := extract_append_drop_extract S (i := index)
          (j := index + data.length) (k := last.1) (l := last.stop)
          (by omega) (by omega)
        rw [← hdata] at hjoin ⊢
        exact hjoin
      next hge =>
        have hgt : t.1 ≤ index := not_lt.mp hge
        have hjoin := extract_append_drop_extract S (i := t.1)
          (j := t.stop) (k := index) (l := index + data.length)
          t.start_le_stop ht.1
        rw [← htS, ← hdata] at hjoin
        have hlen : t.1 + (t.2 ++ data.drop (t.stop - index)).length =
            max t.stop (index + data.length) := by
          rw [List.length_append, List.length_drop]
          have hstop : t.stop = t.1 + t.2.length := rfl
          omega
        have hmax : max (max t.stop (index + data.length)) last.stop =
            max (index + data.length) last.stop := by omega
        rw [hlen, hjoin, min_eq_right hgt, hlastS, ← hmax]
        exact extract_append_drop_extract S
          (t.start_le_stop.trans (le_max_left _ _))
          (hlast.2.trans (le_max_right _ _))

end HullString

/-! ## The whole operation -/

section Merge

variable {r : StreamReassembler} {data : Bytes} {index : ℕ}

/-- Nothing is collected when nothing touches. -/
theorem mergeScan_eq_of_touching_nil
    {es : List (Piece UInt8)} (hsep : Separated es)
    (hbelow : index + data.length < 2 ^ 64)
    (hts : touching es index (index + data.length) = []) :
    (mergeScan data index es MergeScan.init).toBeDeleted = [] := by
  have hsplit := before_touching_after hsep
    (Nat.le_add_right index data.length)
  rw [hts, List.append_nil] at hsplit
  rw [← hsplit]
  obtain ⟨itPrev, hscan⟩ :=
    mergeScan_before (after es (index + data.length)) MergeScan.init
      (fun p hp => (mem_before.mp hp).2) hbelow
  rw [hscan, mergeScan_after _ (fun p hp => (mem_after.mp hp).2) hbelow]
  rfl

/-- The local variables of the loop after its end. -/
theorem mergeScan_eq_of_touching_cons
    {es : List (Piece UInt8)} {t : Piece UInt8} {ts : List (Piece UInt8)}
    (hsep : Separated es) (hends : EndsBelow es)
    (hbelow : index + data.length < 2 ^ 64)
    (hts : touching es index (index + data.length) = t :: ts) :
    mergeScan data index es MergeScan.init =
      { first := true
        index := min index t.1
        s := if index < t.1 then [] else mergeString t.2 t.1 data index
        toBeDeleted := t :: ts
        itPrev := (t :: ts).getLast (List.cons_ne_nil t ts) } := by
  have hsplit := before_touching_after hsep
    (Nat.le_add_right index data.length)
  have hmem : ∀ p ∈ t :: ts, p ∈ es ∧
      index ≤ p.stop ∧ p.1 ≤ index + data.length := by
    intro p hp
    rw [← hts] at hp
    exact mem_touching.mp hp
  rw [hts, List.append_assoc] at hsplit
  conv_lhs => rw [← hsplit]
  obtain ⟨itPrev, hscan⟩ :=
    mergeScan_before (t :: ts ++ after es (index + data.length))
      MergeScan.init (fun p hp => (mem_before.mp hp).2) hbelow
  have ht := hmem t (by simp)
  have hlast : (t :: ts).getLast (List.cons_ne_nil t ts) =
      ts.getLast?.getD t := by
    apply Option.some.inj
    rw [← List.getLast?_eq_some_getLast, List.getLast?_cons]
  rw [hscan, List.cons_append,
    mergeScan_touch _ ht.2 (hends t ht.1) hbelow,
    touch_of_not_first rfl, mergeScan_touching, hlast,
    mergeScan_after _ (fun p hp => (mem_after.mp hp).2) hbelow]
  · rfl
  · rfl
  · exact fun p hp => (hmem p (List.mem_cons_of_mem t hp)).2
  · exact fun p hp => hends p (hmem p (List.mem_cons_of_mem t hp)).1
  · exact hbelow

/-- The string that `merge` stores is the one of the hull. -/
theorem mergeString_hull
    {t : Piece UInt8} {ts : List (Piece UInt8)}
    (hsep : Separated (t :: ts)) (hends : EndsBelow (t :: ts))
    (htouch : ∀ p ∈ t :: ts, index ≤ p.stop ∧ p.1 ≤ index + data.length)
    (hpos : t.2 ≠ []) (hbelow : index + data.length < 2 ^ 64) :
    let last := (t :: ts).getLast (List.cons_ne_nil t ts)
    let s := if index < t.1 then [] else mergeString t.2 t.1 data index
    (if s.isEmpty then mergeString data index last.2 last.1
      else mergeString s (min index t.1) last.2 last.1) =
      hullString data index (t :: ts) := by
  intro last s
  have hlast : index ≤ last.stop ∧ last.1 ≤ index + data.length :=
    getLast_touches htouch
  have hhead : t.1 ≤ last.1 ∧ t.stop ≤ last.stop := head_le_getLast hsep
  have hlastEnd : last.1 + last.2.length < 2 ^ 64 :=
    hends last (List.getLast_mem _)
  have ht := htouch t (by simp)
  have htEnd : t.1 + t.2.length < 2 ^ 64 := hends t (by simp)
  by_cases hlt : index < t.1
  · have hs : s = [] := if_pos hlt
    rw [hs]
    simp only [List.isEmpty_nil, if_true, hullString, if_pos hlt]
    exact mergeString_eq (by omega) hlast.2 hbelow hlastEnd
  · have hge : t.1 ≤ index := not_lt.mp hlt
    have hs : s = t.2 ++ data.drop (t.stop - index) := by
      refine (if_neg hlt).trans ?_
      exact mergeString_eq hge ht.1 htEnd hbelow
    have hne : s.isEmpty = false := by
      rw [hs]
      cases h : t.2 with
      | nil => exact absurd h hpos
      | cons x xs => rfl
    have hlen : t.1 + s.length = max t.stop (index + data.length) := by
      rw [hs, List.length_append, List.length_drop]
      have hstop : t.stop = t.1 + t.2.length := rfl
      omega
    have hstop : t.stop < 2 ^ 64 := htEnd
    rw [hne, min_eq_right hge]
    simp only [Bool.false_eq_true, if_false, hullString, if_neg hlt]
    rw [mergeString_eq hhead.1 (by omega) (by omega) hlastEnd, hs]

/-- The entries with the touching ones replaced by their hull. -/
def mergedEntries (es : List (Piece UInt8)) (data : Bytes) (index : ℕ) :
    List (Piece UInt8) :=
  let ts := touching es index (index + data.length)
  before es index ++ (hullStart ts index, hullString data index ts) ::
    after es (index + data.length)

theorem merge_entries
    (hsep : Separated r.buf.entries) (hends : EndsBelow r.buf.entries)
    (hpos : ∀ p ∈ r.buf.entries, p.2 ≠ [])
    (hbelow : index + data.length < 2 ^ 64) :
    (r.merge data index).buf.entries =
      mergedEntries r.buf.entries data index := by
  have hsplit := before_touching_after hsep
    (Nat.le_add_right index data.length)
  have htouch : ∀ p ∈ touching r.buf.entries index (index + data.length),
      index ≤ p.stop ∧ p.1 ≤ index + data.length :=
    fun p hp => (mem_touching.mp hp).2
  have hstop : Piece.stop
      (hullStart (touching r.buf.entries index (index + data.length)) index,
        hullString data index
          (touching r.buf.entries index (index + data.length))) =
      hullStop (touching r.buf.entries index (index + data.length))
        (index + data.length) :=
    length_hullString (hsep.touching _ _) htouch
  have hmerged := (hsep.hull (Nat.le_add_right _ _) rfl hstop).sorted
  obtain ⟨-, hhigh, hlow⟩ := List.pairwise_append.mp hmerged
  have hinsert := OrderedMap.insertEntry_append
    (fun e he => hlow e he _ (List.mem_cons_self ..))
    (fun e he => (List.pairwise_cons.mp hhigh).1 e he)
    (v := hullString data index
      (touching r.buf.entries index (index + data.length)))
  unfold mergedEntries
  cases hts : touching r.buf.entries index (index + data.length) with
  | nil =>
      have hnone := mergeScan_eq_of_touching_nil hsep hbelow hts
      rw [hts, List.append_nil] at hsplit
      rw [hts, hsplit] at hinsert
      simp only [merge, hnone, List.isEmpty_nil, if_true, OrderedMap.insert]
      exact hinsert
  | cons t ts =>
      have hscan := mergeScan_eq_of_touching_cons hsep hends hbelow hts
      have hin : ∀ p ∈ t :: ts, p ∈ r.buf.entries := by
        intro p hp
        rw [← hts] at hp
        exact (mem_touching.mp hp).1
      have hstring := mergeString_hull
        (hts ▸ hsep.touching index (index + data.length))
        (fun p hp => hends p (hin p hp)) (hts ▸ htouch)
        (hpos t (hin t (by simp))) hbelow
      rw [hts] at hsplit hinsert
      have herased : ((t :: ts).foldl (fun buf it => buf.erase it.1)
          r.buf).entries =
          before r.buf.entries index ++
            after r.buf.entries (index + data.length) := by
        rw [OrderedMap.foldl_erase_entries]
        conv_lhs => rw [← hsplit]
        exact OrderedMap.filter_not_mem_middle (hsplit.symm ▸ hsep.sorted)
      simp only [merge, hscan, List.isEmpty_cons, if_true]
      rw [hstring]
      simp only [Bool.false_eq_true, if_false, OrderedMap.insert]
      rw [herased]
      exact hinsert

theorem foldl_add64_length
    (ts : List (Piece UInt8)) (n : ℕ) (h : n + totalLength ts < 2 ^ 64) :
    ts.foldl (fun tot it => add64 tot it.2.length) n =
      n + totalLength ts := by
  induction ts generalizing n with
  | nil => rfl
  | cons t ts ih =>
      rw [totalLength_cons] at h ⊢
      rw [List.foldl_cons, add64_eq (by omega), ih _ (by omega)]
      omega

/-- The number of stored bytes is kept up to date: the unsigned difference
that `merge` subtracts wraps around twice or not at all. -/
theorem merge_unassembledBytes
    (hsep : Separated r.buf.entries) (hends : EndsBelow r.buf.entries)
    (hpos : ∀ p ∈ r.buf.entries, p.2 ≠ [])
    (hbelow : index + data.length < 2 ^ 64)
    (hcount : r.unassembledBytes = totalLength r.buf.entries)
    (hmerged : totalLength (mergedEntries r.buf.entries data index)
      < 2 ^ 64) :
    (r.merge data index).unassembledBytes =
      totalLength (mergedEntries r.buf.entries data index) := by
  have hsplit := before_touching_after hsep
    (Nat.le_add_right index data.length)
  have htotal := congrArg totalLength hsplit
  simp only [totalLength_append] at htotal
  have hbound : totalLength r.buf.entries ≤ 2 ^ 64 - 1 - 0 :=
    totalLength_le hsep (fun _ _ => Nat.zero_le _)
      fun p hp => Nat.le_sub_one_of_lt (hends p hp)
  unfold mergedEntries at hmerged ⊢
  simp only [totalLength_append, totalLength_cons] at hmerged ⊢
  cases hts : touching r.buf.entries index (index + data.length) with
  | nil =>
      have hnone := mergeScan_eq_of_touching_nil hsep hbelow hts
      rw [hts] at htotal hmerged
      simp only [merge, hnone, List.isEmpty_nil, if_true]
      simp only [hullString, totalLength_nil] at htotal hmerged ⊢
      rw [add64_eq (by omega)]
      omega
  | cons t ts =>
      have hscan := mergeScan_eq_of_touching_cons hsep hends hbelow hts
      have hin : ∀ p ∈ t :: ts, p ∈ r.buf.entries ∧
          index ≤ p.stop ∧ p.1 ≤ index + data.length := by
        intro p hp
        rw [← hts] at hp
        exact mem_touching.mp hp
      have hstring := mergeString_hull
        (hts ▸ hsep.touching index (index + data.length))
        (fun p hp => hends p (hin p hp).1) (fun p hp => (hin p hp).2)
        (hpos t (hin t (by simp)).1) hbelow
      rw [hts] at htotal hmerged
      have htot := foldl_add64_length (t :: ts) 0 (by omega)
      simp only [merge, hscan, List.isEmpty_cons, if_true]
      rw [hstring, htot]
      simp only [Bool.false_eq_true, if_false]
      rw [sub64_sub64 (by omega) (by omega)]
      omega

@[simp] theorem merge_output (r : StreamReassembler) (data : Bytes)
    (index : ℕ) : (r.merge data index).output = r.output := by
  simp only [merge]
  split <;> rfl

@[simp] theorem merge_expectedIndex (r : StreamReassembler) (data : Bytes)
    (index : ℕ) : (r.merge data index).expectedIndex = r.expectedIndex := by
  simp only [merge]
  split <;> rfl

@[simp] theorem merge_inputEnded (r : StreamReassembler) (data : Bytes)
    (index : ℕ) : (r.merge data index).inputEnded = r.inputEnded := by
  simp only [merge]
  split <;> rfl

@[simp] theorem merge_usedAfterErase (r : StreamReassembler) (data : Bytes)
    (index : ℕ) :
    (r.merge data index).usedAfterErase = r.usedAfterErase := by
  simp only [merge]
  split <;> rfl

end Merge

end StreamReassembler

end Sponge
