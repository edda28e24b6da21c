import Sponge.Router.Model

/-!
# The choice of a route

The table is searched for the longest prefix.  Two applicable routes of the
same length have the same prefix, so the order of the calls that added the
routes makes no difference.

A prefix is compared with the masked destination without being masked itself.
A route whose prefix has bits beyond its length is never applicable.

Of the calls on a router only `add_route` changes the table, so after any run
it is the table built from the routes that were added.
-/

namespace Sponge

/-! ## Masks -/

/-- The most significant bits of an address. -/
def topBits (prefixLength : UInt8) (ip : UInt32) : ℕ :=
  ip.toNat / 2 ^ (32 - prefixLength.toNat)

/-- The bits beyond the length of the prefix are zero. -/
def HostBitsClear (info : RoutingInfo) : Prop :=
  info.routePrefix.toNat % 2 ^ (32 - info.prefixLength.toNat) = 0

instance (info : RoutingInfo) : Decidable (HostBitsClear info) :=
  inferInstanceAs (Decidable (_ = _))

theorem maskNet_toNat (ip : UInt32) {prefixLength : UInt8}
    (h : prefixLength ≤ 32) :
    (maskNet ip prefixLength).toNat =
      topBits prefixLength ip * 2 ^ (32 - prefixLength.toNat) := by
  have hk : prefixLength.toNat ≤ 32 := h
  rw [maskNet, if_neg (UInt8.not_lt.mpr h), topBits]
  by_cases hpos : prefixLength > 0
  · have hk' : 0 < prefixLength.toNat := hpos
    have hshift : (32 - prefixLength.toUInt32).toNat =
        32 - prefixLength.toNat := by
      rw [UInt32.toNat_sub_of_le]
      · rfl
      · exact hk
    have hsmall : 32 - prefixLength.toNat < 32 := by omega
    have hlt : 2 ^ (32 - prefixLength.toNat) < 2 ^ 32 :=
      Nat.pow_lt_pow_right one_lt_two hsmall
    have hone : 0 < 2 ^ (32 - prefixLength.toNat) := Nat.two_pow_pos _
    have hpow : ((1 : UInt32) <<< (32 - prefixLength.toUInt32)).toNat =
        2 ^ (32 - prefixLength.toNat) := by
      rw [UInt32.toNat_shiftLeft, hshift, UInt32.toNat_one,
        Nat.mod_eq_of_lt hsmall, Nat.one_shiftLeft, Nat.mod_eq_of_lt hlt]
    have hmask : (0xFFFFFFFF -
        (((1 : UInt32) <<< (32 - prefixLength.toUInt32)) - 1)).toNat =
        2 ^ 32 - 2 ^ (32 - prefixLength.toNat) := by
      rw [UInt32.toNat_sub, UInt32.toNat_sub, hpow]
      have hfull : (0xFFFFFFFF : UInt32).toNat = 2 ^ 32 - 1 := rfl
      rw [hfull, UInt32.toNat_one]
      omega
    rw [if_pos hpos, UInt32.toNat_and, hmask]
    exact and_two_pow_sub hsmall.le ip.toNat_lt
  · have hzero : prefixLength.toNat = 0 := by
      have hnot : ¬ 0 < prefixLength.toNat := hpos
      omega
    rw [if_neg hpos, hzero, Nat.div_eq_of_lt ip.toNat_lt, zero_mul]
    rfl

/-- The masked destination has no bits beyond the length of the prefix, so
neither has the prefix of an applicable route. -/
theorem applies_iff {route : Route} (h : route.info.prefixLength ≤ 32)
    {dst : UInt32} :
    route.Applies dst ↔ HostBitsClear route.info ∧
      topBits route.info.prefixLength route.info.routePrefix =
        topBits route.info.prefixLength dst := by
  have hpos : 0 < 2 ^ (32 - route.info.prefixLength.toNat) :=
    Nat.two_pow_pos _
  rw [Route.Applies, ← UInt32.toNat_inj, maskNet_toNat dst h, HostBitsClear]
  constructor
  · intro heq
    rw [topBits, heq]
    exact ⟨Nat.mul_mod_left _ _, Nat.mul_div_cancel _ hpos⟩
  · rintro ⟨hclear, htop⟩
    rw [← htop, topBits]
    exact (Nat.div_mul_cancel (Nat.dvd_of_mod_eq_zero hclear)).symm

/-! ## The longest prefix -/

/-- The tables that adding the routes may lead to.  Every route is inserted at
some place at which the table stays sorted. -/
inductive Built : List Route → RoutingTable → Prop
  | empty : Built [] RoutingTable.empty
  | insert {routes : List Route} {t t' : RoutingTable} {route : Route}
      (h : Built routes t)
      (hinsert : InsertedIn route t.entries t'.entries) :
      Built (routes ++ [route]) t'

/-- The table after the routes were added. -/
def tableOf (routes : List Route) : RoutingTable :=
  run RoutingTable.insert RoutingTable.empty routes

theorem built_tableOf (routes : List Route) :
    Built routes (tableOf routes) := by
  induction routes using List.reverseRecOn with
  | nil => exact Built.empty
  | append_singleton routes route ih =>
      rw [tableOf, run_concat]
      exact Built.insert ih (insertedIn_orderedInsert _ route _)

theorem Built.perm {routes : List Route} {t : RoutingTable}
    (h : Built routes t) : t.entries.Perm routes := by
  induction h with
  | empty => exact List.Perm.refl []
  | @insert routes t t' route h hinsert ih =>
      have hcons := hinsert.perm.trans (ih.cons route)
      exact hcons.trans (List.perm_append_singleton route routes).symm

/-! ### Routes of a router -/

namespace Router

/-- The route that a call adds. -/
def Op.added : Op → Option Route
  | .addRoute routePrefix prefixLength nextHop interfaceNum =>
      some ⟨⟨prefixLength, routePrefix⟩, ⟨nextHop, interfaceNum⟩⟩
  | .addInterface _ => none
  | .recvFrame _ _ => none
  | .tick _ _ => none
  | .route => none

theorem rtable_sendOn (r : Router) (interfaceNum : ℕ)
    (dgram : InternetDatagram) (nextHop : Address) :
    (r.sendOn interfaceNum dgram nextHop).2.rtable = r.rtable := by
  rw [sendOn]
  cases r.interfaces[interfaceNum]? with
  | none => rfl
  | some interface => rfl

theorem rtable_routeOneDatagram (r : Router) (dgram : InternetDatagram) :
    (r.routeOneDatagram dgram).2.2.rtable = r.rtable := by
  rw [routeOneDatagram]
  cases r.rtable.select dgram.header.dst with
  | none => rfl
  | some it =>
      dsimp only
      split
      next => rfl
      next => exact rtable_sendOn ..

theorem rtable_routeQueue (interfaceNum : ℕ) (q : List InternetDatagram)
    (r : Router) : (routeQueue interfaceNum q r).2.rtable = r.rtable := by
  induction q generalizing r with
  | nil => rfl
  | cons front rest ih =>
      have hfront := rtable_routeOneDatagram r front
      rw [routeQueue]
      split
      next e front' r' hroute =>
        rw [hroute] at hfront
        exact hfront
      next front' r' hroute =>
        rw [hroute] at hfront
        exact (ih _).trans hfront

theorem rtable_routeInterfaces (nums : List ℕ) (r : Router) :
    (routeInterfaces nums r).2.rtable = r.rtable := by
  induction nums generalizing r with
  | nil => rfl
  | cons interfaceNum rest ih =>
      have hqueue := rtable_routeQueue interfaceNum (r.queue interfaceNum) r
      rw [routeInterfaces]
      split
      next e r' hroute =>
        rw [hroute] at hqueue
        exact hqueue
      next r' hroute =>
        rw [hroute] at hqueue
        exact (ih _).trans hqueue

/-- Only `add_route` changes the table. -/
theorem rtable_step (r : Router) (op : Op) :
    (r.step op).rtable = op.added.elim r.rtable r.rtable.insert := by
  cases op with
  | addInterface interface => rfl
  | addRoute routePrefix prefixLength nextHop interfaceNum => rfl
  | recvFrame interfaceNum frame => rfl
  | tick interfaceNum msSinceLastTick => rfl
  | route => exact rtable_routeInterfaces _ r

/-- The table holds the routes that were added, in any run of calls. -/
theorem rtable_run (ops : List Op) :
    (run step {} ops).rtable = tableOf (ops.filterMap Op.added) := by
  induction ops using List.reverseRecOn with
  | nil => rfl
  | append_singleton ops op ih =>
      rw [run_concat, rtable_step, ih, List.filterMap_append]
      cases hadded : op.added with
      | none =>
          rw [List.filterMap_cons_none hadded, List.filterMap_nil,
            List.append_nil]
          rfl
      | some route =>
          rw [List.filterMap_cons_some hadded, List.filterMap_nil, tableOf,
            tableOf, run_concat]
          rfl

end Router

/-! ### The choice -/

theorem RoutingTable.sorted_toNat (t : RoutingTable) :
    t.entries.Pairwise fun route route' =>
      route.info.prefixLength.toNat ≤ route'.info.prefixLength.toNat :=
  t.sorted.imp fun h => UInt8.le_iff_toNat_le.mp h

/-- Two applicable routes of the same length have the same prefix. -/
theorem Route.Applies.info_eq {route route' : Route} {dst : UInt32}
    (h : route.Applies dst) (h' : route'.Applies dst)
    (hlength : route.info.prefixLength = route'.info.prefixLength) :
    route.info = route'.info := by
  rw [Route.Applies] at h h'
  rw [RoutingInfo.mk.injEq]
  refine ⟨hlength, ?_⟩
  rw [h, h', hlength]

theorem eq_of_applies {routes : List Route} {t : RoutingTable}
    (h : t.entries.Perm routes)
    (hdistinct : (routes.map Route.info).Nodup) (dst : UInt32) :
    ∀ route ∈ t.entries, ∀ route' ∈ t.entries,
      route.Applies dst → route'.Applies dst →
      route.info.prefixLength.toNat = route'.info.prefixLength.toNat →
      route = route' := by
  intro route hroute route' hroute' happlies happlies' hlength
  have hinfo := happlies.info_eq happlies' (UInt8.toNat_inj.mp hlength)
  exact List.inj_on_of_nodup_map hdistinct (h.mem_iff.mp hroute)
    (h.mem_iff.mp hroute') hinfo

/-- No applicable route has a longer prefix. -/
def Route.Longest (routes : List Route) (dst : UInt32) (route : Route) :
    Prop :=
  route ∈ routes ∧ route.Applies dst ∧
    ∀ other ∈ routes, other.Applies dst →
      other.info.prefixLength ≤ route.info.prefixLength

instance (routes : List Route) (dst : UInt32) (route : Route) :
    Decidable (Route.Longest routes dst route) :=
  inferInstanceAs (Decidable (_ ∧ _))

section Choice

variable {routes routes' : List Route} {t t' : RoutingTable}
  (h : Built routes t)

include h

theorem Built.select_eq_none_iff (dst : UInt32) :
    t.select dst = none ↔ ∀ route ∈ routes, ¬ route.Applies dst := by
  rw [RoutingTable.select, lastMatch_eq_none_iff]
  simp only [h.perm.mem_iff]

variable (hdistinct : (routes.map Route.info).Nodup)

include hdistinct

/-- The scan stops at the applicable route with the longest prefix. -/
theorem Built.select_eq_some_iff (dst : UInt32) (route : Route) :
    t.select dst = some route ↔ Route.Longest routes dst route := by
  rw [RoutingTable.select, lastMatch_eq_some_iff t.sorted_toNat
    (eq_of_applies h.perm hdistinct dst), Route.Longest]
  simp only [h.perm.mem_iff, UInt8.le_iff_toNat_le]

/-- The order in which the routes were added makes no difference. -/
theorem Built.select_eq_of_perm (h' : Built routes' t')
    (hperm : routes.Perm routes') (dst : UInt32) :
    t'.select dst = t.select dst := by
  have hboth : t.entries.Perm t'.entries :=
    (h.perm.trans hperm).trans h'.perm.symm
  exact (lastMatch_eq_of_perm t.sorted_toNat t'.sorted_toNat hboth
    (eq_of_applies h.perm hdistinct dst)).symm

end Choice

/-! ## Bits beyond the prefix -/

/-- Where a datagram goes. -/
def RoutingTable.destination (t : RoutingTable) (dst : UInt32) :
    Option NextHop :=
  (t.select dst).map Route.nextHop

/-- The routes lead to the same place, for the same destinations. -/
structure Route.Alike (route route' : Route) : Prop where
  prefixLength_eq : route.info.prefixLength = route'.info.prefixLength
  nextHop_eq : route.nextHop = route'.nextHop
  applies_iff : ∀ dst, route.Applies dst ↔ route'.Applies dst

theorem Route.Alike.refl (route : Route) : route.Alike route :=
  ⟨rfl, rfl, fun _ => Iff.rfl⟩

theorem forall₂_entries_tableOf {routes routes' : List Route}
    (h : List.Forall₂ Route.Alike routes routes') :
    List.Forall₂ Route.Alike (tableOf routes).entries
      (tableOf routes').entries := by
  have hcompare : ∀ b b' c c' : Route, b.Alike b' → c.Alike c' →
      (ComparePrefixLength b c ↔ ComparePrefixLength b' c') := by
    intro b b' c c' hb hc
    rw [ComparePrefixLength, ComparePrefixLength, hb.prefixLength_eq,
      hc.prefixLength_eq]
  have hrun : ∀ t t' : RoutingTable,
      List.Forall₂ Route.Alike t.entries t'.entries →
      List.Forall₂ Route.Alike (run RoutingTable.insert t routes).entries
        (run RoutingTable.insert t' routes').entries := by
    induction h with
    | nil => exact fun _ _ ht => ht
    | cons hroute _ ih =>
        intro t t' ht
        exact ih _ _ (forall₂_orderedInsert hcompare hroute ht)
  exact hrun _ _ List.Forall₂.nil

theorem destination_eq_of_alike {routes routes' : List Route}
    (h : List.Forall₂ Route.Alike routes routes') (dst : UInt32) :
    (tableOf routes).destination dst = (tableOf routes').destination dst :=
  lastMatch_map_eq_of_forall₂ (fun _ _ ha => ha.applies_iff dst)
    (fun _ _ ha => ha.nextHop_eq) (forall₂_entries_tableOf h)

/-- The only route of a table decides. -/
theorem destination_singleton (route : Route) (dst : UInt32) :
    (tableOf [route]).destination dst =
      if route.Applies dst then some route.nextHop else none := by
  have hselect : (tableOf [route]).select dst =
      [route].find? fun a => a.Applies dst := rfl
  rw [RoutingTable.destination, hselect, List.find?_singleton]
  by_cases h : route.Applies dst
  · simp [h]
  · simp [h]

/-- The route applies by its prefix bits only. -/
def AppliesByPrefix (route : Route) : Prop :=
  ∀ dst, route.Applies dst ↔
    topBits route.info.prefixLength route.info.routePrefix =
      topBits route.info.prefixLength dst

theorem appliesByPrefix_iff {route : Route}
    (h : route.info.prefixLength ≤ 32) :
    AppliesByPrefix route ↔ HostBitsClear route.info := by
  constructor
  · intro happlies
    have hself := (happlies route.info.routePrefix).mpr rfl
    exact ((applies_iff h).mp hself).1
  · intro hclear dst
    rw [applies_iff h, and_iff_right hclear]

/-- The first route may be replaced by the second, wherever it was added. -/
def Replaceable (route route' : Route) : Prop :=
  ∀ before after dst,
    (tableOf (before ++ route :: after)).destination dst =
      (tableOf (before ++ route' :: after)).destination dst

theorem replaceable_of_alike {route route' : Route}
    (h : route.Alike route') : Replaceable route route' := by
  intro before after dst
  apply destination_eq_of_alike
  have hsame : ∀ routes : List Route,
      List.Forall₂ Route.Alike routes routes :=
    fun routes => List.forall₂_same.mpr fun route _ => Route.Alike.refl route
  exact List.rel_append (hsame before) (List.Forall₂.cons h (hsame after))

section SamePrefix

variable {prefixLength : UInt8} {routePrefix routePrefix' : UInt32}
  (h : prefixLength ≤ 32)
  (hsame : topBits prefixLength routePrefix =
    topBits prefixLength routePrefix')
  (nextHop : NextHop)

include h hsame

theorem alike_iff :
    Route.Alike ⟨⟨prefixLength, routePrefix⟩, nextHop⟩
        ⟨⟨prefixLength, routePrefix'⟩, nextHop⟩ ↔
      (HostBitsClear ⟨prefixLength, routePrefix⟩ ↔
        HostBitsClear ⟨prefixLength, routePrefix'⟩) := by
  constructor
  · intro halike
    have hself := halike.applies_iff routePrefix
    rw [applies_iff h, applies_iff h] at hself
    simpa only [hsame, and_true] using hself
  · intro hclear
    refine ⟨rfl, rfl, fun dst => ?_⟩
    rw [applies_iff h, applies_iff h]
    simp only [hclear, hsame]

theorem replaceable_iff :
    Replaceable ⟨⟨prefixLength, routePrefix⟩, nextHop⟩
        ⟨⟨prefixLength, routePrefix'⟩, nextHop⟩ ↔
      (HostBitsClear ⟨prefixLength, routePrefix⟩ ↔
        HostBitsClear ⟨prefixLength, routePrefix'⟩) := by
  rw [← alike_iff h hsame nextHop]
  refine ⟨fun hreplace => ⟨rfl, rfl, fun dst => ?_⟩, replaceable_of_alike⟩
  -- A table with this route alone shows whether the route applies.
  have halone := hreplace [] [] dst
  rw [List.nil_append, List.nil_append, destination_singleton,
    destination_singleton] at halone
  have hsome := congrArg (fun hop => hop.isSome = true) halone
  simpa only [Option.isSome_ite, eq_iff_iff] using hsome

/-- A route applies by its prefix bits exactly if its other bits are zero.  It
may be replaced by a route with the same prefix bits exactly if the other bits
of both are zero, or of none. -/
theorem prefixBits_iff_hostBitsClear :
    (AppliesByPrefix ⟨⟨prefixLength, routePrefix⟩, nextHop⟩ ↔
        HostBitsClear ⟨prefixLength, routePrefix⟩) ∧
      (Replaceable ⟨⟨prefixLength, routePrefix⟩, nextHop⟩
          ⟨⟨prefixLength, routePrefix'⟩, nextHop⟩ ↔
        (HostBitsClear ⟨prefixLength, routePrefix⟩ ↔
          HostBitsClear ⟨prefixLength, routePrefix'⟩)) :=
  ⟨appliesByPrefix_iff h, replaceable_iff h hsame nextHop⟩

end SamePrefix

/-- 128.30.76.255/16, as in the simulated network. -/
def mitInfo : RoutingInfo := ⟨16, 0x801E4CFF⟩

/-- 128.30.0.0/16. -/
def mitNetwork : RoutingInfo := ⟨16, 0x801E0000⟩

/-- By way of 128.30.0.1, on the last interface. -/
def mitHop : NextHop := ⟨some ⟨0x801E0001, 0⟩, 5⟩

theorem prefixBits_mitNetwork :
    topBits 16 0x801E0000 = topBits 16 0x801E4CFF ∧
      AppliesByPrefix ⟨mitNetwork, mitHop⟩ ∧
      ¬ Replaceable ⟨mitNetwork, mitHop⟩ ⟨mitInfo, mitHop⟩ := by
  have hbits : topBits 16 0x801E0000 = topBits 16 0x801E4CFF := by decide
  have hiff := prefixBits_iff_hostBitsClear (by decide) hbits mitHop
  exact ⟨hbits, hiff.1.mpr (by decide), mt hiff.2.mp (by decide)⟩

/-- The route of the simulated network does not apply to 128.30.76.1, nor to
any other address. -/
theorem not_appliesByPrefix_mitInfo :
    topBits 16 mitInfo.routePrefix = topBits 16 0x801E4C01 ∧
      ¬ Route.Applies ⟨mitInfo, mitHop⟩ 0x801E4C01 ∧
      (tableOf [⟨mitInfo, mitHop⟩]).destination 0x801E4C01 = none ∧
      (tableOf [⟨mitNetwork, mitHop⟩]).destination 0x801E4C01 =
        some mitHop ∧
      ¬ AppliesByPrefix ⟨mitInfo, mitHop⟩ := by
  refine ⟨by decide, by decide, by decide, by decide, ?_⟩
  intro happlies
  exact absurd ((happlies 0x801E4C01).mpr (by decide)) (by decide)

end Sponge
