import IntentX.Matching
import IntentX.TwapProgress

/-!
# The schedule of a TWAP

What `create_twap` does with the numbers of a request.  The number of slices is cast to an `i32` before it is
divided by, looped over and multiplied with.  Nothing else can go wrong: as long as the ratio of duration and
interval is below `2 ^ 31` every step of the arithmetic is exact and the slices are those of the request, and
from there on the schedule has the wrong number of slices, or none at all (`createTwap_exact_iff`).
-/

namespace IntentX

open Lib

/-! ## Checked arithmetic -/

/-- A division of two `i64`. -/
def checkedDiv (a b : Int) : Option Int := if b = 0 then none else checkedI64 (a.tdiv b)

/-- A cast to `i32` that loses nothing. -/
def checkedI32 (x : Int) : Option Int := if inI32 x then some x else none

/-- `DateTime::<Utc>::MIN_UTC`, to the microsecond -/
def minUtc : Int := seconds (-8334601228800)

/-- `DateTime::<Utc>::MAX_UTC`, to the microsecond -/
def maxUtc : Int := seconds 8210266876799 + 999999

def Representable (t : Int) : Prop := minUtc ≤ t ∧ t ≤ maxUtc

instance (t : Int) : Decidable (Representable t) := inferInstanceAs (Decidable (_ ∧ _))

/-- `t + Duration::seconds(n)`; a duration has at most `i64::MAX` milliseconds. -/
def checkedAdd (t n : Int) : Option Int :=
  if |n| ≤ (2 ^ 63 - 1) / 1000 ∧ Representable (t + seconds n) then some (t + seconds n) else none

/-- The numbers of a slice. -/
structure SlicePlan where
  sliceIndex : Int
  qty : Int
  scheduledAt : Int
  deriving DecidableEq, Repr

/-- The arithmetic of `create_twap` with every step checked; `none` is a division by zero, a cast that
truncates or an overflow. -/
def CreateTwapRequest.checkedSchedule (r : CreateTwapRequest) (now : Int) : Option (List SlicePlan) := do
  let slicesTotal ← checkedI32 (← checkedDiv r.durationSecs r.intervalSecs)
  let qtyPerSlice ← checkedDiv r.totalQty slicesTotal
  let remainder ← checkedI64 (r.totalQty - (← checkedI64 (qtyPerSlice * slicesTotal)))
  (List.range slicesTotal.toNat).mapM fun (i : Nat) => do
    let scheduledAt ← checkedAdd now (← checkedI64 (r.intervalSecs * i))
    let qty ← if (i : Int) = slicesTotal - 1 then checkedI64 (qtyPerSlice + remainder) else some qtyPerSlice
    return ⟨i, qty, scheduledAt⟩

/-! ## Requests -/

/-- The request passes the checks of `create_twap`, and its numbers are `i64`. -/
structure CreateTwapRequest.Accepted (r : CreateTwapRequest) : Prop where
  interval_pos : 0 < r.intervalSecs
  interval_le : r.intervalSecs ≤ r.durationSecs
  total_pos : 0 < r.totalQty
  duration_i64 : inI64 r.durationSecs
  total_i64 : inI64 r.totalQty

def CreateTwapRequest.ratio (r : CreateTwapRequest) : Int := r.durationSecs / r.intervalSecs

/-- Every slice of the request is due at a time that can be represented. -/
def CreateTwapRequest.Timely (r : CreateTwapRequest) (now : Int) : Prop :=
  ∀ i : Nat, (i : Int) < r.ratio → Representable (now + seconds (r.intervalSecs * i))

/-- The slices are those of the request. -/
structure CreateTwapRequest.Exact (r : CreateTwapRequest) (now : Int) (slices : List TwapChildIntent) : Prop where
  count : (slices.length : Int) = r.durationSecs / r.intervalSecs
  indices : slices.map (·.sliceIndex) = (List.range slices.length).map fun i : Nat => (i : Int)
  qty_nonneg : ∀ c ∈ slices, 0 ≤ c.qty
  sum : (slices.map (·.qty)).sum = r.totalQty
  scheduled : ∀ c ∈ slices, c.scheduledAt = now + seconds (c.sliceIndex * r.intervalSecs)

/-- The ids that `create_twap` draws have not been drawn before. -/
structure Env.FreshTwap (env : Env) (db : TwapDb) : Prop where
  distinct : Function.Injective env.uuid
  twap : db.twap (env.uuid 0) = none
  unused : ∀ n, db.child (env.uuid n) = none
  unlinked : db.childrenOf (env.uuid 0) = []

namespace CreateTwapRequest

section Arithmetic

variable {r : CreateTwapRequest} {now : Int}

theorem Accepted.ratio_bounds (h : r.Accepted) : 1 ≤ r.ratio ∧ r.ratio ≤ r.durationSecs := by
  have hpos : 0 ≤ r.durationSecs := h.interval_pos.le.trans h.interval_le
  exact ⟨Int.le_ediv_of_mul_le h.interval_pos (by rw [Int.one_mul]; exact h.interval_le),
    Int.ediv_le_self _ hpos⟩

theorem Accepted.tdiv_eq_ratio (h : r.Accepted) : r.durationSecs.tdiv r.intervalSecs = r.ratio :=
  Int.tdiv_eq_ediv_of_nonneg (h.interval_pos.le.trans h.interval_le)

/-- The cast keeps the ratio if and only if it is small enough. -/
theorem Accepted.slicesTotal_eq_iff (h : r.Accepted) : r.slicesTotal = r.ratio ↔ r.ratio < 2 ^ 31 := by
  have hpos := h.ratio_bounds.1
  unfold slicesTotal
  rw [h.tdiv_eq_ratio]
  constructor
  · intro heq
    have hlt := Int.bmod_lt (x := r.ratio) (m := 2 ^ 32) (by decide)
    omega
  · intro hlt
    exact Int.bmod_eq_of_le (by omega) (by omega)

/-- What all slices get, and what the last one gets on top. -/
theorem sum_sliceQty (h : 0 < r.slicesTotal) :
    ((List.range r.slicesTotal.toNat).map r.sliceQty).sum = r.totalQty := by
  obtain ⟨m, hm⟩ : ∃ m : Nat, r.slicesTotal = m + 1 := ⟨r.slicesTotal.toNat - 1, by omega⟩
  have hrange : r.slicesTotal.toNat = m + 1 := by omega
  have hfirst : ∀ i ∈ List.range m, r.sliceQty i = r.totalQty.tdiv r.slicesTotal := by
    intro i hi
    have hlt := List.mem_range.1 hi
    unfold sliceQty
    rw [if_neg (by omega)]
  have hlast : r.sliceQty m = r.totalQty.tdiv r.slicesTotal +
      (r.totalQty - r.totalQty.tdiv r.slicesTotal * r.slicesTotal) := by
    unfold sliceQty
    rw [if_pos (by omega)]
  rw [hrange, List.range_succ, List.map_append, List.sum_append, List.map_congr_left hfirst, List.map_const',
    List.sum_replicate, List.length_range, List.map_singleton, List.sum_singleton, hlast, nsmul_eq_mul, hm]
  ring

/-- The quotient, and how far all slices together get with it. -/
theorem Accepted.quotient_bounds (h : r.Accepted) (hs : 0 < r.slicesTotal) :
    0 ≤ r.totalQty.tdiv r.slicesTotal ∧
      r.totalQty.tdiv r.slicesTotal ≤ r.totalQty.tdiv r.slicesTotal * r.slicesTotal ∧
      r.totalQty.tdiv r.slicesTotal * r.slicesTotal ≤ r.totalQty := by
  have hq : 0 ≤ r.totalQty.tdiv r.slicesTotal := Int.tdiv_nonneg h.total_pos.le hs.le
  refine ⟨hq, ?_, ?_⟩
  · calc r.totalQty.tdiv r.slicesTotal = r.totalQty.tdiv r.slicesTotal * 1 := (Int.mul_one _).symm
      _ ≤ r.totalQty.tdiv r.slicesTotal * r.slicesTotal := Int.mul_le_mul_of_nonneg_left hs hq
  · rw [Int.tdiv_eq_ediv_of_nonneg h.total_pos.le]
    exact Int.ediv_mul_le _ hs.ne'

theorem Accepted.sliceQty_nonneg (h : r.Accepted) (hs : 0 < r.slicesTotal) (i : Nat) : 0 ≤ r.sliceQty i := by
  obtain ⟨hq, -, hrem⟩ := h.quotient_bounds hs
  unfold sliceQty
  dsimp only
  split <;> omega

/-- A slice is due within the duration. -/
theorem Accepted.offset_bounds (h : r.Accepted) {i : Nat} (hi : (i : Int) < r.ratio) :
    0 ≤ r.intervalSecs * i ∧ r.intervalSecs * i ≤ r.durationSecs := by
  refine ⟨Int.mul_nonneg h.interval_pos.le (Int.natCast_nonneg i), ?_⟩
  calc r.intervalSecs * i ≤ r.intervalSecs * r.ratio := Int.mul_le_mul_of_nonneg_left hi.le h.interval_pos.le
    _ ≤ r.durationSecs := Int.mul_ediv_self_le h.interval_pos.ne'

theorem Accepted.checkedAdd_eq (h : r.Accepted) (htime : r.Timely now) {i : Nat} (hi : (i : Int) < r.ratio) :
    checkedAdd now (r.intervalSecs * i) = some (now + seconds (r.intervalSecs * i)) := by
  have hone := h.ratio_bounds.1
  have hstart : Representable now := by simpa [seconds] using htime 0 (by omega)
  refine if_pos ⟨?_, htime i hi⟩
  -- a duration between two points in time is far from its own limit
  have hfirst := hstart.1
  have hlast := (htime i hi).2
  unfold minUtc at hfirst
  unfold maxUtc at hlast
  unfold seconds at hfirst hlast
  rw [abs_of_nonneg (h.offset_bounds hi).1]
  omega

theorem mapM_eq_map {α β : Type} {f : α → Option β} {g : α → β} {l : List α} (h : ∀ x ∈ l, f x = some (g x)) :
    l.mapM f = some (l.map g) := by
  induction l with
  | nil => rfl
  | cons x l ih =>
    rw [List.mapM_cons, h x List.mem_cons_self, ih fun y hy => h y (List.mem_cons_of_mem x hy)]
    rfl

/-- Below the limit every step is exact, and the numbers are those of the slices. -/
theorem Accepted.checkedSchedule_eq (h : r.Accepted) (htime : r.Timely now) (hlt : r.ratio < 2 ^ 31) :
    r.checkedSchedule now = some ((List.range r.slicesTotal.toNat).map fun i =>
      ⟨i, r.sliceQty i, now + seconds (r.intervalSecs * i)⟩) := by
  have hslices : r.slicesTotal = r.ratio := h.slicesTotal_eq_iff.2 hlt
  obtain ⟨hone, hdur⟩ := h.ratio_bounds
  obtain ⟨hq, hmul, hrem⟩ := h.quotient_bounds (by omega)
  have hduration := inI64_iff.1 h.duration_i64
  have htotal := inI64_iff.1 h.total_i64
  have checked {x : Int} (h₀ : 0 ≤ x) (h₁ : x ≤ r.durationSecs ∨ x ≤ r.totalQty) : checkedI64 x = some x :=
    checkedI64_eq_some_iff.2 ⟨inI64_iff.2 (by omega), rfl⟩
  have hratio : checkedDiv r.durationSecs r.intervalSecs = some r.ratio := by
    unfold checkedDiv
    rw [if_neg h.interval_pos.ne', h.tdiv_eq_ratio]
    exact checked (by omega) (.inl hdur)
  have hcast : checkedI32 r.ratio = some r.slicesTotal := by
    unfold checkedI32
    rw [if_pos (inI32_iff.2 (by omega)), hslices]
  have hqty : checkedDiv r.totalQty r.slicesTotal = some (r.totalQty.tdiv r.slicesTotal) := by
    unfold checkedDiv
    rw [if_neg (by omega)]
    exact checked hq (.inr (by omega))
  unfold checkedSchedule
  simp only [hratio, hcast, hqty, Option.bind_eq_bind, Option.bind_some]
  rw [checked (by omega) (.inr hrem), Option.bind_some, checked (by omega) (.inr (by omega)), Option.bind_some]
  refine mapM_eq_map fun i hi => ?_
  have hi : (i : Int) < r.ratio := by
    have hmem := List.mem_range.1 hi
    omega
  obtain ⟨hoffset, hoffset'⟩ := h.offset_bounds hi
  rw [checked hoffset (.inl hoffset'), Option.bind_some, h.checkedAdd_eq htime hi, Option.bind_some, sliceQty]
  split
  · rw [checked (by omega) (.inr (by omega)), Option.bind_some]
    rfl
  · rfl

end Arithmetic

end CreateTwapRequest

/-! ## The rows -/

section Rows

variable {env : Env} {r : CreateTwapRequest} {db : TwapDb}

theorem exec_insertChildren (r : CreateTwapRequest) {ids : Nat → Uuid} {t : Uuid} (now : Int) (n : Nat) {i : Nat}
    (hinj : Function.Injective ids) (ht : (db.twap t).isSome) (hunused : ∀ j, i ≤ j → db.child (ids j) = none) :
    ∃ db', Call.exec execTwap (insertChildren ids t r now n i) db = (.ok (), db') := by
  induction n generalizing db i with
  | zero => exact ⟨db, rfl⟩
  | succ n ih =>
    have hfree : ∀ c ∈ db.children.rows, c.id ≠ ids i ∧ c.id ≠ ids i := by
      intro c hc
      have hne := Table.find_pk_none.1 (hunused i (Nat.le_refl i)) c hc
      exact ⟨hne, hne⟩
    obtain ⟨children, hchildren⟩ :=
      Option.isSome_iff_exists.1 (Table.insert_isSome_iff (r := r.slice ids t now i).2 hfree)
    have hparent : (db.twaps.rows.any fun p => p.id == (r.slice ids t now i).twapId) = true := by
      obtain ⟨p, hp⟩ := Option.isSome_iff_exists.1 ht
      obtain ⟨hmem, hid⟩ := TwapDb.twap_some_iff.1 hp
      exact List.any_eq_true.2 ⟨p, hmem, beq_iff_eq.2 hid⟩
    have hins : execTwap (.insertChild (r.slice ids t now i)) db = (.ok (), { db with children }) := by
      simp only [execTwap]
      rw [if_pos hparent, hchildren]
    have hunused' : ∀ j, i + 1 ≤ j → TwapDb.child { db with children } (ids j) = none := by
      intro j hj
      show children.find _ = none
      rw [Table.find_insert_pk hchildren, if_neg]
      · exact hunused j (by omega)
      · intro heq
        have hji := hinj heq
        omega
    have ht' : (TwapDb.twap { db with children } t).isSome := ht
    obtain ⟨db', hrest⟩ := ih ht' hunused'
    refine ⟨db', ?_⟩
    unfold insertChildren
    exact (Call.exec_op_bind_ok hins).trans hrest

/-- What a request that passes the checks comes to. -/
theorem createTwap_eq (h : r.Accepted) : createTwap env r = (do
    Call.failIf (r.slicesTotal = 0) .panicked
    let twap : TwapIntent :=
      ⟨env.uuid 0, r.userId, r.accountId, r.tokenIn, r.tokenOut, r.totalQty, 0, r.minPrice, r.durationSecs,
        r.intervalSecs, r.slicesTotal, 0, .Active, env.now 0, none⟩
    twapSql (.insertTwap twap)
    insertChildren (env.drop 1).uuid (env.uuid 0) r (env.now 0) r.slicesTotal.toNat 0
    return twap) := by
  have hinterval := h.interval_pos
  have hle := h.interval_le
  have htotal := h.total_pos
  unfold createTwap
  rw [Call.failIf_bind, if_neg (by omega), Call.failIf_bind, if_neg (by omega), Call.failIf_bind,
    if_neg (by omega)]

/-- The slices of a request are inserted, as many as the cast leaves of them. -/
theorem exec_createTwap (h : r.Accepted) (hs : r.slicesTotal ≠ 0) (hfresh : env.FreshTwap db) :
    ∃ p db', Call.exec execTwap (createTwap env r) db = (.ok p, db') ∧
      db'.childrenOf p.id = (List.range r.slicesTotal.toNat).map
        (r.slice (env.drop 1).uuid (env.uuid 0) (env.now 0)) := by
  rw [createTwap_eq h, Call.failIf_bind, if_neg hs]
  generalize htwap : TwapIntent.mk (env.uuid 0) r.userId r.accountId r.tokenIn r.tokenOut r.totalQty 0 r.minPrice
    r.durationSecs r.intervalSecs r.slicesTotal 0 .Active (env.now 0) none = twap
  have hid : twap.id = env.uuid 0 := by rw [← htwap]
  have hfree : ∀ p ∈ db.twaps.rows, p.id ≠ twap.id ∧ p.id ≠ twap.id := by
    intro p hp
    rw [hid]
    have hne := Table.find_pk_none.1 hfresh.twap p hp
    exact ⟨hne, hne⟩
  obtain ⟨twaps, htwaps⟩ := Option.isSome_iff_exists.1 (Table.insert_isSome_iff.2 hfree)
  have hins : execTwap (.insertTwap twap) db = (.ok (), { db with twaps }) := by
    simp only [execTwap]
    rw [htwaps]
  have hparent : (TwapDb.twap { db with twaps } (env.uuid 0)).isSome := by
    show (twaps.find _).isSome
    rw [Table.find_insert_pk htwaps, if_pos hid.symm, Option.isSome_some]
  have hinj : Function.Injective (env.drop 1).uuid := by
    intro i j heq
    have hij := hfresh.distinct heq
    omega
  obtain ⟨db', hloop⟩ := exec_insertChildren r (env.now 0) r.slicesTotal.toNat (i := 0) hinj hparent
    fun j _ => hfresh.unused (j + 1)
  refine ⟨twap, db', ?_, ?_⟩
  · rw [Call.exec_op_bind_ok hins, Call.exec_bind, hloop]
    rfl
  · rw [hid, List.range_eq_range']
    refine childrenOf_new (insertChildren_ok hloop).2 (fun c hc => ?_) hfresh.unlinked
    obtain ⟨i, -, rfl⟩ := List.mem_map.1 hc
    rfl

theorem exec_createTwap_panicked (h : r.Accepted) (hs : r.slicesTotal = 0) :
    Call.exec execTwap (createTwap env r) db = (.error .panicked, db) := by
  rw [createTwap_eq h, Call.failIf_bind, if_pos hs]
  rfl

/-- The slices that are inserted are those of the request if the cast keeps their number. -/
theorem exact_slices (h : r.Accepted) {ids : Nat → Uuid} {t : Uuid} {now : Int} (hlt : r.ratio < 2 ^ 31) :
    r.Exact now ((List.range r.slicesTotal.toNat).map (r.slice ids t now)) := by
  have hone := h.ratio_bounds.1
  have hslices : r.slicesTotal = r.ratio := h.slicesTotal_eq_iff.2 hlt
  constructor
  · rw [List.length_map, List.length_range]
    show _ = r.ratio
    omega
  · rw [List.length_map, List.length_range, List.map_map]
    rfl
  · intro c hc
    obtain ⟨i, -, rfl⟩ := List.mem_map.1 hc
    exact h.sliceQty_nonneg (by omega) i
  · rw [List.map_map]
    exact CreateTwapRequest.sum_sliceQty (by omega)
  · intro c hc
    obtain ⟨i, -, rfl⟩ := List.mem_map.1 hc
    show now + seconds (r.intervalSecs * i) = now + seconds (i * r.intervalSecs)
    rw [Int.mul_comm]

/-- A request that passes the checks is scheduled as it says, by arithmetic that never goes wrong, if and only
if its duration is less than `2 ^ 31` intervals. -/
theorem createTwap_exact_iff (h : r.Accepted) (htime : r.Timely (env.now 0)) (hfresh : env.FreshTwap db) :
    (r.checkedSchedule (env.now 0)).isSome ∧
      (∃ p db', Call.exec execTwap (createTwap env r) db = (.ok p, db') ∧
        r.Exact (env.now 0) (db'.childrenOf p.id)) ↔
    r.durationSecs / r.intervalSecs < 2 ^ 31 := by
  have hone := h.ratio_bounds.1
  constructor
  · rintro ⟨-, p, db', hexec, hexact⟩
    by_cases hs : r.slicesTotal = 0
    · rw [exec_createTwap_panicked h hs] at hexec
      cases hexec
    · obtain ⟨p', db'', hexec', hchildren⟩ := exec_createTwap h hs hfresh
      rw [hexec] at hexec'
      cases hexec'
      have hcount := hexact.count
      rw [hchildren, List.length_map, List.length_range] at hcount
      refine h.slicesTotal_eq_iff.1 ?_
      show _ = r.durationSecs / r.intervalSecs
      unfold CreateTwapRequest.ratio at hone
      omega
  · intro hlt
    have hs : r.slicesTotal = r.ratio := h.slicesTotal_eq_iff.2 hlt
    obtain ⟨p, db', hexec, hchildren⟩ := exec_createTwap h (by omega) hfresh
    refine ⟨Option.isSome_of_eq_some (h.checkedSchedule_eq htime hlt), p, db', hexec, ?_⟩
    rw [hchildren]
    exact exact_slices h hlt

end Rows

def countingEnv : Env := ⟨fun n => n + 1, fun _ => 0⟩

theorem countingEnv_fresh : countingEnv.FreshTwap .empty where
  distinct := by
    intro i j heq
    exact Nat.succ.inj heq
  twap := rfl
  unused := fun _ => rfl
  unlinked := rfl

/-- A hundred over `n` seconds, a slice a second. -/
def everySecond (n : Int) : CreateTwapRequest := ⟨"u", 2, "USDC", "ETH", 100, 0, n, 1⟩

theorem everySecond_accepted {n : Int} (h : 1 ≤ n) (h' : n < 2 ^ 63) : (everySecond n).Accepted where
  interval_pos := Int.zero_lt_one
  interval_le := h
  total_pos := by simp [everySecond]
  duration_i64 := inI64_iff.2 ⟨Int.le_trans (by decide) h, h'⟩
  total_i64 := by simp [everySecond, inI64_iff]

theorem everySecond_timely {n : Int} (h : n ≤ 2 ^ 40) : (everySecond n).Timely 0 := by
  intro i hi
  have hlt : (i : Int) < n / 1 := hi
  have hscheduled : 0 + seconds ((everySecond n).intervalSecs * i) = i * 1000000 := by
    simp [everySecond, seconds]
  rw [hscheduled]
  unfold Representable minUtc maxUtc seconds
  omega

theorem createTwap_exact_three :
    ((everySecond 3).checkedSchedule 0).isSome ∧
      ∃ p db', Call.exec execTwap (createTwap countingEnv (everySecond 3)) .empty = (.ok p, db') ∧
        (everySecond 3).Exact 0 (db'.childrenOf p.id) :=
  (createTwap_exact_iff (everySecond_accepted (by decide) (by decide)) (everySecond_timely (by decide))
    countingEnv_fresh).2 (by decide)

/-- A slice a second for 68 years is accepted and has no slices, and for twice as long it is a panic. -/
theorem createTwap_truncates :
    (everySecond (2 ^ 31)).Accepted ∧ (everySecond (2 ^ 31)).Timely (countingEnv.now 0) ∧
      countingEnv.FreshTwap .empty ∧
    (∃ p db', Call.exec execTwap (createTwap countingEnv (everySecond (2 ^ 31))) .empty = (.ok p, db') ∧
      p.slicesTotal = -2 ^ 31 ∧ db'.childrenOf p.id = []) ∧
    (everySecond (2 ^ 32)).Accepted ∧ (everySecond (2 ^ 32)).Timely (countingEnv.now 0) ∧
    (Call.exec execTwap (createTwap countingEnv (everySecond (2 ^ 32))) .empty).1 = .error .panicked := by
  refine ⟨everySecond_accepted (by decide) (by decide), everySecond_timely (by decide), countingEnv_fresh,
    ⟨_, _, rfl, by decide, by decide⟩, everySecond_accepted (by decide) (by decide),
    everySecond_timely (by decide), rfl⟩

end IntentX
