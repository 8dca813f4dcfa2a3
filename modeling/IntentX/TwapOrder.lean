import Mathlib.Algebra.Order.BigOperators.Group.List
import IntentX.TwapProgress

/-!
# The outcome of a TWAP and the order of its events

Each child of a TWAP is completed or expires once, in any order.  As the children are distinct the
parent goes through a fold over the events (`processed_iff`), which is all that is looked at here.

A parent that is still active has not reached its total and has children to come (`absorb_spec`), so
after all events it is completed or failed.  It fails only if the last event is an expiry and the total
was not reached.  With both kinds of event and a total that is not reached, one order ends with a
completed child and one with an expired child, and they differ (`order_free_iff`).
-/

namespace IntentX

open Lib Machine

/-! ## The parent as a fold -/

def TwapEvent.qty : TwapEvent → Int
  | .completed _ qty _ => qty
  | _ => 0

def TwapEvent.isCompleted : TwapEvent → Bool
  | .completed .. => true
  | _ => false

def TwapEvent.isExpired : TwapEvent → Bool
  | .expired .. => true
  | _ => false

/-- The parent after the event of a child that has not come to an end. -/
def TwapIntent.absorb (p : TwapIntent) : TwapEvent → TwapIntent
  | .completed _ qty now => p.completed qty now
  | .expired _ now => p.expired now
  | .failed _ => p

/-- Every call of the run is answered. -/
def Processed (t : Uuid) (s : TwapRun) (es : List TwapEvent) : Prop :=
  Each (TwapRun.step t) (fun s e => (Call.exec execTwap (e.call t) s.db).1.isOk = true) s es

instance (t : Uuid) (s : TwapRun) (es : List TwapEvent) : Decidable (Processed t s es) :=
  inferInstanceAs (Decidable (Each _ _ _ _))

/-- What the parent has filled along the events, from `q` on. -/
def partialSums (q : Int) (es : List TwapEvent) : List Int := (es.map TwapEvent.qty).scanl (· + ·) q

/-- The events come to children that have not come to an end, one each. -/
structure Pending (db : TwapDb) (es : List TwapEvent) : Prop where
  children : ∀ e ∈ es, ∃ r, db.child e.child = some r ∧ r.status.counted = false
  distinct : (es.map (·.child)).Nodup
  kinds : ∀ e ∈ es, e.isCompleted = true ∨ e.isExpired = true

section Fold

variable {t : Uuid} {s : TwapRun} {db : TwapDb} {p : TwapIntent} {e : TwapEvent} {es : List TwapEvent}

theorem TwapDb.updateTwap_error (db : TwapDb) {f : TwapIntent → TwapIntent} {hf} (hp : db.twap t = some p)
    (hfit : (f p).fits = false) : db.updateTwap t f hf = (.error .outOfRange, db) := by
  obtain ⟨hmem, hid⟩ := TwapDb.twap_some_iff.1 hp
  unfold updateTwap
  rw [if_neg]
  intro hall
  have := List.all_eq_true.1 hall p hmem
  simp [hid, hfit] at this

theorem TwapIntent.absorb_columns (he : e.isCompleted = true ∨ e.isExpired = true) :
    (p.absorb e).totalQty = p.totalQty ∧ (p.absorb e).filledQty = p.filledQty + e.qty ∧
      (p.absorb e).slicesTotal = p.slicesTotal ∧
      (p.absorb e).slicesCompleted = p.slicesCompleted + 1 := by
  cases e with
  | completed c qty now => exact p.completed_columns qty now
  | expired c now =>
    obtain ⟨htotal, hfilled, hslots, hslices⟩ := p.expired_columns now
    exact ⟨htotal, hfilled.trans (by simp [TwapEvent.qty]), hslots, hslices⟩
  | failed c => simp [TwapEvent.isCompleted, TwapEvent.isExpired] at he

/-- A call for a child that has not come to an end is answered if the sum can be stored. -/
theorem exec_call {r : TwapChildIntent} (hr : db.child e.child = some r)
    (hst : r.status.counted = false) (hkind : e.isCompleted = true ∨ e.isExpired = true)
    (hp : db.twap t = some p) (hfit : (p.addFilled e.qty).fits = true) :
    ∃ db' st, Call.exec execTwap (e.call t) db = (.ok (), db') ∧
      Recorded t e.child st (p.absorb e) db db' := by
  have hnot : r.status ≠ .completed ∧ r.status ≠ .expired := by
    constructor <;> intro he <;> simp [ChildStatus.counted, he] at hst
  cases e with
  | completed c qty now =>
    obtain ⟨db', hx, hrec⟩ := recordChildCompleted_eq now hr hnot.1 hp hfit
    exact ⟨db', _, hx, hrec⟩
  | expired c now =>
    have hslice : p.addSlice.fits = true := by
      simpa [TwapIntent.fits, TwapIntent.addFilled, TwapIntent.addSlice, TwapEvent.qty] using hfit
    obtain ⟨db', hx, hrec⟩ := recordChildExpired_eq now hr hnot hp hslice
    exact ⟨db', _, hx, hrec⟩
  | failed c => simp [TwapEvent.isCompleted, TwapEvent.isExpired] at hkind

theorem recordChildCompleted_error {r : TwapChildIntent} {c : Uuid} {qty now : Int}
    (hr : db.child c = some r) (hst : r.status ≠ .completed) (hp : db.twap t = some p)
    (hfit : (p.addFilled qty).fits = false) :
    (Call.exec execTwap (recordChildCompleted now t c qty) db).1 = .error (.DbError .outOfRange) := by
  obtain ⟨n, hrows, hmark⟩ := execTwap_completeChild hr hst
  have hupd : execTwap (.addFilled t qty) (db.markChild c .completed) = _ :=
    TwapDb.updateTwap_error (db.markChild c .completed) hp hfit
  unfold recordChildCompleted
  rw [Call.exec_op_bind_ok hmark, Call.exec_doIf, if_pos hrows, Call.exec_op_bind_error hupd]

theorem recordChildExpired_error {r : TwapChildIntent} {c : Uuid} {now : Int}
    (hr : db.child c = some r) (hst : r.status ≠ .completed ∧ r.status ≠ .expired)
    (hp : db.twap t = some p) (hfit : p.addSlice.fits = false) :
    (Call.exec execTwap (recordChildExpired now t c) db).1 = .error (.DbError .outOfRange) := by
  obtain ⟨n, hrows, hmark⟩ := execTwap_expireChild hr hst
  have hupd : execTwap (.addSlice t) (db.markChild c .expired) = _ :=
    TwapDb.updateTwap_error (db.markChild c .expired) hp hfit
  unfold recordChildExpired
  rw [Call.exec_op_bind_ok hmark, Call.exec_doIf, if_pos hrows, Call.exec_op_bind_error hupd]

/-- And only then. -/
theorem exec_call_error {r : TwapChildIntent} (hr : db.child e.child = some r)
    (hst : r.status.counted = false) (hkind : e.isCompleted = true ∨ e.isExpired = true)
    (hp : db.twap t = some p) (hfit : (p.addFilled e.qty).fits = false) :
    (Call.exec execTwap (e.call t) db).1.isOk = false := by
  have hnot : r.status ≠ .completed ∧ r.status ≠ .expired := by
    constructor <;> intro he <;> simp [ChildStatus.counted, he] at hst
  cases e with
  | completed c qty now =>
    have herr : (Call.exec execTwap (recordChildCompleted now t c qty) db).1 = _ :=
      recordChildCompleted_error hr hnot.1 hp hfit
    exact congrArg Except.isOk herr
  | expired c now =>
    have hslice : p.addSlice.fits = false := by
      simpa [TwapIntent.fits, TwapIntent.addFilled, TwapIntent.addSlice, TwapEvent.qty] using hfit
    have herr : (Call.exec execTwap (recordChildExpired now t c) db).1 = _ :=
      recordChildExpired_error hr hnot hp hslice
    exact congrArg Except.isOk herr
  | failed c => simp [TwapEvent.isCompleted, TwapEvent.isExpired] at hkind

/-- A call for one child leaves the rows of the others alone. -/
theorem Recorded.child_ne {db' : TwapDb} {id c : Uuid} {st : ChildStatus} {p' : TwapIntent}
    (h : Recorded t id st p' db db') (hne : c ≠ id) : db'.child c = db.child c := by
  have hfind : db'.child c = (db.child c).map fun x =>
      if decide (x.id = id) = true then { x with status := st } else x := by
    unfold TwapDb.child
    rw [h.children]
    exact Table.find_update_pk (t := db.children) (fun x => x.id = id)
      (fun x => { x with status := st }) (fun _ => ⟨rfl, rfl⟩) c
  rw [hfind]
  cases hc : db.child c with
  | none => rfl
  | some x =>
    have hid := (TwapDb.child_some_iff.1 hc).2
    simp [hid, hne]

theorem Pending.after {db' : TwapDb} {st : ChildStatus} {p' : TwapIntent} (h : Pending db (e :: es))
    (hrec : Recorded t e.child st p' db db') : Pending db' es := by
  have hdistinct := h.distinct
  rw [List.map_cons, List.nodup_cons] at hdistinct
  refine ⟨fun x hx => ?_, hdistinct.2, fun x hx => h.kinds x (List.mem_cons_of_mem _ hx)⟩
  have hne : x.child ≠ e.child := fun he => hdistinct.1 (he ▸ List.mem_map_of_mem hx)
  rw [hrec.child_ne hne]
  exact h.children x (List.mem_cons_of_mem _ hx)

@[simp] theorem forall_partialSums_nil {P : Int → Prop} {q : Int} :
    (∀ x ∈ partialSums q [], P x) ↔ P q := by
  simp [partialSums]

@[simp] theorem forall_partialSums_cons {P : Int → Prop} {q : Int} :
    (∀ x ∈ partialSums q (e :: es), P x) ↔ P q ∧ ∀ x ∈ partialSums (q + e.qty) es, P x := by
  simp [partialSums]

/-- The first sum has the property too. -/
theorem of_partialSums {P : Int → Prop} {q : Int} (h : ∀ x ∈ partialSums q es, P x) : P q := by
  cases es with
  | nil => exact forall_partialSums_nil.1 h
  | cons e es => exact (forall_partialSums_cons.1 h).1

/-- All events are processed if every sum can be stored, and the parent then goes through the fold. -/
theorem processed_iff (h : Pending db es) (hp : db.twap t = some p) (hrange : inI64 p.filledQty = true)
    (hslices : 0 ≤ p.slicesCompleted ∧ p.slicesCompleted + es.length < 2 ^ 31)
    (log : List TwapEvent) :
    (Processed t ⟨db, log⟩ es ↔ ∀ q ∈ partialSums p.filledQty es, inI64 q = true) ∧
      (Processed t ⟨db, log⟩ es →
        (run (TwapRun.step t) ⟨db, log⟩ es).db.twap t = some (es.foldl TwapIntent.absorb p)) := by
  induction es generalizing db p log with
  | nil => exact ⟨iff_of_true trivial (forall_partialSums_nil.2 hrange), fun _ => hp⟩
  | cons e es ih =>
    obtain ⟨r, hr, hst⟩ := h.children e List.mem_cons_self
    have hkind := h.kinds e List.mem_cons_self
    rw [List.length_cons] at hslices
    have hfits : (p.addFilled e.qty).fits = inI64 (p.filledQty + e.qty) := by
      have hin : inI32 (p.slicesCompleted + 1) = true := inI32_iff.2 (by omega)
      simp [TwapIntent.fits, TwapIntent.addFilled, hin]
    by_cases hfit : inI64 (p.filledQty + e.qty) = true
    · obtain ⟨db', st, hx, hrec⟩ := exec_call hr hst hkind hp (hfits.trans hfit)
      obtain ⟨-, hfilled, -, hcount⟩ := p.absorb_columns hkind
      obtain ⟨hiff, hrun⟩ := ih (h.after hrec) hrec.parent (hfilled ▸ hfit)
        (by omega) (log ++ [e])
      have hstep : TwapRun.step t ⟨db, log⟩ e = ⟨db', log ++ [e]⟩ := by
        unfold TwapRun.step
        rw [hx]
      have hok : (Call.exec execTwap (e.call t) db).1.isOk = true := by
        rw [hx]
        rfl
      have hcons : Processed t ⟨db, log⟩ (e :: es) ↔ Processed t ⟨db', log ++ [e]⟩ es := by
        rw [← hstep]
        exact and_iff_right hok
      rw [hcons, forall_partialSums_cons, and_iff_right hrange, ← hfilled, run_cons, hstep]
      exact ⟨hiff, hrun⟩
    · have hno : ¬ Processed t ⟨db, log⟩ (e :: es) := by
        intro hproc
        have herr := exec_call_error hr hst hkind hp (hfits.trans (by simpa using hfit))
        exact Bool.false_ne_true (herr.symm.trans hproc.1)
      have hnot : ¬ ∀ q ∈ partialSums p.filledQty (e :: es), inI64 q = true := by
        intro hall
        exact hfit (of_partialSums (forall_partialSums_cons.1 hall).2)
      exact ⟨iff_of_false hno hnot, fun hproc => absurd hproc hno⟩

end Fold

/-! ## The outcome -/

/-- The sums stay below the total. -/
def Below (p : TwapIntent) (es : List TwapEvent) : Prop :=
  ∀ q ∈ partialSums p.filledQty es, q < p.totalQty

/-- The last event is an expiry. -/
def LastExpired (es : List TwapEvent) : Prop := ∃ e ∈ es.getLast?, e.isExpired = true

section Outcome

variable {p : TwapIntent} {e : TwapEvent} {es : List TwapEvent}

theorem TwapIntent.absorb_closed (h : p.status ≠ .Active) : (p.absorb e).status = p.status := by
  cases e with
  | completed c qty now => exact completed_status.trans (if_neg fun hc => h hc.1)
  | expired c now => exact expired_status.trans (if_neg fun hc => h hc.1)
  | failed c => rfl

theorem foldl_absorb_closed (h : p.status ≠ .Active) :
    (es.foldl TwapIntent.absorb p).status = p.status := by
  induction es generalizing p with
  | nil => rfl
  | cons e es ih =>
    have hstep := p.absorb_closed (e := e) h
    rw [List.foldl_cons, ih (hstep ▸ h), hstep]

/-- The total is reached. -/
theorem TwapIntent.absorb_reached (hact : p.status = .Active) (hbelow : p.filledQty < p.totalQty)
    (hreach : p.totalQty ≤ p.filledQty + e.qty) : (p.absorb e).status = .Completed := by
  cases e with
  | completed c qty now => exact completed_status.trans (if_pos ⟨hact, .inl hreach⟩)
  | expired c now =>
    simp only [TwapEvent.qty] at hreach
    omega
  | failed c =>
    simp only [TwapEvent.qty] at hreach
    omega

/-- The total is not reached and there are slices to come. -/
theorem TwapIntent.absorb_open (hact : p.status = .Active)
    (hbelow : p.filledQty + e.qty < p.totalQty) (hslots : p.slicesCompleted + 1 < p.slicesTotal) :
    (p.absorb e).status = .Active := by
  cases e with
  | completed c qty now =>
    have hnot : ¬ (p.totalQty ≤ p.filledQty + qty ∨ p.slicesTotal ≤ p.slicesCompleted + 1) := by
      simp only [TwapEvent.qty] at hbelow
      omega
    exact (completed_status.trans (if_neg fun hc => hnot hc.2)).trans hact
  | expired c now =>
    exact (expired_status.trans (if_neg fun hc => hslots.not_ge hc.2.1)).trans hact
  | failed c => exact hact

/-- The last slice decides by its own test. -/
theorem TwapIntent.absorb_last (hkind : e.isCompleted = true ∨ e.isExpired = true)
    (hact : p.status = .Active) (hbelow : p.filledQty + e.qty < p.totalQty)
    (hslots : p.slicesCompleted + 1 = p.slicesTotal) :
    (p.absorb e).status = if e.isExpired = true then .Failed else .Completed := by
  cases e with
  | completed c qty now => exact completed_status.trans (if_pos ⟨hact, .inr hslots.ge⟩)
  | expired c now =>
    simp only [TwapEvent.qty, add_zero] at hbelow
    exact expired_status.trans (if_pos ⟨hact, hslots.ge, hbelow⟩)
  | failed c => simp [TwapEvent.isCompleted, TwapEvent.isExpired] at hkind

theorem below_cons (hkind : e.isCompleted = true ∨ e.isExpired = true) (hbelow : p.filledQty < p.totalQty) :
    Below p (e :: es) ↔ Below (p.absorb e) es := by
  obtain ⟨htotal, hfilled, -, -⟩ := p.absorb_columns hkind
  unfold Below
  rw [forall_partialSums_cons, hfilled, htotal]
  exact and_iff_right hbelow

theorem not_below_of_reached (hreach : p.totalQty ≤ p.filledQty + e.qty) : ¬ Below p (e :: es) := by
  intro hall
  have := of_partialSums (forall_partialSums_cons.1 hall).2
  omega

theorem lastExpired_singleton : LastExpired [e] ↔ e.isExpired = true := by
  simp [LastExpired]

theorem lastExpired_cons_cons {e' : TwapEvent} : LastExpired (e :: e' :: es) ↔ LastExpired (e' :: es) := by
  unfold LastExpired
  rw [List.getLast?_cons_cons]

/-- After all events the parent is closed, and it failed just if the total was never reached and the
last event is an expiry. -/
theorem foldl_absorb_status (hne : es ≠ []) (hkind : ∀ e ∈ es, e.isCompleted = true ∨ e.isExpired = true)
    (hact : p.status = .Active) (hbelow : p.filledQty < p.totalQty)
    (hslots : p.slicesCompleted + es.length = p.slicesTotal) :
    (es.foldl TwapIntent.absorb p).status = .Failed ∧ Below p es ∧ LastExpired es ∨
      (es.foldl TwapIntent.absorb p).status = .Completed ∧ ¬ (Below p es ∧ LastExpired es) := by
  induction es generalizing p with
  | nil => exact absurd rfl hne
  | cons e es ih =>
    have he := hkind e List.mem_cons_self
    obtain ⟨htotal, hfilled, hslots', hslices⟩ := p.absorb_columns he
    rw [List.length_cons] at hslots
    rw [List.foldl_cons]
    by_cases hreach : p.totalQty ≤ p.filledQty + e.qty
    · have hdone := p.absorb_reached hact hbelow hreach
      right
      rw [foldl_absorb_closed (hdone ▸ nofun), hdone]
      exact ⟨rfl, fun h => not_below_of_reached hreach h.1⟩
    · have hless : p.filledQty + e.qty < p.totalQty := by omega
      cases es with
      | nil =>
        have hall : Below p [e] :=
          forall_partialSums_cons.2 ⟨hbelow, forall_partialSums_nil.2 hless⟩
        rw [List.foldl_nil, p.absorb_last he hact hless (by simpa using hslots), lastExpired_singleton]
        by_cases hexp : e.isExpired = true
        · rw [if_pos hexp]
          exact .inl ⟨rfl, hall, hexp⟩
        · rw [if_neg hexp]
          exact .inr ⟨rfl, fun h => hexp h.2⟩
      | cons e' es =>
        rw [List.length_cons] at hslots
        have hopen := p.absorb_open hact hless (by push_cast at hslots; omega)
        rw [below_cons he hbelow, lastExpired_cons_cons]
        apply ih (List.cons_ne_nil _ _) (fun x hx => hkind x (List.mem_cons_of_mem _ hx)) hopen
          (by omega)
        rw [List.length_cons]
        push_cast at hslots ⊢
        omega

theorem foldl_absorb_filled (hkind : ∀ e ∈ es, e.isCompleted = true ∨ e.isExpired = true) :
    (es.foldl TwapIntent.absorb p).filledQty = p.filledQty + (es.map TwapEvent.qty).sum := by
  induction es generalizing p with
  | nil => simp
  | cons e es ih =>
    obtain ⟨-, hfilled, -, -⟩ := p.absorb_columns (hkind e List.mem_cons_self)
    rw [List.foldl_cons, ih fun x hx => hkind x (List.mem_cons_of_mem _ hx), hfilled, List.map_cons,
      List.sum_cons]
    ring

theorem qty_of_not_completed (he : ¬ e.isCompleted = true) : e.qty = 0 := by
  cases e with
  | completed c qty now => exact absurd rfl he
  | expired c now => rfl
  | failed c => rfl

/-- An expiry adds nothing. -/
theorem forall_partialSums_filter {P : Int → Prop} {q : Int}
    (hkind : ∀ e ∈ es, e.isCompleted = true ∨ e.isExpired = true) :
    (∀ x ∈ partialSums q es, P x) ↔ ∀ x ∈ partialSums q (es.filter (·.isCompleted)), P x := by
  induction es generalizing q with
  | nil => exact Iff.rfl
  | cons e es ih =>
    have hes := ih (q := q + e.qty) fun x hx => hkind x (List.mem_cons_of_mem _ hx)
    rw [forall_partialSums_cons, hes]
    by_cases he : e.isCompleted = true
    · rw [List.filter_cons_of_pos he, forall_partialSums_cons]
    · rw [List.filter_cons_of_neg he]
      rw [qty_of_not_completed he, add_zero]
      exact and_iff_right_of_imp of_partialSums

theorem sum_mem_partialSums (q : Int) (es : List TwapEvent) :
    q + (es.map TwapEvent.qty).sum ∈ partialSums q es := by
  induction es generalizing q with
  | nil => simp [partialSums]
  | cons e es ih =>
    have hrest := ih (q + e.qty)
    rw [List.map_cons, List.sum_cons, ← add_assoc]
    unfold partialSums at hrest ⊢
    rw [List.map_cons, List.scanl_cons]
    exact List.mem_cons_of_mem _ hrest

/-- Sums of quantities that are not negative. -/
theorem partialSums_bounds {q : Int} (hqty : ∀ e ∈ es, 0 ≤ e.qty) :
    ∀ x ∈ partialSums q es, q ≤ x ∧ x ≤ q + (es.map TwapEvent.qty).sum := by
  induction es generalizing q with
  | nil => simp
  | cons e es ih =>
    have he := hqty e List.mem_cons_self
    have hes := fun x hx => hqty x (List.mem_cons_of_mem _ hx)
    have hsum := List.sum_nonneg (l := es.map TwapEvent.qty) fun x hx => by
      obtain ⟨y, hy, rfl⟩ := List.mem_map.1 hx
      exact hes y hy
    rw [List.map_cons, List.sum_cons, forall_partialSums_cons]
    refine ⟨by omega, fun x hx => ?_⟩
    have := ih hes x hx
    omega

end Outcome

/-! ## Orders -/

/-- The status and the filled quantity of the parent. -/
def TwapRun.outcome (t : Uuid) (s : TwapRun) : Option (TwapStatus × Int) :=
  (s.db.twap t).map fun p => (p.status, p.filledQty)

/-- All orders in which every event is processed have the same outcome. -/
def OrderFree (t : Uuid) (db : TwapDb) (es : List TwapEvent) : Prop :=
  ∀ l l', l.Perm es → l'.Perm es → Processed t ⟨db, []⟩ l → Processed t ⟨db, []⟩ l' →
    (run (TwapRun.step t) ⟨db, []⟩ l).outcome t = (run (TwapRun.step t) ⟨db, []⟩ l').outcome t

/-- The completed quantities can be added up in an order that stays below the total. -/
def StaysBelow (p : TwapIntent) (es : List TwapEvent) : Prop :=
  ∃ l, l.Perm (es.filter (·.isCompleted)) ∧
    ∀ q ∈ partialSums 0 l, inI64 q = true ∧ q < p.totalQty

/-- One event for each child. -/
structure OneEach (db : TwapDb) (t : Uuid) (es : List TwapEvent) : Prop where
  children : (es.map (·.child)).Perm ((db.childrenOf t).map (·.id))
  kinds : ∀ e ∈ es, e.isCompleted = true ∨ e.isExpired = true

section Order

variable {t : Uuid} {db : TwapDb} {p : TwapIntent} {es l : List TwapEvent}

theorem OneEach.of_perm (h : OneEach db t es) (hl : l.Perm es) : OneEach db t l where
  children := (hl.map _).trans h.children
  kinds := fun e he => h.kinds e (hl.mem_iff.1 he)

theorem OneEach.pending (h : OneEach db t es) (hs : Scheduled db t p) : Pending db es where
  children := by
    intro e he
    obtain ⟨r, hr, hid⟩ := List.mem_map.1 (h.children.mem_iff.1 (List.mem_map_of_mem he))
    refine ⟨r, hid ▸ (mem_childrenOf.1 hr).1, ?_⟩
    have := hs.children r hr
    cases hst : r.status <;> simp_all [ChildStatus.unfinished, ChildStatus.counted]
  distinct := h.children.nodup_iff.2 (childrenOf_nodup db t)
  kinds := h.kinds

theorem OneEach.length (h : OneEach db t es) (hs : Scheduled db t p) :
    (es.length : Int) = p.slicesTotal := by
  have hlen := h.children.length_eq
  rw [List.length_map, List.length_map] at hlen
  rw [hs.slots, hlen]

theorem OneEach.ne_nil (h : OneEach db t es) (hs : Scheduled db t p) : es ≠ [] := by
  intro hnil
  have hlen := h.length hs
  have hpos := hs.range.1
  rw [hnil] at hlen
  simp only [List.length_nil] at hlen
  omega

theorem OneEach.processed_iff (h : OneEach db t es) (hs : Scheduled db t p) :
    (Processed t ⟨db, []⟩ es ↔ ∀ q ∈ partialSums 0 es, inI64 q = true) ∧
      (Processed t ⟨db, []⟩ es → (run (TwapRun.step t) ⟨db, []⟩ es).outcome t =
        some ((es.foldl TwapIntent.absorb p).status, (es.map TwapEvent.qty).sum)) := by
  have hlen := h.length hs
  have hsmall := hs.range.2
  have hslices := hs.slices
  have hrange : inI64 p.filledQty = true := by
    rw [hs.filled]
    rfl
  obtain ⟨hiff, hrun⟩ := IntentX.processed_iff (h.pending hs) hs.row hrange (by omega) []
  rw [hs.filled] at hiff
  refine ⟨hiff, fun hproc => ?_⟩
  unfold TwapRun.outcome
  rw [hrun hproc, Option.map_some, foldl_absorb_filled h.kinds, hs.filled, zero_add]

/-- The verdict on the parent. -/
theorem OneEach.status (h : OneEach db t es) (hs : Scheduled db t p) :
    (es.foldl TwapIntent.absorb p).status = .Failed ∧ Below p es ∧ LastExpired es ∨
      (es.foldl TwapIntent.absorb p).status = .Completed ∧ ¬ (Below p es ∧ LastExpired es) := by
  have htotal := hs.total
  have hlen := h.length hs
  have hfilled := hs.filled
  have hslices := hs.slices
  exact foldl_absorb_status (h.ne_nil hs) h.kinds hs.status (by omega) (by omega)

/-- Where all orders are judged alike, the order does not matter. -/
theorem orderFree_of_verdict {K : Prop} (h : OneEach db t es) (hs : Scheduled db t p)
    (hK : ∀ l, l.Perm es → Processed t ⟨db, []⟩ l → ((Below p l ∧ LastExpired l) ↔ K)) :
    OrderFree t db es := by
  intro l l' hl hl' hproc hproc'
  have h₁ := h.of_perm hl
  have h₂ := h.of_perm hl'
  rw [(h₁.processed_iff hs).2 hproc, (h₂.processed_iff hs).2 hproc', ((hl.trans hl'.symm).map _).sum_eq]
  have hiff := (hK l hl hproc).trans (hK l' hl' hproc').symm
  have hstatus : (l.foldl TwapIntent.absorb p).status = (l'.foldl TwapIntent.absorb p).status := by
    rcases h₁.status hs with ⟨hst, hfail⟩ | ⟨hst, hfail⟩ <;>
      rcases h₂.status hs with ⟨hst', hfail'⟩ | ⟨hst', hfail'⟩
    · rw [hst, hst']
    · exact absurd (hiff.1 hfail) hfail'
    · exact absurd (hiff.2 hfail') hfail
    · rw [hst, hst']
  rw [hstatus]

/-- What comes last in an order. -/
theorem lastExpired_append {l' : List TwapEvent} (hne : l' ≠ []) :
    LastExpired (l ++ l') ↔ LastExpired l' := by
  unfold LastExpired
  rw [List.getLast?_append]
  obtain ⟨e, he⟩ := Option.isSome_iff_exists.1 (List.getLast?_isSome.2 hne)
  rw [he, Option.some_or]

theorem lastExpired_of_forall (hne : l ≠ []) (hl : ∀ e ∈ l, e.isExpired = true) : LastExpired l := by
  obtain ⟨e, he⟩ := Option.isSome_iff_exists.1 (List.getLast?_isSome.2 hne)
  exact ⟨e, he, hl e (List.mem_of_getLast? he)⟩

theorem not_lastExpired_of_forall (hl : ∀ e ∈ l, e.isCompleted = true) : ¬ LastExpired l := by
  rintro ⟨e, he, hexp⟩
  have hcomp := hl e (List.mem_of_getLast? he)
  cases e <;> simp_all [TwapEvent.isCompleted, TwapEvent.isExpired]

/-- An order of the completed children that stays below the total, with the expired ones before or
after it. -/
theorem not_orderFree (h : OneEach db t es) (hs : Scheduled db t p)
    (hcomp : ¬ ∀ e ∈ es, e.isCompleted = true) (hexp : ¬ ∀ e ∈ es, e.isExpired = true)
    (hlow : StaysBelow p es) : ¬ OrderFree t db es := by
  obtain ⟨c, hperm, hc⟩ := hlow
  have hcc : ∀ e ∈ c, e.isCompleted = true := fun e he => (List.mem_filter.1 (hperm.mem_iff.1 he)).2
  have hxe : ∀ e ∈ es.filter (fun e => !e.isCompleted), e.isExpired = true := by
    intro e he
    obtain ⟨he, hn⟩ := List.mem_filter.1 he
    exact (h.kinds e he).resolve_left (by simpa using hn)
  have hcne : c ≠ [] := by
    intro hnil
    rw [hnil, List.nil_perm, List.filter_eq_nil_iff] at hperm
    exact hexp fun e he => (h.kinds e he).resolve_left (hperm e he)
  have hxne : es.filter (fun e => !e.isCompleted) ≠ [] := by
    intro hnil
    rw [List.filter_eq_nil_iff] at hnil
    exact hcomp fun e he => by simpa using hnil e he
  have hafter : (c ++ es.filter fun e => !e.isCompleted).Perm es :=
    (hperm.append_right _).trans (List.filter_append_perm _ _)
  have hbefore : ((es.filter fun e => !e.isCompleted) ++ c).Perm es :=
    List.perm_append_comm.trans hafter
  -- both have the sums of `c`
  have hsums : ∀ l, l.Perm es → l.filter (·.isCompleted) = c →
      Processed t ⟨db, []⟩ l ∧ Below p l := by
    intro l hl hfilter
    have hl' := h.of_perm hl
    rw [(hl'.processed_iff hs).1, Below, hs.filled, forall_partialSums_filter hl'.kinds,
      forall_partialSums_filter hl'.kinds, hfilter]
    exact ⟨fun q hq => (hc q hq).1, fun q hq => (hc q hq).2⟩
  have hfc : c.filter (·.isCompleted) = c := List.filter_eq_self.2 hcc
  have hfx : (es.filter fun e => !e.isCompleted).filter (·.isCompleted) = [] := by
    simp
  obtain ⟨hproc₁, hbelow₁⟩ := hsums _ hafter (by rw [List.filter_append, hfc, hfx, List.append_nil])
  obtain ⟨hproc₂, -⟩ := hsums _ hbefore (by rw [List.filter_append, hfc, hfx, List.nil_append])
  have hlast₁ : LastExpired (c ++ es.filter fun e => !e.isCompleted) :=
    (lastExpired_append hxne).2 (lastExpired_of_forall hxne hxe)
  have hlast₂ : ¬ LastExpired ((es.filter fun e => !e.isCompleted) ++ c) := by
    rw [lastExpired_append hcne]
    exact not_lastExpired_of_forall hcc
  intro hfree
  have heq := hfree _ _ hafter hbefore hproc₁ hproc₂
  have h₁ := h.of_perm hafter
  have h₂ := h.of_perm hbefore
  rw [(h₁.processed_iff hs).2 hproc₁, (h₂.processed_iff hs).2 hproc₂] at heq
  obtain ⟨hst₁, -⟩ := (h₁.status hs).resolve_right fun hn => hn.2 ⟨hbelow₁, hlast₁⟩
  obtain ⟨hst₂, -⟩ := (h₂.status hs).resolve_left fun hn => hlast₂ hn.2.2
  rw [hst₁, hst₂] at heq
  cases heq

/-- The outcome does not depend on the order just if all children are completed, or all expire, or
the completed quantities reach the total in whatever order they are added up. -/
theorem order_free_iff (t : Uuid) (db : TwapDb) (p : TwapIntent) (es : List TwapEvent)
    (hs : Scheduled db t p) (h : OneEach db t es) :
    OrderFree t db es ↔
      (∀ e ∈ es, e.isCompleted = true) ∨ (∀ e ∈ es, e.isExpired = true) ∨ ¬ StaysBelow p es := by
  constructor
  · intro hfree
    by_contra hno
    simp only [not_or, not_not] at hno
    exact not_orderFree h hs hno.1 hno.2.1 hno.2.2 hfree
  · rintro (hcomp | hexp | hreach)
    · refine orderFree_of_verdict (K := False) h hs fun l hl _ => iff_of_false (fun hv => ?_) id
      exact not_lastExpired_of_forall (fun e he => hcomp e (hl.mem_iff.1 he)) hv.2
    · refine orderFree_of_verdict (K := True) h hs fun l hl _ => iff_of_true ⟨?_, ?_⟩ trivial
      · have hnil : l.filter (·.isCompleted) = [] := by
          rw [List.filter_eq_nil_iff]
          intro e he hce
          have hee := hexp e (hl.mem_iff.1 he)
          cases e <;> simp_all [TwapEvent.isCompleted, TwapEvent.isExpired]
        have htotal := hs.total
        rw [Below, forall_partialSums_filter (h.of_perm hl).kinds, hnil, forall_partialSums_nil,
          hs.filled]
        exact htotal
      · exact lastExpired_of_forall ((h.of_perm hl).ne_nil hs) fun e he => hexp e (hl.mem_iff.1 he)
    · refine orderFree_of_verdict (K := False) h hs fun l hl hproc => iff_of_false (fun hv => ?_) id
      have hl' := h.of_perm hl
      have hrange := (hl'.processed_iff hs).1.1 hproc
      have hbelow := hv.1
      rw [Below, hs.filled] at hbelow
      rw [forall_partialSums_filter hl'.kinds] at hrange hbelow
      exact hreach ⟨_, hl.filter _, fun q hq => ⟨hrange q hq, hbelow q hq⟩⟩

/-- For quantities that are not negative the condition is on their sum. -/
theorem staysBelow_iff (hkind : ∀ e ∈ es, e.isCompleted = true ∨ e.isExpired = true)
    (hqty : ∀ e ∈ es, 0 ≤ e.qty) (htotal : inI64 p.totalQty = true) :
    StaysBelow p es ↔ (es.map TwapEvent.qty).sum < p.totalQty := by
  have hsum : ((es.filter (·.isCompleted)).map TwapEvent.qty).sum = (es.map TwapEvent.qty).sum := by
    clear hqty
    induction es with
    | nil => rfl
    | cons e es ih =>
      have ih := ih fun x hx => hkind x (List.mem_cons_of_mem _ hx)
      by_cases he : e.isCompleted = true
      · rw [List.filter_cons_of_pos he, List.map_cons, List.map_cons, List.sum_cons, List.sum_cons, ih]
      · rw [List.filter_cons_of_neg he, ih, List.map_cons, List.sum_cons, qty_of_not_completed he,
          zero_add]
  rw [← hsum]
  constructor
  · rintro ⟨l, hperm, hl⟩
    rw [← (hperm.map _).sum_eq]
    have hlast := (hl _ (sum_mem_partialSums 0 l)).2
    rwa [zero_add] at hlast
  · intro hlt
    refine ⟨_, .refl _, fun q hq => ?_⟩
    have hbounds := partialSums_bounds (fun e he => hqty e (List.mem_of_mem_filter he)) q hq
    rw [inI64_iff] at htotal ⊢
    omega

end Order

/-- Both slices are completed. -/
theorem order_free_demo : OrderFree 1 twapDemo [.completed 11 40 1, .completed 12 30 2] :=
  (order_free_iff 1 twapDemo twapDemoParent _ twapDemo_scheduled
    ⟨by decide +kernel, by decide +kernel⟩).2 (.inl (by decide))

/-- One slice is completed with 40 and the other expires: the TWAP fails if the expiry comes last, and
is completed if it comes first. -/
theorem twap_order_matters :
    ¬ ∀ (t : Uuid) (db : TwapDb) (p : TwapIntent) (es : List TwapEvent), Scheduled db t p →
      OneEach db t es → OrderFree t db es := by
  intro h
  have heq := h 1 twapDemo twapDemoParent [.completed 11 40 1, .expired 12 2] twapDemo_scheduled
    ⟨by decide +kernel, by decide +kernel⟩ [.completed 11 40 1, .expired 12 2]
    [.expired 12 2, .completed 11 40 1] (.refl _) (.swap _ _ _) (by decide +kernel)
    (by decide +kernel)
  exact absurd heq (by decide +kernel)

end IntentX
