import IntentX.Twap
import IntentX.Lib.Machine

/-!
# The progress of a TWAP

What the `record_child_…` calls do to a TWAP, call by call and over whole runs.  A call that finds its
child in a state it records changes the child by one `UPDATE` and the counters of the parent by
another; a call that does not is over (`recordChildCompleted_eq` and its like).  So the counters are
sums over the children (`Tracks`), as long as no child is counted twice, none is uncounted, and
Postgres can store the sum.

`record_child_failed` does not look at the parent, and the two other calls close it by the counters
alone, in which a failed child does not appear: the parent stays active when all its children are at
an end and one of them failed, unless the whole quantity was filled.
-/

namespace IntentX

open Lib

/-! ## What a call does to the rows -/

/-- The parent after a completed child, for a row that can be stored. -/
def TwapIntent.completed (p : TwapIntent) (qty now : Int) : TwapIntent :=
  let p := p.addFilled qty
  if p.totalQty ≤ p.filledQty ∨ p.slicesTotal ≤ p.slicesCompleted then p.finish .Completed now else p

/-- The parent after an expired child. -/
def TwapIntent.expired (p : TwapIntent) (now : Int) : TwapIntent :=
  let p := p.addSlice
  if p.slicesTotal ≤ p.slicesCompleted ∧ p.filledQty < p.totalQty then p.finish .Failed now else p

section Parent

variable {p : TwapIntent} {qty now : Int} {st : TwapStatus}

theorem TwapIntent.finish_columns :
    (p.finish st now).totalQty = p.totalQty ∧ (p.finish st now).filledQty = p.filledQty ∧
      (p.finish st now).slicesTotal = p.slicesTotal ∧
      (p.finish st now).slicesCompleted = p.slicesCompleted := by
  unfold finish
  split <;> exact ⟨rfl, rfl, rfl, rfl⟩

theorem TwapIntent.finish_status :
    (p.finish st now).status = if p.status = .Active then st else p.status := by
  unfold finish
  split <;> rfl

theorem TwapIntent.completed_columns (p : TwapIntent) (qty now : Int) :
    (p.completed qty now).totalQty = p.totalQty ∧
      (p.completed qty now).filledQty = p.filledQty + qty ∧
      (p.completed qty now).slicesTotal = p.slicesTotal ∧
      (p.completed qty now).slicesCompleted = p.slicesCompleted + 1 := by
  unfold completed
  simp only
  split
  · exact finish_columns
  · exact ⟨rfl, rfl, rfl, rfl⟩

theorem TwapIntent.expired_columns (p : TwapIntent) (now : Int) :
    (p.expired now).totalQty = p.totalQty ∧ (p.expired now).filledQty = p.filledQty ∧
      (p.expired now).slicesTotal = p.slicesTotal ∧
      (p.expired now).slicesCompleted = p.slicesCompleted + 1 := by
  unfold expired
  simp only
  split
  · exact finish_columns
  · exact ⟨rfl, rfl, rfl, rfl⟩

theorem TwapIntent.completed_status :
    (p.completed qty now).status =
      if p.status = .Active ∧ (p.totalQty ≤ p.filledQty + qty ∨ p.slicesTotal ≤ p.slicesCompleted + 1)
      then .Completed else p.status := by
  unfold completed addFilled
  dsimp only
  by_cases hc : p.totalQty ≤ p.filledQty + qty ∨ p.slicesTotal ≤ p.slicesCompleted + 1
  · rw [if_pos hc, finish_status]
    simp only [hc, and_true]
  · rw [if_neg hc]
    simp only [hc, and_false, if_false]

theorem TwapIntent.expired_status :
    (p.expired now).status =
      if p.status = .Active ∧ p.slicesTotal ≤ p.slicesCompleted + 1 ∧ p.filledQty < p.totalQty
      then .Failed else p.status := by
  unfold expired addSlice
  dsimp only
  by_cases hc : p.slicesTotal ≤ p.slicesCompleted + 1 ∧ p.filledQty < p.totalQty
  · rw [if_pos hc, finish_status]
    simp only [hc, and_true]
  · rw [if_neg hc]
    simp only [hc, and_false, if_false]

/-- A parent that is active after a completed child was so before, and neither test is met. -/
theorem TwapIntent.completed_active (h : (p.completed qty now).status = .Active) :
    p.status = .Active ∧ p.filledQty + qty < p.totalQty ∧ p.slicesCompleted + 1 < p.slicesTotal := by
  rw [completed_status] at h
  split at h
  case isTrue => cases h
  next hc => exact ⟨h, by grind⟩

theorem TwapIntent.expired_active (h : (p.expired now).status = .Active) :
    p.status = .Active ∧ (p.filledQty < p.totalQty → p.slicesCompleted + 1 < p.slicesTotal) := by
  rw [expired_status] at h
  split at h
  case isTrue => cases h
  next hc => exact ⟨h, by grind⟩

end Parent

/-- The row of one child gets a status. -/
abbrev TwapDb.markChild (db : TwapDb) (id : Uuid) (st : ChildStatus) : TwapDb :=
  db.mark (fun c => c.id = id) st

namespace TwapDb

variable {db : TwapDb} {t id : Uuid} {r : TwapChildIntent} {p : TwapIntent} {st : ChildStatus}

theorem child_some_iff : db.child id = some r ↔ r ∈ db.children.rows ∧ r.id = id := Table.find_pk_iff

theorem twap_some_iff : db.twap t = some p ↔ p ∈ db.twaps.rows ∧ p.id = t := Table.find_pk_iff

/-- A guarded update of one child, when the guard lets it through. -/
theorem mark_of_guard (st : ChildStatus) {q : TwapChildIntent → Bool} (hr : db.child id = some r)
    (hq : q r = true) :
    db.mark (fun c => decide (c.id = id) && q c) st = db.markChild id st ∧
      db.children.affected (fun c => decide (c.id = id) && q c) ≠ 0 := by
  obtain ⟨hmem, hid⟩ := child_some_iff.1 hr
  constructor
  · unfold markChild mark updateChildren
    congr 1
    apply Table.ext
    refine List.map_congr_left fun c hc => ?_
    by_cases h : c.id = id
    · have hcr : c = r := eq_of_key_eq db.children.pk_nodup hc hmem (h.trans hid.symm)
      simp [hcr, hid, hq]
    · simp [h]
  · have hpos := (Table.affected_uk_pos (t := db.children) (k := id) q).2 ⟨r, hr, hq⟩
    omega

/-- And when it does not. -/
theorem mark_of_not_guard (st : ChildStatus) {q : TwapChildIntent → Bool} (hr : db.child id = some r)
    (hq : q r = false) :
    db.mark (fun c => decide (c.id = id) && q c) st = db ∧
      db.children.affected (fun c => decide (c.id = id) && q c) = 0 := by
  have hnone : ∀ c ∈ db.children.rows, (decide (c.id = id) && q c) = false := by
    intro c hc
    by_cases h : c.id = id
    · obtain ⟨hmem, hid⟩ := child_some_iff.1 hr
      have hcr : c = r := eq_of_key_eq db.children.pk_nodup hc hmem (h.trans hid.symm)
      simp [hcr, hq]
    · simp [h]
  constructor
  · unfold mark updateChildren
    rw [Table.update_none hnone]
  · unfold Table.affected
    rw [List.countP_eq_zero]
    intro c hc
    simp [hnone c hc]

theorem updateTwap_ok (db : TwapDb) {f : TwapIntent → TwapIntent} {hf} (hp : db.twap t = some p)
    (hfit : (f p).fits = true) :
    db.updateTwap t f hf =
      (.ok (), { db with twaps := db.twaps.update (fun p => p.id = t) f hf }) := by
  obtain ⟨hmem, hid⟩ := twap_some_iff.1 hp
  unfold updateTwap
  rw [if_pos]
  rw [List.all_eq_true]
  intro x hx
  by_cases h : x.id = t
  · have hxp : x = p := eq_of_key_eq db.twaps.pk_nodup hx hmem (h.trans hid.symm)
    simp [hxp, hfit]
  · simp [h]

theorem twap_update {f : TwapIntent → TwapIntent} (hf) (hp : db.twap t = some p) :
    TwapDb.twap { db with twaps := db.twaps.update (fun p => p.id = t) f hf } t = some (f p) := by
  show Table.find _ _ = _
  rw [Table.find_update_pk]
  show (db.twap t).map _ = _
  rw [hp, Option.map_some, if_pos (decide_eq_true (twap_some_iff.1 hp).2)]

end TwapDb

/-- `db'` is `db` with a status on one child and another row for the parent. -/
structure Recorded (t id : Uuid) (st : ChildStatus) (p' : TwapIntent) (db db' : TwapDb) : Prop where
  children : db'.children = (db.markChild id st).children
  parent : db'.twap t = some p'

section Calls

variable {db : TwapDb} {t id : Uuid} {r : TwapChildIntent} {p : TwapIntent} {qty now : Int}

/-- What the two calls have in common: the counters are changed, the parent is read again and, where
`c` holds of it, closed. -/
theorem exec_count (now : Int) (st : TwapStatus) (c : TwapIntent → Prop) [DecidablePred c] (db : TwapDb)
    {o : TwapStmt} {u : o.Reply} {f : TwapIntent → TwapIntent} {hf} (hp : db.twap t = some p)
    (ho : execTwap o db = (.ok u, { db with twaps := db.twaps.update (fun p => p.id = t) f hf })) :
    ∃ db', Call.exec execTwap (do
        let _ ← twapSql o
        let row ← twapSql (.selectTwap t)
        let twap ← Call.orThrow row .NotFound
        Call.doIf (c twap) (twapSql (.finishTwap t st now))) db = (.ok (), db') ∧
      db'.children = db.children ∧
      db'.twap t = some (if c (f p) then (f p).finish st now else f p) := by
  have hnew := TwapDb.twap_update hf hp
  rw [Call.exec_op_bind_ok ho, Call.exec_op_bind_ok rfl, hnew, Call.exec_bind]
  show ∃ db', Call.exec execTwap (Call.doIf (c (f p)) _) _ = _ ∧ _
  rw [Call.exec_doIf]
  by_cases hc : c (f p)
  · rw [if_pos hc, if_pos hc]
    exact ⟨_, rfl, rfl, TwapDb.twap_update _ hnew⟩
  · rw [if_neg hc, if_neg hc]
    exact ⟨_, rfl, rfl, hnew⟩

theorem execTwap_completeChild (hr : db.child id = some r) (hst : r.status ≠ .completed) :
    ∃ n : Nat, n ≠ 0 ∧ execTwap (.completeChild id) db = (.ok n, db.markChild id .completed) := by
  obtain ⟨hmark, hrows⟩ := TwapDb.mark_of_guard .completed
    (q := fun c => !(c.status == .completed)) hr (by simpa using hst)
  exact ⟨_, hrows, Prod.ext rfl hmark⟩

theorem execTwap_expireChild (hr : db.child id = some r)
    (hst : r.status ≠ .completed ∧ r.status ≠ .expired) :
    ∃ n : Nat, n ≠ 0 ∧ execTwap (.expireChild id) db = (.ok n, db.markChild id .expired) := by
  obtain ⟨hmark, hrows⟩ := TwapDb.mark_of_guard .expired
    (q := fun c => !(c.status == .completed || c.status == .expired)) hr (by simpa using hst)
  exact ⟨_, hrows, Prod.ext rfl hmark⟩

theorem recordChildCompleted_eq (now : Int) (hr : db.child id = some r) (hst : r.status ≠ .completed)
    (hp : db.twap t = some p) (hfit : (p.addFilled qty).fits = true) :
    ∃ db', Call.exec execTwap (recordChildCompleted now t id qty) db = (.ok (), db') ∧
      Recorded t id .completed (p.completed qty now) db db' := by
  obtain ⟨n, hrows, hmark⟩ := execTwap_completeChild hr hst
  have hupd : execTwap (.addFilled t qty) (db.markChild id .completed) = _ :=
    TwapDb.updateTwap_ok (db.markChild id .completed) hp hfit
  obtain ⟨db', hx, hchildren, hparent⟩ := exec_count now .Completed
    (fun p => p.filledQty ≥ p.totalQty ∨ p.slicesCompleted ≥ p.slicesTotal)
    (db.markChild id .completed) hp hupd
  refine ⟨db', ?_, hchildren, hparent⟩
  unfold recordChildCompleted
  rw [Call.exec_op_bind_ok hmark, Call.exec_doIf, if_pos hrows]
  exact hx

theorem recordChildCompleted_skip (hr : db.child id = some r) (hst : r.status = .completed) :
    Call.exec execTwap (recordChildCompleted now t id qty) db = (.ok (), db) := by
  obtain ⟨hmark, hrows⟩ := TwapDb.mark_of_not_guard .completed
    (q := fun c => !(c.status == .completed)) hr (by simpa using hst)
  have hsel : execTwap (.completeChild id) db =
      (.ok (db.children.affected fun c => decide (c.id = id) && !(c.status == .completed)), db) :=
    Prod.ext rfl hmark
  unfold recordChildCompleted
  rw [Call.exec_op_bind_ok hsel, Call.exec_doIf, if_neg (not_not.2 hrows)]

theorem recordChildExpired_eq (now : Int) (hr : db.child id = some r)
    (hst : r.status ≠ .completed ∧ r.status ≠ .expired) (hp : db.twap t = some p)
    (hfit : p.addSlice.fits = true) :
    ∃ db', Call.exec execTwap (recordChildExpired now t id) db = (.ok (), db') ∧
      Recorded t id .expired (p.expired now) db db' := by
  obtain ⟨n, hrows, hmark⟩ := execTwap_expireChild hr hst
  have hupd : execTwap (.addSlice t) (db.markChild id .expired) = _ :=
    TwapDb.updateTwap_ok (db.markChild id .expired) hp hfit
  obtain ⟨db', hx, hchildren, hparent⟩ := exec_count now .Failed
    (fun p => p.slicesCompleted ≥ p.slicesTotal ∧ p.filledQty < p.totalQty)
    (db.markChild id .expired) hp hupd
  refine ⟨db', ?_, hchildren, hparent⟩
  unfold recordChildExpired
  rw [Call.exec_op_bind_ok hmark, Call.exec_doIf, if_pos hrows]
  exact hx

theorem recordChildExpired_skip (hr : db.child id = some r)
    (hst : r.status = .completed ∨ r.status = .expired) :
    Call.exec execTwap (recordChildExpired now t id) db = (.ok (), db) := by
  obtain ⟨hmark, hrows⟩ := TwapDb.mark_of_not_guard .expired
    (q := fun c => !(c.status == .completed || c.status == .expired)) hr
    (by rcases hst with h | h <;> simp [h])
  have hsel : execTwap (.expireChild id) db =
      (.ok (db.children.affected fun c =>
        decide (c.id = id) && !(c.status == .completed || c.status == .expired)), db) :=
    Prod.ext rfl hmark
  unfold recordChildExpired
  rw [Call.exec_op_bind_ok hsel, Call.exec_doIf, if_neg (not_not.2 hrows)]

theorem recordChildFailed_eq (hr : db.child id = some r) :
    Call.exec execTwap (recordChildFailed id) db =
      (.ok (), if r.status = .failed then db else db.markChild id .failed) := by
  have hx : Call.exec execTwap (recordChildFailed id) db =
      (.ok (), db.mark (fun c => decide (c.id = id) && !(c.status == .failed)) .failed) := rfl
  rw [hx]
  by_cases h : r.status = .failed
  · rw [if_pos h, (TwapDb.mark_of_not_guard .failed hr (by simpa using h)).1]
  · rw [if_neg h, (TwapDb.mark_of_guard .failed hr (by simpa using h)).1]

end Calls

/-! ## The children -/

/-- The ends that the counter of the parent counts. -/
def ChildStatus.counted (st : ChildStatus) : Bool := st == .completed || st == .expired

/-- The ends a child can come to by itself. -/
def ChildStatus.ended (st : ChildStatus) : Bool := st.counted || st == .failed

/-- A child of a list gets a status. -/
def marked (id : Uuid) (st : ChildStatus) (c : TwapChildIntent) : TwapChildIntent :=
  if c.id = id then { c with status := st } else c

section Children

variable {db db' : TwapDb} {t id : Uuid} {st : ChildStatus} {r : TwapChildIntent} {p' : TwapIntent}
  {l : List TwapChildIntent}

theorem marked_of_eq {c : TwapChildIntent} (h : c.id = id) : marked id st c = { c with status := st } :=
  if_pos h

theorem marked_of_ne {c : TwapChildIntent} (h : c.id ≠ id) : marked id st c = c := if_neg h

theorem marked_keys (c : TwapChildIntent) :
    (marked id st c).id = c.id ∧ (marked id st c).twapId = c.twapId := by
  unfold marked
  split <;> exact ⟨rfl, rfl⟩

theorem childrenOf_nodup (db : TwapDb) (t : Uuid) : ((db.childrenOf t).map (·.id)).Nodup :=
  db.children.pk_nodup.sublist (List.filter_sublist.map _)

theorem mem_childrenOf : r ∈ db.childrenOf t ↔ db.child r.id = some r ∧ r.twapId = t := by
  unfold TwapDb.childrenOf
  rw [List.mem_filter, TwapDb.child_some_iff]
  simp

theorem childrenOf_markChild (db : TwapDb) (t id : Uuid) (st : ChildStatus) :
    (db.markChild id st).childrenOf t = (db.childrenOf t).map (marked id st) := by
  have hrows : (db.markChild id st).children.rows = db.children.rows.map (marked id st) := by
    refine List.map_congr_left fun c _ => ?_
    simp [marked]
  unfold TwapDb.childrenOf
  rw [hrows, List.filter_map]
  congr 1
  refine List.filter_congr fun c _ => ?_
  show decide ((marked id st c).twapId = t) = decide (c.twapId = t)
  rw [(marked_keys c).2]

theorem Recorded.childrenOf (h : Recorded t id st p' db db') :
    db'.childrenOf t = (db.childrenOf t).map (marked id st) := by
  rw [← childrenOf_markChild]
  unfold TwapDb.childrenOf
  rw [h.children]

/-- Marking one child moves a sum over the children by what it moves for the child. -/
theorem sum_marked (hn : (l.map (·.id)).Nodup) (hr : r ∈ l) (w : TwapChildIntent → Int) :
    ((l.map (marked r.id st)).map w).sum = (l.map w).sum + (w { r with status := st } - w r) := by
  rw [← sum_ite_key hn hr fun c => w { c with status := st } - w c, ← sum_map_add_sub, List.map_map]
  congr 1
  refine List.map_congr_left fun c _ => ?_
  show w (marked r.id st c) = _
  by_cases h : c.id = r.id
  · rw [marked_of_eq h, if_pos h]
    ring
  · rw [marked_of_ne h, if_neg h]
    ring

theorem countP_eq_sum (q : TwapChildIntent → Bool) (l : List TwapChildIntent) :
    (l.countP q : Int) = (l.map fun c => if q c then 1 else 0).sum := by
  induction l with
  | nil => rfl
  | cons c l ih =>
    rw [List.countP_cons, List.map_cons, List.sum_cons, ← ih]
    split <;> push_cast <;> ring

theorem countP_marked (st : ChildStatus) (hn : (l.map (·.id)).Nodup) (hr : r ∈ l)
    (q : TwapChildIntent → Bool) :
    ((l.map (marked r.id st)).countP q : Int) = l.countP q +
      ((if q { r with status := st } then 1 else 0) - if q r then 1 else 0) := by
  rw [countP_eq_sum, countP_eq_sum, sum_marked hn hr]

/-- Where not all children are counted, one of them is not. -/
theorem exists_uncounted (h : l.countP (·.status.counted) < l.length) :
    ∃ c ∈ l, c.status.counted = false := by
  by_contra hall
  simp only [not_exists, not_and, Bool.not_eq_false] at hall
  have heq : l.countP (·.status.counted) = l.length := List.countP_eq_length.2 hall
  omega

end Children

/-! ## Runs -/

/-- One call of the service for a child. -/
inductive TwapEvent where
  | completed (child : Uuid) (qty now : Int)
  | expired (child : Uuid) (now : Int)
  | failed (child : Uuid)
  deriving DecidableEq, Repr

def TwapEvent.child : TwapEvent → Uuid
  | .completed c _ _ | .expired c _ | .failed c => c

def TwapEvent.call (t : Uuid) : TwapEvent → TwapCall TwapError Unit
  | .completed c qty now => recordChildCompleted now t c qty
  | .expired c now => recordChildExpired now t c
  | .failed c => recordChildFailed c

/-- The database and the calls so far. -/
structure TwapRun where
  db : TwapDb
  log : List TwapEvent

def TwapRun.step (t : Uuid) (s : TwapRun) (e : TwapEvent) : TwapRun :=
  ⟨(Call.exec execTwap (e.call t) s.db).2, s.log ++ [e]⟩

/-- The quantity a call reports for a child. -/
def TwapEvent.report (child : Uuid) : TwapEvent → Option Int
  | .completed c qty _ => if c = child then some qty else none
  | _ => none

/-- The first quantity reported for a child; later reports are repetitions. -/
def firstReport (log : List TwapEvent) (child : Uuid) : Option Int := log.findSome? (·.report child)

def reported (log : List TwapEvent) (child : Uuid) : Int := (firstReport log child).getD 0

/-- The counters say what the children say. -/
structure Exact (t : Uuid) (s : TwapRun) (p : TwapIntent) : Prop where
  row : s.db.twap t = some p
  slices : p.slicesCompleted = (s.db.childrenOf t).countP (·.status.counted)
  bound : p.slicesCompleted ≤ p.slicesTotal
  filled : p.filledQty =
    (((s.db.childrenOf t).filter (·.status == .completed)).map fun c => reported s.log c.id).sum
  leaves : (∀ c ∈ s.db.childrenOf t, c.status.ended = true) → p.status ≠ .Active

/-! ### The condition on a call -/

/-- All other children are at an end and one of them failed, and the parent is active and stays below
its total with `qty` more. -/
def Strands (db : TwapDb) (t child : Uuid) (qty : Int) : Prop :=
  ∃ p ∈ db.twap t, p.status = .Active ∧ p.filledQty + qty < p.totalQty ∧
    (∀ c ∈ db.childrenOf t, c.id ≠ child → c.status.ended = true) ∧
    ∃ c ∈ db.childrenOf t, c.id ≠ child ∧ c.status = .failed

/-- The condition on a call, in the state before it. -/
def TwapEvent.Regular (t : Uuid) (s : TwapRun) : TwapEvent → Prop
  | .completed child qty _ => ∀ r ∈ s.db.child child, r.status ≠ .completed →
      -- the child has not expired, the sum can be stored, and the parent is not left behind
      r.status ≠ .expired ∧ (∀ p ∈ s.db.twap t, inI64 (p.filledQty + qty) = true) ∧
        ¬ Strands s.db t child qty
  | .expired child _ => ∀ r ∈ s.db.child child, r.status.counted = false → ¬ Strands s.db t child 0
  | .failed child => ∀ r ∈ s.db.child child, r.status ≠ .failed → r.status.counted = false ∧
      -- some other child is still to come, or the parent is closed
      ¬ ∃ p ∈ s.db.twap t, p.status = .Active ∧
        ∀ c ∈ s.db.childrenOf t, c.id ≠ child → c.status.ended = true

/-- What a run keeps. -/
structure Tracks (t : Uuid) (s : TwapRun) (p : TwapIntent) : Prop where
  row : s.db.twap t = some p
  slots : p.slicesTotal = (s.db.childrenOf t).length
  small : p.slicesTotal < 2 ^ 31
  range : inI64 p.filledQty = true
  slices : p.slicesCompleted = (s.db.childrenOf t).countP (·.status.counted)
  filled : p.filledQty = ((s.db.childrenOf t).map fun c =>
    if c.status = .completed then reported s.log c.id else 0).sum
  -- a report stays the first one as long as the child stays completed
  first : ∀ c ∈ s.db.childrenOf t, c.status = .completed ↔ (firstReport s.log c.id).isSome
  active : p.status = .Active →
    p.filledQty < p.totalQty ∧ ∃ c ∈ s.db.childrenOf t, c.status.ended = false

instance (db : TwapDb) (t child : Uuid) (qty : Int) : Decidable (Strands db t child qty) :=
  inferInstanceAs (Decidable (∃ p ∈ db.twap t, _))

instance (t : Uuid) (s : TwapRun) : (e : TwapEvent) → Decidable (e.Regular t s)
  | .completed _ _ _ => inferInstanceAs (Decidable (∀ r ∈ s.db.child _, _))
  | .expired _ _ => inferInstanceAs (Decidable (∀ r ∈ s.db.child _, _))
  | .failed _ => inferInstanceAs (Decidable (∀ r ∈ s.db.child _, _))

section Step

variable {t : Uuid} {s : TwapRun} {p : TwapIntent} {r : TwapChildIntent}

theorem sum_filter_eq (q : TwapChildIntent → Prop) [DecidablePred q] (g : TwapChildIntent → Int)
    (l : List TwapChildIntent) :
    ((l.filter fun c => q c).map g).sum = (l.map fun c => if q c then g c else 0).sum := by
  induction l with
  | nil => rfl
  | cons c l ih =>
    by_cases h : q c
    · simp [h, ih]
    · simp [h, ih]

theorem Tracks.exact (h : Tracks t s p) : Exact t s p where
  row := h.row
  slices := h.slices
  bound := by
    have := (s.db.childrenOf t).countP_le_length (p := (·.status.counted))
    rw [h.slices, h.slots]
    omega
  filled := by
    rw [h.filled, ← sum_filter_eq]
    congr 2
  leaves := by
    intro hall hact
    obtain ⟨c, hc, hopen⟩ := (h.active hact).2
    rw [hall c hc] at hopen
    cases hopen

/-- A call that reports nothing new leaves every first report as it was. -/
theorem firstReport_append {log : List TwapEvent} {e : TwapEvent} {c : Uuid}
    (h : (firstReport log c).isSome = true ∨ e.report c = none) :
    firstReport (log ++ [e]) c = firstReport log c := by
  unfold firstReport at *
  rw [List.findSome?_append]
  rcases h with h | h
  · obtain ⟨q, hq⟩ := Option.isSome_iff_exists.1 h
    rw [hq]
    rfl
  · simp [h]

/-- A call that changes no row. -/
theorem Tracks.skip (h : Tracks t s p) {e : TwapEvent}
    (he : ∀ c ∈ s.db.childrenOf t, c.status ≠ .completed → e.report c.id = none) :
    Tracks t ⟨s.db, s.log ++ [e]⟩ p := by
  have hsame : ∀ c ∈ s.db.childrenOf t, firstReport (s.log ++ [e]) c.id = firstReport s.log c.id := by
    intro c hc
    apply firstReport_append
    by_cases hst : c.status = .completed
    · exact .inl ((h.first c hc).1 hst)
    · exact .inr (he c hc hst)
  refine { row := h.row, slots := h.slots, small := h.small, range := h.range, slices := h.slices,
           filled := ?_, first := ?_, active := h.active }
  · rw [h.filled]
    congr 1
    refine List.map_congr_left fun c hc => ?_
    unfold reported
    rw [hsame c hc]
  · intro c hc
    rw [hsame c hc]
    exact h.first c hc

/-- A call that puts an uncounted child in a status and changes the counters of the parent to match. -/
theorem Tracks.record {db' : TwapDb} {p' : TwapIntent} {st : ChildStatus} {e : TwapEvent}
    (h : Tracks t s p) (qty : Int) (hr : r ∈ s.db.childrenOf t) (hst : r.status.counted = false)
    (hrec : Recorded t r.id st p' s.db db') (hother : ∀ c, c ≠ r.id → e.report c = none)
    (hown : e.report r.id = if st = .completed then some qty else none)
    (hslots : p'.slicesTotal = p.slicesTotal)
    (hslices : p'.slicesCompleted = p.slicesCompleted + if st.counted then 1 else 0)
    (hfilled : p'.filledQty = p.filledQty + if st = .completed then qty else 0)
    (hrange : inI64 p'.filledQty = true)
    (hactive : p'.status = .Active →
      p'.filledQty < p'.totalQty ∧ ∃ c ∈ db'.childrenOf t, c.status.ended = false) :
    Tracks t ⟨db', s.log ++ [e]⟩ p' := by
  have hn := childrenOf_nodup s.db t
  have hnot : r.status ≠ .completed := by
    intro hc
    rw [hc] at hst
    cases hst
  -- nothing was reported for `r`, so this call's report is the first
  have hnone : firstReport s.log r.id = none := by
    rw [← Option.not_isSome_iff_eq_none, ← h.first r hr]
    exact hnot
  have hfirst : firstReport (s.log ++ [e]) r.id = e.report r.id := by
    unfold firstReport at *
    rw [List.findSome?_append, hnone]
    simp
  have hsame : ∀ c, c ≠ r.id → firstReport (s.log ++ [e]) c = firstReport s.log c :=
    fun c hc => firstReport_append (.inr (hother c hc))
  have hchildren := hrec.childrenOf
  refine { row := hrec.parent, slots := ?_, small := hslots ▸ h.small, range := hrange,
           slices := ?_, filled := ?_, first := ?_, active := hactive }
  · rw [hslots, h.slots, hchildren, List.length_map]
  · rw [hchildren, countP_marked _ hn hr, hslices, h.slices, hst]
    simp
  · have hold : ((s.db.childrenOf t).map fun c =>
        if c.status = .completed then reported (s.log ++ [e]) c.id else 0).sum = p.filledQty := by
      rw [h.filled]
      congr 1
      refine List.map_congr_left fun c hc => ?_
      by_cases hcs : c.status = .completed
      · have hne : c.id ≠ r.id := fun he => hnot (eq_of_key_eq hn hc hr he ▸ hcs)
        simp only [hcs, if_true, reported, hsame c.id hne]
      · simp only [hcs, if_false]
    rw [hchildren, sum_marked hn hr, hold, hfilled, if_neg hnot, sub_zero]
    by_cases hcs : st = .completed
    · simp [hcs, reported, hfirst, hown]
    · simp [hcs]
  · intro c' hc'
    rw [hchildren] at hc'
    obtain ⟨c, hc, rfl⟩ := List.mem_map.1 hc'
    rw [(marked_keys c).1]
    by_cases hid : c.id = r.id
    · rw [marked_of_eq hid, hid, hfirst, hown]
      by_cases hcs : st = .completed
      · simp [hcs]
      · simp [hcs]
    · rw [marked_of_ne hid, hsame c.id hid]
      exact h.first c hc

/-- The parent is still active after the call: some child is still to come. -/
theorem Tracks.still_open {db' : TwapDb} {p' : TwapIntent} {st : ChildStatus} {qty : Int}
    (h : Tracks t s p) (hr : r ∈ s.db.childrenOf t) (hst : r.status.counted = false)
    (hcounted : st.counted = true) (hrec : Recorded t r.id st p' s.db db')
    (hact : p.status = .Active) (hbelow : p.filledQty + qty < p.totalQty)
    (hslices : p.slicesCompleted + 1 < p.slicesTotal) (hno : ¬ Strands s.db t r.id qty) :
    ∃ c ∈ db'.childrenOf t, c.status.ended = false := by
  have hn := childrenOf_nodup s.db t
  by_contra hall
  simp only [not_exists, not_and, Bool.not_eq_false] at hall
  rw [hrec.childrenOf] at hall
  have hended : ∀ c ∈ s.db.childrenOf t, c.id ≠ r.id → c.status.ended = true := by
    intro c hc hne
    have := hall _ (List.mem_map_of_mem hc)
    rwa [marked_of_ne hne] at this
  -- fewer are counted than there are, so one of the ended ones failed
  have hcount := countP_marked st hn hr (·.status.counted)
  simp only [hst, hcounted, if_true, Bool.false_eq_true, if_false] at hcount
  have hslot := h.slots
  have hsl := h.slices
  obtain ⟨c', hc', hun⟩ := exists_uncounted
    (l := (s.db.childrenOf t).map (marked r.id st)) (by rw [List.length_map]; omega)
  obtain ⟨c, hc, rfl⟩ := List.mem_map.1 hc'
  have hne : c.id ≠ r.id := by
    intro he
    rw [marked_of_eq he, hcounted] at hun
    cases hun
  rw [marked_of_ne hne] at hun
  have hfailed : c.status = .failed := by
    have hend := hended c hc hne
    rw [ChildStatus.ended, hun, Bool.false_or, beq_iff_eq] at hend
    exact hend
  exact hno ⟨p, h.row, hact, hbelow, hended, c, hc, hne, hfailed⟩

/-- The counter has room for one more as long as some child is not counted. -/
theorem Tracks.room (h : Tracks t s p) (hr : r ∈ s.db.childrenOf t) (hst : r.status.counted = false) :
    inI32 (p.slicesCompleted + 1) = true := by
  rw [inI32_iff]
  have hlt : (s.db.childrenOf t).countP (·.status.counted) < (s.db.childrenOf t).length := by
    refine lt_of_le_of_ne List.countP_le_length fun heq => ?_
    have hcounted : r.status.counted = true := List.countP_eq_length.1 heq r hr
    rw [hst] at hcounted
    cases hcounted
  have hslots := h.slots
  have hsmall := h.small
  have hslices := h.slices
  omega

theorem Recorded.ids {db db' : TwapDb} {id : Uuid} {st : ChildStatus} {p' : TwapIntent}
    (h : Recorded t id st p' db db') :
    (db'.childrenOf t).map (·.id) = (db.childrenOf t).map (·.id) := by
  rw [h.childrenOf, List.map_map]
  exact List.map_congr_left fun c _ => (marked_keys c).1

theorem TwapRun.step_eq {e : TwapEvent} {u : Except TwapError Unit} {db' : TwapDb}
    (hx : Call.exec execTwap (e.call t) s.db = (u, db')) : s.step t e = ⟨db', s.log ++ [e]⟩ := by
  show TwapRun.mk (Call.exec execTwap (e.call t) s.db).2 _ = _
  rw [hx]

/-- The call keeps the counters in step. -/
def Keeps (t : Uuid) (s s' : TwapRun) : Prop :=
  (∃ p', Tracks t s' p') ∧ (s'.db.childrenOf t).map (·.id) = (s.db.childrenOf t).map (·.id)

theorem Tracks.step_completed {qty now : Int} (h : Tracks t s p) (hr : r ∈ s.db.childrenOf t)
    (hreg : (TwapEvent.completed r.id qty now).Regular t s) :
    Keeps t s (s.step t (.completed r.id qty now)) := by
  have hrow : s.db.child r.id = some r := (mem_childrenOf.1 hr).1
  have hother : ∀ c, c ≠ r.id → (TwapEvent.completed r.id qty now).report c = none :=
    fun c hne => if_neg hne.symm
  by_cases hst : r.status = .completed
  · -- a repetition
    rw [TwapRun.step_eq (e := .completed r.id qty now) (recordChildCompleted_skip hrow hst)]
    refine ⟨⟨p, h.skip fun c hc hne => hother c.id fun he => ?_⟩, rfl⟩
    exact hne (eq_of_key_eq (childrenOf_nodup s.db t) hc hr he ▸ hst)
  · obtain ⟨hexp, hfit, hno⟩ := hreg r hrow hst
    have hun : r.status.counted = false := by simp [ChildStatus.counted, hst, hexp]
    have hin : inI64 (p.filledQty + qty) = true := hfit p h.row
    have hroom := h.room hr hun
    have hfits : (p.addFilled qty).fits = true := by
      simp [TwapIntent.fits, TwapIntent.addFilled, hin, hroom]
    obtain ⟨db', hx, hrec⟩ := recordChildCompleted_eq now hrow hst h.row hfits
    obtain ⟨htotal, hfilled, hslots, hslices⟩ := p.completed_columns qty now
    rw [TwapRun.step_eq (e := .completed r.id qty now) hx]
    refine ⟨⟨_, h.record qty hr hun hrec hother (if_pos rfl) hslots hslices hfilled
      (hfilled ▸ hin) fun hact => ?_⟩, hrec.ids⟩
    obtain ⟨hact, hbelow, hless⟩ := TwapIntent.completed_active hact
    exact ⟨by omega, h.still_open hr hun rfl hrec hact hbelow hless hno⟩

theorem Tracks.step_expired {now : Int} (h : Tracks t s p) (hr : r ∈ s.db.childrenOf t)
    (hreg : (TwapEvent.expired r.id now).Regular t s) :
    Keeps t s (s.step t (.expired r.id now)) := by
  have hrow : s.db.child r.id = some r := (mem_childrenOf.1 hr).1
  by_cases hun : r.status.counted = false
  · have hopen : r.status ≠ .completed ∧ r.status ≠ .expired := by
      constructor <;> intro he <;> simp [ChildStatus.counted, he] at hun
    have hno := hreg r hrow hun
    have hroom := h.room hr hun
    have hfits : p.addSlice.fits = true := by
      have hrange := h.range
      simp [TwapIntent.fits, TwapIntent.addSlice, hrange, hroom]
    obtain ⟨db', hx, hrec⟩ := recordChildExpired_eq now hrow hopen h.row hfits
    obtain ⟨htotal, hfilled, hslots, hslices⟩ := p.expired_columns now
    rw [TwapRun.step_eq (e := .expired r.id now) hx]
    refine ⟨⟨_, h.record 0 hr hun hrec (fun _ _ => rfl) rfl hslots hslices
      (hfilled.trans (by simp)) (hfilled ▸ h.range) fun hact => ?_⟩, hrec.ids⟩
    obtain ⟨hact, hless⟩ := TwapIntent.expired_active hact
    have hbelow := (h.active hact).1
    exact ⟨by omega, h.still_open hr hun rfl hrec hact (by omega) (hless hbelow) hno⟩
  · have hst : r.status = .completed ∨ r.status = .expired := by
      simpa [ChildStatus.counted, Decidable.imp_iff_not_or] using hun
    rw [TwapRun.step_eq (e := .expired r.id now) (recordChildExpired_skip hrow hst)]
    exact ⟨⟨p, h.skip fun _ _ _ => rfl⟩, rfl⟩

theorem Tracks.step_failed (h : Tracks t s p) (hr : r ∈ s.db.childrenOf t)
    (hreg : (TwapEvent.failed r.id).Regular t s) : Keeps t s (s.step t (.failed r.id)) := by
  have hrow : s.db.child r.id = some r := (mem_childrenOf.1 hr).1
  rw [TwapRun.step_eq (e := .failed r.id) (recordChildFailed_eq hrow)]
  by_cases hst : r.status = .failed
  · rw [if_pos hst]
    exact ⟨⟨p, h.skip fun _ _ _ => rfl⟩, rfl⟩
  · rw [if_neg hst]
    obtain ⟨hun, hopen⟩ := hreg r hrow hst
    have hrec : Recorded t r.id .failed p s.db (s.db.markChild r.id .failed) := ⟨rfl, h.row⟩
    refine ⟨⟨p, h.record 0 hr hun hrec (fun _ _ => rfl) rfl rfl (by simp [ChildStatus.counted])
      (by simp) h.range fun hact => ⟨(h.active hact).1, ?_⟩⟩, hrec.ids⟩
    by_contra hall
    simp only [not_exists, not_and, Bool.not_eq_false] at hall
    refine hopen ⟨p, h.row, hact, fun c hc hne => ?_⟩
    rw [hrec.childrenOf] at hall
    have := hall _ (List.mem_map_of_mem hc)
    rwa [marked_of_ne hne] at this

/-- A regular call keeps the counters in step. -/
theorem Tracks.step {e : TwapEvent} (h : Tracks t s p)
    (hchild : e.child ∈ (s.db.childrenOf t).map (·.id)) (hreg : e.Regular t s) :
    Keeps t s (s.step t e) := by
  obtain ⟨r, hr, hid⟩ := List.mem_map.1 hchild
  cases e with
  | completed c qty now =>
    change r.id = c at hid
    subst hid
    exact h.step_completed hr hreg
  | expired c now =>
    change r.id = c at hid
    subst hid
    exact h.step_expired hr hreg
  | failed c =>
    change r.id = c at hid
    subst hid
    exact h.step_failed hr hreg

end Step

/-! ### The start -/

/-- A TWAP whose schedule was made and of which no child has come to an end. -/
structure Scheduled (db : TwapDb) (t : Uuid) (p : TwapIntent) : Prop where
  row : db.twap t = some p
  status : p.status = .Active
  total : 0 < p.totalQty
  filled : p.filledQty = 0
  slices : p.slicesCompleted = 0
  slots : p.slicesTotal = (db.childrenOf t).length
  range : 0 < p.slicesTotal ∧ p.slicesTotal < 2 ^ 31
  children : ∀ c ∈ db.childrenOf t, c.status.unfinished = true

theorem Scheduled.tracks {db : TwapDb} {t : Uuid} {p : TwapIntent} (h : Scheduled db t p) :
    Tracks t ⟨db, []⟩ p := by
  have hopen : ∀ c ∈ db.childrenOf t, c.status.ended = false ∧ c.status.counted = false ∧
      c.status ≠ .completed := by
    intro c hc
    have := h.children c hc
    cases hst : c.status <;> simp_all [ChildStatus.unfinished, ChildStatus.ended, ChildStatus.counted]
  refine { row := h.row, slots := h.slots, small := h.range.2, range := ?_, slices := ?_,
           filled := ?_, first := ?_, active := ?_ }
  · rw [h.filled]
    rfl
  · rw [h.slices, List.countP_eq_zero.2 fun c hc => by simp [(hopen c hc).2.1]]
    rfl
  · rw [h.filled]
    symm
    apply List.sum_eq_zero
    intro x hx
    obtain ⟨c, hc, rfl⟩ := List.mem_map.1 hx
    exact if_neg (hopen c hc).2.2
  · intro c hc
    exact iff_of_false (hopen c hc).2.2 (by simp [firstReport])
  · intro _
    have hlen : db.childrenOf t ≠ [] := by
      intro hnil
      have hslots := h.slots
      have hrange := h.range.1
      rw [hnil] at hslots
      simp only [List.length_nil] at hslots
      omega
    obtain ⟨c, hc⟩ := List.exists_mem_of_ne_nil _ hlen
    have htotal := h.total
    have hfilled := h.filled
    exact ⟨by omega, c, hc, (hopen c hc).1⟩

/-- Over every run of calls for the children of a TWAP that meet the condition, the counters of the
parent say what the children say, and the parent is closed when all of them are at an end. -/
theorem twap_progress_exact (t : Uuid) (db : TwapDb) (p : TwapIntent) (es : List TwapEvent)
    (h : Scheduled db t p) (hes : ∀ e ∈ es, e.child ∈ (db.childrenOf t).map (·.id))
    (hreg : Machine.Each (TwapRun.step t) (fun s e => e.Regular t s) ⟨db, []⟩ es) :
    ∃ p', Exact t (Machine.run (TwapRun.step t) ⟨db, []⟩ es) p' := by
  have hkeep : ∀ (s : TwapRun) (e : TwapEvent),
      ((∃ p, Tracks t s p) ∧ (s.db.childrenOf t).map (·.id) = (db.childrenOf t).map (·.id)) →
      (e.Regular t s ∧ e.child ∈ (db.childrenOf t).map (·.id)) →
      (∃ p, Tracks t (s.step t e) p) ∧
        ((s.step t e).db.childrenOf t).map (·.id) = (db.childrenOf t).map (·.id) := by
    rintro s e ⟨⟨p, hp⟩, hids⟩ ⟨hreg, hc⟩
    obtain ⟨hstep, hids'⟩ := hp.step (hids ▸ hc) hreg
    exact ⟨hstep, hids'.trans hids⟩
  have hrun := Machine.run_keeps
    (I := fun s => (∃ p, Tracks t s p) ∧
      (s.db.childrenOf t).map (·.id) = (db.childrenOf t).map (·.id))
    hkeep ⟨⟨p, h.tracks⟩, rfl⟩ (hreg.and (Machine.each_of_forall hes))
  obtain ⟨⟨p', hp'⟩, -⟩ := hrun
  exact ⟨p', hp'.exact⟩

/-- A TWAP of 100 over two slices. -/
def twapDemo : TwapDb where
  twaps := ⟨[⟨1, "u", 2, "USDC", "ETH", 100, 0, 0, 20, 10, 2, 0, .Active, 0, none⟩], by decide, by decide⟩
  children := ⟨[⟨11, 1, 0, 0, 50, .pending, 0, 0⟩, ⟨12, 1, 0, 1, 50, .pending, 10, 0⟩], by decide, by decide⟩

def twapDemoParent : TwapIntent :=
  ⟨1, "u", 2, "USDC", "ETH", 100, 0, 0, 20, 10, 2, 0, .Active, 0, none⟩

theorem twapDemo_scheduled : Scheduled twapDemo 1 twapDemoParent := by
  constructor <;> decide +kernel

/-- The first slice is reported twice, the second expires. -/
theorem twap_progress_demo :
    ∃ p', Exact 1 (Machine.run (TwapRun.step 1) ⟨twapDemo, []⟩
      [.completed 11 40 1, .completed 11 40 2, .expired 12 3]) p' :=
  twap_progress_exact 1 twapDemo twapDemoParent _ twapDemo_scheduled (by decide +kernel)
    (by decide +kernel)

/-- The first slice expires and is then reported as completed: the one child is counted twice. -/
theorem twap_counted_twice :
    ¬ ∀ (t : Uuid) (db : TwapDb) (p : TwapIntent) (es : List TwapEvent), Scheduled db t p →
      (∀ e ∈ es, e.child ∈ (db.childrenOf t).map (·.id)) →
      ∃ p', Exact t (Machine.run (TwapRun.step t) ⟨db, []⟩ es) p' := by
  intro h
  obtain ⟨p', hx⟩ := h 1 twapDemo twapDemoParent [.expired 11 1, .completed 11 40 2] twapDemo_scheduled
    (by decide +kernel)
  have hcounter : ((Machine.run (TwapRun.step 1) ⟨twapDemo, []⟩
      [.expired 11 1, .completed 11 40 2]).db.twap 1).map (·.slicesCompleted) = some 2 := by
    decide +kernel
  have hchildren : ((Machine.run (TwapRun.step 1) ⟨twapDemo, []⟩
      [.expired 11 1, .completed 11 40 2]).db.childrenOf 1).countP (·.status.counted) = 1 := by
    decide +kernel
  rw [hx.row, Option.map_some, Option.some.injEq, hx.slices, hchildren] at hcounter
  exact absurd hcounter (by decide)

/-! ### Where a run starts and what drives it -/

/-- The `i`-th slice. -/
def CreateTwapRequest.slice (r : CreateTwapRequest) (ids : Nat → Uuid) (t : Uuid) (now : Int) (i : Nat) :
    TwapChildIntent where
  id := ids i
  twapId := t
  intentId := nilUuid
  sliceIndex := i
  qty := r.sliceQty i
  status := .pending
  scheduledAt := now + seconds (r.intervalSecs * i)
  createdAt := now

theorem insertChildren_ok {ids : Nat → Uuid} {t : Uuid} {r : CreateTwapRequest} {now : Int} {n i : Nat}
    {db db' : TwapDb}
    (h : Call.exec execTwap (insertChildren ids t r now n i) db = (.ok (), db')) :
    db'.twaps = db.twaps ∧
      db'.children.rows = db.children.rows ++ (List.range' i n).map (r.slice ids t now) := by
  induction n generalizing db i with
  | zero =>
    simp only [insertChildren, Call.exec_pure, Prod.mk.injEq, true_and] at h
    subst h
    exact ⟨rfl, by simp⟩
  | succ n ih =>
    obtain ⟨_, db₁, hins, hrest⟩ := Call.exec_bind_ok.1 h
    obtain ⟨htwaps, hrows⟩ := ih hrest
    have hins := Call.exec_op_ok.1 hins
    simp only [execTwap] at hins
    split at hins
    case isFalse => cases hins
    split at hins
    case h_2 => cases hins
    next t' ht' =>
    obtain ⟨-, rfl⟩ := Prod.mk.inj hins
    refine ⟨htwaps, ?_⟩
    rw [hrows, List.range'_succ, List.map_cons]
    show t'.rows ++ _ = _
    rw [Table.rows_insert ht', List.append_assoc, List.singleton_append]
    rfl

/-- What `create_twap` has inserted when it answers. -/
theorem createTwap_ok {env : Env} {r : CreateTwapRequest} {db db' : TwapDb} {p : TwapIntent}
    (h : Call.exec execTwap (createTwap env r) db = (.ok p, db')) :
    0 < r.totalQty ∧
      p = ⟨env.uuid 0, r.userId, r.accountId, r.tokenIn, r.tokenOut, r.totalQty, 0, r.minPrice, r.durationSecs,
        r.intervalSecs, r.slicesTotal, 0, .Active, env.now 0, none⟩ ∧
      db.twaps.insert p = some db'.twaps ∧
      db'.children.rows = db.children.rows ++
        (List.range' 0 r.slicesTotal.toNat).map (r.slice (env.drop 1).uuid (env.uuid 0) (env.now 0)) := by
  simp only [createTwap, Call.exec_bind_ok, Call.exec_failIf_ok] at h
  obtain ⟨_, _, ⟨-, rfl⟩, _, _, ⟨htotal, rfl⟩, _, _, ⟨-, rfl⟩, _, _, ⟨-, rfl⟩, _, db₁, hins, _, db₂,
    hloop, hret⟩ := h
  simp only [Call.exec_pure, Prod.mk.injEq, Except.ok.injEq] at hret
  obtain ⟨rfl, rfl⟩ := hret
  have hins := Call.exec_op_ok.1 hins
  simp only [execTwap] at hins
  split at hins
  case h_2 => cases hins
  next t ht =>
  obtain ⟨-, rfl⟩ := Prod.mk.inj hins
  obtain ⟨htwaps, hrows⟩ := insertChildren_ok hloop
  exact ⟨Int.not_le.1 htotal, rfl, htwaps ▸ ht, hrows⟩

/-- The children of a new TWAP are the rows that are added, as no child refers to it yet. -/
theorem childrenOf_new {db db' : TwapDb} {t : Uuid} {l : List TwapChildIntent}
    (hrows : db'.children.rows = db.children.rows ++ l) (hl : ∀ c ∈ l, c.twapId = t)
    (hold : db.childrenOf t = []) : db'.childrenOf t = l := by
  unfold TwapDb.childrenOf at hold ⊢
  rw [hrows, List.filter_append, hold, List.nil_append, List.filter_eq_self]
  exact fun c hc => decide_eq_true (hl c hc)

/-- A TWAP that `create_twap` answers is scheduled, if the number of its slices stays positive as an
`i32`.  Children refer to TWAPs that exist. -/
theorem createTwap_scheduled {env : Env} {r : CreateTwapRequest} {db db' : TwapDb} {p : TwapIntent}
    (hlinked : ∀ c ∈ db.children.rows, (db.twap c.twapId).isSome) (hslices : 0 < r.slicesTotal)
    (h : Call.exec execTwap (createTwap env r) db = (.ok p, db')) : Scheduled db' p.id p := by
  obtain ⟨htotal, rfl, hinsert, hrows⟩ := createTwap_ok h
  have hold : db.childrenOf (env.uuid 0) = [] := by
    refine List.filter_eq_nil_iff.2 fun c hc he => ?_
    obtain ⟨p, hp⟩ := Option.isSome_iff_exists.1 (hlinked c hc)
    obtain ⟨hpm, hpid⟩ := TwapDb.twap_some_iff.1 hp
    exact (Table.insert_isSome_iff.1 (Option.isSome_of_eq_some hinsert) p hpm).1
      (hpid.trans (of_decide_eq_true he))
  have hchildren := childrenOf_new hrows (fun c hc => by
    obtain ⟨i, -, rfl⟩ := List.mem_map.1 hc
    rfl) hold
  refine ⟨?_, rfl, htotal, rfl, rfl, ?_, ⟨hslices, ?_⟩, ?_⟩
  · exact TwapDb.twap_some_iff.2 ⟨(Table.mem_insert hinsert).2 (.inr rfl), rfl⟩
  · show r.slicesTotal = ((db'.childrenOf (env.uuid 0)).length : Int)
    rw [hchildren, List.length_map, List.length_range']
    omega
  · have hhi := Int.bmod_lt (x := r.durationSecs.tdiv r.intervalSecs) (m := 2 ^ 32) (by decide)
    show (r.durationSecs.tdiv r.intervalSecs).bmod (2 ^ 32) < 2 ^ 31
    omega
  · show ∀ c ∈ db'.childrenOf (env.uuid 0), c.status.unfinished = true
    rw [hchildren]
    intro c hc
    obtain ⟨i, -, rfl⟩ := List.mem_map.1 hc
    rfl

/-- What the listener hears in an event: a call for the child the intent was made for. -/
def heard (db : TwapDb) (now : Int) (event : IntentSettledEvent) : Option (Uuid × TwapEvent) :=
  (db.children.rows.find? fun c => c.intentId = event.intentId).bind fun child =>
    match event.status with
    | .Completed => some (child.twapId, .completed child.id event.settledQty now)
    | .Expired => some (child.twapId, .expired child.id now)
    | _ => none

/-- The listener makes that call and no other. -/
theorem exec_processIntentSettled (db : TwapDb) (now : Int) (event : IntentSettledEvent) :
    (Call.exec execTwap (processIntentSettled now event) db).2 =
      (heard db now event).elim db fun x => (Call.exec execTwap (x.2.call x.1) db).2 := by
  unfold processIntentSettled heard
  rw [Call.exec_bind]
  show (Call.exec execTwap _ db).2 = _
  simp only [execTwap, Except.toOption, Option.join_some]
  cases hfind : db.children.rows.find? fun c => decide (c.intentId = event.intentId) with
  | none => rfl
  | some child =>
    cases hst : event.status <;> first | rfl | simp [Call.exec_ignore, TwapEvent.call]

end IntentX
