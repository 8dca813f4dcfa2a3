import IntentX.BridgeOnce
import Mathlib.Data.List.Dedup

/-!
# Completion of cross-chain intents

An intent may be completed once every one of its fills has both legs confirmed, and not after it has
failed, was cancelled or has expired.

`finalize_completed` asks for less.  Its query looks at the legs of one fill, while an auction can
leave an intent with many; and both its query and its update let any status pass but `completed`.  So
it completes an intent when the first of its fills is done, and it completes one that was cancelled,
also when that happens between the query and the update.  `Steady` is the condition that none of this
comes to pass.  What the query has answered is then `Finished`, and stays so until the loop is through.

`Around` is what happens at an act of the worker: what others write before it (`Outside`), and its
`Moment`.  `completed` keeps what each update completed, with what it met.
-/

namespace IntentX.CrossChain

open Lib

/-! ## The store -/

/-- What an update of `finalize_completed` met when it completed an intent. -/
structure Completion where
  intentId : Uuid
  before : IntentStatus
  /-- the fills of the intent without two confirmed legs -/
  openFills : List Uuid
  deriving DecidableEq

structure FinalDb where
  cross : CrossDb
  /-- ids and intents in `fills` -/
  fills : List (Uuid × Uuid)
  completed : List Completion

/-- Failed, Cancelled and Expired. -/
def ended : IntentStatus → Bool
  | .Failed | .Cancelled | .Expired => true
  | _ => false

/-- The leg on this side of the fill is confirmed. -/
def LegDone (db : CrossDb) (key : Uuid × Int) : Prop :=
  ∃ l ∈ db.legs.rows, slot l = key ∧ l.status = .Confirmed

def FillDone (db : CrossDb) (fillId : Uuid) : Prop := LegDone db (fillId, 0) ∧ LegDone db (fillId, 1)

instance (db : CrossDb) (key : Uuid × Int) : Decidable (LegDone db key) :=
  inferInstanceAs (Decidable (∃ l ∈ db.legs.rows, _))

instance (db : CrossDb) (fillId : Uuid) : Decidable (FillDone db fillId) :=
  inferInstanceAs (Decidable (_ ∧ _))

def FinalDb.openFills (db : FinalDb) (intentId : Uuid) : List Uuid :=
  (db.fills.filter fun f => f.2 == intentId && !decide (FillDone db.cross f.1)).map Prod.fst

/-! ## Acts -/

/-- A write of another component. -/
inductive Outside where
  | status (intentId : Uuid) (st : IntentStatus)
  /-- a new intent -/
  | intent (id : Uuid)
  /-- a new fill, which the auction engine makes of an intent that it has read -/
  | fill (id intentId : Uuid)
  | leg (id : Uuid) (st : LegStatus)

def Outside.write : Outside → FinalDb → FinalDb
  | .status id st, db =>
    { db with cross := { db.cross with
        intents := db.cross.intents.map fun i => if i.1 = id then (i.1, st) else i } }
  | .intent id, db =>
    if id ∈ db.cross.intents.map Prod.fst then db
    else { db with cross := { db.cross with intents := db.cross.intents ++ [(id, .Open)] } }
  | .fill id intentId, db =>
    if id ∉ db.fills.map Prod.fst ∧ intentId ∈ db.cross.intents.map Prod.fst then
      { db with fills := db.fills ++ [(id, intentId)] }
    else db
  | .leg id st, db =>
    { db with cross :=
        (db.cross.update id (fun l => withStatus l st none none) fun _ => ⟨rfl, rfl⟩).2 }

structure Around where
  outside : List Outside
  moment : Moment

def Around.written (n : Around) (db : FinalDb) : FinalDb := n.outside.foldl (fun db e => e.write db) db

/-- The store as the act meets it. -/
def Around.met (n : Around) (db : FinalDb) : FinalDb :=
  { n.written db with cross := n.moment.before (n.written db).cross }

/-- What the act completes. -/
def completions : CrossAct → Fate → FinalDb → List Completion
  | .sql (.completeIntent _), .refused, _ => []
  | .sql (.completeIntent id), _, db =>
    (db.cross.intents.filter fun i => i.1 == id && i.2 != .Completed).map fun i =>
      ⟨id, i.2, db.openFills id⟩
  | _, _, _ => []

def execAround (n : Around) : Handler CrossAct CrossAct.Reply HtlcActError FinalDb := fun o db =>
  ((execCross n.moment o (n.written db).cross).1,
    { n.written db with
      cross := (execCross n.moment o (n.written db).cross).2
      completed := completions o n.moment.turn.fate (n.met db) ++ db.completed })

/-! ## The property -/

/-- Every fill of the intent had both legs confirmed, and the intent had not ended. -/
def Completion.Justified (c : Completion) : Prop := c.openFills = [] ∧ ended c.before = false

def Justified (db : FinalDb) : Prop := ∀ c ∈ db.completed, c.Justified

instance (c : Completion) : Decidable c.Justified := inferInstanceAs (Decidable (_ ∧ _))

instance (db : FinalDb) : Decidable (Justified db) := inferInstanceAs (Decidable (∀ c ∈ _, _))

/-! ## The condition -/

/-- A fill of the intent is done. -/
def Underway (db : CrossDb) (intentId : Uuid) : Prop :=
  ∃ l ∈ db.legs.rows, l.intentId = intentId ∧ l.legIndex = 0 ∧ FillDone db l.fillId

/-- All fills of the intent are done, and it has not ended. -/
def Ripe (db : FinalDb) (intentId : Uuid) : Prop :=
  (∀ f ∈ db.fills, f.2 = intentId → FillDone db.cross f.1) ∧
    ∀ i ∈ db.cross.intents, i.1 = intentId → ended i.2 = false

/-- The write leaves alone what is underway: it ends no such intent, it adds no fill to one before
that fill is done, and it takes no leg back from a fill that is done. -/
def Spares (db : FinalDb) : Outside → Prop
  | .status id st => Underway db.cross id → ended st = false
  | .intent _ => True
  | .fill id intentId => Underway db.cross intentId → FillDone db.cross id
  | .leg id st => ∀ l ∈ db.cross.legs.rows, l.id = id → FillDone db.cross l.fillId → st = .Confirmed

def SparesAll : List Outside → FinalDb → Prop
  | [], _ => True
  | e :: es, db => Spares db e ∧ SparesAll es (e.write db)

/-- The query meets no intent of which one fill is done while another is open, or which has ended; and
until the last update, others leave alone what is underway. -/
def Steady : CrossAct → List Around → FinalDb → Prop
  | .sql .selectConfirmedFills, n :: _, db =>
    ∀ l ∈ (n.met db).cross.legs.rows, isFinal (n.met db).cross l = true → Ripe (n.met db) l.intentId
  | .sql (.completeIntent _), n :: _, db => SparesAll n.outside db
  | _, _, _ => True

instance (db : CrossDb) (intentId : Uuid) : Decidable (Underway db intentId) :=
  inferInstanceAs (Decidable (∃ l ∈ db.legs.rows, _))

instance (db : FinalDb) (intentId : Uuid) : Decidable (Ripe db intentId) :=
  inferInstanceAs (Decidable ((∀ f ∈ db.fills, _) ∧ ∀ i ∈ db.cross.intents, _))

instance (db : FinalDb) : (e : Outside) → Decidable (Spares db e)
  | .status id st => inferInstanceAs (Decidable (Underway db.cross id → ended st = false))
  | .intent _ => isTrue trivial
  | .fill id intentId => inferInstanceAs (Decidable (Underway db.cross intentId → FillDone db.cross id))
  | .leg _ _ => inferInstanceAs (Decidable (∀ l ∈ db.cross.legs.rows, _))

instance SparesAll.decidable : (es : List Outside) → (db : FinalDb) → Decidable (SparesAll es db)
  | [], _ => isTrue trivial
  | e :: es, db => @instDecidableAnd _ _ _ (SparesAll.decidable es (e.write db))

instance : (o : CrossAct) → (ns : List Around) → (db : FinalDb) → Decidable (Steady o ns db)
  | .now, _, _ | .lockFunds .., _, _ | .verifyLock .., _, _ | .releaseFunds .., _, _ => isTrue trivial
  | .sql .selectConfirmedFills, [], _ | .sql (.completeIntent _), [], _ => isTrue trivial
  | .sql .selectConfirmedFills, n :: _, db =>
    inferInstanceAs (Decidable (∀ l ∈ (n.met db).cross.legs.rows, _ → Ripe (n.met db) l.intentId))
  | .sql (.completeIntent _), n :: _, db => SparesAll.decidable n.outside db
  | .sql (.insertLeg _), _, _ | .sql (.setStatus ..), _, _ | .sql (.setConfirmedAt _), _, _
  | .sql (.selectByFill _), _, _ | .sql .selectPendingSources, _, _
  | .sql .selectEscrowedSources, _, _ | .sql (.selectTimedOut _), _, _
  | .sql .selectReadyDestinations, _, _ => isTrue trivial

/-! ## What others leave alone -/

/-- What the loop of `finalize_completed` knows of the intents it still has before it. -/
structure Finished (db : FinalDb) (intentId : Uuid) : Prop where
  ripe : Ripe db intentId
  underway : Underway db.cross intentId

section Finished

variable {db db' : FinalDb} {a b : CrossDb} {id : Uuid}

/-- The legs are all still there, and those of the fills that were done are confirmed. -/
structure Holds (a b : CrossDb) : Prop where
  done : ∀ fillId, FillDone a fillId → FillDone b fillId
  legs : ∀ l ∈ a.legs.rows, ∃ l' ∈ b.legs.rows, l'.intentId = l.intentId ∧ slot l' = slot l

theorem Holds.of_subset (h : a.legs.rows ⊆ b.legs.rows) : Holds a b := by
  have hleg : ∀ key, LegDone a key → LegDone b key := by
    rintro key ⟨l, hl, hkey⟩
    exact ⟨l, h hl, hkey⟩
  exact ⟨fun f hf => ⟨hleg _ hf.1, hleg _ hf.2⟩, fun l hl => ⟨l, h hl, rfl, rfl⟩⟩

theorem Holds.underway (h : Holds a b) (hu : Underway a id) : Underway b id := by
  obtain ⟨l, hl, hid, hindex, hdone⟩ := hu
  obtain ⟨l', hl', hid', hslot⟩ := h.legs l hl
  have hfill : l'.fillId = l.fillId := congrArg Prod.fst hslot
  have hside : l'.legIndex = l.legIndex := congrArg Prod.snd hslot
  refine ⟨l', hl', hid'.trans hid, hside.trans hindex, ?_⟩
  rw [hfill]
  exact h.done l.fillId hdone

theorem Finished.holds (hs : Finished db id) (h : Holds db.cross db'.cross)
    (hfills : ∀ f ∈ db'.fills, f.2 = id → f ∈ db.fills ∨ FillDone db.cross f.1)
    (hintents : ∀ i ∈ db'.cross.intents, i.1 = id → i ∈ db.cross.intents ∨ ended i.2 = false) :
    Finished db' id := by
  refine ⟨⟨fun f hf hid => ?_, fun i hi hid => ?_⟩, h.underway hs.underway⟩
  · rcases hfills f hf hid with hold | hdone
    · exact h.done _ (hs.ripe.1 f hold hid)
    · exact h.done _ hdone
  · rcases hintents i hi hid with hold | hopen
    · exact hs.ripe.2 i hold hid
    · exact hopen

theorem ended_or_of_mem_map {intents : List (Uuid × IntentStatus)} {k : Uuid} {st : IntentStatus}
    {i : Uuid × IntentStatus} (hst : k = i.1 → ended st = false)
    (hi : i ∈ intents.map fun i => if i.1 = k then (i.1, st) else i) :
    i ∈ intents ∨ ended i.2 = false := by
  obtain ⟨j, hj, rfl⟩ := List.mem_map.1 hi
  by_cases hk : j.1 = k
  · rw [if_pos hk] at hst ⊢
    exact .inr (hst hk.symm)
  · rw [if_neg hk]
    exact .inl hj

/-- A write to a leg whose fill is not done, or that confirms it. -/
theorem holds_leg {k : Uuid} {st : LegStatus}
    (h : ∀ l ∈ a.legs.rows, l.id = k → FillDone a l.fillId → st = .Confirmed) :
    Holds a (a.update k (fun l => withStatus l st none none) fun _ => ⟨rfl, rfl⟩).2 := by
  have hrow : ∀ l ∈ a.legs.rows, (if decide (l.id = k) = true then withStatus l st none none else l) ∈
      (a.update k (fun l => withStatus l st none none) fun _ => ⟨rfl, rfl⟩).2.legs.rows :=
    fun l hl => List.mem_map.2 ⟨l, hl, rfl⟩
  have hleg : ∀ fillId side, FillDone a fillId → LegDone a (fillId, side) →
      LegDone (a.update k (fun l => withStatus l st none none) fun _ => ⟨rfl, rfl⟩).2 (fillId, side) := by
    rintro fillId side hdone ⟨l, hl, hslot, hst⟩
    refine ⟨_, hrow l hl, ?_⟩
    have hfill : l.fillId = fillId := congrArg Prod.fst hslot
    by_cases hid : l.id = k
    · rw [if_pos (decide_eq_true hid)]
      exact ⟨hslot, h l hl hid (hfill ▸ hdone)⟩
    · rw [if_neg (by simpa using hid)]
      exact ⟨hslot, hst⟩
  refine ⟨fun f hf => ⟨hleg f 0 hf hf.1, hleg f 1 hf hf.2⟩, fun l hl => ⟨_, hrow l hl, ?_⟩⟩
  split <;> exact ⟨rfl, rfl⟩

theorem Finished.write (hs : Finished db id) {e : Outside} (h : Spares db e) :
    Finished (e.write db) id := by
  cases e with
  | status k st =>
    refine hs.holds (.of_subset fun _ hl => hl) (fun f hf _ => .inl hf) fun i hi hid => ?_
    refine ended_or_of_mem_map (fun hk => h ?_) hi
    rw [hk, hid]
    exact hs.underway
  | intent k =>
    simp only [Outside.write]
    split
    · exact hs
    · refine hs.holds (.of_subset fun _ hl => hl) (fun f hf _ => .inl hf) fun i hi _ => ?_
      rcases List.mem_append.1 hi with hold | hnew
      · exact .inl hold
      · rw [List.mem_singleton.1 hnew]
        exact .inr rfl
  | fill k intentId =>
    simp only [Outside.write]
    split
    · refine hs.holds (.of_subset fun _ hl => hl) (fun f hf hid => ?_) fun i hi _ => .inl hi
      rcases List.mem_append.1 hf with hold | hnew
      · exact .inl hold
      · obtain rfl := List.mem_singleton.1 hnew
        have hintent : intentId = id := hid
        rw [hintent] at h
        exact .inr (h hs.underway)
    · exact hs
  | leg k st => exact hs.holds (holds_leg h) (fun f hf _ => .inl hf) fun i hi _ => .inl hi

theorem Finished.writes {es : List Outside} (hs : Finished db id) (h : SparesAll es db) :
    Finished (es.foldl (fun db e => e.write db) db) id := by
  induction es generalizing db with
  | nil => exact hs
  | cons e es ih => exact ih (hs.write h.1) h.2

theorem arrive_rows_subset (db : CrossDb) (a : Arrival) :
    db.legs.rows ⊆ (db.arrive a).legs.rows ∧ (db.arrive a).intents = db.intents := by
  unfold CrossDb.arrive
  simp only [execLegStmt]
  split
  · split
    · next t ht => exact ⟨fun l hl => (Table.mem_insert ht).2 (.inl hl), rfl⟩
    · exact ⟨fun _ hl => hl, rfl⟩
  · exact ⟨fun _ hl => hl, rfl⟩

theorem before_rows_subset (m : Moment) (db : CrossDb) :
    db.legs.rows ⊆ (m.before db).legs.rows ∧ (m.before db).intents = db.intents := by
  unfold Moment.before
  induction m.arrivals generalizing db with
  | nil => exact ⟨fun _ hl => hl, rfl⟩
  | cons a as ih =>
    obtain ⟨hrows, hintents⟩ := arrive_rows_subset db a
    obtain ⟨hrows', hintents'⟩ := ih (db.arrive a)
    exact ⟨fun l hl => hrows' (hrows hl), hintents'.trans hintents⟩

theorem Finished.met {n : Around} (hs : Finished db id) (h : SparesAll n.outside db) :
    Finished (n.met db) id := by
  have hwritten : Finished (n.written db) id := hs.writes h
  obtain ⟨hrows, hintents⟩ := before_rows_subset n.moment (n.written db).cross
  refine hwritten.holds (.of_subset hrows) (fun f hf _ => .inl hf) fun i hi _ => ?_
  exact .inl (hintents ▸ hi)

end Finished

/-! ## The phases -/

section Worker

variable {bridges : BridgeRegistry} {ns : List Around} {s : FinalDb}

/-- An act that completes no intent. -/
def Incomplete : CrossAct → Prop
  | .sql (.completeIntent _) => False
  | _ => True

theorem Plain.incomplete {o : CrossAct} (h : Plain o) : Incomplete o := by
  unfold Incomplete
  split
  · exact h
  · trivial

theorem justified_incomplete {o : CrossAct} (ho : Incomplete o) (n : Around) (hs : Justified s) :
    Justified (execAround n o s).2 := by
  have hnone : completions o n.moment.turn.fate (n.met s) = [] := by
    unfold completions
    split
    · rfl
    · cases ho
    · rfl
  show ∀ c ∈ completions o n.moment.turn.fate (n.met s) ++ s.completed, c.Justified
  rw [hnone]
  exact hs

theorem justified_of_issues {α : Type} {p : CrossProg α} (hp : p.Issues Incomplete)
    (hs : Justified s) :
    Prog.Lasts execAround Steady Justified (fun _ s' => Justified s') p ns s :=
  Prog.lasts_of_issues (fun _ ho n _ _ _ hs => justified_incomplete ho n hs) hp hs

/-! ### The loop of `finalize_completed` -/

/-- What has been completed was justified, and the intents to come are finished. -/
structure Finishing (rows : List (Uuid × Uuid)) (db : FinalDb) : Prop where
  justified : Justified db
  finished : ∀ row ∈ rows, Finished db row.2

theorem isFinal_underway {db : CrossDb} {l : Leg} (hl : l ∈ db.legs.rows) (h : isFinal db l = true) :
    Underway db l.intentId := by
  simp only [isFinal, Bool.and_eq_true, beq_iff_eq, List.any_eq_true] at h
  obtain ⟨⟨⟨hindex, hst⟩, d, hd, ⟨hfill, hdest⟩, hdst⟩, -⟩ := h
  exact ⟨l, hl, rfl, hindex, ⟨l, hl, Prod.ext rfl hindex, hst⟩, d, hd, Prod.ext hfill hdest, hdst⟩

/-- The rows that the query answers. -/
theorem mem_confirmedFills {n : Around} {rows : List (Uuid × Uuid)}
    (h : (execAround n (.sql .selectConfirmedFills) s).1 = .ok rows) {row : Uuid × Uuid}
    (hrow : row ∈ rows) :
    ∃ l ∈ (n.met s).cross.legs.rows, isFinal (n.met s).cross l = true ∧ l.intentId = row.2 := by
  have hans : rows = ((((n.moment.scan.order (n.met s).cross.legs.rows).filter
      (isFinal (n.met s).cross)).map fun l => (l.fillId, l.intentId)).dedup.take 50) := by
    simp only [execAround, execCross, serveAct, serveStmt] at h
    cases hf : n.moment.turn.fate with
    | served =>
      rw [hf] at h
      cases h
      rfl
    | refused =>
      rw [hf] at h
      cases h
    | lost =>
      rw [hf] at h
      cases h
  rw [hans] at hrow
  obtain ⟨l, hl, rfl⟩ := List.mem_map.1 (List.mem_dedup.1 (List.mem_of_mem_take hrow))
  obtain ⟨hscan, hfinal⟩ := List.mem_filter.1 hl
  exact ⟨l, (n.moment.scan.perm _).mem_iff.1 hscan, hfinal, rfl⟩

theorem Finished.of_eq {db db' : FinalDb} {id : Uuid} (hs : Finished db id) (hfills : db'.fills = db.fills)
    (hlegs : db'.cross.legs = db.cross.legs) (hintents : db'.cross.intents = db.cross.intents) :
    Finished db' id := by
  refine hs.holds (.of_subset ?_) (fun f hf _ => .inl ?_) fun i hi _ => .inl ?_
  · rw [hlegs]
    exact fun _ hl => hl
  · exact hfills ▸ hf
  · exact hintents ▸ hi

/-- The query leaves the store as it met it. -/
theorem Finished.select {n : Around} {id : Uuid} (hs : Finished (n.met s) id) :
    Finished (execAround n (.sql .selectConfirmedFills) s).2 id := by
  have hread : (serveAct n.moment (.sql .selectConfirmedFills) (n.met s).cross).2 = (n.met s).cross :=
    reads_sql (fun _ _ => rfl) n.moment _
  refine hs.of_eq rfl ?_ ?_
  · show (serveAct n.moment (.sql .selectConfirmedFills) (n.met s).cross).2.legs = _
    rw [hread]
  · show (serveAct n.moment (.sql .selectConfirmedFills) (n.met s).cross).2.intents = _
    rw [hread]

theorem finishing_select {n : Around} {ns' : List Around} {rows : List (Uuid × Uuid)}
    (hs : Justified s) (hC : Steady (.sql .selectConfirmedFills) (n :: ns') s)
    (h : (execAround n (.sql .selectConfirmedFills) s).1 = .ok rows) :
    Finishing rows (execAround n (.sql .selectConfirmedFills) s).2 := by
  refine ⟨justified_incomplete (o := .sql .selectConfirmedFills) trivial n hs, fun row hrow => ?_⟩
  obtain ⟨l, hl, hfinal, hid⟩ := mem_confirmedFills h hrow
  rw [← hid]
  exact Finished.select ⟨hC l hl hfinal, isFinal_underway hl hfinal⟩

/-- What the update completes is finished. -/
theorem Finished.justified {db : FinalDb} {id : Uuid} (hs : Finished db id) {fate : Fate}
    {c : Completion} (hc : c ∈ completions (.sql (.completeIntent id)) fate db) : c.Justified := by
  have hopen : db.openFills id = [] := by
    unfold FinalDb.openFills
    rw [List.map_eq_nil_iff, List.filter_eq_nil_iff]
    intro f hf
    simp only [Bool.and_eq_true, beq_iff_eq, Bool.not_eq_true', decide_eq_false_iff_not, not_and,
      not_not]
    exact hs.ripe.1 f hf
  have hmap : c ∈ (db.cross.intents.filter fun i => i.1 == id && i.2 != .Completed).map fun i =>
      ⟨id, i.2, db.openFills id⟩ := by
    cases fate with
    | refused => cases hc
    | served => exact hc
    | lost => exact hc
  obtain ⟨i, hi, rfl⟩ := List.mem_map.1 hmap
  obtain ⟨hrow, hi⟩ := List.mem_filter.1 hi
  simp only [Bool.and_eq_true, beq_iff_eq] at hi
  exact ⟨hopen, hs.ripe.2 i hrow hi.1⟩

/-- The update of one intent leaves the others finished. -/
theorem Finished.complete {n : Around} {id k : Uuid} (hs : Finished (n.met s) id) :
    Finished (execAround n (.sql (.completeIntent k)) s).2 id := by
  have hlegs : (execAround n (.sql (.completeIntent k)) s).2.cross.legs = (n.met s).cross.legs := by
    simp only [execAround, execCross, serveAct, serveStmt]
    cases n.moment.turn.fate <;> rfl
  have hintents : (execAround n (.sql (.completeIntent k)) s).2.cross.intents =
      (n.met s).cross.intents ∨ (execAround n (.sql (.completeIntent k)) s).2.cross.intents =
      (n.met s).cross.intents.map fun i => if i.1 = k then (i.1, .Completed) else i := by
    simp only [execAround, execCross, serveAct, serveStmt]
    cases n.moment.turn.fate with
    | refused => exact .inl rfl
    | served => exact .inr rfl
    | lost => exact .inr rfl
  refine hs.holds (.of_subset ?_) (fun f hf _ => .inl hf) fun i hi _ => ?_
  · rw [hlegs]
    exact fun _ hl => hl
  · rcases hintents with hsame | hset
    · exact .inl (hsame ▸ hi)
    · rw [hset] at hi
      exact ended_or_of_mem_map (fun _ => rfl) hi

theorem finishing_complete {n : Around} {ns' : List Around} {row : Uuid × Uuid}
    {rows : List (Uuid × Uuid)} (hs : Finishing (row :: rows) s)
    (hC : Steady (.sql (.completeIntent row.2)) (n :: ns') s) :
    Finishing rows (execAround n (.sql (.completeIntent row.2)) s).2 := by
  have hmet : ∀ r ∈ row :: rows, Finished (n.met s) r.2 := fun r hr => (hs.finished r hr).met hC
  refine ⟨fun c hc => ?_, fun r hr => (hmet r (List.mem_cons_of_mem _ hr)).complete⟩
  rcases List.mem_append.1 hc with hnew | hold
  · exact (hmet row List.mem_cons_self).justified hnew
  · exact hs.justified c hold

theorem finishing_finalizeOne {row : Uuid × Uuid} {rows : List (Uuid × Uuid)}
    (hs : Finishing (row :: rows) s) :
    Prog.Lasts execAround Steady Justified (fun _ s' => Finishing rows s') (finalizeOne row) ns s := by
  refine Prog.lasts_bind (Prog.lasts_call (fun _ => hs.justified) fun n ns' _ hC => ?_)
  intro ns''
  have hnext := finishing_complete hs hC
  split <;> exact hnext

theorem justified_finalizeCompleted (hs : Justified s) :
    Prog.Lasts execAround Steady Justified (fun _ s' => Justified s') finalizeCompleted ns s := by
  refine Prog.lasts_bind (Prog.lasts_call (fun _ => hs) fun n ns' _ hC => ?_)
  intro ns''
  cases hr : (execAround n (.sql .selectConfirmedFills) s).1 with
  | error e => exact justified_incomplete (o := .sql .selectConfirmedFills) trivial n hs
  | ok rows =>
    have hrows := finishing_select hs hC hr
    exact (Prog.lasts_forEach (J := Finishing) (fun row rows ns s => finishing_finalizeOne) hrows).mono
      fun _ s' h => h.justified

theorem justified_crossChainWorker (rounds : Nat) (hs : Justified s) :
    Prog.Lasts execAround Steady Justified (fun _ s' => Justified s') (crossChainWorker bridges rounds)
      ns s := by
  have hplain : ∀ o, Plain o → Incomplete o := fun _ => Plain.incomplete
  induction rounds generalizing ns s with
  | zero => exact hs
  | succ k ih =>
    have hlock : (lockPendingSources bridges).Issues Incomplete :=
      lockPendingSources_issues hplain fun _ _ => trivial
    have hverify : (verifyEscrowed bridges).Issues Incomplete := verifyEscrowed_issues.mono hplain
    have hrelease : (releaseDestinations bridges).Issues Incomplete :=
      releaseDestinations_issues hplain fun _ _ _ => trivial
    have htimeouts : processTimeouts.Issues Incomplete := processTimeouts_issues.mono hplain
    have hgauge : updateGauge.Issues Incomplete :=
      updateGauge_issues trivial (fun _ => trivial) trivial
    refine Prog.lasts_bind ((justified_of_issues hlock hs).mono fun _ s₁ hs₁ ns₁ => ?_)
    refine Prog.lasts_bind ((justified_of_issues hverify hs₁).mono fun _ s₂ hs₂ ns₂ => ?_)
    refine Prog.lasts_bind ((justified_of_issues hrelease hs₂).mono fun _ s₃ hs₃ ns₃ => ?_)
    refine Prog.lasts_bind ((justified_of_issues htimeouts hs₃).mono fun _ s₄ hs₄ ns₄ => ?_)
    refine Prog.lasts_bind ((justified_finalizeCompleted hs₄).mono fun _ s₅ hs₅ ns₅ => ?_)
    exact Prog.lasts_bind ((justified_of_issues hgauge hs₅).mono fun _ s₆ hs₆ ns₆ => ih hs₆)

end Worker

/-- **Completion is justified when the fills are steady.**  For every run of the worker from any store,
with any writes of others, any answers of the bridges and of the database, and any crashes and
restarts: when every act is `Steady`, every intent that `finalize_completed` completed had both legs
of all its fills confirmed and had not ended before. -/
theorem steady_completion_justified (bridges : BridgeRegistry) (lives : List (Nat × List Around))
    (s : FinalDb) (hs : s.completed = [])
    (hlives : Prog.AlongLives execAround Steady (crossChainWorker bridges) lives s) :
    Justified (Prog.lives execAround (crossChainWorker bridges) lives s) := by
  refine Prog.lives_keep (fun rounds _ _ hs => justified_crossChainWorker rounds hs) hlives ?_
  intro c hc
  rw [hs] at hc
  cases hc

/-! ### Runs

In its first round the worker settles the source of fill 2 and releases its destination.  Before the
query of the second round the destination is confirmed and the legs of other fills arrive; before the
update that follows, others write. -/

def finalLife (arrivals : List Arrival) (update : List Outside) : List Around :=
  (demoMoments 24).map (fun m => ⟨[], m⟩) ++
    [⟨[.leg 11 .Confirmed], ⟨arrivals, .inOrder, demoTurn .served 1⟩⟩,
      ⟨update, .quiet (demoTurn .served 1)⟩]

/-- Intent 1 with the given fills. -/
def finalRun (fills : List (Uuid × Uuid)) (life : List Around) : FinalDb :=
  Prog.lives execAround (crossChainWorker demoBridges) [(2, life)]
    ⟨.start [(1, .Matched)] 0, fills, []⟩

/-- The only fill is confirmed, and the intent goes on to execution before it is completed. -/
theorem demo_completion_justified :
    (finalRun [(2, 1)] (finalLife [] [.status 1 .Executing])).completed = [⟨1, .Executing, []⟩] ∧
      Justified (finalRun [(2, 1)] (finalLife [] [.status 1 .Executing])) :=
  ⟨by decide +kernel, steady_completion_justified _ _ _ rfl (by decide +kernel)⟩

def secondFill : List Arrival :=
  [⟨.source, 12, { demoSettlement with fillId := 3 }, 0⟩,
    ⟨.dest, 13, { demoSettlement with fillId := 3 }, 0⟩]

/-- The legs of another fill of the intent are pending; and in another run the intent is cancelled
between the query and the update. -/
theorem completion_not_justified :
    ((finalRun [(2, 1), (3, 1)] (finalLife secondFill [])).completed = [⟨1, .Matched, [3]⟩] ∧
      ¬ Justified (finalRun [(2, 1), (3, 1)] (finalLife secondFill []))) ∧
    (finalRun [(2, 1)] (finalLife [] [.status 1 .Cancelled])).completed = [⟨1, .Cancelled, []⟩] ∧
      ¬ Justified (finalRun [(2, 1)] (finalLife [] [.status 1 .Cancelled])) := by
  decide +kernel

end IntentX.CrossChain
