import IntentX.CrossChain

/-!
# Both legs of a settlement

`create_settlement` inserts the two legs of a fill with two statements.  A `CreateCall` is a call
with the turns of its three acts; `runs` of calls start from an empty table.  `Paired` says what the
table is meant to look like, and `CreateCall.Fair` when a call leaves it so: when the source leg can
go in at all, the database refuses it right away, or it serves both statements.

`create_cases` says what a call can do (`Created`); from it come the step (`fair_iff`) and, by
induction, the whole sequence.
-/

namespace IntentX.CrossChain

open Lib

/-! ## Calls -/

/-- Nothing comes between the acts of the call. -/
def Moment.quiet (turn : Turn) : Moment := ⟨[], .inOrder, turn⟩

structure CreateCall where
  sourceId : Uuid
  destId : Uuid
  req : SettlementReq
  /-- at the reading of the clock -/
  clock : Turn
  /-- at the insert of the source leg -/
  source : Turn
  /-- at the insert of the destination leg -/
  dest : Turn

namespace CreateCall

def life (c : CreateCall) (db : CrossDb) :
    Option (Except CrossChainError (Leg × Leg) × List Moment) × CrossDb :=
  Prog.play execCross (createSettlement c.sourceId c.destId c.req).run
    [.quiet c.clock, .quiet c.source, .quiet c.dest] db

/-- What the call returns. -/
def result (c : CreateCall) (db : CrossDb) : Option (Except CrossChainError (Leg × Leg)) :=
  (c.life db).1.map Prod.fst

def store (c : CreateCall) (db : CrossDb) : CrossDb := (c.life db).2

end CreateCall

/-! ## The table as it should be -/

def legsOf (db : CrossDb) (fillId : Uuid) : List Leg := db.legs.rows.filter fun l => l.fillId == fillId

/-- Two legs of one fill that belong together. -/
structure Matching (source dest : Leg) : Prop where
  sourceIndex : source.legIndex = 0
  destIndex : dest.legIndex = 1
  amount : source.amount = dest.amount
  timeout : source.timeoutAt = dest.timeoutAt

/-- Every fill has no legs or both. -/
def Paired (db : CrossDb) : Prop :=
  ∀ fillId, legsOf db fillId = [] ∨
    ∃ source dest, (legsOf db fillId).Perm [source, dest] ∧ Matching source dest

/-- A call that returns an error leaves the table as it was. -/
def Undone (c : CreateCall) (db : CrossDb) : Prop :=
  ∀ e, c.result db = some (.error e) → (c.store db).legs = db.legs

/-- The table is right before, between and after the calls, and failed calls change nothing. -/
def BothLegs : List CreateCall → CrossDb → Prop
  | [], db => Paired db
  | c :: calls, db => Paired db ∧ Undone c db ∧ BothLegs calls (c.store db)

/-! ## What makes a call fair -/

/-- The source leg goes in: the intent is there, and the keys of the leg are free. -/
def CreateCall.Opens (c : CreateCall) (db : CrossDb) : Prop :=
  c.req.intentId ∈ db.intents.map Prod.fst ∧
    ∀ l ∈ db.legs.rows, l.id ≠ c.sourceId ∧ slot l ≠ (c.req.fillId, 0)

/-- The id drawn for the destination leg is free. -/
def CreateCall.Fresh (c : CreateCall) (db : CrossDb) : Prop :=
  c.destId ≠ c.sourceId ∧ ∀ l ∈ db.legs.rows, l.id ≠ c.destId

def CreateCall.Fair (c : CreateCall) (db : CrossDb) : Prop :=
  c.Opens db → c.source.fate = .refused ∨
    c.source.fate = .served ∧ c.dest.fate = .served ∧ c.Fresh db

def AllFair : List CreateCall → CrossDb → Prop
  | [], _ => True
  | c :: calls, db => c.Fair db ∧ AllFair calls (c.store db)

/-! ## Inserting a leg -/

section Insert

variable {db : CrossDb} {l : Leg}

/-- The row goes in: its intent is there and its keys are free. -/
def Admits (db : CrossDb) (l : Leg) : Prop :=
  l.intentId ∈ db.intents.map Prod.fst ∧ ∀ r ∈ db.legs.rows, r.id ≠ l.id ∧ slot r ≠ slot l

theorem insertLeg_admitted (h : Admits db l) : ∃ t : Table Leg (fun l => l.id) slot,
    t.rows = db.legs.rows ++ [l] ∧
      execLegStmt .inOrder (.insertLeg l) db = (.ok (), { db with legs := t }) := by
  obtain ⟨t, ht⟩ := Option.isSome_iff_exists.1 (Table.insert_isSome_iff.2 h.2)
  refine ⟨t, Table.rows_insert ht, ?_⟩
  simp only [execLegStmt, if_pos h.1, ht]

theorem insertLeg_rejected (h : ¬ Admits db l) :
    ∃ e, execLegStmt .inOrder (.insertLeg l) db = (.error e, db) := by
  simp only [execLegStmt]
  split
  · next hintent =>
    have hnone : db.legs.insert l = none := by
      rw [← Option.not_isSome_iff_eq_none]
      exact fun hsome => h ⟨hintent, Table.insert_isSome_iff.1 hsome⟩
    rw [hnone]
    exact ⟨_, rfl⟩
  · exact ⟨_, rfl⟩

theorem execCross_quiet (turn : Turn) (o : LegStmt) (db : CrossDb) :
    execCross (.quiet turn) (.sql o) db =
      ((serveStmt turn.fate (execLegStmt .inOrder o db) db).1,
        { (serveStmt turn.fate (execLegStmt .inOrder o db) db).2 with
          clock := db.clock + turn.elapse }) := rfl

/-- The statement of an insert that has no effect. -/
theorem execInsert_missed {turn : Turn} (h : ¬ (Admits db l ∧ turn.fate ≠ .refused)) :
    ∃ e db', execCross (.quiet turn) (.sql (.insertLeg l)) db = (.error e, db') ∧
      db'.legs = db.legs := by
  rw [execCross_quiet]
  by_cases hadm : Admits db l
  · have hf : turn.fate = .refused := not_not.1 fun hf => h ⟨hadm, hf⟩
    rw [hf]
    exact ⟨_, _, rfl, rfl⟩
  · obtain ⟨e, he⟩ := insertLeg_rejected hadm
    rw [he]
    cases turn.fate <;> exact ⟨_, _, rfl, rfl⟩

/-- The statement of an insert that has one: its answer is lost or it is served. -/
theorem execInsert_reached {turn : Turn} (h : Admits db l) (hf : turn.fate ≠ .refused) :
    (turn.fate = .lost ∧ ∃ e db', execCross (.quiet turn) (.sql (.insertLeg l)) db = (.error e, db') ∧
      db'.intents = db.intents ∧ db'.legs.rows = db.legs.rows ++ [l]) ∨
    (turn.fate = .served ∧ ∃ db', execCross (.quiet turn) (.sql (.insertLeg l)) db = (.ok (), db') ∧
      db'.intents = db.intents ∧ db'.legs.rows = db.legs.rows ++ [l]) := by
  obtain ⟨t, hrows, ht⟩ := insertLeg_admitted h
  rw [execCross_quiet, ht]
  cases hfate : turn.fate with
  | refused => exact absurd hfate hf
  | lost => exact .inl ⟨rfl, _, _, rfl, rfl, hrows⟩
  | served => exact .inr ⟨rfl, _, rfl, rfl, hrows⟩

end Insert

/-! ## What a call does -/

section Call

variable {c : CreateCall} {db : CrossDb}

/-- The legs the call builds. -/
def CreateCall.sourceRow (c : CreateCall) (db : CrossDb) : Leg := sourceLeg c.sourceId c.req db.clock

def CreateCall.destRow (c : CreateCall) (db : CrossDb) : Leg := destLeg c.destId c.req db.clock

def CreateCall.Fails (c : CreateCall) (db : CrossDb) : Prop := ∃ e, c.result db = some (.error e)

/-- What a call can do to the table. -/
inductive Created (c : CreateCall) (db : CrossDb) : Prop
  | nothing (why : ¬ c.Opens db ∨ c.source.fate = .refused) (legs : (c.store db).legs = db.legs)
  | lone (opens : c.Opens db) (why : c.source.fate = .lost ∨ c.dest.fate = .refused ∨
      ∃ l ∈ db.legs.rows ++ [c.sourceRow db], l.id = c.destId ∨ slot l = (c.req.fillId, 1))
      (reached : c.source.fate ≠ .refused)
      (rows : (c.store db).legs.rows = db.legs.rows ++ [c.sourceRow db])
  | late (opens : c.Opens db) (reached : c.source.fate ≠ .refused) (why : c.dest.fate = .lost)
      (fails : c.Fails db)
      (rows : (c.store db).legs.rows = db.legs.rows ++ [c.sourceRow db] ++ [c.destRow db])
  | both (opens : c.Opens db) (first : c.source.fate = .served) (second : c.dest.fate = .served)
      (free : ∀ l ∈ db.legs.rows ++ [c.sourceRow db], l.id ≠ c.destId ∧ slot l ≠ (c.req.fillId, 1))
      (returns : ¬ c.Fails db)
      (rows : (c.store db).legs.rows = db.legs.rows ++ [c.sourceRow db] ++ [c.destRow db])

/-- The store when the clock has been read. -/
def CreateCall.ticked (c : CreateCall) (db : CrossDb) : CrossDb :=
  { db with clock := db.clock + c.clock.elapse }

theorem opens_iff : c.Opens db ↔ Admits (c.ticked db) (c.sourceRow db) := Iff.rfl

section Life

variable {db' db'' : CrossDb} {e : HtlcActError} {u : Unit}

theorem life_source_error (hx : execCross (.quiet c.source) (.sql (.insertLeg (c.sourceRow db)))
    (c.ticked db) = (.error e, db')) : c.life db = (some (.error (.DbError e), [.quiet c.dest]), db') := by
  unfold CreateCall.life createSettlement
  rw [Call.play_op_bind]
  show Prog.play execCross (legSql (.insertLeg (c.sourceRow db)) >>= fun _ => _).run _ (c.ticked db) = _
  rw [Call.play_op_bind, hx]

theorem life_source_ok (hx : execCross (.quiet c.source) (.sql (.insertLeg (c.sourceRow db)))
    (c.ticked db) = (.ok u, db')) : c.life db =
      Prog.play execCross (legSql (.insertLeg (c.destRow db)) >>= fun _ =>
        pure (c.sourceRow db, c.destRow db)).run [.quiet c.dest] db' := by
  unfold CreateCall.life createSettlement
  rw [Call.play_op_bind]
  show Prog.play execCross (legSql (.insertLeg (c.sourceRow db)) >>= fun _ => _).run _ (c.ticked db) = _
  rw [Call.play_op_bind, hx]
  rfl

theorem life_dest_error (hx : execCross (.quiet c.source) (.sql (.insertLeg (c.sourceRow db)))
    (c.ticked db) = (.ok u, db'))
    (hx' : execCross (.quiet c.dest) (.sql (.insertLeg (c.destRow db))) db' = (.error e, db'')) :
    c.life db = (some (.error (.DbError e), []), db'') := by
  rw [life_source_ok hx, Call.play_op_bind, hx']

theorem life_dest_ok (hx : execCross (.quiet c.source) (.sql (.insertLeg (c.sourceRow db)))
    (c.ticked db) = (.ok u, db'))
    (hx' : execCross (.quiet c.dest) (.sql (.insertLeg (c.destRow db))) db' = (.ok u, db'')) :
    c.life db = (some (.ok (c.sourceRow db, c.destRow db), []), db'') := by
  rw [life_source_ok hx, Call.play_op_bind, hx']
  rfl

theorem store_of_life {r} (h : c.life db = (r, db')) : c.store db = db' := by
  unfold CreateCall.store
  rw [h]

end Life

/-- The call from the answer for its source leg on. -/
theorem created_of_source {db' : CrossDb} (hopen : c.Opens db) (hserved : c.source.fate = .served)
    (hx : execCross (.quiet c.source) (.sql (.insertLeg (c.sourceRow db))) (c.ticked db) = (.ok (), db'))
    (hintents : db'.intents = db.intents)
    (hrows : db'.legs.rows = db.legs.rows ++ [c.sourceRow db]) : Created c db := by
  have hreached : c.source.fate ≠ .refused := by
    rw [hserved]
    exact nofun
  by_cases hdest : Admits db' (c.destRow db) ∧ c.dest.fate ≠ .refused
  · obtain ⟨hadm, hdreached⟩ := hdest
    have hfree := hadm.2
    rw [hrows] at hfree
    rcases execInsert_reached hadm hdreached with
      ⟨hlost, e, db'', hx', -, hrows'⟩ | ⟨hserved', db'', hx', -, hrows'⟩
    · have hlife := life_dest_error hx hx'
      refine .late hopen hreached hlost ⟨.DbError e, ?_⟩ ?_
      · unfold CreateCall.result
        rw [hlife]
        rfl
      · rw [store_of_life hlife, hrows', hrows]
    · have hlife := life_dest_ok hx hx'
      refine .both hopen hserved hserved' hfree ?_ ?_
      · rintro ⟨e, he⟩
        unfold CreateCall.result at he
        rw [hlife] at he
        cases he
      · rw [store_of_life hlife, hrows', hrows]
  · obtain ⟨e, db'', hx', hlegs⟩ := execInsert_missed hdest
    refine .lone hopen (.inr ?_) hreached ?_
    · by_cases hrefused : c.dest.fate = .refused
      · exact .inl hrefused
      · refine .inr ?_
        by_contra hfree
        push Not at hfree
        refine hdest ⟨⟨?_, ?_⟩, hrefused⟩
        · rw [hintents]
          exact hopen.1
        · rw [hrows]
          exact hfree
    · rw [store_of_life (life_dest_error hx hx'), hlegs, hrows]

theorem create_cases (c : CreateCall) (db : CrossDb) : Created c db := by
  by_cases hopen : c.Opens db ∧ c.source.fate ≠ .refused
  · obtain ⟨hopen, hreached⟩ := hopen
    rcases execInsert_reached (opens_iff.1 hopen) hreached with
      ⟨hlost, e, db', hx, -, hrows⟩ | ⟨hserved, db', hx, hintents, hrows⟩
    · refine .lone hopen (.inl hlost) hreached ?_
      rw [store_of_life (life_source_error hx)]
      exact hrows
    · exact created_of_source hopen hserved hx hintents hrows
  · obtain ⟨e, db', hx, hlegs⟩ := execInsert_missed (mt (fun h => ⟨opens_iff.2 h.1, h.2⟩) hopen)
    refine .nothing ?_ ?_
    · by_cases h : c.Opens db
      · exact .inr (not_not.1 fun hf => hopen ⟨h, hf⟩)
      · exact .inl h
    · rw [store_of_life (life_source_error hx)]
      exact hlegs

end Call

/-! ## The step -/

section Step

variable {c : CreateCall} {db db' : CrossDb}

theorem paired_congr (h : db'.legs = db.legs) : Paired db' ↔ Paired db := by
  unfold Paired legsOf
  rw [h]

/-- A fill without a source leg has no legs. -/
theorem legsOf_eq_nil (hp : Paired db) (hopen : c.Opens db) : legsOf db c.req.fillId = [] := by
  rcases hp c.req.fillId with hnil | ⟨source, dest, hperm, hmatch⟩
  · exact hnil
  · exfalso
    have hmem : source ∈ legsOf db c.req.fillId := hperm.mem_iff.2 List.mem_cons_self
    obtain ⟨hrow, hfill⟩ := List.mem_filter.1 hmem
    exact (hopen.2 source hrow).2 (Prod.ext (eq_of_beq hfill) hmatch.sourceIndex)

theorem legsOf_append {l : List Leg} (hrows : db'.legs.rows = db.legs.rows ++ l) (fillId : Uuid) :
    legsOf db' fillId = legsOf db fillId ++ l.filter fun x => x.fillId == fillId := by
  unfold legsOf
  rw [hrows, List.filter_append]

theorem matching_rows : Matching (c.sourceRow db) (c.destRow db) := ⟨rfl, rfl, rfl, rfl⟩

theorem paired_of_both (hp : Paired db) (hopen : c.Opens db)
    (hrows : (c.store db).legs.rows = db.legs.rows ++ [c.sourceRow db] ++ [c.destRow db]) :
    Paired (c.store db) := by
  intro fillId
  rw [List.append_assoc] at hrows
  rw [legsOf_append hrows]
  by_cases hfill : c.req.fillId = fillId
  · subst hfill
    have hnew : ([c.sourceRow db] ++ [c.destRow db]).filter (fun x => x.fillId == c.req.fillId) =
        [c.sourceRow db, c.destRow db] :=
      List.filter_eq_self.2 (by simp [CreateCall.sourceRow, CreateCall.destRow, sourceLeg, destLeg])
    rw [legsOf_eq_nil hp hopen, hnew]
    exact .inr ⟨_, _, .refl _, matching_rows⟩
  · have hnone : ([c.sourceRow db] ++ [c.destRow db]).filter (fun x => x.fillId == fillId) = [] :=
      List.filter_eq_nil_iff.2
        (by simp [CreateCall.sourceRow, CreateCall.destRow, sourceLeg, destLeg, hfill])
    rw [hnone, List.append_nil]
    exact hp fillId

theorem not_paired_of_lone (hp : Paired db) (hopen : c.Opens db)
    (hrows : (c.store db).legs.rows = db.legs.rows ++ [c.sourceRow db]) : ¬ Paired (c.store db) := by
  intro hpaired
  have hone : legsOf (c.store db) c.req.fillId = [c.sourceRow db] := by
    rw [legsOf_append hrows, legsOf_eq_nil hp hopen]
    exact List.filter_eq_self.2 (by simp [CreateCall.sourceRow, sourceLeg])
  rcases hpaired c.req.fillId with hnil | ⟨source, dest, hperm, -⟩
  · rw [hone] at hnil
    cases hnil
  · rw [hone] at hperm
    exact absurd hperm.length_eq (by simp)

/-- The keys of the destination leg are free when its id is. -/
theorem dest_free (hp : Paired db) (hopen : c.Opens db) (hfresh : c.Fresh db) :
    ¬ ∃ l ∈ db.legs.rows ++ [c.sourceRow db], l.id = c.destId ∨ slot l = (c.req.fillId, 1) := by
  rintro ⟨l, hl, hkey⟩
  rcases List.mem_append.1 hl with hrow | hnew
  · rcases hkey with hid | hslot
    · exact hfresh.2 l hrow hid
    · have hmem : l ∈ legsOf db c.req.fillId :=
        List.mem_filter.2 ⟨hrow, beq_iff_eq.2 (congrArg Prod.fst hslot)⟩
      rw [legsOf_eq_nil hp hopen] at hmem
      cases hmem
  · rw [List.mem_singleton] at hnew
    subst hnew
    rcases hkey with hid | hslot
    · exact hfresh.1 hid.symm
    · have hindex : (0 : Int) = 1 := congrArg Prod.snd hslot
      exact absurd hindex (by decide)

/-- A call keeps the table right, and undoes its failures, exactly when it is fair. -/
theorem fair_iff (hp : Paired db) : c.Fair db ↔ Undone c db ∧ Paired (c.store db) := by
  cases create_cases c db with
  | nothing why legs =>
    refine iff_of_true (fun hopen => .inl ?_) ⟨fun _ _ => legs, (paired_congr legs).2 hp⟩
    exact why.resolve_left (not_not.2 hopen)
  | lone opens why reached rows =>
    refine iff_of_false (fun hfair => ?_) fun h => not_paired_of_lone hp opens rows h.2
    rcases hfair opens with hrefused | ⟨hsource, hdest, hfresh⟩
    · exact reached hrefused
    · rcases why with hlost | hrefused | htaken
      · rw [hsource] at hlost
        cases hlost
      · rw [hdest] at hrefused
        cases hrefused
      · exact dest_free hp opens hfresh htaken
  | late opens reached why fails rows =>
    obtain ⟨e, he⟩ := fails
    refine iff_of_false (fun hfair => ?_) fun h => ?_
    · rcases hfair opens with hrefused | ⟨-, hdest, -⟩
      · exact reached hrefused
      · rw [why] at hdest
        cases hdest
    · have hlength := congrArg List.length rows
      rw [h.1 e he] at hlength
      simp at hlength
  | both opens first second free returns rows =>
    refine iff_of_true (fun _ => .inr ⟨first, second, ?_, ?_⟩) ⟨?_, paired_of_both hp opens rows⟩
    · exact fun heq => (free _ (List.mem_append_right _ List.mem_cons_self)).1 heq.symm
    · exact fun l hl => (free l (List.mem_append_left _ hl)).1
    · exact fun e he => absurd ⟨e, he⟩ returns

end Step

/-! ## Sequences of calls -/

theorem BothLegs.paired {calls : List CreateCall} {db : CrossDb} (h : BothLegs calls db) : Paired db := by
  cases calls with
  | nil => exact h
  | cons c calls => exact h.1

theorem bothLegs_iff {calls : List CreateCall} {db : CrossDb} (hp : Paired db) :
    BothLegs calls db ↔ AllFair calls db := by
  induction calls generalizing db with
  | nil => exact iff_of_true hp trivial
  | cons c calls ih =>
    constructor
    · rintro ⟨-, hundone, hrest⟩
      exact ⟨(fair_iff hp).2 ⟨hundone, hrest.paired⟩, (ih hrest.paired).1 hrest⟩
    · rintro ⟨hfair, hrest⟩
      obtain ⟨hundone, hpaired⟩ := (fair_iff hp).1 hfair
      exact ⟨hp, hundone, (ih hpaired).2 hrest⟩

/-- A store without legs. -/
def CrossDb.start (intents : List (Uuid × IntentStatus)) (clock : Int) : CrossDb :=
  ⟨intents, .empty, clock, []⟩

theorem paired_start (intents : List (Uuid × IntentStatus)) (clock : Int) :
    Paired (.start intents clock) := fun _ => .inl rfl

/-- **Every fill has both legs or none, and a failed call changes nothing, if and only if every call
is fair.**  For every sequence of calls from an empty table: whenever the source leg of a call can go
in, the database refuses that insert, or it serves both inserts and the drawn id is free. -/
theorem both_legs_iff_fair (intents : List (Uuid × IntentStatus)) (clock : Int)
    (calls : List CreateCall) :
    BothLegs calls (.start intents clock) ↔ AllFair calls (.start intents clock) :=
  bothLegs_iff (paired_start intents clock)

/-- A turn in which no time passes and no bridge answers. -/
def Turn.offline (fate : Fate) : Turn :=
  ⟨0, fate, fun _ => .error (.Other "offline"), fun _ => .error (.Other "offline"),
    fun _ _ => .error (.Other "offline")⟩

/-- A call whose second insert the database refuses. -/
def halfCall : CreateCall where
  sourceId := 10
  destId := 11
  req := ⟨1, 2, "ethereum", "solana", "0xa", "0xb", "c", "d", none, none, 100⟩
  clock := Turn.offline .served
  source := Turn.offline .served
  dest := Turn.offline .refused

theorem lone_source_leg :
    halfCall.result (.start [(1, .Matched)] 0) = some (.error (.DbError (.db .io))) ∧
      (legsOf (halfCall.store (.start [(1, .Matched)] 0)) 2).map (fun l => l.legIndex) = [0] ∧
      ¬ BothLegs [halfCall] (.start [(1, .Matched)] 0) := by
  refine ⟨by decide +kernel, by decide +kernel, fun h => ?_⟩
  rcases ((bothLegs_iff (paired_start _ _)).1 h).1 ⟨by decide, fun _ hl => nomatch hl⟩ with hfate | ⟨-, hfate, -⟩
  · cases hfate
  · cases hfate

end IntentX.CrossChain
