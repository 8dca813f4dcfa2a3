import IntentX.Lib.Rely
import IntentX.TwapProgress
import IntentX.Terminal
import IntentX.SettlementWorker

/-!
# Cancelling a TWAP while its slices are submitted

`cancel_twap` of `src/twap/service.rs` and `process_due_slices` of `src/twap/scheduler.rs`, side by
side, statement by statement and act by act.  The lock of the intent service is left out: it takes
interleavings away and adds none.

The scheduler works on the slices that were due when it looked.  It reads the parent again for its
columns and not for its status, sets the slice to submitted whatever it was, and writes the intent id
once the intent exists.  So a slice gets its intent after the cancellation, or before it without the
id that the cancellation goes by.

An intent is *exposed* while it is open or bidding and belongs to a child of the TWAP: by its id, or
because it was created for it (`Exposed`).  If every exposed intent is listed when `cancel_twap` reads
the children, what it lists is closed one by one, and nothing is exposed after that as long as nothing
is created for a child (`cancel_final`).
-/

namespace IntentX

open Lib

/-! ## The two calls -/

structure TwapWorld where
  db : TwapDb
  world : World

inductive SliceAct where
  | stmt (o : TwapStmt)
  /-- an act of the intent service, and the slice it is for -/
  | act (slice : Option Uuid) (o : Act)

abbrev SliceAct.Reply : SliceAct → Type
  | .stmt o => o.Reply
  | .act _ o => Except ActError o.Reply

def execSlice (ar : Arith) (bus : Bus) :
    (o : SliceAct) → TwapWorld → Except SqlError o.Reply × TwapWorld
  | .stmt o, s => ((execTwap o s.db).1, { s with db := (execTwap o s.db).2 })
  | .act _ o, s => (.ok (execAct ar bus o s.world).1, { s with world := (execAct ar bus o s.world).2 })

abbrev SliceCall (E α : Type) := Call SliceAct SliceAct.Reply SqlError E α

/-- A call of the intent service. -/
def intentCall {E α : Type} (slice : Option Uuid) (p : Task E α) : SliceCall E α :=
  ExceptT.mk (Prog.embed (SliceAct.act slice) (fun _ => flatten .db) p.run)

abbrev twapStmt (o : TwapStmt) : SliceCall TwapError o.Reply := Call.op (SliceAct.stmt o) .DbError

/-- The loop of `cancel_twap` over the children; errors are dropped. -/
def cancelPending (envs : Uuid → Env) (accountId : Uuid) : List TwapChildIntent → SliceCall TwapError Unit
  | [] => pure ()
  | child :: rest => do
    Call.doIf (child.intentId ≠ nilUuid)
      (Call.ignore (intentCall none (cancelIntent (envs child.id) child.intentId accountId)))
    cancelPending envs accountId rest

def cancelTwap (envs : Uuid → Env) (now : Int) (twapId accountId : Uuid) :
    SliceCall TwapError TwapIntent := do
  let row ← twapStmt (.selectTwap twapId)
  let twap ← Call.orThrow row .NotFound
  Call.failIf (twap.status ≠ .Active) .AlreadyCancelled
  let pending ← twapStmt (.selectOpenChildren twapId)
  cancelPending envs accountId pending
  twapStmt (.cancelChildren twapId)
  twapStmt (.cancelTwap twapId now)
  return { twap with status := .Cancelled, finishedAt := some now }

abbrev sliceStmt (o : TwapStmt) : SliceCall SqlError o.Reply := Call.op (SliceAct.stmt o) id

/-- One turn of the loop of `process_due_slices`. -/
def submitSlice (env : Env) (view : RiskView) (child : TwapChildIntent) : SliceCall SqlError Unit := do
  let row ← sliceStmt (.selectTwap child.twapId)
  match row with
  | none => pure ()
  | some parent => do
    sliceStmt (.submitChild child.id)
    let deadline := timestamp child.scheduledAt + parent.intervalSecs
    let result ← ExceptT.lift (intentCall (some child.id)
      (createIntent env view parent.userId parent.accountId parent.tokenIn parent.tokenOut
        (UInt64.ofInt child.qty) (UInt64.ofInt parent.minPrice) deadline)).run
    match result with
    | .ok intent => sliceStmt (.setIntentId child.id intent.id)
    | .error _ =>
      Call.ignore (ExceptT.mk (Prog.embed SliceAct.stmt (fun _ r => r) (recordChildFailed child.id).run))

def submitSlices (envs : Uuid → Env) (views : Uuid → RiskView) :
    List TwapChildIntent → SliceCall SqlError Unit
  | [] => pure ()
  | child :: rest => do
    submitSlice (envs child.id) (views child.id) child
    submitSlices envs views rest

def processDueSlices (envs : Uuid → Env) (views : Uuid → RiskView) (now : Int) :
    SliceCall SqlError Unit := do
  let due ← sliceStmt (.selectDue now)
  submitSlices envs views due

inductive TwapTask where
  | cancel | scheduler
  deriving DecidableEq, Repr

/-- What the two calls are given. -/
structure TwapRace where
  twapId : Uuid
  accountId : Uuid
  now : Int
  due : Int
  cancelEnvs : Uuid → Env
  envs : Uuid → Env
  views : Uuid → RiskView

def TwapRace.task (a : TwapRace) : TwapTask → Prog SliceAct SliceAct.Reply SqlError Unit
  | .cancel => (cancelTwap a.cancelEnvs a.now a.twapId a.accountId).run >>= fun _ => .ret ()
  | .scheduler => (processDueSlices a.envs a.views a.due).run >>= fun _ => .ret ()

abbrev TwapTrace := Trace SliceAct TwapWorld TwapTask

/-- The two calls on a database. -/
def twapRace (a : TwapRace) (s : TwapWorld) : Pool SliceAct SliceAct.Reply SqlError TwapWorld TwapTask :=
  ⟨s, a.task⟩

/-! ## Exposed intents -/

/-- The intent is open or bidding. -/
def World.biddable (w : World) (id : Uuid) : Bool := (w.status id).any fun st => st.amendable

/-- What a transaction comes to. -/
def Tx.goesThrough (ar : Arith) (t : Tx) (w : World) : Bool :=
  (Call.transaction (execStmt ar) (t.body ar) w).1.isOk

/-- The intent that the act creates, and the slice it is for. -/
def SliceAct.made (ar : Arith) (w : World) : SliceAct → Option (Option Uuid × Uuid)
  | .act slice (.tx (.create a s x now i)) =>
    if (Tx.create a s x now i).goesThrough ar w then some (slice, i.id) else none
  | _ => none

/-- The step at which `cancel_twap` reads the children. -/
def SliceAct.reads (t : Uuid) : SliceAct → Bool
  | .stmt (.selectOpenChildren id) => id == t
  | _ => false

/-- The last step of `cancel_twap`. -/
def SliceAct.cancels (t : Uuid) : SliceAct → Bool
  | .stmt (.cancelTwap id _) => id == t
  | _ => false

/-- An intent was created for the child. -/
def Made (ar : Arith) (l : List (Done SliceAct TwapWorld TwapTask)) (child id : Uuid) : Prop :=
  ∃ d ∈ l, d.op.made ar d.store.world = some (some child, id)

/-- The intent belongs to the child. -/
def Owns (ar : Arith) (l : List (Done SliceAct TwapWorld TwapTask)) (c : TwapChildIntent) (id : Uuid) :
    Prop :=
  (c.intentId = id ∧ id ≠ nilUuid) ∨ Made ar l c.id id

def Exposed (ar : Arith) (t : Uuid) (x : TwapTrace) (id : Uuid) : Prop :=
  x.2.world.biddable id = true ∧ ∃ c ∈ x.2.db.childrenOf t, Owns ar x.1 c id

/-- `cancel_twap` has read the children. -/
def HasRead (t : Uuid) (l : List (Done SliceAct TwapWorld TwapTask)) : Prop := ∃ d ∈ l, d.op.reads t = true

/-- The intent that the act looks up. -/
def SliceAct.looksUp : SliceAct → Option Uuid
  | .act _ (.sql (.selectIntent id)) => some id
  | _ => none

/-- The transaction of `cancel_intent`. -/
def SliceAct.release : SliceAct → Option Tx
  | .act _ (.tx (.release id a s amount now st)) => some (.release id a s amount now st)
  | _ => none

/-- The condition on a step, in the state before it. -/
structure SliceAct.Regular (ar : Arith) (t : Uuid) (x : TwapTrace) (o : SliceAct) : Prop where
  /-- every exposed intent is recorded in a child that is pending or submitted -/
  listed : o.reads t = true → ∀ i ∈ x.2.world.intents.rows, Exposed ar t x i.id →
    ∃ c ∈ x.2.db.childrenOf t, c.status.unfinished = true ∧ c.intentId = i.id ∧ i.id ≠ nilUuid
  /-- the token of an intent is one that `create_intent` accepts -/
  parsed : ∀ id ∈ o.looksUp, ∀ i ∈ x.2.world.intent id, (parseAsset i.tokenIn).isSome = true
  released : ∀ tx ∈ o.release, tx.goesThrough ar x.2.world = true
  /-- a new intent has a new id, and is not for a child whose TWAP is being cancelled -/
  made : ∀ m ∈ o.made ar x.2.world, ∀ c ∈ x.2.db.childrenOf t,
    c.intentId ≠ m.2 ∧ (HasRead t x.1 → m.1 ≠ some c.id)

/-- The condition on a run. -/
def RegularRun (ar : Arith) (t : Uuid) : List (Done SliceAct TwapWorld TwapTask) → Prop
  | [] => True
  | d :: l => d.op.Regular ar t (l, d.store) ∧ RegularRun ar t l

/-- The cancellation is final. -/
structure Final (ar : Arith) (t : Uuid) (l : List (Done SliceAct TwapWorld TwapTask)) (s : TwapWorld) :
    Prop where
  closed : ∀ id, ¬ Exposed ar t (l, s) id
  /-- no intent is created for a child once `cancel_twap` is through -/
  nothing_new : ∀ l₁ d l₂, l = l₁ ++ d :: l₂ → d.op.cancels t = true →
    ∀ e ∈ l₁, ∀ m ∈ e.op.made ar e.store.world, ∀ c ∈ e.store.db.childrenOf t, m.1 ≠ some c.id

/-! ## What a step does to the exposed intents -/

/-- The acts of the two calls. -/
def Act.ofTwap : Act → Prop
  | .sql (.selectIntent _) | .tx (.create ..) | .publish _ | .stream _ => True
  | .tx (.release _ _ _ _ _ st) => st.amendable = false
  | _ => False

section Effects

variable {ar : Arith} {bus : Bus} {w w' : World} {id id' : Uuid} {t : Uuid} {x : TwapTrace}
  {l : List (Done SliceAct TwapWorld TwapTask)} {c : TwapChildIntent}

theorem World.biddable_iff : w.biddable id = true ↔ ∃ st, w.status id = some st ∧ st.amendable = true := by
  unfold biddable
  rw [Option.any_eq_true]

theorem World.biddable_of_status (h : w'.status id = w.status id) : w'.biddable id = w.biddable id := by
  unfold biddable
  rw [h]

/-- An intent that is open or bidding is in the table. -/
theorem World.biddable_row (h : w.biddable id = true) :
    ∃ i ∈ w.intents.rows, i.id = id := by
  obtain ⟨st, hst, -⟩ := World.biddable_iff.1 h
  obtain ⟨i, hi, -⟩ := Option.map_eq_some_iff.1 hst
  exact ⟨i, World.intent_some_iff.1 hi⟩

theorem World.status_insert_eq {i : Intent} {tbl} (h : w.intents.insert i = some tbl) :
    { w with intents := tbl }.status id = if id = i.id then some i.status else w.status id := by
  unfold World.status World.intent
  show (tbl.find _).map _ = _
  rw [Table.find_insert_uk h]
  split <;> rfl

theorem World.status_setStatus_eq (w : World) (id : Uuid) (st : IntentStatus) :
    (w.setStatus id st).status id = (w.status id).map fun _ => st := by
  unfold World.status World.intent World.setStatus
  rw [Table.find_update_pk]
  cases hi : w.intents.find fun i => decide (i.id = id) with
  | none => rfl
  | some i =>
    have hid := (World.intent_some_iff.1 hi).2
    simp [hid]

variable (ar bus w) in
/-- A transaction goes through with what its body does, or does nothing. -/
theorem execAct_tx (t : Tx) :
    (t.goesThrough ar w = true ∧
      ∃ r, Call.exec (execStmt ar) (t.body ar) w = (.ok r, (execAct ar bus (.tx t) w).2)) ∨
    (t.goesThrough ar w = false ∧ (execAct ar bus (.tx t) w).2 = w) := by
  simp only [execAct, Tx.goesThrough]
  rcases Call.transaction_cases (h := execStmt ar) (t.body ar) w with ⟨r, w', hx, ht⟩ | ⟨e, ht⟩
  · rw [ht]
    exact .inl ⟨rfl, r, hx⟩
  · rw [ht]
    exact .inr ⟨rfl, rfl⟩

variable (bus) in
/-- A creation that goes through adds its intent, under a new id. -/
theorem execAct_create {a : Uuid} {s : Asset} {y now : Int} {i : Intent}
    (h : (Tx.create a s y now i).goesThrough ar w = true) :
    w.status i.id = none ∧ ∀ id, (execAct ar bus (.tx (.create a s y now i)) w).2.status id =
      if id = i.id then some i.status else w.status id := by
  rcases execAct_tx ar bus w (Tx.create a s y now i) with ⟨-, r, hx⟩ | ⟨hfails, -⟩
  case inr =>
    rw [h] at hfails
    cases hfails
  obtain ⟨-, w₁, tbl, hm, hins, hw'⟩ := createBody_ok (Call.exec_mapErr_ok.1 hx)
  have hintents : w₁.intents = w.intents := by rw [hm.frame]
  constructor
  · rw [World.status, Option.map_eq_none_iff]
    have hfree := Table.insert_isSome_iff.1 (Option.isSome_of_eq_some hins)
    exact Table.find_pk_none.2 fun r hr => (hfree r hr).1
  · intro id
    rw [hw', World.status_insert_eq (hintents ▸ hins), World.status_of_intents hintents]

variable (bus id) in
/-- A release that goes through sets the status of its intent, if there is one. -/
theorem execAct_release {a : Uuid} {s : Asset} {y now : Int} {st : IntentStatus}
    (h : (Tx.release id' a s y now st).goesThrough ar w = true) :
    (execAct ar bus (.tx (.release id' a s y now st)) w).2.status id =
      if id = id' then (w.status id).map fun _ => st else w.status id := by
  rcases execAct_tx ar bus w (Tx.release id' a s y now st) with ⟨-, r, hx⟩ | ⟨hfails, -⟩
  case inr =>
    rw [h] at hfails
    cases hfails
  obtain ⟨w₁, hm, hw'⟩ := releaseBody_ok (Call.exec_mapErr_ok.1 hx)
  have hsame : ∀ id, w₁.status id = w.status id := fun id => World.status_of_intents (by rw [hm.frame])
  rw [hw']
  by_cases hid : id = id'
  · rw [if_pos hid, hid, World.status_setStatus_eq, hsame]
  · rw [if_neg hid, ← hsame]
    exact (w₁.status_setStatus id' id st).resolve_right fun h => hid h.1.symm

/-- What an act does to the open intents: only what it creates is new among them. -/
theorem execAct_biddable {o : Act} (slice : Option Uuid) (ho : o.ofTwap)
    (hb : (execAct ar bus o w).2.biddable id = true) :
    w.biddable id = true ∨ (SliceAct.act slice o).made ar w = some (slice, id) ∧ w.status id = none := by
  cases o with
  | sql o =>
    cases o with
    | selectIntent => exact .inl hb
    | _ => cases ho
  | publish e =>
    obtain ⟨l, hl⟩ := execAct_publish ar bus w e
    rw [hl] at hb
    exact .inl hb
  | stream e =>
    obtain ⟨l, hl⟩ := execAct_stream ar bus w e
    rw [hl] at hb
    exact .inl hb
  | tx tx =>
    rcases execAct_tx ar bus w tx with ⟨hgoes, -⟩ | ⟨-, hsame⟩
    case inr =>
      rw [hsame] at hb
      exact .inl hb
    cases tx with
    | create a s y now i =>
      obtain ⟨hfree, hst⟩ := execAct_create bus hgoes
      by_cases hid : id = i.id
      · subst hid
        exact .inr ⟨if_pos hgoes, hfree⟩
      · rw [World.biddable_of_status ((hst id).trans (if_neg hid))] at hb
        exact .inl hb
    | release id' a s y now st =>
      have hst := execAct_release bus id hgoes
      by_cases hid : id = id'
      · rw [if_pos hid] at hst
        obtain ⟨st', hst', ham⟩ := World.biddable_iff.1 hb
        rw [hst] at hst'
        obtain ⟨st₀, -, rfl⟩ := Option.map_eq_some_iff.1 hst'
        change st.amendable = false at ho
        rw [ho] at ham
        cases ham
      · rw [if_neg hid] at hst
        rw [World.biddable_of_status hst] at hb
        exact .inl hb
    | amend => cases ho
    | expire => cases ho

/-- No intent is taken out of the table. -/
theorem execAct_stored {o : Act} (h : w.status id ≠ none) : (execAct ar bus o w).2.status id ≠ none := by
  rcases execAct_status ar bus o w id with hs | hs | ⟨st, hs, -⟩
  · rwa [hs]
  · exact absurd hs h
  · rw [hs]
    exact Option.some_ne_none st

/-- A created intent is in the table. -/
theorem made_stored {o : Act} {slice : Option Uuid} {m : Option Uuid × Uuid}
    (h : (SliceAct.act slice o).made ar w = some m) : (execAct ar bus o w).2.status m.2 ≠ none := by
  cases o with
  | tx tx =>
    cases tx with
    | create a s y now i =>
      simp only [SliceAct.made] at h
      split at h
      case isFalse => cases h
      next hgoes =>
      cases h
      rw [(execAct_create _ hgoes).2, if_pos rfl]
      exact Option.some_ne_none _
    | _ => cases h
  | _ => cases h

/-- A release that goes through closes the intent. -/
theorem release_closes {a : Uuid} {s : Asset} {y now : Int} {st : IntentStatus}
    (hst : st.amendable = false) (h : (Tx.release id a s y now st).goesThrough ar w = true) :
    (execAct ar bus (.tx (.release id a s y now st)) w).2.biddable id = false := by
  unfold World.biddable
  rw [execAct_release _ _ h, if_pos rfl]
  cases w.status id with
  | none => rfl
  | some st' => exact hst

end Effects

/-! ## The protocol -/

/-- What a call has to see to before a step. -/
def SliceAct.May (ar : Arith) (t : Uuid) (x : TwapTrace) : SliceAct → Prop
  | .stmt (.insertChild _) => False
  | .stmt (.setIntentId c id) => Made ar x.1 c id
  | .stmt (.cancelTwap _ _) => HasRead t x.1 ∧ ∀ id, ¬ Exposed ar t x id
  | .act _ o => o.ofTwap
  | _ => True

/-- What a run keeps. -/
structure RaceInv (ar : Arith) (t : Uuid) (x : TwapTrace) : Prop where
  stored : ∀ c id, Made ar x.1 c id → x.2.world.status id ≠ none
  cancelled : (∃ d ∈ x.1, d.op.cancels t = true) → HasRead t x.1 ∧ ∀ id, ¬ Exposed ar t x id

section Step

variable {ar : Arith} {bus : Bus} {t : Uuid} {x : TwapTrace} {i : TwapTask} {o : SliceAct}

/-- An update of the children that keeps whose they are. -/
theorem mem_childrenOf_update {db : TwapDb} {p : TwapChildIntent → Bool}
    {f : TwapChildIntent → TwapChildIntent} {hf} {c' : TwapChildIntent}
    (htwap : ∀ c, (f c).twapId = c.twapId) (h : c' ∈ (db.updateChildren p f hf).childrenOf t) :
    ∃ c ∈ db.childrenOf t, c' = if p c then f c else c := by
  obtain ⟨hmem, ht⟩ := List.mem_filter.1 h
  obtain ⟨c, hc, rfl⟩ := List.mem_map.1 hmem
  refine ⟨c, List.mem_filter.2 ⟨hc, ?_⟩, rfl⟩
  split at ht
  · rwa [htwap] at ht
  · exact ht

/-- The children of the TWAP stay the same, and get the ids of intents that were made for them. -/
theorem execSlice_children (hmay : o.May ar t x) {c' : TwapChildIntent}
    (h : c' ∈ (execSlice ar bus o x.2).2.db.childrenOf t) :
    ∃ c ∈ x.2.db.childrenOf t, c.id = c'.id ∧
      (c'.intentId = c.intentId ∨ Made ar x.1 c.id c'.intentId) := by
  have hmark : ∀ {p : TwapChildIntent → Bool} {st : ChildStatus},
      c' ∈ (x.2.db.mark p st).childrenOf t → ∃ c ∈ x.2.db.childrenOf t, c.id = c'.id ∧
        (c'.intentId = c.intentId ∨ Made ar x.1 c.id c'.intentId) := by
    intro p st h
    obtain ⟨c, hc, rfl⟩ := mem_childrenOf_update (f := fun c => { c with status := st })
      (fun _ => rfl) h
    refine ⟨c, hc, ?_⟩
    split <;> exact ⟨rfl, .inl rfl⟩
  have hsame : ∀ {db : TwapDb}, db.children = x.2.db.children →
      c' ∈ db.childrenOf t → ∃ c ∈ x.2.db.childrenOf t, c.id = c'.id ∧
        (c'.intentId = c.intentId ∨ Made ar x.1 c.id c'.intentId) := by
    intro db hdb h
    unfold TwapDb.childrenOf at h
    rw [hdb] at h
    exact ⟨c', h, rfl, .inl rfl⟩
  cases o with
  | act slice o => exact ⟨c', h, rfl, .inl rfl⟩
  | stmt o =>
    cases o with
    | insertChild c => cases hmay
    | setIntentId id intentId =>
      obtain ⟨c, hc, rfl⟩ := mem_childrenOf_update (f := fun c => { c with intentId })
        (fun _ => rfl) h
      refine ⟨c, hc, ?_⟩
      split
      · next hid => exact ⟨rfl, .inr ((of_decide_eq_true hid) ▸ hmay)⟩
      · exact ⟨rfl, .inl rfl⟩
    | completeChild | expireChild | failChild | cancelChildren | submitChild => exact hmark h
    | insertTwap p =>
      refine hsame ?_ h
      simp only [execSlice, execTwap]
      split <;> rfl
    | addFilled | addSlice =>
      refine hsame ?_ h
      simp only [execSlice, execTwap, TwapDb.updateTwap]
      split <;> rfl
    | _ => exact hsame rfl h

theorem made_cons {d : Done SliceAct TwapWorld TwapTask} {l : List (Done SliceAct TwapWorld TwapTask)}
    {c id : Uuid} :
    Made ar (d :: l) c id ↔ d.op.made ar d.store.world = some (some c, id) ∨ Made ar l c id := by
  unfold Made
  exact List.exists_mem_cons_iff ..

theorem HasRead.mono {l l' : List (Done SliceAct TwapWorld TwapTask)} (h : HasRead t l)
    (hl : ∃ m, l' = m ++ l) : HasRead t l' := by
  obtain ⟨m, rfl⟩ := hl
  obtain ⟨d, hd, hr⟩ := h
  exact ⟨d, List.mem_append_right _ hd, hr⟩

theorem execSlice_biddable {id : Uuid} (hmay : o.May ar t x)
    (hb : (execSlice ar bus o x.2).2.world.biddable id = true) :
    x.2.world.biddable id = true ∨
      ∃ slice, o.made ar x.2.world = some (slice, id) ∧ x.2.world.status id = none := by
  cases o with
  | stmt o => exact .inl hb
  | act slice o => exact (execAct_biddable slice hmay hb).imp_right fun h => ⟨slice, h⟩

/-- Once the children are read, a step exposes nothing. -/
theorem exposed_of_next (hinv : RaceInv ar t x) (hmay : o.May ar t x) (hreg : o.Regular ar t x)
    (hread : HasRead t x.1) {id : Uuid}
    (h : Exposed ar t (x.next (fun bus => execSlice ar bus) i bus o) id) : Exposed ar t x id := by
  obtain ⟨hb, c', hc', howns⟩ := h
  obtain ⟨c, hc, hid, hintent⟩ := execSlice_children hmay hc'
  have hnew := hreg.made
  -- the intent belonged to the child before the step
  have hold : Owns ar x.1 c id := by
    rcases howns with ⟨hrec, hnil⟩ | hmade
    · rcases hintent with hsame | hmade
      · exact .inl ⟨hsame.symm.trans hrec, hnil⟩
      · exact .inr (hrec ▸ hmade)
    · rcases made_cons.1 hmade with hnow | hbefore
      · exact absurd (congrArg some hid.symm) ((hnew _ hnow c hc).2 hread)
      · exact .inr (hid ▸ hbefore)
  rcases execSlice_biddable hmay hb with hb | ⟨slice, hmade, hnone⟩
  · exact ⟨hb, c, hc, hold⟩
  · rcases hold with ⟨hrec, -⟩ | hbefore
    · exact absurd hrec (hnew _ hmade c hc).1
    · exact absurd hnone (hinv.stored _ _ hbefore)

theorem RaceInv.next (hinv : RaceInv ar t x) (hmay : o.May ar t x) (hreg : o.Regular ar t x) :
    RaceInv ar t (x.next (fun bus => execSlice ar bus) i bus o) where
  stored := by
    intro c id hmade
    cases o with
    | stmt o =>
      rcases made_cons.1 hmade with hnow | hbefore
      · cases hnow
      · exact hinv.stored c id hbefore
    | act slice o =>
      rcases made_cons.1 hmade with hnow | hbefore
      · exact made_stored hnow
      · exact execAct_stored (hinv.stored c id hbefore)
  cancelled := by
    rintro ⟨d, hd, hcan⟩
    have hbefore : HasRead t x.1 ∧ ∀ id, ¬ Exposed ar t x id := by
      rcases List.mem_cons.1 hd with rfl | hd
      · cases o with
        | act => cases hcan
        | stmt o =>
          cases o with
          | cancelTwap => exact hmay
          | _ => cases hcan
      · exact hinv.cancelled ⟨d, hd, hcan⟩
    exact ⟨hbefore.1.mono ⟨[_], rfl⟩,
      fun id h => hbefore.2 id (exposed_of_next hinv hmay hreg hbefore.1 h)⟩

/-- What the two calls count on. -/
def raceProtocol (ar : Arith) (t : Uuid) :
    Protocol (fun bus : Bus => execSlice ar bus) TwapTask where
  inv := RaceInv ar t
  rely x y := (∃ m, y.1 = m ++ x.1) ∧
    (HasRead t x.1 → ∀ id, Exposed ar t y id → Exposed ar t x id)
  may _ x o := o.May ar t x
  given _ x o := o.Regular ar t x
  refl x := ⟨⟨[], rfl⟩, fun _ _ h => h⟩
  trans {x y z} h h' := by
    obtain ⟨⟨m, hm⟩, hxy⟩ := h
    obtain ⟨⟨m', hm'⟩, hyz⟩ := h'
    refine ⟨⟨m' ++ m, by rw [hm', hm, List.append_assoc]⟩, fun hread id hz => ?_⟩
    exact hxy hread id (hyz (hread.mono ⟨m, hm⟩) id hz)
  step {i x o} bus hinv hmay hreg :=
    ⟨hinv.next hmay hreg, ⟨[_], rfl⟩, fun hread _ h => exposed_of_next hinv hmay hreg hread h⟩

theorem race_next (bus : Bus) {y : TwapTrace} (hr : (raceProtocol ar t).rely x y) (hinv : RaceInv ar t y)
    (hmay : o.May ar t y) (hreg : o.Regular ar t y) :
    (raceProtocol ar t).rely x (y.next (fun bus => execSlice ar bus) i bus o) :=
  (raceProtocol ar t).trans hr ((raceProtocol ar t).step (i := i) bus hinv hmay hreg).2

theorem RegularRun.given {l : List (Done SliceAct TwapWorld TwapTask)} (h : RegularRun ar t l) :
    (raceProtocol ar t).Given l := by
  induction l with
  | nil => trivial
  | cons d l ih => exact ⟨h.1, ih h.2⟩

end Step

/-! ## The scheduler -/

section Scheduler

variable {ar : Arith} {t : Uuid} {x y : TwapTrace} {i : TwapTask}

theorem Made.mono {l l' : List (Done SliceAct TwapWorld TwapTask)} {c id : Uuid} (h : Made ar l c id)
    (hl : ∃ m, l' = m ++ l) : Made ar l' c id := by
  obtain ⟨m, rfl⟩ := hl
  obtain ⟨d, hd, hm⟩ := h
  exact ⟨d, List.mem_append_right _ hd, hm⟩

/-- An act of the intent service. -/
theorem follows_act {slice : Option Uuid} {o : Act} {Q : Except IntentError o.Reply → TwapTrace → Prop}
    (ho : o.ofTwap)
    (hq : ∀ y bus, (raceProtocol ar t).rely x y → (SliceAct.act slice o).Regular ar t y →
      (raceProtocol ar t).rely x (y.next (fun bus => execSlice ar bus) i bus (.act slice o)) →
      Q ((execAct ar bus o y.2.world).1.mapError ActError.toIntent)
        (y.next (fun bus => execSlice ar bus) i bus (.act slice o))) :
    (raceProtocol ar t).Follows i Q
      (Prog.embed (SliceAct.act slice) (fun _ => flatten .db) (act o).run) x :=
  Protocol.follows_embed_op fun y hr hinv hg =>
    ⟨ho, fun bus => hq y bus hr hg (race_next bus hr hinv ho hg)⟩

/-- One whose error is dropped. -/
theorem follows_try {slice : Option Uuid} {o : Act}
    {Q : Except IntentError (Option o.Reply) → TwapTrace → Prop} (ho : o.ofTwap)
    (hq : ∀ y bus, (raceProtocol ar t).rely x y → (SliceAct.act slice o).Regular ar t y →
      (raceProtocol ar t).rely x (y.next (fun bus => execSlice ar bus) i bus (.act slice o)) →
      Q (.ok (execAct ar bus o y.2.world).1.toOption)
        (y.next (fun bus => execSlice ar bus) i bus (.act slice o))) :
    (raceProtocol ar t).Follows i Q
      (Prog.embed (SliceAct.act slice) (fun _ => flatten .db)
        (Call.attempt o : Task IntentError _).run) x :=
  Protocol.follows_embed_attempt fun y hr hinv hg =>
    ⟨ho, fun bus => hq y bus hr hg (race_next bus hr hinv ho hg)⟩

/-- An intent that `create_intent` answers was made for the slice. -/
theorem createIntent_follows (env : Env) (view : RiskView) (userId : String) (accountId : Uuid)
    (tokenIn tokenOut : String) (amountIn minAmountOut : UInt64) (deadline : Int) (child : Uuid) :
    (raceProtocol ar t).Follows i (fun r y => ∀ intent, r = .ok intent → Made ar y.1 child intent.id)
      (intentCall (some child)
        (createIntent env view userId accountId tokenIn tokenOut amountIn minAmountOut deadline)).run
      x := by
  unfold intentCall createIntent
  rw [ExceptT.run_mk]
  cases validateIntent view { userId, accountId, tokenIn, tokenOut, amountIn, minAmountOut } with
  | error e => exact Protocol.follows_ret fun _ h => nomatch h
  | ok m =>
    refine Protocol.follows_embed_bind (Protocol.follows_embed_orThrow (fun _ _ h => nomatch h) ?_)
    intro asset _
    generalize Intent.new (env.uuid 0) userId tokenIn tokenOut amountIn minAmountOut deadline
      (env.now 0) = intent
    generalize asI64 amountIn = amount
    refine Protocol.follows_embed_bind (follows_act trivial fun y bus _ _ _ => ?_)
    cases hres : (execAct ar bus (.tx (.create accountId asset amount (env.now 1) intent)) y.2.world).1 with
    | error e => exact fun _ h => nomatch h
    | ok u =>
      have hmade : Made ar (y.next (fun bus => execSlice ar bus) i bus (.act (some child)
          (.tx (.create accountId asset amount (env.now 1) intent)))).1 child intent.id :=
        made_cons.2 (.inl (if_pos (congrArg Except.isOk hres)))
      refine Protocol.follows_embed_bind (follows_act trivial fun z bus' hz _ _ => ?_)
      cases (execAct ar bus' (.publish (.IntentCreated intent)) z.2.world).1 with
      | error e => exact fun _ h => nomatch h
      | ok u =>
        refine Protocol.follows_embed_bind (follows_try trivial fun z' bus' hz' _ _ => ?_)
        refine Protocol.follows_ret fun j hj => ?_
        cases hj
        refine made_cons.2 (.inr (Made.mono ?_ hz'.1))
        exact made_cons.2 (.inr (hmade.mono hz.1))

theorem obeys_sliceStmt {o : TwapStmt} (ho : ∀ y, (SliceAct.stmt o).May ar t y) :
    (raceProtocol ar t).Obeys i (sliceStmt o).run :=
  Protocol.obeys_op ho

theorem submitSlice_obeys (env : Env) (view : RiskView) (child : TwapChildIntent) :
    (raceProtocol ar t).Obeys i (submitSlice env view child).run := by
  unfold submitSlice
  refine Protocol.obeys_bind_run (obeys_sliceStmt fun _ => trivial) fun row => ?_
  cases row with
  | none => exact Protocol.obeys_ret _
  | some parent =>
    refine Protocol.obeys_bind_run (obeys_sliceStmt fun _ => trivial) fun _ x => ?_
    rw [ExceptT.run_bind_lift]
    refine Protocol.follows_bind ((createIntent_follows ..).mono fun r y hr => ?_)
    cases r with
    | ok intent =>
      -- the id is written for the slice that the intent was made for
      refine Protocol.follows_op fun z hz _ _ => ⟨?_, fun _ => trivial⟩
      exact (hr intent rfl).mono hz.1
    | error e =>
      have hfail : (raceProtocol ar t).Obeys i
          (Prog.embed SliceAct.stmt (fun _ r => r) (recordChildFailed child.id).run) :=
        Protocol.obeys_of_issues (S := fun o => ∀ y, o.May ar t y) (fun _ ho => ho) (Prog.issues_embed
          (Call.issues_bind (Call.issues_op fun _ => trivial) fun _ => Call.issues_pure _))
      exact Protocol.obeys_bind hfail (fun _ => Protocol.obeys_ret _) y

theorem submitSlices_obeys (envs : Uuid → Env) (views : Uuid → RiskView) (l : List TwapChildIntent) :
    (raceProtocol ar t).Obeys i (submitSlices envs views l).run := by
  induction l with
  | nil => exact Protocol.obeys_ret _
  | cons c l ih => exact Protocol.obeys_bind_run (submitSlice_obeys _ _ c) fun _ => ih

theorem processDueSlices_obeys (envs : Uuid → Env) (views : Uuid → RiskView) (now : Int) :
    (raceProtocol ar t).Obeys i (processDueSlices envs views now).run :=
  Protocol.obeys_bind_run (obeys_sliceStmt fun _ => trivial) fun l => submitSlices_obeys envs views l

end Scheduler

/-! ## The cancellation -/

section Cancel

variable {ar : Arith} {t : Uuid} {x y : TwapTrace} {i : TwapTask} {id : Uuid}

theorem not_exposed_of_rely (hread : HasRead t x.1) (h : ¬ Exposed ar t x id)
    (hr : (raceProtocol ar t).rely x y) : ¬ Exposed ar t y id :=
  fun h' => h (hr.2 hread id h')

theorem not_exposed_of_closed (h : y.2.world.biddable id = false) : ¬ Exposed ar t y id := by
  rintro ⟨hb, -⟩
  rw [h] at hb
  cases hb

/-- A call of `cancel_intent` leaves the intent closed. -/
theorem cancelIntent_follows (hread : HasRead t x.1) (env : Env) (id accountId : Uuid) :
    (raceProtocol ar t).Follows i (fun _ y => (raceProtocol ar t).rely x y ∧ ¬ Exposed ar t y id)
      (intentCall none (cancelIntent env id accountId)).run x := by
  unfold intentCall cancelIntent closeIntent
  rw [ExceptT.run_mk]
  refine Protocol.follows_embed_bind (Protocol.follows_embed_bind ?_)
  refine follows_try trivial fun y bus _ hg hr => Protocol.follows_ret ?_
  have hget : (execAct ar bus (.sql (.selectIntent id)) y.2.world).1.toOption.join =
      y.2.world.intent id := rfl
  rw [hget]
  cases hi : y.2.world.intent id with
  | none =>
    refine Protocol.follows_ret ⟨hr, not_exposed_of_closed ?_⟩
    show (y.2.world.status id).any _ = false
    rw [World.status, hi]
    rfl
  | some intent =>
    refine Protocol.follows_embed_bind (Protocol.follows_embed_orThrow (fun hnone => ?_) ?_)
    · have hparse : (parseAsset intent.tokenIn).isSome = true := hg.parsed id rfl intent hi
      rw [hnone] at hparse
      cases hparse
    intro asset _
    refine Protocol.follows_embed_bind (follows_act rfl fun z bus' _ hg' hr' => ?_)
    have hr₁ := (raceProtocol ar t).trans hr hr'
    have hclosed : ¬ Exposed ar t (z.next (fun bus => execSlice ar bus) i bus' (.act none
        (.tx (.release id accountId asset intent.amountIn (env.now 0) .Cancelled)))) id :=
      not_exposed_of_closed (release_closes rfl (hg'.released _ rfl))
    cases (execAct ar bus' (.tx (.release id accountId asset intent.amountIn (env.now 0) .Cancelled))
        z.2.world).1 with
    | error e => exact ⟨hr₁, hclosed⟩
    | ok u =>
      refine Protocol.follows_embed_bind (follows_act trivial fun z₂ bus₂ _ _ hr₂ => ?_)
      have hr₃ := (raceProtocol ar t).trans hr₁ hr₂
      have hstays := not_exposed_of_rely (hread.mono hr₁.1) hclosed hr₂
      cases (execAct ar bus₂ (.publish (.IntentCancelled { intent with status := .Cancelled }))
          z₂.2.world).1 with
      | error e => exact ⟨hr₃, hstays⟩
      | ok u => exact Protocol.follows_ret ⟨hr₃, hstays⟩

/-- Every exposed intent is one of those to come: at the end of the loop none is. -/
theorem cancelPending_follows (envs : Uuid → Env) (accountId : Uuid) (rest : List TwapChildIntent)
    (hread : HasRead t x.1)
    (hrest : ∀ id, Exposed ar t x id → id ∈ rest.map (·.intentId) ∧ id ≠ nilUuid) :
    (raceProtocol ar t).Follows i (fun r y => r = .ok () ∧ HasRead t y.1 ∧ ∀ id, ¬ Exposed ar t y id)
      (cancelPending envs accountId rest).run x := by
  induction rest generalizing x with
  | nil =>
    refine Protocol.follows_ret ⟨rfl, hread, fun id h => ?_⟩
    exact absurd (hrest id h).1 (by simp)
  | cons c rest ih =>
    unfold cancelPending
    refine Protocol.follows_bind_run ?_
    by_cases hnil : c.intentId = nilUuid
    · rw [Call.doIf, if_neg (not_not.2 hnil)]
      refine Protocol.follows_ret (ih hread fun id h => ?_)
      obtain ⟨hmem, hne⟩ := hrest id h
      rw [List.map_cons, List.mem_cons] at hmem
      exact ⟨hmem.resolve_left fun he => hne (he.trans hnil), hne⟩
    · rw [Call.doIf, if_pos hnil]
      refine Protocol.follows_bind ((cancelIntent_follows hread _ _ _).mono fun _ y hy => ?_)
      obtain ⟨hr, hclosed⟩ := hy
      refine Protocol.follows_ret (ih (hread.mono hr.1) fun id h => ?_)
      obtain ⟨hmem, hne⟩ := hrest id (hr.2 hread id h)
      rw [List.map_cons, List.mem_cons] at hmem
      exact ⟨hmem.resolve_left fun he => hclosed (he ▸ h), hne⟩

theorem cancelTwap_obeys (envs : Uuid → Env) (now : Int) (accountId : Uuid) :
    (raceProtocol ar t).Obeys i (cancelTwap envs now t accountId).run := by
  unfold cancelTwap
  refine Protocol.obeys_bind_run (Protocol.obeys_op fun _ => trivial) fun row => ?_
  refine Protocol.obeys_bind_run ?_ fun twap => ?_
  · cases row with
    | none => exact Protocol.obeys_ret _
    | some twap => exact Protocol.obeys_ret _
  refine Protocol.obeys_bind_run Protocol.obeys_failIf fun _ x => ?_
  refine Protocol.follows_bind_run (Protocol.follows_op fun y _ hinv hg => ⟨trivial, fun bus => ?_⟩)
  -- what is exposed now is on the list
  have hlisted : ∀ id,
      Exposed ar t (y.next (fun bus => execSlice ar bus) i bus (.stmt (.selectOpenChildren t))) id →
      id ∈ ((y.2.db.childrenOf t).filter (·.status.unfinished)).map (·.intentId) ∧ id ≠ nilUuid := by
    rintro id ⟨hb, c, hc, howns⟩
    have hbefore : Exposed ar t y id :=
      ⟨hb, c, hc, howns.imp_right fun h => (made_cons.1 h).resolve_left fun hnow => by cases hnow⟩
    obtain ⟨j, hj, rfl⟩ := World.biddable_row hb
    obtain ⟨c', hc', hopen, hrec, hnil⟩ := hg.listed (beq_self_eq_true t) j hj hbefore
    exact ⟨List.mem_map.2 ⟨c', List.mem_filter.2 ⟨hc', hopen⟩, hrec⟩, hnil⟩
  have hread : HasRead t
      (y.next (fun bus => execSlice ar bus) i bus (.stmt (.selectOpenChildren t))).1 :=
    ⟨_, List.mem_cons_self, beq_self_eq_true t⟩
  refine Protocol.follows_bind_run ((cancelPending_follows envs accountId _ hread hlisted).mono ?_)
  rintro r z ⟨rfl, hread, hnone⟩
  refine Protocol.follows_bind_run (Protocol.follows_op fun z₁ hr hinv₁ hg₁ => ⟨trivial, fun bus₁ => ?_⟩)
  have hr₁ := race_next (i := i) bus₁ hr hinv₁ (o := .stmt (.cancelChildren t)) trivial hg₁
  refine Protocol.follows_bind_run (Protocol.follows_op fun z₂ hr₂ _ _ => ⟨?_, fun _ => trivial⟩)
  have hr₃ := (raceProtocol ar t).trans hr₁ hr₂
  exact ⟨hread.mono hr₃.1, fun id => not_exposed_of_rely hread (hnone id) hr₃⟩

theorem RegularRun.of_append {m l : List (Done SliceAct TwapWorld TwapTask)}
    (h : RegularRun ar t (m ++ l)) : RegularRun ar t l := by
  induction m with
  | nil => exact h
  | cons d m ih => exact ih h.2

theorem raceInv_of_run {a : TwapRace} {s : TwapWorld} {l : List (Done SliceAct TwapWorld TwapTask)}
    {p : Pool SliceAct SliceAct.Reply SqlError TwapWorld TwapTask}
    (run : Pool.Run (fun bus : Bus => execSlice ar bus) (twapRace a s) l p)
    (hreg : RegularRun ar a.twapId l) : RaceInv ar a.twapId (l, p.store) := by
  have hinv : RaceInv ar a.twapId ([], s) :=
    ⟨fun _ _ h => by simp [Made] at h, fun h => by simp at h⟩
  have htask : ∀ i, (raceProtocol ar a.twapId).Follows i (fun _ _ => True) ((twapRace a s).task i)
      ([], s) := by
    intro i
    cases i with
    | cancel => exact Protocol.obeys_bind (cancelTwap_obeys _ _ _) (fun _ => Protocol.obeys_ret _) _
    | scheduler =>
      exact Protocol.obeys_bind (processDueSlices_obeys _ _ _) (fun _ => Protocol.obeys_ret _) _
  exact (Protocol.run_follows run hreg.given hinv htask).1.inv

/-- Where every step of the run meets the condition, the cancellation is final once its last step is
made. -/
theorem cancel_final (ar : Arith) (a : TwapRace) (s : TwapWorld)
    (l : List (Done SliceAct TwapWorld TwapTask))
    (p : Pool SliceAct SliceAct.Reply SqlError TwapWorld TwapTask)
    (run : Pool.Run (fun bus : Bus => execSlice ar bus) (twapRace a s) l p)
    (hreg : RegularRun ar a.twapId l) (hdone : ∃ d ∈ l, d.op.cancels a.twapId = true) :
    Final ar a.twapId l p.store := by
  refine ⟨((raceInv_of_run run hreg).cancelled hdone).2, ?_⟩
  rintro l₁ d l₂ rfl hd e he m hm c hc
  obtain ⟨m₁, m₂, rfl⟩ := List.append_of_mem he
  rw [List.append_assoc, List.cons_append] at run hreg
  have hreg' : RegularRun ar a.twapId (e :: (m₂ ++ d :: l₂)) := hreg.of_append
  obtain ⟨_, run'⟩ := Pool.Run.of_append (m := m₁ ++ [e]) (l := m₂ ++ d :: l₂) (by simpa using run)
  have hread := ((raceInv_of_run run' hreg'.2).cancelled ⟨d, by simp, hd⟩).1
  exact (hreg'.1.made m hm c hc).2 hread

end Cancel

/-! ## Two runs -/

instance (ar : Arith) (l : List (Done SliceAct TwapWorld TwapTask)) (c id : Uuid) :
    Decidable (Made ar l c id) := inferInstanceAs (Decidable (∃ d ∈ l, _))

instance (ar : Arith) (l : List (Done SliceAct TwapWorld TwapTask)) (c : TwapChildIntent) (id : Uuid) :
    Decidable (Owns ar l c id) := inferInstanceAs (Decidable (_ ∨ _))

instance (ar : Arith) (t : Uuid) (x : TwapTrace) (id : Uuid) : Decidable (Exposed ar t x id) :=
  inferInstanceAs (Decidable (_ ∧ _))

instance (t : Uuid) (l : List (Done SliceAct TwapWorld TwapTask)) : Decidable (HasRead t l) :=
  inferInstanceAs (Decidable (∃ d ∈ l, _))

instance (ar : Arith) (t : Uuid) (x : TwapTrace) (o : SliceAct) : Decidable (o.Regular ar t x) :=
  decidable_of_iff (_ ∧ _ ∧ _ ∧ _) ⟨fun ⟨h₁, h₂, h₃, h₄⟩ => ⟨h₁, h₂, h₃, h₄⟩,
    fun h => ⟨h.listed, h.parsed, h.released, h.made⟩⟩

instance RegularRun.decidable (ar : Arith) (t : Uuid) :
    ∀ l : List (Done SliceAct TwapWorld TwapTask), Decidable (RegularRun ar t l)
  | [] => .isTrue trivial
  | _ :: l =>
    have := RegularRun.decidable ar t l
    inferInstanceAs (Decidable (_ ∧ _))

/-- The TWAP of 100 is cancelled while its first slice is due. -/
def raceDemo : TwapRace where
  twapId := 1
  accountId := 2
  now := 5
  due := 0
  cancelEnvs _ := demoEnv
  envs _ := demoEnv
  views _ := demoView

def raceWorld : TwapWorld := ⟨twapDemo, lockDemo⟩

/-- The calls take their turns in the given order. -/
def raceRun (order : List TwapTask) : List (Done SliceAct TwapWorld TwapTask) ×
    Pool SliceAct SliceAct.Reply SqlError TwapWorld TwapTask :=
  Pool.play (fun bus : Bus => execSlice .release bus) (order.map fun i => (i, upBus))
    ([], twapRace raceDemo raceWorld)

theorem raceRun_run (order : List TwapTask) :
    Pool.Run (fun bus : Bus => execSlice .release bus) (twapRace raceDemo raceWorld)
      (raceRun order).1 (raceRun order).2 := by
  apply Pool.Run.play
  exact .start

/-- The scheduler is through before `cancel_twap` begins. -/
def afterScheduler : List TwapTask := List.replicate 7 .scheduler ++ List.replicate 7 .cancel

/-- `cancel_twap` comes between the scheduler's look at the due slices and its next step. -/
def afterSnapshot : List TwapTask := .scheduler :: List.replicate 4 .cancel ++ List.replicate 6 .scheduler

/-- The intent of the first slice is cancelled with the TWAP. -/
theorem cancel_final_demo :
    Final .release 1 (raceRun afterScheduler).1 (raceRun afterScheduler).2.store :=
  cancel_final .release raceDemo raceWorld _ _ (raceRun_run _) (by decide +kernel) (by decide +kernel)

/-- The first slice gets its intent after the TWAP is cancelled. -/
theorem cancel_not_final :
    ¬ ∀ (ar : Arith) (a : TwapRace) (s : TwapWorld) (l : List (Done SliceAct TwapWorld TwapTask))
      (p : Pool SliceAct SliceAct.Reply SqlError TwapWorld TwapTask),
      Pool.Run (fun bus : Bus => execSlice ar bus) (twapRace a s) l p →
      (∀ i, (p.task i).next.isNone = true) → (∃ d ∈ l, d.op.cancels a.twapId = true) →
      Final ar a.twapId l p.store := by
  intro h
  have hfinished : ∀ i, ((raceRun afterSnapshot).2.task i).next.isNone = true := by
    intro i
    cases i <;> decide +kernel
  have hfinal := h .release raceDemo raceWorld _ _ (raceRun_run afterSnapshot) hfinished
    (by decide +kernel)
  have hexposed : Exposed .release 1 ((raceRun afterSnapshot).1, (raceRun afterSnapshot).2.store) 1000 := by
    decide +kernel
  exact hfinal.closed 1000 hexposed

end IntentX
