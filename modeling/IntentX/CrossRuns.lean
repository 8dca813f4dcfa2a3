import IntentX.CrossChain

/-!
# Lives of the cross-chain worker

What can happen to the legs around one act of the worker: others insert legs while it waits
(`Waits`), and a statement sets the status of one leg (`SetTo`).  The rules at the end say this of
each call of the service, in a life that can end anywhere.
-/

namespace IntentX.CrossChain

open Lib

/-! ## While the worker waits -/

/-- The same leg with the same status; the other columns may differ. -/
structure Alike (l l' : Leg) : Prop where
  id : l'.id = l.id
  slot : slot l' = slot l
  status : l'.status = l.status

theorem Alike.refl (l : Leg) : Alike l l := ⟨rfl, rfl, rfl⟩

theorem Alike.trans {l l' l'' : Leg} (h : Alike l l') (h' : Alike l' l'') : Alike l l'' :=
  ⟨h'.id.trans h.id, h'.slot.trans h.slot, h'.status.trans h.status⟩

/-- Others have inserted legs, and that is all. -/
structure Waits (db db' : CrossDb) : Prop where
  calls : db'.calls = db.calls
  keeps : ∀ l ∈ db.legs.rows, ∃ l' ∈ db'.legs.rows, Alike l l'
  fresh : ∀ l' ∈ db'.legs.rows, (∃ l ∈ db.legs.rows, Alike l l') ∨
    (∃ a : Arrival, Alike a.row l') ∧ ∀ l ∈ db.legs.rows, l.id ≠ l'.id ∧ CrossChain.slot l ≠ CrossChain.slot l'

theorem Arrival.status (a : Arrival) : a.row.status = .Pending := by
  unfold Arrival.row
  split <;> rfl

section Waits

variable {db db' db'' : CrossDb}

/-- Rows rewritten one by one: each has one that comes from it, and comes from one. -/
theorem rewritten {R : Leg → Leg → Prop} {f : Leg → Leg} (hf : ∀ l, R l (f l))
    (hrows : db'.legs.rows = db.legs.rows.map f) :
    (∀ l ∈ db.legs.rows, ∃ l' ∈ db'.legs.rows, R l l') ∧ ∀ l' ∈ db'.legs.rows, ∃ l ∈ db.legs.rows, R l l' := by
  rw [hrows]
  refine ⟨fun l hl => ⟨f l, List.mem_map_of_mem hl, hf l⟩, fun l' hl' => ?_⟩
  obtain ⟨l, hl, rfl⟩ := List.mem_map.1 hl'
  exact ⟨l, hl, hf l⟩

/-- The rows are rewritten one by one, keeping what matters. -/
theorem Waits.of_map {f : Leg → Leg} (hf : ∀ l, Alike l (f l)) (hcalls : db'.calls = db.calls)
    (hrows : db'.legs.rows = db.legs.rows.map f) : Waits db db' := by
  obtain ⟨hkeeps, hfrom⟩ := rewritten hf hrows
  exact ⟨hcalls, hkeeps, fun l' hl' => .inl (hfrom l' hl')⟩

theorem Waits.of_eq (hlegs : db'.legs = db.legs) (hcalls : db'.calls = db.calls) : Waits db db' :=
  .of_map (f := id) Alike.refl hcalls (by rw [hlegs, List.map_id])

theorem Waits.refl (db : CrossDb) : Waits db db := .of_eq rfl rfl

theorem Waits.trans (h : Waits db db') (h' : Waits db' db'') : Waits db db'' := by
  refine ⟨h'.calls.trans h.calls, fun l hl => ?_, fun l'' hl'' => ?_⟩
  · obtain ⟨l', hl', ha⟩ := h.keeps l hl
    obtain ⟨l'', hl'', ha'⟩ := h'.keeps l' hl'
    exact ⟨l'', hl'', ha.trans ha'⟩
  · rcases h'.fresh l'' hl'' with ⟨l', hl', ha'⟩ | ⟨harr, hnew⟩
    · rcases h.fresh l' hl' with ⟨l, hl, ha⟩ | ⟨⟨a, ha⟩, hnew⟩
      · exact .inl ⟨l, hl, ha.trans ha'⟩
      · refine .inr ⟨⟨a, ha.trans ha'⟩, fun l hl => ?_⟩
        rw [ha'.id, ha'.slot]
        exact hnew l hl
    · refine .inr ⟨harr, fun l hl => ?_⟩
      obtain ⟨l', hl', ha⟩ := h.keeps l hl
      rw [← ha.id, ← ha.slot]
      exact hnew l' hl'

theorem waits_arrive (db : CrossDb) (a : Arrival) : Waits db (db.arrive a) := by
  unfold CrossDb.arrive
  simp only [execLegStmt]
  split
  · split
    · next t ht =>
      have hfree := Table.insert_isSome_iff.1 (Option.isSome_of_eq_some ht)
      refine ⟨rfl, fun l hl => ⟨l, (Table.mem_insert ht).2 (.inl hl), .refl l⟩, fun l' hl' => ?_⟩
      rcases (Table.mem_insert ht).1 hl' with hold | rfl
      · exact .inl ⟨l', hold, .refl l'⟩
      · exact .inr ⟨⟨a, .refl _⟩, hfree⟩
    · exact Waits.refl db
  · exact Waits.refl db

theorem waits_before (m : Moment) (db : CrossDb) : Waits db (m.before db) := by
  unfold Moment.before
  induction m.arrivals generalizing db with
  | nil => exact Waits.refl db
  | cons a as ih => exact (waits_arrive db a).trans (ih (db.arrive a))

end Waits

/-! ## Writing the status of a leg -/

/-- What writing a status to the leg with the given id makes of a row. -/
structure Becomes (legId : Uuid) (st : LegStatus) (l l' : Leg) : Prop where
  id : l'.id = l.id
  slot : slot l' = slot l
  status : l'.status = if l.id = legId then st else l.status

/-- The leg with the given id has got the status; the rest is as it was. -/
structure SetTo (legId : Uuid) (st : LegStatus) (db db' : CrossDb) : Prop where
  calls : db'.calls = db.calls
  becomes : ∀ l ∈ db.legs.rows, ∃ l' ∈ db'.legs.rows, Becomes legId st l l'
  was : ∀ l' ∈ db'.legs.rows, ∃ l ∈ db.legs.rows, Becomes legId st l l'

theorem SetTo.of_map {id : Uuid} {st : LegStatus} {db db' : CrossDb} {f : Leg → Leg}
    (hf : ∀ l, Becomes id st l (f l)) (hcalls : db'.calls = db.calls)
    (hrows : db'.legs.rows = db.legs.rows.map f) : SetTo id st db db' := by
  obtain ⟨hbecomes, hwas⟩ := rewritten hf hrows
  exact ⟨hcalls, hbecomes, hwas⟩

/-- Rows are told apart by their ids, and by their fills and sides. -/
theorem CrossDb.eq_of_id (db : CrossDb) {l l' : Leg} (h : l ∈ db.legs.rows) (h' : l' ∈ db.legs.rows)
    (hid : l.id = l'.id) : l = l' := eq_of_key_eq db.legs.pk_nodup h h' hid

theorem CrossDb.eq_of_slot (db : CrossDb) {l l' : Leg} (h : l ∈ db.legs.rows) (h' : l' ∈ db.legs.rows)
    (hslot : slot l = slot l') : l = l' := eq_of_key_eq db.legs.uk_nodup h h' hslot

/-! ## Acts -/

section Acts

variable {db : CrossDb} (m : Moment)

/-- An act that only reads. -/
def Reads (o : CrossAct) : Prop := ∀ (m : Moment) (db : CrossDb), (serveAct m o db).2 = db

theorem waits_exec_reads {o : CrossAct} (h : Reads o) (db : CrossDb) :
    Waits db (execCross m o db).2 := by
  refine (waits_before m db).trans (.of_eq ?_ ?_)
  · show (serveAct m o (m.before db)).2.legs = _
    rw [h]
  · show (serveAct m o (m.before db)).2.calls = _
    rw [h]

theorem reads_now : Reads .now := fun _ _ => rfl

theorem reads_verifyLock (id : Uuid) (tx : String) : Reads (.verifyLock id tx) := fun _ _ => rfl

theorem reads_sql {o : LegStmt} (h : ∀ scan db, (execLegStmt scan o db).2 = db) : Reads (.sql o) := by
  intro m db
  show (serveStmt m.turn.fate (execLegStmt m.scan o db) db).2 = db
  cases m.turn.fate with
  | served => exact h m.scan db
  | refused => rfl
  | lost => exact h m.scan db

/-- The status is written unless the statement is refused; a call that is served finds the leg if it
is there. -/
theorem exec_setStatus (id : Uuid) (st : LegStatus) (txHash error : Option String) (db : CrossDb) :
    (m.turn.fate = .refused ∧
      (∃ e, (execCross m (.sql (.setStatus id st txHash error)) db).1 = .error e) ∧
      Waits db (execCross m (.sql (.setStatus id st txHash error)) db).2) ∨
    SetTo id st (m.before db) (execCross m (.sql (.setStatus id st txHash error)) db).2 ∧
      (m.turn.fate = .served → (∃ l ∈ (m.before db).legs.rows, l.id = id) →
        ∃ n, n ≠ 0 ∧ (execCross m (.sql (.setStatus id st txHash error)) db).1 = .ok n) := by
  have hbecomes : ∀ l : Leg, Becomes id st l
      (if decide (l.id = id) = true then withStatus l st txHash error else l) := by
    intro l
    by_cases hid : l.id = id
    · rw [if_pos (decide_eq_true hid)]
      exact ⟨rfl, rfl, (if_pos hid).symm⟩
    · rw [if_neg (by simpa using hid)]
      exact ⟨rfl, rfl, (if_neg hid).symm⟩
  unfold execCross serveAct
  cases hf : m.turn.fate with
  | served =>
    refine .inr ⟨.of_map hbecomes rfl rfl, ?_⟩
    rintro - ⟨l, hl, hid⟩
    refine ⟨(m.before db).legs.affected fun l => l.id = id, ?_, rfl⟩
    exact (List.countP_pos_iff.2 ⟨l, hl, decide_eq_true hid⟩).ne'
  | refused => exact .inl ⟨rfl, ⟨_, rfl⟩, (waits_before m db).trans (.of_eq rfl rfl)⟩
  | lost =>
    exact .inr ⟨.of_map hbecomes rfl rfl, fun h => nomatch h⟩

/-- A confirmation time leaves ids, fills and statuses alone. -/
theorem waits_exec_setConfirmedAt (id : Uuid) (db : CrossDb) :
    Waits db (execCross m (.sql (.setConfirmedAt id)) db).2 := by
  have halike : ∀ l : Leg, Alike l
      (if decide (l.id = id) = true then { l with confirmedAt := some (m.before db).clock } else l) := by
    intro l
    split <;> exact ⟨rfl, rfl, rfl⟩
  refine (waits_before m db).trans ?_
  unfold execCross serveAct
  cases m.turn.fate with
  | refused => exact .of_eq rfl rfl
  | served => exact .of_map halike rfl rfl
  | lost => exact .of_map halike rfl rfl

/-- A bridge has been called. -/
structure Called (c : BridgeCall) (db db' : CrossDb) : Prop where
  calls : db'.calls = c :: db.calls
  waits : ∃ b, Waits db b ∧ db'.legs = b.legs

theorem called_lock (id : Uuid) (params : BridgeTransferParams) (db : CrossDb) :
    Called (.lock id (m.turn.lock params)) db (execCross m (.lockFunds id params) db).2 :=
  ⟨congrArg _ (waits_before m db).calls, m.before db, waits_before m db, rfl⟩

theorem called_release (id : Uuid) (params : BridgeTransferParams) (msg : String) (db : CrossDb) :
    Called (.release id (m.turn.release params msg)) db (execCross m (.releaseFunds id params msg) db).2 :=
  ⟨congrArg _ (waits_before m db).calls, m.before db, waits_before m db, rfl⟩

/-- An act of the worker other than a call that moves funds. -/
def Quiet : CrossAct → Prop
  | .sql (.insertLeg _) | .lockFunds .. | .releaseFunds .. => False
  | .sql (.setStatus _ st _ _) => st ≠ .Pending
  | _ => True

/-- A quiet act that writes no status. -/
def Idle : CrossAct → Prop
  | .sql (.setStatus ..) => False
  | o => Quiet o

theorem Idle.quiet {o : CrossAct} (h : Idle o) : Quiet o := by
  unfold Idle at h
  split at h
  · cases h
  · exact h

/-- A quiet act of the phases before the last. -/
def Plain : CrossAct → Prop
  | .sql (.completeIntent _) => False
  | o => Quiet o

theorem Plain.quiet {o : CrossAct} (h : Plain o) : Quiet o := by
  unfold Plain at h
  split at h
  · cases h
  · exact h

theorem waits_exec_idle {o : CrossAct} (h : Idle o) (db : CrossDb) : Waits db (execCross m o db).2 := by
  cases o with
  | now => exact waits_exec_reads m reads_now db
  | verifyLock id tx => exact waits_exec_reads m (reads_verifyLock id tx) db
  | lockFunds id params => cases h
  | releaseFunds id params msg => cases h
  | sql o =>
    cases o with
    | insertLeg l => cases h
    | setStatus id st txHash error => cases h
    | setConfirmedAt id => exact waits_exec_setConfirmedAt m id db
    | completeIntent id =>
      refine (waits_before m db).trans ?_
      unfold execCross serveAct
      cases m.turn.fate <;> exact .of_eq rfl rfl
    | _ => exact waits_exec_reads m (reads_sql fun _ _ => rfl) db

theorem exec_quiet {o : CrossAct} (h : Quiet o) (db : CrossDb) :
    Waits db (execCross m o db).2 ∨
      ∃ id st b, st ≠ .Pending ∧ Waits db b ∧ SetTo id st b (execCross m o db).2 := by
  by_cases hidle : Idle o
  · exact .inl (waits_exec_idle m hidle db)
  · unfold Idle at hidle
    split at hidle
    · next id st txHash error =>
      rcases exec_setStatus m id st txHash error db with ⟨-, -, hw⟩ | ⟨hset, -⟩
      · exact .inl hw
      · exact .inr ⟨id, st, m.before db, h, waits_before m db, hset⟩
    · exact absurd h hidle

end Acts

/-! ## The acts of the phases -/

section Phases

variable {S : CrossAct → Prop} {bridges : BridgeRegistry}

theorem updateLegStatus_issues {id : Uuid} {st : LegStatus} {txHash error : Option String}
    (hS : ∀ o, Plain o → S o) (h : st ≠ .Pending) :
    Call.Issues S (updateLegStatus id st txHash error) :=
  Call.issues_bind (Call.issues_op (hS _ h)) fun _ => Call.issues_failIf

theorem getSettlement_issues (fillId : Uuid) : Call.Issues Plain (getSettlement fillId) :=
  Call.issues_bind (Call.issues_op trivial) fun _ => Call.issues_pure _

theorem findTimedOutLegs_issues (hnow : S .now) (htimed : ∀ now, S (.sql (.selectTimedOut now))) :
    Call.Issues S findTimedOutLegs :=
  Call.issues_bind (Call.issues_op hnow) fun now => Call.issues_op (htimed now)

theorem succeeded_issues {p : Cross Unit} (hp : Call.Issues S p) : (succeeded p).Issues S := by
  refine Prog.issues_bind hp fun r => ?_
  cases r <;> trivial

theorem ignored_issues {p : Cross Unit} (hp : Call.Issues S p) : (ignored p).Issues S :=
  Prog.issues_bind hp fun _ => trivial

theorem legPhase_issues {find : Cross (List Leg)} {body : Leg → CrossProg Nat}
    (hfind : Call.Issues S find) (hbody : ∀ l, (body l).Issues S) : (legPhase find body).Issues S := by
  refine Prog.issues_bind hfind fun r => ?_
  cases r with
  | error e => trivial
  | ok legs => exact Prog.issues_forEach hbody legs

theorem lockOne_issues (hS : ∀ o, Plain o → S o) (hlock : ∀ id params, S (.lockFunds id params))
    (leg : Leg) : (lockOne bridges leg).Issues S := by
  refine Prog.issues_bind ((getSettlement_issues _).mono hS) fun r => ?_
  split
  · split
    · trivial
    · refine Prog.issues_bind (Prog.issues_ask (hlock _ _)) fun r => ?_
      cases r with
      | error e => exact ignored_issues (updateLegStatus_issues hS nofun)
      | ok receipt => exact succeeded_issues (updateLegStatus_issues hS nofun)
  · trivial

theorem releaseOne_issues (hS : ∀ o, Plain o → S o)
    (hrelease : ∀ id params source, S (.releaseFunds id params (releaseMsgId source))) (leg : Leg) :
    (releaseOne bridges leg).Issues S := by
  refine Prog.issues_bind ((getSettlement_issues _).mono hS) fun r => ?_
  split
  · split
    · trivial
    · refine Prog.issues_bind (Prog.issues_ask (hrelease _ _ _)) fun r => ?_
      cases r with
      | error e => exact ignored_issues (updateLegStatus_issues hS nofun)
      | ok destTx => exact succeeded_issues (updateLegStatus_issues hS nofun)
  · trivial

theorem verifyOne_issues (leg : Leg) : (verifyOne bridges leg).Issues Plain := by
  unfold verifyOne
  split
  · trivial
  refine Prog.issues_bind (getSettlement_issues _) fun r => ?_
  split
  · split
    · trivial
    · have hconfirm : (succeeded (confirmLeg leg.id)).Issues Plain :=
        succeeded_issues (Call.issues_bind (updateLegStatus_issues (fun _ => id) nofun) fun _ =>
          Call.issues_bind (Call.issues_op trivial) fun _ => Call.issues_pure _)
      refine Prog.issues_bind (Prog.issues_ask trivial) fun r => ?_
      split
      · exact hconfirm
      · exact hconfirm
      · exact ignored_issues (updateLegStatus_issues (fun _ => id) nofun)
      · trivial
  · trivial

theorem cascade_issues (leg : Leg) : (cascade leg).Issues Plain := by
  unfold cascade
  split
  · refine Prog.issues_bind (getSettlement_issues _) fun r => ?_
    split
    · split
      · exact Prog.issues_bind (updateLegStatus_issues (fun _ => id) nofun) fun _ => trivial
      · trivial
    · trivial
  · trivial

theorem timeoutOne_issues (leg : Leg) : (timeoutOne leg).Issues Plain := by
  refine Prog.issues_bind (updateLegStatus_issues (fun _ => id) nofun) fun r => ?_
  cases r with
  | error e => trivial
  | ok _ => exact Prog.issues_bind (cascade_issues leg) fun _ => trivial

theorem lockPendingSources_issues (hS : ∀ o, Plain o → S o)
    (hlock : ∀ id params, S (.lockFunds id params)) : (lockPendingSources bridges).Issues S :=
  legPhase_issues (Call.issues_op (hS _ trivial)) (lockOne_issues hS hlock)

theorem verifyEscrowed_issues : (verifyEscrowed bridges).Issues Plain :=
  legPhase_issues (Call.issues_op trivial) verifyOne_issues

theorem releaseDestinations_issues (hS : ∀ o, Plain o → S o)
    (hrelease : ∀ id params source, S (.releaseFunds id params (releaseMsgId source))) :
    (releaseDestinations bridges).Issues S :=
  legPhase_issues (Call.issues_op (hS _ trivial)) (releaseOne_issues hS hrelease)

theorem processTimeouts_issues : processTimeouts.Issues Plain :=
  legPhase_issues (findTimedOutLegs_issues trivial fun _ => trivial) timeoutOne_issues

theorem finalizeCompleted_issues : finalizeCompleted.Issues Idle := by
  refine Prog.issues_bind (Call.issues_op trivial) fun r => ?_
  cases r with
  | error e => trivial
  | ok rows =>
    refine Prog.issues_forEach (fun row => ?_) rows
    refine Prog.issues_bind (Call.issues_op trivial) fun r => ?_
    cases r <;> trivial

theorem updateGauge_issues (hnow : S .now) (htimed : ∀ now, S (.sql (.selectTimedOut now)))
    (hready : S (.sql .selectReadyDestinations)) : updateGauge.Issues S :=
  Prog.issues_bind (findTimedOutLegs_issues hnow htimed) fun _ =>
    Prog.issues_bind (Call.issues_op hready) fun _ => trivial

end Phases

/-! ## The answers of the queries -/

section Answers

variable {db : CrossDb} {scan : Scan} {p : Leg → Bool} {key : Leg → Int} {l : Leg}

theorem mem_select (h : l ∈ db.select scan p key) : l ∈ db.legs.rows ∧ p l = true := by
  have hsorted := List.mem_of_mem_take h
  rw [List.mem_insertionSort] at hsorted
  obtain ⟨hscan, hp⟩ := List.mem_filter.1 hsorted
  exact ⟨(scan.perm _).mem_iff.1 hscan, hp⟩

theorem select_nodup (db : CrossDb) (scan : Scan) (p : Leg → Bool) (key : Leg → Int) :
    ((db.select scan p key).map fun l => l.id).Nodup := by
  have hrows : ((scan.order db.legs.rows).map fun l => l.id).Nodup :=
    (((scan.perm _).map _).nodup_iff).2 db.legs.pk_nodup
  have hfilter : (((scan.order db.legs.rows).filter p).map fun l => l.id).Nodup :=
    hrows.sublist (List.filter_sublist.map _)
  have hsort := (((List.perm_insertionSort (fun a b : Leg => key a ≤ key b) _).map _).nodup_iff).2 hfilter
  exact hsort.sublist ((List.take_sublist _ _).map _)

/-- What `get_settlement` answers: both legs of the fill, or nothing when one is missing. -/
def Settles (db : CrossDb) (fillId : Uuid) : Option CrossChainSettlement → Prop
  | some s => (s.sourceLeg ∈ db.legs.rows ∧ slot s.sourceLeg = (fillId, 0)) ∧
      s.destinationLeg ∈ db.legs.rows ∧ slot s.destinationLeg = (fillId, 1)
  | none => (∀ l ∈ db.legs.rows, slot l ≠ (fillId, 0)) ∨ ∀ l ∈ db.legs.rows, slot l ≠ (fillId, 1)

/-- The legs of a fill. -/
def fillRows (scan : Scan) (db : CrossDb) (fillId : Uuid) : List Leg :=
  ((scan.order db.legs.rows).filter fun l => l.fillId == fillId).insertionSort
    fun a b => a.legIndex ≤ b.legIndex

theorem mem_fillRows {fillId : Uuid} :
    l ∈ fillRows scan db fillId ↔ l ∈ db.legs.rows ∧ l.fillId = fillId := by
  unfold fillRows
  rw [List.mem_insertionSort, List.mem_filter, (scan.perm _).mem_iff, beq_iff_eq]

theorem settles_fromLegs (scan : Scan) (db : CrossDb) (fillId : Uuid) :
    Settles db fillId (fromLegs (fillRows scan db fillId)) := by
  have hfound : ∀ k l, (fillRows scan db fillId).find? (fun l => l.legIndex == k) = some l →
      l ∈ db.legs.rows ∧ slot l = (fillId, k) := by
    intro k l hl
    obtain ⟨hmem, hfill⟩ := mem_fillRows.1 (List.mem_of_find?_eq_some hl)
    exact ⟨hmem, Prod.ext hfill (eq_of_beq (List.find?_some (p := fun l : Leg => l.legIndex == k) hl))⟩
  have hmissing : ∀ k, (fillRows scan db fillId).find? (fun l => l.legIndex == k) = none →
      ∀ l ∈ db.legs.rows, slot l ≠ (fillId, k) := by
    intro k hnone l hl hslot
    have hmem : l ∈ fillRows scan db fillId := mem_fillRows.2 ⟨hl, congrArg Prod.fst hslot⟩
    exact List.find?_eq_none.1 hnone l hmem (beq_iff_eq.2 (congrArg Prod.snd hslot))
  show Settles db fillId
    (((fillRows scan db fillId).find? fun l => l.legIndex == 0).bind fun source =>
      ((fillRows scan db fillId).find? fun l => l.legIndex == 1).bind fun dest => some ⟨source, dest⟩)
  cases hs : (fillRows scan db fillId).find? (fun l => l.legIndex == 0) with
  | none => exact Or.inl (hmissing 0 hs)
  | some source =>
    cases hd : (fillRows scan db fillId).find? (fun l => l.legIndex == 1) with
    | none => exact Or.inr (hmissing 1 hd)
    | some dest => exact ⟨hfound 0 source hs, hfound 1 dest hd⟩

end Answers

/-! ## The calls of the service in a life -/

section Rules

variable {C : CrossAct → List Moment → CrossDb → Prop} {I : CrossDb → Prop} {ns : List Moment}
  {s : CrossDb}

/-- A query that answers from the legs. -/
theorem lasts_read {o : LegStmt} {v : Scan → CrossDb → o.Reply}
    {Q : Except CrossChainError o.Reply → CrossDb → Prop}
    (hv : ∀ scan db, execLegStmt scan o db = (.ok (v scan db), db))
    (hlegs : ∀ scan (a b : CrossDb), a.legs = b.legs → v scan a = v scan b)
    (hI : I s)
    (hok : ∀ n ns' s', C (.sql o) (n :: ns') s → s'.legs = (n.before s).legs → Waits s s' →
      Q (.ok (v n.scan s')) s')
    (herr : ∀ n ns' e s', C (.sql o) (n :: ns') s → n.turn.fate ≠ .served → Waits s s' →
      Q (.error e) s') :
    Prog.Lasts execCross C I Q (legSql o).run ns s := by
  have hreads : Reads (.sql o) := reads_sql fun scan db => by rw [hv]
  refine Prog.lasts_call (fun _ => hI) fun n ns' _ hC => ?_
  have hwaits := waits_exec_reads n hreads s
  cases hf : n.turn.fate with
  | served =>
    obtain ⟨s', hs', hex⟩ : ∃ s' : CrossDb, s'.legs = (n.before s).legs ∧
        execCross n (.sql o) s = (.ok (v n.scan s'), s') := by
      refine ⟨{ n.before s with clock := s.clock + n.turn.elapse }, rfl, ?_⟩
      simp only [execCross, serveAct, serveStmt, hf, hv, Call.mapError_ok]
      exact congrArg (fun a => (Except.ok a, _)) (hlegs n.scan _ _ rfl)
    rw [hex] at hwaits ⊢
    exact hok n ns' s' hC hs' hwaits
  | refused =>
    have hne : n.turn.fate ≠ .served := by simp [hf]
    simp only [execCross, serveAct, serveStmt, hf, Call.mapError_error] at hwaits ⊢
    exact herr n ns' _ _ hC hne hwaits
  | lost =>
    have hne : n.turn.fate ≠ .served := by simp [hf]
    simp only [execCross, serveAct, serveStmt, hf, Call.mapError_error] at hwaits ⊢
    exact herr n ns' _ _ hC hne hwaits

/-- `K` when the query failed, and `J` of the legs it answered. -/
def Answered (K : CrossDb → Prop) (J : List Leg → CrossDb → Prop) :
    Except CrossChainError (List Leg) → CrossDb → Prop
  | .error _, s => K s
  | .ok legs, s => J legs s

section Find

variable {K : CrossDb → Prop} {J : List Leg → CrossDb → Prop}

theorem lasts_findPendingSourceLegs (hI : I s)
    (hok : ∀ scan s', Waits s s' → J (s'.select scan isPendingSource fun l => l.createdAt) s')
    (herr : ∀ s', Waits s s' → K s') :
    Prog.Lasts execCross C I (Answered K J) findPendingSourceLegs.run ns s := by
  refine lasts_read (o := .selectPendingSources)
    (v := fun scan db => db.select scan isPendingSource fun l => l.createdAt) (fun _ _ => rfl)
    (fun scan a b h => ?_) hI (fun n ns' s' _ _ hw => hok n.scan s' hw) fun _ _ e s' _ _ hw => herr s' hw
  unfold CrossDb.select
  rw [h]

theorem lasts_findEscrowedSourceLegs (hI : I s)
    (hok : ∀ scan s', Waits s s' → J (s'.select scan isEscrowedSource fun l => l.createdAt) s')
    (herr : ∀ s', Waits s s' → K s') :
    Prog.Lasts execCross C I (Answered K J) findEscrowedSourceLegs.run ns s := by
  refine lasts_read (o := .selectEscrowedSources)
    (v := fun scan db => db.select scan isEscrowedSource fun l => l.createdAt) (fun _ _ => rfl)
    (fun scan a b h => ?_) hI (fun n ns' s' _ _ hw => hok n.scan s' hw) fun _ _ e s' _ _ hw => herr s' hw
  unfold CrossDb.select
  rw [h]

theorem lasts_findReadyDestinationLegs (hI : I s)
    (hok : ∀ scan s', Waits s s' → J (s'.select scan (isReadyDestination s') fun l => l.createdAt) s')
    (herr : ∀ s', Waits s s' → K s') :
    Prog.Lasts execCross C I (Answered K J) findReadyDestinationLegs.run ns s := by
  refine lasts_read (o := .selectReadyDestinations)
    (v := fun scan db => db.select scan (isReadyDestination db) fun l => l.createdAt) (fun _ _ => rfl)
    (fun scan a b h => ?_) hI (fun n ns' s' _ _ hw => hok n.scan s' hw) fun _ _ e s' _ _ hw => herr s' hw
  unfold CrossDb.select isReadyDestination
  rw [h]

/-- The condition is met at the query, for the time that was read before it. -/
theorem lasts_findTimedOutLegs (hI : ∀ s', Waits s s' → I s')
    (hok : ∀ now n ns' s₁ s', Waits s s₁ → C (.sql (.selectTimedOut now)) (n :: ns') s₁ →
      s'.legs = (n.before s₁).legs → Waits s₁ s' →
      J (s'.select n.scan (isTimedOut now) fun l => l.timeoutAt) s')
    (herr : ∀ s', Waits s s' → K s') :
    Prog.Lasts execCross C I (Answered K J) findTimedOutLegs.run ns s := by
  refine Call.lasts_op (fun _ => hI s (.refl s)) (fun n ns' now _ _ _ => ?_) fun n ns' e _ _ _ => ?_
  · have hw := waits_exec_reads n reads_now s
    refine lasts_read (o := .selectTimedOut now)
      (v := fun scan db => db.select scan (isTimedOut now) fun l => l.timeoutAt) (fun _ _ => rfl)
      (fun scan a b h => ?_) (hI _ hw) (fun m ms s' hC hlegs hw' => hok now m ms _ s' hw hC hlegs hw')
      fun _ _ e s' _ _ hw' => herr s' (hw.trans hw')
    unfold CrossDb.select
    rw [h]
  · exact herr _ (waits_exec_reads n reads_now s)

end Find

theorem lasts_getSettlement {fillId : Uuid}
    {Q : Except CrossChainError (Option CrossChainSettlement) → CrossDb → Prop} (hI : I s)
    (hok : ∀ x s', Waits s s' → Settles s' fillId x → Q (.ok x) s')
    (herr : ∀ e s', Waits s s' → Q (.error e) s') :
    Prog.Lasts execCross C I Q (getSettlement fillId).run ns s := by
  refine Prog.lasts_bind (lasts_read (v := fun scan db => fillRows scan db fillId) (fun _ _ => rfl)
    (fun scan a b h => ?_) hI (fun n ns' s' _ _ hw ns'' => ?_) fun _ _ e s' _ _ hw ns'' => herr _ s' hw)
  · unfold fillRows
    rw [h]
  · exact hok _ s' hw (settles_fromLegs n.scan s' fillId)

/-- The status is written, or the statement was refused. -/
theorem lasts_updateLegStatus {id : Uuid} {st : LegStatus} {txHash error : Option String}
    {Q : Except CrossChainError Unit → CrossDb → Prop} (hI : ns = [] → I s)
    (hset : ∀ n ns' b s' r, ns = n :: ns' → C (.sql (.setStatus id st txHash error)) (n :: ns') s →
      Waits s b → SetTo id st b s' →
      (n.turn.fate = .served → (∃ l ∈ b.legs.rows, l.id = id) → r = .ok ()) → Q r s')
    (hmiss : ∀ n ns' e s', ns = n :: ns' → C (.sql (.setStatus id st txHash error)) (n :: ns') s →
      n.turn.fate = .refused → Waits s s' → Q (.error e) s') :
    Prog.Lasts execCross C I Q (updateLegStatus id st txHash error).run ns s := by
  refine Call.lasts_op hI (fun n ns' rows hns hC hr => ?_) fun n ns' e hns hC hr => ?_
  · rcases exec_setStatus n id st txHash error s with ⟨-, ⟨e, he⟩, -⟩ | ⟨hs, hans⟩
    · rw [hr] at he
      cases he
    · unfold Call.failIf
      split
      · next hzero =>
        refine hset n ns' _ _ _ hns hC (waits_before n s) hs fun hserved hrow => ?_
        obtain ⟨k, hk, hok⟩ := hans hserved hrow
        rw [hr] at hok
        cases hok
        exact absurd hzero hk
      · exact hset n ns' _ _ _ hns hC (waits_before n s) hs fun _ _ => rfl
  · rcases exec_setStatus n id st txHash error s with ⟨hf, -, hw⟩ | ⟨hs, hans⟩
    · exact hmiss n ns' _ _ hns hC hf hw
    · refine hset n ns' _ _ _ hns hC (waits_before n s) hs fun hserved hrow => ?_
      obtain ⟨k, hk, hok⟩ := hans hserved hrow
      rw [hr] at hok
      cases hok

theorem lasts_confirmLeg {id : Uuid} {K : CrossDb → Prop} (hK : ∀ a b, Waits a b → K a → K b)
    (hKI : ∀ a, K a → I a) (hs : K s)
    (hset : ∀ n ns' b s', C (.sql (.setStatus id .Confirmed none none)) (n :: ns') s → Waits s b →
      SetTo id .Confirmed b s' → K s') :
    Prog.Lasts execCross C I (fun _ s' => K s') (confirmLeg id).run ns s := by
  have hrest : ∀ (r : Except CrossChainError Unit) s', K s' → ∀ ns',
      Prog.Lasts execCross C I (fun _ s' => K s')
        (ExceptT.bindCont (fun _ => (do let _ ← legSql (.setConfirmedAt id))) r) ns' s' := by
    intro r s' hs' ns'
    cases r with
    | error e => exact hs'
    | ok _ =>
      refine Call.lasts_op (fun _ => hKI _ hs') (fun n _ _ _ _ _ => ?_) fun n _ _ _ _ _ => ?_
      · exact hK _ _ (waits_exec_setConfirmedAt n id s') hs'
      · exact hK _ _ (waits_exec_setConfirmedAt n id s') hs'
  refine Prog.lasts_bind (lasts_updateLegStatus (fun _ => hKI _ hs) ?_ ?_)
  · exact fun n ns' b s' r _ hC hw hset' _ => hrest r s' (hset n ns' b s' hC hw hset')
  · exact fun n ns' e s' _ _ _ hw => hrest (.error e) s' (hK _ _ hw hs)

theorem lasts_succeeded {p : Cross Unit} {K : CrossDb → Prop}
    (hp : Prog.Lasts execCross C I (fun _ s' => K s') p.run ns s) :
    Prog.Lasts execCross C I (fun _ s' => K s') (succeeded p) ns s := by
  refine Prog.lasts_bind (hp.mono fun r s' hs' ns' => ?_)
  cases r <;> exact hs'

theorem lasts_ignored {p : Cross Unit} {K : CrossDb → Prop}
    (hp : Prog.Lasts execCross C I (fun _ s' => K s') p.run ns s) :
    Prog.Lasts execCross C I (fun _ s' => K s') (ignored p) ns s :=
  Prog.lasts_bind (hp.mono fun _ _ hs' _ => hs')

/-- Nothing is done where the settlement of the fill is missing. -/
theorem lasts_settled {fillId : Uuid} {K : CrossDb → Prop}
    {k : Except CrossChainError (Option CrossChainSettlement) → CrossProg Nat}
    (herr : ∀ e, k (.error e) = return 0) (hnone : k (.ok none) = return 0) (hI : I s)
    (hmiss : ∀ s', Waits s s' → K s')
    (hsome : ∀ x s' ns', Waits s s' → Settles s' fillId (some x) →
      Prog.Lasts execCross C I (fun _ s' => K s') (k (.ok (some x))) ns' s') :
    Prog.Lasts execCross C I (fun _ s' => K s') ((getSettlement fillId).run >>= k) ns s := by
  refine Prog.lasts_bind (lasts_getSettlement hI (fun x s' hw hx ns' => ?_) fun e s' hw ns' => ?_)
  · cases x with
    | none =>
      rw [hnone]
      exact hmiss s' hw
    | some x => exact hsome x s' ns' hw hx
  · rw [herr]
    exact hmiss s' hw

/-- One leg of `lock_pending_sources`: nothing is done, or `lock_funds` is called and its answer is
recorded. -/
theorem lasts_locking {bridges : BridgeRegistry} {leg : Leg} {K : CrossDb → Prop}
    (hI : ∀ s', Waits s s' → I s') (hmiss : ∀ s', Waits s s' → K s')
    (hok : ∀ n ns' s₁ s₂ params receipt, Waits s s₁ → C (.lockFunds leg.id params) (n :: ns') s₁ →
      Called (.lock leg.id (.ok receipt)) s₁ s₂ →
      Prog.Lasts execCross C I (fun _ s' => K s') (executeSourceLeg leg.id receipt.txHash).run ns' s₂)
    (herr : ∀ n ns' s₁ s₂ params e text, Waits s s₁ → C (.lockFunds leg.id params) (n :: ns') s₁ →
      Called (.lock leg.id (.error e)) s₁ s₂ →
      Prog.Lasts execCross C I (fun _ s' => K s') (failLeg leg.id text).run ns' s₂) :
    Prog.Lasts execCross C I (fun _ s' => K s') (lockOne bridges leg) ns s := by
  refine lasts_settled (fun _ => rfl) rfl (hI s (.refl s)) hmiss fun x s₁ ns₁ hw _ => ?_
  dsimp only
  cases bridges.find leg.chain x.destinationLeg.chain with
  | error e => exact hmiss s₁ hw
  | ok b =>
    refine Prog.lasts_call (fun _ => hI s₁ hw) fun n ns' _ hC => ?_
    have hc := called_lock n leg.id (transferParams leg leg x.destinationLeg) s₁
    rcases hx : execCross n (.lockFunds leg.id (transferParams leg leg x.destinationLeg)) s₁ with
      ⟨r, s₂⟩
    rw [hx] at hc
    have hr : (n.turn.lock (transferParams leg leg x.destinationLeg)).mapError .bridge = r :=
      congrArg Prod.fst hx
    subst hr
    cases hlock : n.turn.lock (transferParams leg leg x.destinationLeg) with
    | ok receipt =>
      rw [hlock] at hc
      exact lasts_succeeded (hok n ns' s₁ s₂ _ receipt hw hC hc)
    | error e =>
      rw [hlock] at hc
      exact lasts_ignored (herr n ns' s₁ s₂ _ e _ hw hC hc)

/-- One leg of `release_destinations`: nothing is done, or `release_funds` is called and its answer is
recorded. -/
theorem lasts_releasing {bridges : BridgeRegistry} {leg : Leg} {K : CrossDb → Prop}
    (hI : ∀ s', Waits s s' → I s') (hmiss : ∀ s', Waits s s' → K s')
    (hok : ∀ n ns' s₁ s₂ params msg tx, Waits s s₁ →
      C (.releaseFunds leg.id params msg) (n :: ns') s₁ → n.turn.release params msg = .ok tx →
      Called (.release leg.id (.ok tx)) s₁ s₂ →
      Prog.Lasts execCross C I (fun _ s' => K s') (markExecuting leg.id tx).run ns' s₂)
    (herr : ∀ n ns' s₁ s₂ params msg e text, Waits s s₁ →
      C (.releaseFunds leg.id params msg) (n :: ns') s₁ → n.turn.release params msg = .error e →
      s₂.legs = (n.before s₁).legs → Called (.release leg.id (.error e)) s₁ s₂ →
      Prog.Lasts execCross C I (fun _ s' => K s') (failLeg leg.id text).run ns' s₂) :
    Prog.Lasts execCross C I (fun _ s' => K s') (releaseOne bridges leg) ns s := by
  refine lasts_settled (fun _ => rfl) rfl (hI s (.refl s)) hmiss fun x s₁ ns₁ hw _ => ?_
  dsimp only
  cases bridges.find x.sourceLeg.chain leg.chain with
  | error e => exact hmiss s₁ hw
  | ok b =>
    refine Prog.lasts_call (fun _ => hI s₁ hw) fun n ns' _ hC => ?_
    have hc := called_release n leg.id (transferParams leg x.sourceLeg leg) (releaseMsgId x.sourceLeg) s₁
    have hlegs : (execCross n (.releaseFunds leg.id (transferParams leg x.sourceLeg leg)
      (releaseMsgId x.sourceLeg)) s₁).2.legs = (n.before s₁).legs := rfl
    rcases hx : execCross n (.releaseFunds leg.id (transferParams leg x.sourceLeg leg)
      (releaseMsgId x.sourceLeg)) s₁ with ⟨r, s₂⟩
    rw [hx] at hc hlegs
    have hr : (n.turn.release (transferParams leg x.sourceLeg leg)
      (releaseMsgId x.sourceLeg)).mapError .bridge = r := congrArg Prod.fst hx
    subst hr
    cases hrel : n.turn.release (transferParams leg x.sourceLeg leg) (releaseMsgId x.sourceLeg) with
    | ok tx =>
      rw [hrel] at hc
      exact lasts_succeeded (hok n ns' s₁ s₂ _ _ tx hw hC hrel hc)
    | error e =>
      rw [hrel] at hc
      exact lasts_ignored (herr n ns' s₁ s₂ _ _ e _ hw hC hrel hlegs hc)

/-- The answer of the query gives the loop its invariant. -/
theorem lasts_legPhase {find : Cross (List Leg)} {body : Leg → CrossProg Nat}
    {J : List Leg → CrossDb → Prop} {K : CrossDb → Prop}
    (hfind : Prog.Lasts execCross C I (Answered K J) find.run ns s)
    (hbody : ∀ l ls ns s, J (l :: ls) s → Prog.Lasts execCross C I (fun _ s' => J ls s') (body l) ns s)
    (hend : ∀ s', J [] s' → K s') :
    Prog.Lasts execCross C I (fun _ s' => K s') (legPhase find body) ns s := by
  refine Prog.lasts_bind (hfind.mono fun r s' hr ns' => ?_)
  cases r with
  | error e => exact hr
  | ok legs => exact (Prog.lasts_forEach hbody hr).mono fun _ s'' hs'' => hend s'' hs''

end Rules

end IntentX.CrossChain
