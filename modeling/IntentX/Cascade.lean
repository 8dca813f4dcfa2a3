import IntentX.AllOrNothing

/-!
# The refund cascade

When the source leg of a fill is refunded, the destination leg must not stay active.  One run of
`process_timeouts` refunds the legs of its query, at most fifty of them, and with an escrowed source
leg also its pending or executing destination.  So what a run leaves of a row follows from the table
the query met (`outcome`), and the cascade is complete if and only if the query covers what the run
does not reach otherwise (`Covered`).

This is for runs whose statements are all served.  A refused refund of a destination leg breaks the
cascade as well.
-/

namespace IntentX.CrossChain

open Lib

/-! ## The property and the condition -/

def Active (st : LegStatus) : Prop := st ≠ .Refunded ∧ st ≠ .Failed ∧ st ≠ .Confirmed

instance (st : LegStatus) : Decidable (Active st) := inferInstanceAs (Decidable (_ ∧ _ ∧ _))

/-- The destination of a refunded source leg is not active. -/
def Cascaded (db : CrossDb) : Prop :=
  ∀ s ∈ db.legs.rows, ∀ d ∈ db.legs.rows, Fill s d → s.status = .Refunded → ¬ Active d.status

instance (db : CrossDb) : Decidable (Cascaded db) :=
  inferInstanceAs (Decidable (∀ s ∈ db.legs.rows, ∀ d ∈ db.legs.rows, _))

/-- The table that `find_timed_out_legs` meets; `clock` is the reading of the clock before it. -/
def metBy (clock query : Moment) (db : CrossDb) : CrossDb := query.before (execCross clock .now db).2

/-- The legs that `find_timed_out_legs` answers. -/
def timedOut (clock query : Moment) (db : CrossDb) : List Leg :=
  (metBy clock query db).select query.scan (isTimedOut (clock.before db).clock) fun l => l.timeoutAt

/-- `process_timeouts` refunds the destination together with the source. -/
def Cascades (s d : Leg) : Prop := s.status = .Escrowed ∧ (d.status = .Pending ∨ d.status = .Executing)

instance (s d : Leg) : Decidable (Cascades s d) := inferInstanceAs (Decidable (_ ∧ _))

/-- An active destination leg is in the batch when its source is refunded already, or is in the batch
and does not take it along. -/
def Covered (db : CrossDb) (batch : List Leg) : Prop :=
  ∀ s ∈ db.legs.rows, ∀ d ∈ db.legs.rows, Fill s d → Active d.status →
    s.status = .Refunded ∨ s ∈ batch ∧ ¬ Cascades s d → d ∈ batch

instance (db : CrossDb) (batch : List Leg) : Decidable (Covered db batch) :=
  inferInstanceAs (Decidable (∀ s ∈ db.legs.rows, ∀ d ∈ db.legs.rows, _))

/-- The database serves the statement, and no leg arrives for a fill of the given rows. -/
def Smooth (rows : List Leg) (m : Moment) : Prop :=
  m.turn.fate = .served ∧ ∀ a ∈ m.arrivals, ∀ l ∈ rows, l.fillId ≠ a.row.fillId

instance (rows : List Leg) (m : Moment) : Decidable (Smooth rows m) :=
  inferInstanceAs (Decidable (_ ∧ ∀ a ∈ m.arrivals, ∀ l ∈ rows, _))

/-! ## What a run makes of the rows -/

/-- The rows have the given statuses, and others have come of other fills. -/
structure Became (f : Leg → LegStatus) (db db' : CrossDb) : Prop where
  kept : ∀ r ∈ db.legs.rows, ∃ r' ∈ db'.legs.rows, r'.id = r.id ∧ slot r' = slot r ∧ r'.status = f r
  only : ∀ r' ∈ db'.legs.rows,
    (∃ r ∈ db.legs.rows, r'.id = r.id ∧ slot r' = slot r ∧ r'.status = f r) ∨
      r'.status = .Pending ∧ ∀ r ∈ db.legs.rows, r.fillId ≠ r'.fillId

section Became

variable {f g : Leg → LegStatus} {db b db' : CrossDb} {id : Uuid} {st : LegStatus} {m : Moment}

theorem Became.of_legs (h : db'.legs = db.legs) : Became (fun r => r.status) db db' := by
  refine ⟨fun r hr => ⟨r, ?_, rfl, rfl, rfl⟩, fun r hr => .inl ⟨r, ?_, rfl, rfl, rfl⟩⟩
  · rw [h]
    exact hr
  · rw [h] at hr
    exact hr

theorem Became.congr (h : Became f db b) (hlegs : db'.legs = b.legs)
    (hfg : ∀ r ∈ db.legs.rows, f r = g r) : Became g db db' := by
  refine ⟨fun r hr => ?_, fun r' hr' => ?_⟩
  · obtain ⟨r', hr', hid, hslot, hst⟩ := h.kept r hr
    exact ⟨r', hlegs ▸ hr', hid, hslot, hst.trans (hfg r hr)⟩
  · rcases h.only r' (hlegs ▸ hr') with ⟨r, hr, hid, hslot, hst⟩ | hnew
    · exact .inl ⟨r, hr, hid, hslot, hst.trans (hfg r hr)⟩
    · exact .inr hnew

theorem Became.arrive {a : Arrival} (h : Became f db b)
    (ha : ∀ l ∈ db.legs.rows, l.fillId ≠ a.row.fillId) : Became f db (b.arrive a) := by
  unfold CrossDb.arrive
  simp only [execLegStmt]
  split
  · split
    · next t ht =>
      refine ⟨fun r hr => ?_, fun r' hr' => ?_⟩
      · obtain ⟨r', hr', hrest⟩ := h.kept r hr
        exact ⟨r', (Table.mem_insert ht).2 (.inl hr'), hrest⟩
      · rcases (Table.mem_insert ht).1 hr' with hold | rfl
        · exact h.only r' hold
        · exact .inr ⟨a.status, ha⟩
    · exact h
  · exact h

theorem Became.before (h : Became f db b) (hm : Smooth db.legs.rows m) :
    Became f db (m.before b) := by
  obtain ⟨-, harr⟩ := hm
  unfold Moment.before
  generalize m.arrivals = arrivals at harr
  induction arrivals generalizing b with
  | nil => exact h
  | cons a as ih =>
    refine ih (h.arrive (harr a List.mem_cons_self)) fun a' ha' => ?_
    exact harr a' (List.mem_cons_of_mem _ ha')

/-- A status is written to one of the rows. -/
theorem Became.setTo (h : Became f db b) (hset : SetTo id st b db')
    (hrow : ∃ r ∈ db.legs.rows, r.id = id) :
    Became (fun r => if r.id = id then st else f r) db db' := by
  have hwritten : ∀ {r l l' : Leg}, l.id = r.id → l.status = f r → Becomes id st l l' →
      l'.status = if r.id = id then st else f r := by
    intro r l l' hid hst hb
    rw [hb.status, hid, hst]
  refine ⟨fun r hr => ?_, fun l' hl' => ?_⟩
  · obtain ⟨l, hl, hid, hslot, hst⟩ := h.kept r hr
    obtain ⟨l', hl', hb⟩ := hset.becomes l hl
    exact ⟨l', hl', hb.id.trans hid, hb.slot.trans hslot, hwritten hid hst hb⟩
  · obtain ⟨l, hl, hb⟩ := hset.was l' hl'
    rcases h.only l hl with ⟨r, hr, hid, hslot, hst⟩ | ⟨hpending, hnew⟩
    · exact .inl ⟨r, hr, hb.id.trans hid, hb.slot.trans hslot, hwritten hid hst hb⟩
    · -- a leg that has come since then has another id than the row
      have hother : l.id ≠ id := by
        intro hlid
        obtain ⟨r, hr, hrid⟩ := hrow
        obtain ⟨r', hr', hid, hslot, -⟩ := h.kept r hr
        have heq := b.eq_of_id hl hr' (by rw [hlid, hid, hrid])
        have hfill : r'.fillId = r.fillId := congrArg Prod.fst hslot
        exact hnew r hr (by rw [heq, hfill])
      have hfill : l'.fillId = l.fillId := congrArg Prod.fst hb.slot
      refine .inr ⟨?_, fun r hr => ?_⟩
      · rw [hb.status, if_neg hother]
        exact hpending
      · rw [hfill]
        exact hnew r hr

end Became

/-- What the refunds of the legs `done` make of a row. -/
def outcome (done : List Leg) (r : Leg) : LegStatus :=
  if r ∈ done ∨ ∃ s ∈ done, Fill s r ∧ Cascades s r then .Refunded else r.status

/-- The outcome with one more leg done, from what its refund and its cascade do. -/
theorem outcome_snoc {done : List Leg} {leg r : Leg} {st : LegStatus}
    (hrefunded : r = leg ∨ Fill leg r ∧ Cascades leg r → st = .Refunded)
    (hother : r ≠ leg → ¬ (Fill leg r ∧ Cascades leg r) → st = outcome done r) :
    st = outcome (done ++ [leg]) r := by
  by_cases hnew : r = leg ∨ Fill leg r ∧ Cascades leg r
  · rw [hrefunded hnew]
    unfold outcome
    rw [if_pos]
    rcases hnew with heq | hcascade
    · exact .inl (List.mem_append.2 (.inr (List.mem_singleton.2 heq)))
    · exact .inr ⟨leg, List.mem_append.2 (.inr (List.mem_singleton.2 rfl)), hcascade⟩
  · obtain ⟨hne, hno⟩ := not_or.1 hnew
    rw [hother hne hno]
    unfold outcome
    congr 1
    refine propext ⟨?_, ?_⟩
    · rintro (hr | ⟨s, hs, hcascade⟩)
      · exact .inl (List.mem_append.2 (.inl hr))
      · exact .inr ⟨s, List.mem_append.2 (.inl hs), hcascade⟩
    · rintro (hr | ⟨s, hs, hcascade⟩)
      · rcases List.mem_append.1 hr with hr | hr
        · exact .inl hr
        · exact absurd (List.mem_singleton.1 hr) hne
      · rcases List.mem_append.1 hs with hs | hs
        · exact .inr ⟨s, hs, hcascade⟩
        · rw [List.mem_singleton.1 hs] at hcascade
          exact absurd hcascade hno

/-- A row that is not refunded yet is as it was. -/
theorem outcome_ne {done : List Leg} {r : Leg} (h : outcome done r ≠ .Refunded) :
    outcome done r = r.status := by
  unfold outcome at h ⊢
  split at h
  · exact absurd rfl h
  · next hno => rw [if_neg hno]

theorem outcome_refunded {done : List Leg} {r : Leg} (h : outcome done r = .Refunded) :
    r ∈ done ∨ (∃ s ∈ done, Fill s r ∧ Cascades s r) ∨ r.status = .Refunded := by
  unfold outcome at h
  split at h
  · next hin =>
    rcases hin with hr | hs
    · exact .inl hr
    · exact .inr (.inl hs)
  · exact .inr (.inr h)

theorem Fill.unique_source {db : CrossDb} {s s' d : Leg} (hs : s ∈ db.legs.rows)
    (hs' : s' ∈ db.legs.rows) (h : Fill s d) (h' : Fill s' d) : s' = s := by
  refine db.eq_of_slot hs' hs ?_
  simp only [slot, h.1, h'.1, h.2.2, h'.2.2]

theorem Fill.unique_dest {db : CrossDb} {s d d' : Leg} (hd : d ∈ db.legs.rows)
    (hd' : d' ∈ db.legs.rows) (h : Fill s d) (h' : Fill s d') : d' = d := by
  refine db.eq_of_slot hd' hd ?_
  simp only [slot, h.2.1, h'.2.1, ← h.2.2, ← h'.2.2]

section Covered

variable {db db' : CrossDb} {batch : List Leg}

theorem Became.covered (h : Became (outcome batch) db db') (hbatch : ∀ l ∈ batch, l ∈ db.legs.rows)
    (hc : Cascaded db') : Covered db batch := by
  intro s hs d hd hfill hactive hsource
  by_contra hnot
  obtain ⟨s', hs', -, hslot, hst⟩ := h.kept s hs
  obtain ⟨d', hd', -, hslot', hst'⟩ := h.kept d hd
  have hrefunded : s'.status = .Refunded := by
    rw [hst]
    unfold outcome
    rcases hsource with href | ⟨hmem, -⟩
    · rw [href, ite_self]
    · rw [if_pos (.inl hmem)]
  have hsame : d'.status = d.status := by
    rw [hst']
    unfold outcome
    rw [if_neg]
    rintro (hmem | ⟨s₀, hs₀, hfill₀, hcascade⟩)
    · exact hnot hmem
    · rw [hfill.unique_source hs (hbatch s₀ hs₀) hfill₀] at hcascade
      rcases hsource with href | ⟨-, hno⟩
      · rw [hcascade.1] at href
        cases href
      · exact hno hcascade
  exact hc s' hs' d' hd' (hfill.of_slot hslot.symm hslot'.symm) hrefunded (hsame ▸ hactive)

theorem Became.cascaded (h : Became (outcome batch) db db') (hcov : Covered db batch) :
    Cascaded db' := by
  intro s' hs' d' hd' hfill href hactive
  -- both rows were there at the query
  obtain ⟨s, hs, -, hslot, hst⟩ : ∃ r ∈ db.legs.rows, s'.id = r.id ∧ slot s' = slot r ∧
      s'.status = outcome batch r := by
    rcases h.only s' hs' with hold | ⟨hpending, -⟩
    · exact hold
    · rw [hpending] at href
      cases href
  obtain ⟨d, hd, -, hslot', hst'⟩ : ∃ r ∈ db.legs.rows, d'.id = r.id ∧ slot d' = slot r ∧
      d'.status = outcome batch r := by
    rcases h.only d' hd' with hold | ⟨-, hnew⟩
    · exact hold
    · have hfillId : s'.fillId = s.fillId := congrArg Prod.fst hslot
      exact absurd (hfillId.symm.trans hfill.2.2) (hnew s hs)
  have hfill := hfill.of_slot hslot hslot'
  rw [hst'] at hactive
  have hsame := outcome_ne hactive.1
  have hnot : d ∉ batch ∧ ¬ ∃ s₀ ∈ batch, Fill s₀ d ∧ Cascades s₀ d := by
    refine not_or.1 fun hin => hactive.1 ?_
    unfold outcome
    exact if_pos hin
  rw [hst] at href
  rw [hsame] at hactive
  refine hnot.1 (hcov s hs d hd hfill hactive ?_)
  rcases outcome_refunded href with hmem | ⟨s₀, -, hfill₀, -⟩ | hst
  · exact .inr ⟨hmem, fun hcascade => hnot.2 ⟨s, hmem, hfill, hcascade⟩⟩
  · have hindex := hfill₀.2.1
    rw [hfill.1] at hindex
    cases hindex
  · exact .inl hst

/-- **The cascade after a run**: it is complete if and only if the batch covers it. -/
theorem Became.cascaded_iff (h : Became (outcome batch) db db')
    (hbatch : ∀ l ∈ batch, l ∈ db.legs.rows) : Cascaded db' ↔ Covered db batch :=
  ⟨h.covered hbatch, h.cascaded⟩

end Covered

/-! ## The loop -/

/-- The condition at an act. -/
def Served (rows : List Leg) : CrossAct → List Moment → CrossDb → Prop
  | _, m :: _, _ => Smooth rows m
  | _, [], _ => True

section Loop

variable {f : Leg → LegStatus} {db s : CrossDb} {id : Uuid} {ns : List Moment} {done : List Leg}
  {leg : Leg}

theorem lasts_refundLeg (h : Became f db s) (hrow : ∃ r ∈ db.legs.rows, r.id = id) :
    Prog.Lasts execCross (Served db.legs.rows) (fun _ => True)
      (fun r s' => r = .ok () ∧ Became (fun r => if r.id = id then .Refunded else f r) db s')
      (refundLeg id).run ns s := by
  have hexec : ∀ n : Moment, Smooth db.legs.rows n →
      (∃ k, k ≠ 0 ∧ (execCross n (.sql (.setStatus id .Refunded none (some "Timeout refund"))) s).1
        = .ok k) ∧
      Became (fun r => if r.id = id then .Refunded else f r) db
        (execCross n (.sql (.setStatus id .Refunded none (some "Timeout refund"))) s).2 := by
    intro n hn
    have hb := h.before hn
    rcases exec_setStatus n id .Refunded none (some "Timeout refund") s with ⟨hf, -⟩ | ⟨hset, hans⟩
    · rw [hn.1] at hf
      cases hf
    · refine ⟨hans hn.1 ?_, hb.setTo hset hrow⟩
      obtain ⟨r, hr, hid⟩ := hrow
      obtain ⟨r', hr', hid', -⟩ := hb.kept r hr
      exact ⟨r', hr', hid'.trans hid⟩
  refine Call.lasts_op (fun _ => trivial) (fun n ns' rows _ hC hr => ?_) fun n ns' e _ hC hr => ?_
  · obtain ⟨⟨k, hk, hok⟩, hb⟩ := hexec n hC
    rw [hr] at hok
    cases hok
    unfold Call.failIf
    rw [if_neg hk]
    exact ⟨rfl, hb⟩
  · obtain ⟨⟨k, -, hok⟩, -⟩ := hexec n hC
    rw [hr] at hok
    cases hok

theorem lasts_settlementOf (h : Became f db s) (fillId : Uuid) :
    Prog.Lasts execCross (Served db.legs.rows) (fun _ => True)
      (fun r s' => Became f db s' ∧ ∃ x, r = .ok x ∧ Settles s' fillId x) (getSettlement fillId).run
      ns s := by
  refine Prog.lasts_bind (lasts_read (v := fun scan db => fillRows scan db fillId) (fun _ _ => rfl)
    (fun scan a b hlegs => ?_) trivial (fun n ns' s' hC hlegs _ ns'' => ?_)
    fun n ns' e s' hC hf _ => absurd hC.1 hf)
  · unfold fillRows
    rw [hlegs]
  · exact ⟨(h.before hC).congr hlegs fun _ _ => rfl, _, rfl, settles_fromLegs n.scan s' fillId⟩

/-- The leg itself is refunded, and there is nothing left for its cascade. -/
theorem Became.no_cascade (hleg : leg ∈ db.legs.rows)
    (h : Became (fun r => if r.id = leg.id then .Refunded else outcome done r) db s)
    (hno : ∀ r ∈ db.legs.rows, Fill leg r → Cascades leg r → outcome done r = .Refunded) :
    Became (outcome (done ++ [leg])) db s := by
  refine h.congr rfl fun r hr => outcome_snoc ?_ fun hne _ => ?_
  · rintro (heq | ⟨hfill, hcascade⟩)
    · exact if_pos (by rw [heq])
    · rw [hno r hr hfill hcascade, ite_self]
  · exact if_neg fun hid => hne (db.eq_of_id hr hleg hid)

/-- The leg itself is refunded, and then the destination of its fill. -/
theorem Became.cascade {dest : Leg} (hleg : leg ∈ db.legs.rows) (hdest : dest ∈ db.legs.rows)
    (hfill : Fill leg dest) (hcascade : Cascades leg dest)
    (h : Became (fun r => if r.id = dest.id then .Refunded else
      if r.id = leg.id then .Refunded else outcome done r) db s) :
    Became (outcome (done ++ [leg])) db s := by
  refine h.congr rfl fun r hr => outcome_snoc ?_ fun hne hno => ?_
  · rintro (heq | ⟨hfill', -⟩)
    · rw [heq, if_pos (rfl : leg.id = leg.id), ite_self]
    · rw [hfill.unique_dest hdest hr hfill', if_pos rfl]
  · have hdestId : r.id ≠ dest.id := by
      intro hid
      rw [db.eq_of_id hr hdest hid] at hno
      exact hno ⟨hfill, hcascade⟩
    rw [if_neg hdestId, if_neg fun hid => hne (db.eq_of_id hr hleg hid)]

/-- The source leg is there, so what `get_settlement` misses is the destination. -/
theorem Became.no_destination (hleg : leg ∈ db.legs.rows) (h : Became f db s)
    (hx : Settles s leg.fillId none) {r : Leg} (hr : r ∈ db.legs.rows) : ¬ Fill leg r := by
  intro hfill
  obtain ⟨l', hl', -, hslot, -⟩ := h.kept leg hleg
  obtain ⟨r', hr', -, hslot', -⟩ := h.kept r hr
  rcases hx with hx | hx
  · exact hx l' hl' (hslot.trans (Prod.ext rfl hfill.1))
  · exact hx r' hr' (hslot'.trans (Prod.ext hfill.2.2.symm hfill.2.1))

/-- The destination that `get_settlement` finds was there at the query. -/
theorem Became.destination (hleg : leg ∈ db.legs.rows) (hsource : leg.legIndex = 0) (h : Became f db s)
    {x : CrossChainSettlement} (hx : Settles s leg.fillId (some x)) :
    ∃ r ∈ db.legs.rows, Fill leg r ∧ x.destinationLeg.id = r.id ∧ x.destinationLeg.status = f r := by
  obtain ⟨-, hdest, hslot⟩ := hx
  rcases h.only _ hdest with ⟨r, hr, hid, hslot', hst⟩ | ⟨-, hnew⟩
  · have hrow := hslot'.symm.trans hslot
    exact ⟨r, hr, ⟨hsource, congrArg Prod.snd hrow, (congrArg Prod.fst hrow).symm⟩, hid, hst⟩
  · exact absurd (congrArg Prod.fst hslot).symm (hnew leg hleg)

/-- The leg itself is refunded, and its cascade does the rest. -/
theorem lasts_cascade (hleg : leg ∈ db.legs.rows)
    (h : Became (fun r => if r.id = leg.id then .Refunded else outcome done r) db s) :
    Prog.Lasts execCross (Served db.legs.rows) (fun _ => True)
      (fun _ s' => Became (outcome (done ++ [leg])) db s') (cascade leg) ns s := by
  unfold cascade
  split
  · next hsource =>
    refine Prog.lasts_bind ((lasts_settlementOf h leg.fillId).mono ?_)
    rintro _ s' ⟨h', x, rfl, hx⟩ ns'
    cases x with
    | none => exact h'.no_cascade hleg fun r hr hfill _ => absurd hfill (h'.no_destination hleg hx hr)
    | some x =>
      obtain ⟨dest, hdest, hfill, hid, hst⟩ := h'.destination hleg hsource.1 hx
      rw [if_neg fun hid => hfill.dest_ne (db.eq_of_id hdest hleg hid)] at hst
      dsimp only
      split
      · next hactive =>
        have hcascade : Cascades leg dest := by
          have hsame : outcome done dest = dest.status := by
            apply outcome_ne
            rw [← hst]
            rcases hactive with hst | hst <;> rw [hst] <;> nofun
          rw [hst, hsame] at hactive
          exact ⟨hsource.2, hactive⟩
        refine Prog.lasts_bind ((lasts_refundLeg h' ⟨dest, hdest, hid.symm⟩).mono ?_)
        rintro _ s'' ⟨-, h''⟩ ns''
        rw [hid] at h''
        exact h''.cascade hleg hdest hfill hcascade
      · next hinactive =>
        refine h'.no_cascade hleg fun r hr hfill' hcascade => ?_
        rw [hfill.unique_dest hdest hr hfill'] at hcascade ⊢
        by_contra href
        rw [hst, outcome_ne href] at hinactive
        exact hinactive hcascade.2
  · next hno =>
    exact h.no_cascade hleg fun r _ hfill hcascade => absurd ⟨hfill.1, hcascade.1⟩ hno

theorem lasts_timeoutOne (hleg : leg ∈ db.legs.rows) (h : Became (outcome done) db s) :
    Prog.Lasts execCross (Served db.legs.rows) (fun _ => True)
      (fun _ s' => Became (outcome (done ++ [leg])) db s') (timeoutOne leg) ns s := by
  refine Prog.lasts_bind ((lasts_refundLeg h ⟨leg, hleg, rfl⟩).mono ?_)
  rintro _ s' ⟨rfl, h'⟩ ns'
  exact Prog.lasts_bind ((lasts_cascade hleg h').mono fun _ _ h'' _ => h'')

theorem lasts_batch {batch : List Leg} (hbatch : ∀ l ∈ batch, l ∈ db.legs.rows)
    (h : s.legs = db.legs) :
    Prog.Lasts execCross (Served db.legs.rows) (fun _ => True)
      (fun _ s' => Became (outcome batch) db s') (Prog.forEach timeoutOne batch) ns s := by
  have hloop : Prog.Lasts execCross (Served db.legs.rows) (fun _ => True)
      (fun _ s' => ∃ done, done ++ [] = batch ∧ Became (outcome done) db s')
      (Prog.forEach timeoutOne batch) ns s := by
    refine Prog.lasts_forEach (J := fun ls s => ∃ done, done ++ ls = batch ∧ Became (outcome done) db s)
      ?_ ⟨[], rfl, ?_⟩
    · rintro leg ls ns s ⟨done, hdone, hb⟩
      have hleg : leg ∈ db.legs.rows := by
        refine hbatch leg ?_
        rw [← hdone]
        exact List.mem_append.2 (.inr List.mem_cons_self)
      refine (lasts_timeoutOne hleg hb).mono fun _ s' h' => ⟨done ++ [leg], ?_, h'⟩
      rw [List.append_assoc]
      exact hdone
    · refine (Became.of_legs h).congr rfl fun r _ => ?_
      unfold outcome
      rw [if_neg]
      simp
  refine hloop.mono ?_
  rintro _ s' ⟨done, hdone, h'⟩
  rw [List.append_nil] at hdone
  exact hdone ▸ h'

end Loop

/-! ## A run -/

/-- The first two acts of a run read the clock and the batch. -/
theorem play_processTimeouts (clock : Moment) {query : Moment} (rest : List Moment) (db : CrossDb)
    (hquery : query.turn.fate = .served) :
    ∃ s : CrossDb, s.legs = (metBy clock query db).legs ∧
      Prog.play execCross processTimeouts (clock :: query :: rest) db =
        Prog.play execCross (Prog.forEach timeoutOne (timedOut clock query db)) rest s := by
  have hans : (execCross query (.sql (.selectTimedOut (clock.before db).clock))
      (execCross clock .now db).2).1 = .ok (timedOut clock query db) := by
    simp only [execCross, serveAct, serveStmt, hquery, execLegStmt, Call.mapError_ok]
    rfl
  have hfind : Prog.play execCross findTimedOutLegs.run (clock :: query :: rest) db =
      (some (.ok (timedOut clock query db), rest), (execCross query
        (.sql (.selectTimedOut (clock.before db).clock)) (execCross clock .now db).2).2) := by
    show (some (Except.mapError _ (execCross query (.sql (.selectTimedOut (clock.before db).clock))
      (execCross clock .now db).2).1, rest), _) = _
    rw [hans]
    rfl
  refine ⟨_, ?_, Prog.play_bind hfind⟩
  simp only [execCross, serveAct, serveStmt, hquery, execLegStmt, metBy]

/-- **The cascade of a run is complete if and only if its batch covers it.**  For every table of legs
and every run of `process_timeouts` whose statements are served, while no leg arrives for a fill that
is in the table already. -/
theorem cascaded_iff_covered (db : CrossDb) (clock query : Moment) (rest : List Moment)
    (hquery : query.turn.fate = .served)
    (hrest : ∀ m ∈ rest, Smooth (metBy clock query db).legs.rows m)
    (hrun : (Prog.play execCross processTimeouts (clock :: query :: rest) db).1.isSome = true) :
    Cascaded (Prog.play execCross processTimeouts (clock :: query :: rest) db).2 ↔
      Covered (metBy clock query db) (timedOut clock query db) := by
  obtain ⟨s, hlegs, hplay⟩ := play_processTimeouts clock rest db hquery
  have hbatch : ∀ l ∈ timedOut clock query db, l ∈ (metBy clock query db).legs.rows :=
    fun l hl => (mem_select hl).1
  rw [hplay] at hrun ⊢
  obtain ⟨⟨n, left⟩, hx⟩ := Option.isSome_iff_exists.1 hrun
  have hend := (lasts_batch hbatch hlegs).result (Prog.along_of_forall (fun _ _ _ _ hm => hm) hrest) hx
  exact hend.cascaded_iff hbatch

/-- An escrowed source leg and its pending destination, more than ten minutes later. -/
def overdueDb : CrossDb :=
  demoLegRun [(1, demoMoments 3 ++ [.quiet (demoTurn .served 600000001)])]

/-- The first `n` acts of a run of `process_timeouts` in which everything works. -/
def timeoutLife (n : Nat) : List Moment := List.replicate n (.quiet (demoTurn .served 1))

theorem demo_cascaded :
    statuses overdueDb = [(10, .Escrowed), (11, .Pending)] ∧
    statuses (Prog.play execCross processTimeouts (timeoutLife 6) overdueDb).2 =
      [(10, .Refunded), (11, .Refunded)] ∧
    Cascaded (Prog.play execCross processTimeouts (timeoutLife 6) overdueDb).2 :=
  ⟨by decide +kernel, by decide +kernel,
    (cascaded_iff_covered overdueDb (.quiet (demoTurn .served 1)) (.quiet (demoTurn .served 1))
      (timeoutLife 4) rfl (by decide +kernel) (by decide +kernel)).2 (by decide +kernel)⟩

/-- 26 fills at once, on a route that no bridge supports; ten minutes pass. -/
def crowdedDb : CrossDb :=
  Prog.lives execCross (crossChainWorker [])
    [(1, [⟨(List.range 26).map (fun i => ⟨.source, i, { demoSettlement with fillId := i }, 0⟩) ++
        (List.range 26).map (fun i => ⟨.dest, 100 + i, { demoSettlement with fillId := i }, 0⟩),
      .inOrder, demoTurn .served 600000001⟩])] (.start [(1, .Matched)] 0)

/-- The query answers 50 of the 52 overdue legs, so two destination legs stay pending. -/
theorem crowded_not_cascaded :
    (Prog.play execCross processTimeouts (timeoutLife 52) crowdedDb).1.isSome = true ∧
    (24, .Refunded) ∈ statuses (Prog.play execCross processTimeouts (timeoutLife 52) crowdedDb).2 ∧
    (124, .Pending) ∈ statuses (Prog.play execCross processTimeouts (timeoutLife 52) crowdedDb).2 ∧
    ¬ Cascaded (Prog.play execCross processTimeouts (timeoutLife 52) crowdedDb).2 := by
  decide +kernel

end IntentX.CrossChain
