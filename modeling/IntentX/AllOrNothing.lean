import IntentX.BridgeOnce

/-!
# All or nothing

A fill must not end with funds on one side only: released on the destination chain and refunded on
the source chain, or confirmed on the source chain and failed or refunded on the destination chain.

The worker does not see to it.  It releases while the source leg is only escrowed, it refunds what is
overdue whether it was released or not, it confirms a source whose destination has failed, and a
failed release leaves a confirmed source behind.  `Timely` is the condition that none of these comes
to pass.  Each write of a status then meets what `Allowed` asks of it, which keeps `Sound`.
-/

namespace IntentX.CrossChain

open Lib

/-! ## The property -/

/-- The source and the destination leg of a fill. -/
def Fill (s d : Leg) : Prop := s.legIndex = 0 ∧ d.legIndex = 1 ∧ s.fillId = d.fillId

instance (s d : Leg) : Decidable (Fill s d) := inferInstanceAs (Decidable (_ ∧ _ ∧ _))

structure AllOrNothing (db : CrossDb) : Prop where
  /-- what was released is not refunded on the source chain -/
  unrefunded : ∀ s ∈ db.legs.rows, ∀ d ∈ db.legs.rows, Fill s d → d.id ∈ releasedLegs db.calls →
    s.status ≠ .Refunded
  /-- what is confirmed on the source chain has not failed on the other -/
  delivered : ∀ s ∈ db.legs.rows, ∀ d ∈ db.legs.rows, Fill s d → s.status = .Confirmed →
    d.status ≠ .Failed ∧ d.status ≠ .Refunded
  kept : ∀ d ∈ db.legs.rows, d.legIndex = 1 → d.id ∈ releasedLegs db.calls → d.status ≠ .Refunded

/-! ## The condition -/

/-- The source leg of the fill is not confirmed, and the destination leg was not released. -/
def Untied (db : CrossDb) (fillId : Uuid) : Prop :=
  ∀ l ∈ db.legs.rows, l.fillId = fillId → (l.legIndex = 0 → l.status ≠ .Confirmed) ∧
    (l.legIndex = 1 → l.id ∉ releasedLegs db.calls)

/-- The destination of the source leg has neither failed nor been refunded. -/
def Deliverable (db : CrossDb) (sourceId : Uuid) : Prop :=
  ∀ s ∈ db.legs.rows, s.id = sourceId → ∀ d ∈ db.legs.rows, Fill s d →
    d.status ≠ .Failed ∧ d.status ≠ .Refunded

/-- The source of the destination leg is not confirmed. -/
def Unconfirmed (db : CrossDb) (destId : Uuid) : Prop :=
  ∀ d ∈ db.legs.rows, d.id = destId → ∀ s ∈ db.legs.rows, Fill s d → s.status ≠ .Confirmed

/-- The answers of `verify_lock` on which the source leg is confirmed. -/
def verified : Except BridgeError BridgeStatus → Bool
  | .ok (.Completed _) | .ok (.InTransit _) => true
  | _ => false

/-- No leg is overdue once its fill is tied to one of its sides, no lock is verified after its
destination has failed, and no release fails after its source is confirmed. -/
def Timely : CrossAct → List Moment → CrossDb → Prop
  | .sql (.selectTimedOut now), m :: _, db =>
    ∀ l ∈ (m.before db).legs.rows, isTimedOut now l = true → Untied (m.before db) l.fillId
  | .verifyLock id txHash, m :: _, db =>
    verified (m.turn.verify txHash) = true → Deliverable (m.before db) id
  | .releaseFunds id params msg, m :: _, db =>
    (∃ e, m.turn.release params msg = .error e) → Unconfirmed (m.before db) id
  | _, _, _ => True

instance (db : CrossDb) (fillId : Uuid) : Decidable (Untied db fillId) :=
  inferInstanceAs (Decidable (∀ l ∈ db.legs.rows, _))

instance (db : CrossDb) (id : Uuid) : Decidable (Deliverable db id) :=
  inferInstanceAs (Decidable (∀ s ∈ db.legs.rows, _ → ∀ d ∈ db.legs.rows, _))

instance (db : CrossDb) (id : Uuid) : Decidable (Unconfirmed db id) :=
  inferInstanceAs (Decidable (∀ d ∈ db.legs.rows, _ → ∀ s ∈ db.legs.rows, _))

instance : (o : CrossAct) → (ns : List Moment) → (db : CrossDb) → Decidable (Timely o ns db)
  | .now, _, _ | .lockFunds .., _, _ => isTrue trivial
  | .verifyLock .., [], _ | .releaseFunds .., [], _ | .sql (.selectTimedOut _), [], _ => isTrue trivial
  | .verifyLock id txHash, m :: _, db =>
    inferInstanceAs (Decidable (verified (m.turn.verify txHash) = true → Deliverable (m.before db) id))
  | .releaseFunds id params msg, m :: _, db =>
    inferInstanceAs (Decidable ((∃ e, m.turn.release params msg = .error e) →
      Unconfirmed (m.before db) id))
  | .sql (.selectTimedOut now), m :: _, db =>
    inferInstanceAs (Decidable (∀ l ∈ (m.before db).legs.rows, isTimedOut now l = true →
      Untied (m.before db) l.fillId))
  | .sql (.insertLeg _), _, _ | .sql (.setStatus ..), _, _ | .sql (.setConfirmedAt _), _, _
  | .sql (.selectByFill _), _, _ | .sql .selectPendingSources, _, _
  | .sql .selectEscrowedSources, _, _ | .sql .selectReadyDestinations, _, _
  | .sql .selectConfirmedFills, _, _ | .sql (.completeIntent _), _, _ => isTrue trivial

/-! ## What a write must not do -/

def Allowed (db : CrossDb) (id : Uuid) : LegStatus → Prop
  | .Refunded => ∀ l ∈ db.legs.rows, l.id = id → Untied db l.fillId
  | .Confirmed => Deliverable db id
  | .Failed => Unconfirmed db id
  | _ => True

structure Sound (db : CrossDb) : Prop extends AllOrNothing db where
  /-- a released leg is in the table, so no new leg takes its id -/
  known : ∀ id ∈ releasedLegs db.calls, Present db id

section Sound

variable {db b db' : CrossDb} {id : Uuid} {st : LegStatus} {s d s' d' : Leg}

theorem Fill.of_slot (hs : slot s' = slot s) (hd : slot d' = slot d) (h : Fill s' d') : Fill s d := by
  simp only [slot, Prod.mk.injEq] at hs hd
  obtain ⟨hsi, hdi, hf⟩ := h
  exact ⟨hs.2 ▸ hsi, hd.2 ▸ hdi, hs.1 ▸ hd.1 ▸ hf⟩

theorem Fill.dest_ne {s d : Leg} (h : Fill s d) : d ≠ s := by
  rintro rfl
  have hindex := h.1
  rw [h.2.1] at hindex
  cases hindex

/-- A row that others have left behind: it was there, or it is pending and was not released. -/
theorem Waits.origin (h : Waits db db') {l' : Leg} (hl' : l' ∈ db'.legs.rows) :
    (∃ l ∈ db.legs.rows, Alike l l') ∨ l'.status = .Pending ∧ ¬ Present db l'.id := by
  rcases h.fresh l' hl' with hold | ⟨⟨a, ha⟩, hnew⟩
  · exact .inl hold
  · refine .inr ⟨ha.status.trans a.status, ?_⟩
    rintro ⟨l, hl, hid⟩
    exact (hnew l hl).1 hid

theorem Waits.origin_of_present (h : Waits db db') {l' : Leg} (hl' : l' ∈ db'.legs.rows)
    (hp : Present db l'.id) : ∃ l ∈ db.legs.rows, Alike l l' := by
  rcases h.origin hl' with hold | ⟨-, hnew⟩
  · exact hold
  · exact absurd hp hnew

theorem Sound.waits (hs : Sound db) (h : Waits db db') : Sound db' := by
  have hknown : ∀ id ∈ releasedLegs db'.calls, Present db id := by
    rw [h.calls]
    exact hs.known
  refine ⟨⟨?_, ?_, ?_⟩, fun id hid => h.present id (hknown id hid)⟩
  · intro s' hs' d' hd' hfill hrel
    obtain ⟨d, hd, had⟩ := h.origin_of_present hd' (hknown _ hrel)
    rcases h.origin hs' with ⟨s, hsrow, has⟩ | ⟨hpending, -⟩
    · rw [has.status]
      rw [h.calls, had.id] at hrel
      exact hs.unrefunded s hsrow d hd (hfill.of_slot has.slot had.slot) hrel
    · rw [hpending]
      nofun
  · intro s' hs' d' hd' hfill hst
    rcases h.origin hs' with ⟨s, hsrow, has⟩ | ⟨hpending, -⟩
    · rcases h.origin hd' with ⟨d, hd, had⟩ | ⟨hpending, -⟩
      · rw [has.status] at hst
        rw [had.status]
        exact hs.delivered s hsrow d hd (hfill.of_slot has.slot had.slot) hst
      · rw [hpending]
        exact ⟨nofun, nofun⟩
    · rw [hpending] at hst
      cases hst
  · intro d' hd' hindex hrel
    obtain ⟨d, hd, had⟩ := h.origin_of_present hd' (hknown _ hrel)
    have hdi : d'.legIndex = d.legIndex := congrArg Prod.snd had.slot
    rw [had.status]
    rw [h.calls, had.id] at hrel
    exact hs.kept d hd (hdi ▸ hindex) hrel

theorem Becomes.written {l l' : Leg} (h : Becomes id st l l') :
    l.id = id ∧ l'.status = st ∨ l.id ≠ id ∧ l'.status = l.status := by
  by_cases hid : l.id = id
  · exact .inl ⟨hid, h.status.trans (if_pos hid)⟩
  · exact .inr ⟨hid, h.status.trans (if_neg hid)⟩

/-- A write that is allowed. -/
theorem Sound.setTo (hs : Sound db) (h : SetTo id st db db') (hok : Allowed db id st) : Sound db' := by
  refine ⟨⟨?_, ?_, ?_⟩, fun k hk => ?_⟩
  · intro s' hs' d' hd' hfill hrel hst
    obtain ⟨s, hsrow, hbs⟩ := h.was s' hs'
    obtain ⟨d, hd, hbd⟩ := h.was d' hd'
    have hfill := hfill.of_slot hbs.slot hbd.slot
    rw [h.calls, hbd.id] at hrel
    rcases hbs.written with ⟨hid, hw⟩ | ⟨-, hw⟩
    · rw [hw] at hst
      subst hst
      exact (hok s hsrow hid d hd hfill.2.2.symm).2 hfill.2.1 hrel
    · rw [hw] at hst
      exact hs.unrefunded s hsrow d hd hfill hrel hst
  · intro s' hs' d' hd' hfill hst
    obtain ⟨s, hsrow, hbs⟩ := h.was s' hs'
    obtain ⟨d, hd, hbd⟩ := h.was d' hd'
    have hfill := hfill.of_slot hbs.slot hbd.slot
    rcases hbs.written with ⟨hid, hw⟩ | ⟨-, hw⟩
    · rw [hw] at hst
      subst hst
      -- the source leg is written, so the destination leg is not
      have hother : d.id ≠ id := fun hdid => hfill.dest_ne (db.eq_of_id hd hsrow (hdid.trans hid.symm))
      rw [hbd.status, if_neg hother]
      exact hok s hsrow hid d hd hfill
    · rw [hw] at hst
      rcases hbd.written with ⟨hid, hw'⟩ | ⟨-, hw'⟩
      · rw [hw']
        constructor
        · rintro rfl
          exact hok d hd hid s hsrow hfill hst
        · rintro rfl
          exact (hok d hd hid s hsrow hfill.2.2).1 hfill.1 hst
      · rw [hw']
        exact hs.delivered s hsrow d hd hfill hst
  · intro d' hd' hindex hrel hst
    obtain ⟨d, hd, hbd⟩ := h.was d' hd'
    have hdi : d'.legIndex = d.legIndex := congrArg Prod.snd hbd.slot
    rw [h.calls, hbd.id] at hrel
    rcases hbd.written with ⟨hid, hw⟩ | ⟨-, hw⟩
    · rw [hw] at hst
      subst hst
      exact (hok d hd hid d hd rfl).2 (hdi ▸ hindex) hrel
    · rw [hw] at hst
      exact hs.kept d hd (hdi ▸ hindex) hrel hst
  · rw [h.calls] at hk
    exact h.present k (hs.known k hk)

/-- Nothing but calls that released nothing. -/
theorem Sound.congr (hs : Sound db) (hlegs : db'.legs = db.legs)
    (hrel : releasedLegs db'.calls = releasedLegs db.calls) : Sound db' := by
  obtain ⟨⟨hunrefunded, hdelivered, hkept⟩, hknown⟩ := hs
  refine ⟨⟨?_, ?_, ?_⟩, ?_⟩
  · rw [hlegs, hrel]
    exact hunrefunded
  · rw [hlegs]
    exact hdelivered
  · rw [hlegs, hrel]
    exact hkept
  · unfold Present
    rw [hlegs, hrel]
    exact hknown

/-- The leg is there, and nothing of its fill is refunded on its side or the source's. -/
def Live (db : CrossDb) (id : Uuid) : Prop :=
  Present db id ∧ ∀ d ∈ db.legs.rows, d.id = id → d.status ≠ .Refunded ∧
    ∀ s ∈ db.legs.rows, Fill s d → s.status ≠ .Refunded

/-- A release that succeeds. -/
theorem Sound.released (hs : Sound b) (hlegs : db'.legs = b.legs)
    (hrel : releasedLegs db'.calls = id :: releasedLegs b.calls) (hlive : Live b id) : Sound db' := by
  refine ⟨⟨?_, ?_, ?_⟩, ?_⟩
  · rw [hlegs, hrel]
    intro s hsrow d hd hfill hmem
    rcases List.mem_cons.1 hmem with hid | hmem
    · exact (hlive.2 d hd hid).2 s hsrow hfill
    · exact hs.unrefunded s hsrow d hd hfill hmem
  · rw [hlegs]
    exact hs.delivered
  · rw [hlegs, hrel]
    intro d hd hindex hmem
    rcases List.mem_cons.1 hmem with hid | hmem
    · exact (hlive.2 d hd hid).1
    · exact hs.kept d hd hindex hmem
  · unfold Present
    rw [hlegs, hrel]
    intro k hk
    rcases List.mem_cons.1 hk with rfl | hk
    · exact hlive.1
    · exact hs.known k hk

/-! ### What lasts while others insert legs and other legs are written -/

theorem Untied.waits {f : Uuid} (hs : Sound db) (h : Waits db db') (hu : Untied db f) :
    Untied db' f := by
  intro l' hl' hf
  rcases h.origin hl' with ⟨l, hl, ha⟩ | ⟨hpending, hnew⟩
  · have hfill : l'.fillId = l.fillId := congrArg Prod.fst ha.slot
    have hindex : l'.legIndex = l.legIndex := congrArg Prod.snd ha.slot
    rw [ha.status, hindex, ha.id, h.calls]
    exact hu l hl (hfill ▸ hf)
  · refine ⟨fun _ => ?_, fun _ hrel => ?_⟩
    · rw [hpending]
      nofun
    · rw [h.calls] at hrel
      exact hnew (hs.known _ hrel)

theorem Untied.setTo {f : Uuid} (h : SetTo id st db db') (hst : st ≠ .Confirmed) (hu : Untied db f) :
    Untied db' f := by
  intro l' hl' hf
  obtain ⟨l, hl, hb⟩ := h.was l' hl'
  have hfill : l'.fillId = l.fillId := congrArg Prod.fst hb.slot
  have hindex : l'.legIndex = l.legIndex := congrArg Prod.snd hb.slot
  obtain ⟨hsource, hdest⟩ := hu l hl (hfill ▸ hf)
  rw [hindex, hb.id, h.calls]
  refine ⟨fun hzero => ?_, hdest⟩
  rcases hb.written with ⟨-, hw⟩ | ⟨-, hw⟩
  · rw [hw]
    exact hst
  · rw [hw]
    exact hsource hzero

theorem Deliverable.waits (h : Waits db db') (hp : Present db id) (hd : Deliverable db id) :
    Deliverable db' id := by
  intro s' hs' hid d' hd' hfill
  obtain ⟨s, hsrow, has⟩ := h.origin_of_present hs' (hid ▸ hp)
  rcases h.origin hd' with ⟨d, hdrow, had⟩ | ⟨hpending, -⟩
  · rw [had.status]
    exact hd s hsrow (has.id ▸ hid) d hdrow (hfill.of_slot has.slot had.slot)
  · rw [hpending]
    exact ⟨nofun, nofun⟩

theorem Unconfirmed.waits (h : Waits db db') (hp : Present db id) (hu : Unconfirmed db id) :
    Unconfirmed db' id := by
  intro d' hd' hid s' hs' hfill
  obtain ⟨d, hdrow, had⟩ := h.origin_of_present hd' (hid ▸ hp)
  rcases h.origin hs' with ⟨s, hsrow, has⟩ | ⟨hpending, -⟩
  · rw [has.status]
    exact hu d hdrow (had.id ▸ hid) s hsrow (hfill.of_slot has.slot had.slot)
  · rw [hpending]
    nofun

theorem Live.waits (h : Waits db db') (hl : Live db id) : Live db' id := by
  refine ⟨h.present id hl.1, fun d' hd' hid => ?_⟩
  obtain ⟨d, hdrow, had⟩ := h.origin_of_present hd' (hid ▸ hl.1)
  obtain ⟨hdest, hsource⟩ := hl.2 d hdrow (had.id ▸ hid)
  refine ⟨had.status ▸ hdest, fun s' hs' hfill => ?_⟩
  rcases h.origin hs' with ⟨s, hsrow, has⟩ | ⟨hpending, -⟩
  · rw [has.status]
    exact hsource s hsrow (hfill.of_slot has.slot had.slot)
  · rw [hpending]
    nofun

theorem Live.setTo {k : Uuid} (h : SetTo k st db db') (hst : st ≠ .Refunded) (hl : Live db id) :
    Live db' id := by
  have hkeep : ∀ {l l' : Leg}, Becomes k st l l' → l.status ≠ .Refunded → l'.status ≠ .Refunded := by
    intro l l' hb hl
    rcases hb.written with ⟨-, hw⟩ | ⟨-, hw⟩ <;> rw [hw]
    · exact hst
    · exact hl
  refine ⟨h.present id hl.1, fun d' hd' hid => ?_⟩
  obtain ⟨d, hdrow, hbd⟩ := h.was d' hd'
  obtain ⟨hdest, hsource⟩ := hl.2 d hdrow (hbd.id ▸ hid)
  refine ⟨hkeep hbd hdest, fun s' hs' hfill => ?_⟩
  obtain ⟨s, hsrow, hbs⟩ := h.was s' hs'
  exact hkeep hbs (hsource s hsrow (hfill.of_slot hbs.slot hbd.slot))

/-- The id is that of a source leg. -/
def IsSource (db : CrossDb) (id : Uuid) : Prop := ∃ l ∈ db.legs.rows, l.id = id ∧ l.legIndex = 0

theorem IsSource.present (h : IsSource db id) : Present db id := by
  obtain ⟨l, hl, hid, -⟩ := h
  exact ⟨l, hl, hid⟩

theorem IsSource.waits (h : Waits db db') (hs : IsSource db id) : IsSource db' id := by
  obtain ⟨l, hl, hid, hindex⟩ := hs
  obtain ⟨l', hl', ha⟩ := h.keeps l hl
  exact ⟨l', hl', ha.id.trans hid, (congrArg Prod.snd ha.slot).trans hindex⟩

theorem IsSource.setTo {k : Uuid} (h : SetTo k st db db') (hs : IsSource db id) : IsSource db' id := by
  obtain ⟨l, hl, hid, hindex⟩ := hs
  obtain ⟨l', hl', hb⟩ := h.becomes l hl
  exact ⟨l', hl', hb.id.trans hid, (congrArg Prod.snd hb.slot).trans hindex⟩

/-- A source leg may fail at any time. -/
theorem IsSource.unconfirmed (h : IsSource db id) : Unconfirmed db id := by
  intro d hd hid s hs hfill
  obtain ⟨l, hl, hlid, hindex⟩ := h
  have heq := db.eq_of_id hl hd (hlid.trans hid.symm)
  rw [heq, hfill.2.1] at hindex
  cases hindex

/-- The id is that of a leg of the fill, and the fill is untied. -/
def Loose (db : CrossDb) (id fillId : Uuid) : Prop :=
  (∃ l ∈ db.legs.rows, l.id = id ∧ l.fillId = fillId) ∧ Untied db fillId

theorem Loose.waits {f : Uuid} (hs : Sound db) (h : Waits db db') (hl : Loose db id f) :
    Loose db' id f := by
  obtain ⟨⟨l, hrow, hid, hfill⟩, hu⟩ := hl
  obtain ⟨l', hl', ha⟩ := h.keeps l hrow
  exact ⟨⟨l', hl', ha.id.trans hid, (congrArg Prod.fst ha.slot).trans hfill⟩, hu.waits hs h⟩

theorem Loose.setTo {f k : Uuid} (h : SetTo k st db db') (hst : st ≠ .Confirmed)
    (hl : Loose db id f) : Loose db' id f := by
  obtain ⟨⟨l, hrow, hid, hfill⟩, hu⟩ := hl
  obtain ⟨l', hl', hb⟩ := h.becomes l hrow
  exact ⟨⟨l', hl', hb.id.trans hid, (congrArg Prod.fst hb.slot).trans hfill⟩, hu.setTo h hst⟩

theorem Loose.allowed {f : Uuid} (h : Loose db id f) : Allowed db id .Refunded := by
  obtain ⟨⟨l, hl, hid, rfl⟩, hu⟩ := h
  intro r hr hrid
  rw [db.eq_of_id hr hl (hrid.trans hid.symm)]
  exact hu

end Sound

/-! ## The loops -/

/-- `P` of the legs a loop has left. -/
structure Loop (P : CrossDb → Leg → Prop) (ls : List Leg) (db : CrossDb) : Prop where
  sound : Sound db
  each : ∀ l ∈ ls, P db l

/-- `P` outlives the legs of others and writes of the status `st`. -/
structure Stable (P : CrossDb → Leg → Prop) (st : LegStatus) : Prop where
  waits : ∀ {db db' l}, Sound db → Waits db db' → P db l → P db' l
  setTo : ∀ {id db db' l}, SetTo id st db db' → P db l → P db' l

theorem stable_isSource (st : LegStatus) : Stable (fun db l => IsSource db l.id) st :=
  ⟨fun _ => IsSource.waits, IsSource.setTo⟩

theorem stable_live {st : LegStatus} (h : st ≠ .Refunded) : Stable (fun db l => Live db l.id) st :=
  ⟨fun _ => Live.waits, fun hset => Live.setTo hset h⟩

theorem stable_loose {st : LegStatus} (h : st ≠ .Confirmed) :
    Stable (fun db l => Loose db l.id l.fillId) st :=
  ⟨Loose.waits, fun hset => Loose.setTo hset h⟩

section Loop

variable {P : CrossDb → Leg → Prop} {st : LegStatus} {db db' s : CrossDb} {leg : Leg} {ls : List Leg}
  {bridges : BridgeRegistry} {ns : List Moment} {id : Uuid} {txHash error : Option String}

theorem Loop.tail (h : Loop P (leg :: ls) db) : Loop P ls db :=
  ⟨h.sound, fun l hl => h.each l (List.mem_cons_of_mem _ hl)⟩

theorem Loop.waits (hP : Stable P st) (h : Loop P ls db) (hw : Waits db db') : Loop P ls db' :=
  ⟨h.sound.waits hw, fun l hl => hP.waits h.sound hw (h.each l hl)⟩

theorem Loop.setTo (hP : Stable P st) (h : Loop P ls db) (hset : SetTo id st db db')
    (hok : Allowed db id st) : Loop P ls db' :=
  ⟨h.sound.setTo hset hok, fun l hl => hP.setTo hset (h.each l hl)⟩

/-- A write that is allowed whatever others insert before it. -/
theorem lasts_write (hP : Stable P st) (h : Loop P ls s) (hok : ∀ b, Waits s b → Allowed b id st) :
    Prog.Lasts execCross Timely Sound (fun _ s' => Loop P ls s')
      (updateLegStatus id st txHash error).run ns s := by
  refine lasts_updateLegStatus (fun _ => h.sound) ?_ ?_
  · exact fun n ns' b s' r _ _ hw hset _ => (h.waits hP hw).setTo hP hset (hok b hw)
  · exact fun n ns' e s' _ _ _ hw => h.waits hP hw

theorem sound_lockOne (h : Loop (fun db l => IsSource db l.id) (leg :: ls) s) :
    Prog.Lasts execCross Timely Sound (fun _ s' => Loop (fun db l => IsSource db l.id) ls s')
      (lockOne bridges leg) ns s := by
  have hP := stable_isSource
  -- a lock releases nothing
  have hcalled : ∀ {r s₁ s₂}, Waits s s₁ → Called (.lock leg.id r) s₁ s₂ →
      Loop (fun db l => IsSource db l.id) (leg :: ls) s₂ := by
    intro r s₁ s₂ hw hc
    have h₁ := h.waits (hP .Failed) hw
    obtain ⟨b, hwb, hlegs⟩ := hc.waits
    refine ⟨(h₁.sound.waits hwb).congr hlegs ?_, fun l hl => ?_⟩
    · rw [hc.calls, hwb.calls]
      rfl
    · unfold IsSource
      rw [hlegs]
      exact (h₁.each l hl).waits hwb
  refine lasts_locking (fun s' hw => h.sound.waits hw) (fun s' hw => (h.waits (hP .Failed) hw).tail) ?_ ?_
  · intro n ns' s₁ s₂ params receipt hw _ hc
    exact lasts_write (hP .Escrowed) (hcalled hw hc).tail fun _ _ => trivial
  · intro n ns' s₁ s₂ params e text hw _ hc
    refine lasts_write (hP .Failed) (hcalled hw hc).tail fun b hwb => ?_
    exact (((hcalled hw hc).each leg List.mem_cons_self).waits hwb).unconfirmed

theorem sound_verifyOne (h : Loop (fun db l => IsSource db l.id) (leg :: ls) s) :
    Prog.Lasts execCross Timely Sound (fun _ s' => Loop (fun db l => IsSource db l.id) ls s')
      (verifyOne bridges leg) ns s := by
  have hP := stable_isSource
  unfold verifyOne
  cases leg.txHash with
  | none => exact h.tail
  | some tx =>
    refine lasts_settled (fun _ => rfl) rfl h.sound (fun s' hw => (h.waits (hP .Failed) hw).tail)
      fun st s' ns' hw _ => ?_
    have h' := h.waits (hP .Failed) hw
    dsimp only
    cases bridges.find leg.chain st.destinationLeg.chain with
    | error e => exact h'.tail
    | ok b =>
      refine Prog.lasts_call (fun _ => h'.sound) fun n ns'' _ hC => ?_
      have h₁ := h'.waits (hP .Failed) (waits_exec_reads n (reads_verifyLock leg.id tx) s')
      have hC₁ : verified (n.turn.verify tx) = true →
        Deliverable (execCross n (.verifyLock leg.id tx) s').2 leg.id := hC
      rcases hx : execCross n (.verifyLock leg.id tx) s' with ⟨r, s₁⟩
      rw [hx] at h₁ hC₁
      have hr : (n.turn.verify tx).mapError .bridge = r := congrArg Prod.fst hx
      subst hr
      have hsource : IsSource s₁ leg.id := h₁.each leg List.mem_cons_self
      have hconfirm : verified (n.turn.verify tx) = true → Prog.Lasts execCross Timely Sound
          (fun _ s' => Loop (fun db l => IsSource db l.id) ls s') (succeeded (confirmLeg leg.id))
          ns'' s₁ := by
        intro hv
        refine lasts_succeeded (lasts_confirmLeg (fun _ _ hw hl => hl.waits (hP .Failed) hw)
          (fun _ hl => hl.sound) h₁.tail fun m ms b s₂ _ hwb hset => ?_)
        exact (h₁.tail.waits (hP .Failed) hwb).setTo (hP .Confirmed) hset
          ((hC₁ hv).waits hwb hsource.present)
      cases hv : n.turn.verify tx with
      | error e => exact h₁.tail
      | ok answer =>
        rw [hv] at hconfirm
        cases answer with
        | Pending => exact h₁.tail
        | InTransit messageId => exact hconfirm rfl
        | Completed destTx => exact hconfirm rfl
        | Failed reason =>
          refine lasts_ignored (lasts_write (hP .Failed) h₁.tail fun b hwb => ?_)
          exact (hsource.waits hwb).unconfirmed

theorem sound_releaseOne (h : Loop (fun db l => Live db l.id) (leg :: ls) s) :
    Prog.Lasts execCross Timely Sound (fun _ s' => Loop (fun db l => Live db l.id) ls s')
      (releaseOne bridges leg) ns s := by
  have hP : Stable (fun db l => Live db l.id) .Failed := stable_live nofun
  have hlive : ∀ {b s₂}, Waits s b → s₂.legs = b.legs → ∀ l ∈ leg :: ls, Live s₂ l.id := by
    intro b s₂ hwb hlegs l hl
    unfold Live Present
    rw [hlegs]
    exact (h.each l hl).waits hwb
  refine lasts_releasing (fun s' hw => h.sound.waits hw) (fun s' hw => (h.waits hP hw).tail) ?_ ?_
  · intro n ns' s₁ s₂ params msg tx hw _ _ hc
    obtain ⟨b, hwb, hlegs⟩ := hc.waits
    have hwb' := hw.trans hwb
    have h₂ : Loop (fun db l => Live db l.id) (leg :: ls) s₂ := by
      refine ⟨(h.sound.waits hwb').released hlegs ?_ ((h.each leg List.mem_cons_self).waits hwb'),
        hlive hwb' hlegs⟩
      rw [hc.calls, hwb.calls]
      rfl
    exact lasts_write (stable_live nofun) h₂.tail fun _ _ => trivial
  · intro n ns' s₁ s₂ params msg e text hw hC hrel hlegs hc
    have hwb := hw.trans (waits_before n s₁)
    have h₂ : Loop (fun db l => Live db l.id) (leg :: ls) s₂ := by
      refine ⟨(h.sound.waits hwb).congr hlegs ?_, hlive hwb hlegs⟩
      rw [hc.calls, (waits_before n s₁).calls]
      rfl
    have hfailed : Unconfirmed s₂ leg.id := by
      unfold Unconfirmed
      rw [hlegs]
      exact hC ⟨e, hrel⟩
    refine lasts_write hP h₂.tail fun b hw₂ => ?_
    exact hfailed.waits hw₂ (h₂.each leg List.mem_cons_self).1

theorem sound_cascade (h : Loop (fun db l => Loose db l.id l.fillId) (leg :: ls) s) :
    Prog.Lasts execCross Timely Sound (fun _ s' => Loop (fun db l => Loose db l.id l.fillId) ls s')
      (cascade leg) ns s := by
  have hP : Stable (fun db l => Loose db l.id l.fillId) .Refunded := stable_loose nofun
  unfold cascade
  split
  · refine lasts_settled (fun _ => rfl) rfl h.sound (fun s' hw => (h.waits hP hw).tail)
      fun st s' ns' hw hx => ?_
    have h' := h.waits hP hw
    dsimp only
    split
    · -- the destination leg is of the same fill, so it is as loose as the source leg
      have hdest : Loose s' st.destinationLeg.id leg.fillId :=
        ⟨⟨_, hx.2.1, rfl, congrArg Prod.fst hx.2.2⟩, (h'.each leg List.mem_cons_self).2⟩
      refine Prog.lasts_bind ((lasts_write hP h'.tail fun b hwb => ?_).mono fun _ _ hl _ => hl)
      exact (hdest.waits h'.sound hwb).allowed
    · exact h'.tail
  · exact h.tail

theorem sound_timeoutOne (h : Loop (fun db l => Loose db l.id l.fillId) (leg :: ls) s) :
    Prog.Lasts execCross Timely Sound (fun _ s' => Loop (fun db l => Loose db l.id l.fillId) ls s')
      (timeoutOne leg) ns s := by
  have hP : Stable (fun db l => Loose db l.id l.fillId) .Refunded := stable_loose nofun
  refine Prog.lasts_bind ((lasts_write hP h fun b hwb => ?_).mono fun r s' h' ns' => ?_)
  · exact ((h.each leg List.mem_cons_self).waits h.sound hwb).allowed
  · cases r with
    | error e => exact h'.tail
    | ok _ => exact Prog.lasts_bind ((sound_cascade h').mono fun _ _ hl _ => hl)

end Loop

/-! ## The worker -/

section Worker

variable {bridges : BridgeRegistry} {ns : List Moment} {s : CrossDb}

theorem loop_sources {scan : Scan} {p : Leg → Bool} {key : Leg → Int} (hs : Sound s)
    (hp : ∀ l, p l = true → l.legIndex = 0) :
    Loop (fun db l => IsSource db l.id) (s.select scan p key) s := by
  refine ⟨hs, fun l hl => ?_⟩
  obtain ⟨hrow, hpl⟩ := mem_select hl
  exact ⟨l, hrow, rfl, hp l hpl⟩

theorem sound_lockPendingSources (hs : Sound s) :
    Prog.Lasts execCross Timely Sound (fun _ s' => Sound s') (lockPendingSources bridges) ns s := by
  refine lasts_legPhase (lasts_findPendingSourceLegs hs (fun scan s' hw => ?_) fun s' => hs.waits)
    (fun leg ls ns s => sound_lockOne) fun s' h => h.sound
  refine loop_sources (hs.waits hw) fun l hl => ?_
  exact eq_of_beq (Bool.and_eq_true_iff.1 hl).1

theorem sound_verifyEscrowed (hs : Sound s) :
    Prog.Lasts execCross Timely Sound (fun _ s' => Sound s') (verifyEscrowed bridges) ns s := by
  refine lasts_legPhase (lasts_findEscrowedSourceLegs hs (fun scan s' hw => ?_) fun s' => hs.waits)
    (fun leg ls ns s => sound_verifyOne) fun s' h => h.sound
  refine loop_sources (hs.waits hw) fun l hl => ?_
  exact eq_of_beq (Bool.and_eq_true_iff.1 hl).1

/-- A leg of the query is pending, and its source is escrowed or confirmed. -/
theorem live_of_ready {scan : Scan} {key : Leg → Int} {l : Leg}
    (hl : l ∈ s.select scan (isReadyDestination s) key) : Live s l.id := by
  obtain ⟨hrow, hready⟩ := mem_select hl
  obtain ⟨hdest, hsource⟩ := Bool.and_eq_true_iff.1 hready
  obtain ⟨src, hsrc, hjoin⟩ := List.any_eq_true.1 hsource
  obtain ⟨hslot, hst⟩ := Bool.and_eq_true_iff.1 hjoin
  obtain ⟨hfill, hindex⟩ := Bool.and_eq_true_iff.1 hslot
  refine ⟨⟨l, hrow, rfl⟩, fun d hd hid => ?_⟩
  rw [s.eq_of_id hd hrow hid]
  constructor
  · rw [eq_of_beq (Bool.and_eq_true_iff.1 hdest).2]
    nofun
  · intro s' hs' hpair
    have heq : s' = src := by
      refine s.eq_of_slot hs' hsrc ?_
      simp only [slot, hpair.1, hpair.2.2, eq_of_beq hfill, eq_of_beq hindex]
    rw [heq]
    rcases Bool.or_eq_true_iff.1 hst with hst | hst <;> rw [eq_of_beq hst] <;> nofun

theorem sound_releaseDestinations (hs : Sound s) :
    Prog.Lasts execCross Timely Sound (fun _ s' => Sound s') (releaseDestinations bridges) ns s := by
  refine lasts_legPhase (lasts_findReadyDestinationLegs hs (fun scan s' hw => ?_) fun s' => hs.waits)
    (fun leg ls ns s => sound_releaseOne) fun s' h => h.sound
  exact ⟨hs.waits hw, fun l hl => live_of_ready hl⟩

theorem sound_processTimeouts (hs : Sound s) :
    Prog.Lasts execCross Timely Sound (fun _ s' => Sound s') processTimeouts ns s := by
  refine lasts_legPhase (lasts_findTimedOutLegs (fun s' => hs.waits)
    (fun now n ns' s₁ s' hw hC hlegs hw' => ?_) fun s' => hs.waits)
    (fun leg ls ns s => sound_timeoutOne) fun s' h => h.sound
  refine ⟨(hs.waits hw).waits hw', fun l hl => ?_⟩
  obtain ⟨hrow, hdue⟩ := mem_select hl
  have hcalls : s'.calls = (n.before s₁).calls := hw'.calls.trans (waits_before n s₁).calls.symm
  refine ⟨⟨l, hrow, rfl, rfl⟩, ?_⟩
  unfold Untied
  rw [hlegs] at hrow ⊢
  rw [hcalls]
  exact hC l hrow hdue

/-- The worker keeps every fill sound, wherever it crashes. -/
theorem sound_crossChainWorker (rounds : Nat) (hs : Sound s) :
    Prog.Lasts execCross Timely Sound (fun _ s' => Sound s') (crossChainWorker bridges rounds) ns s := by
  have hidle : ∀ {α : Type} {p : CrossProg α} {ns s}, p.Issues Idle → Sound s →
      Prog.Lasts execCross Timely Sound (fun _ s' => Sound s') p ns s := fun hp hs =>
    Prog.lasts_of_issues (fun o ho n _ s _ hs => hs.waits (waits_exec_idle n ho s)) hp hs
  have hgauge : updateGauge.Issues Idle := updateGauge_issues trivial (fun _ => trivial) trivial
  induction rounds generalizing ns s with
  | zero => exact hs
  | succ k ih =>
    refine Prog.lasts_bind ((sound_lockPendingSources hs).mono fun _ s₁ hs₁ ns₁ => ?_)
    refine Prog.lasts_bind ((sound_verifyEscrowed hs₁).mono fun _ s₂ hs₂ ns₂ => ?_)
    refine Prog.lasts_bind ((sound_releaseDestinations hs₂).mono fun _ s₃ hs₃ ns₃ => ?_)
    refine Prog.lasts_bind ((sound_processTimeouts hs₃).mono fun _ s₄ hs₄ ns₄ => ?_)
    refine Prog.lasts_bind ((hidle finalizeCompleted_issues hs₄).mono fun _ s₅ hs₅ ns₅ => ?_)
    exact Prog.lasts_bind ((hidle hgauge hs₅).mono fun _ s₆ hs₆ ns₆ => ih hs₆)

theorem sound_start (intents : List (Uuid × IntentStatus)) (clock : Int) :
    Sound (.start intents clock) := by
  have hrows : ∀ l : Leg, l ∉ (CrossDb.start intents clock).legs.rows := fun l hl => nomatch hl
  exact ⟨⟨fun s hs => absurd hs (hrows s), fun s hs => absurd hs (hrows s), fun d hd =>
    absurd hd (hrows d)⟩, fun _ hid => nomatch hid⟩

end Worker

/-- **Cross-chain settlement is all or nothing when it is timely.**  For every run of the worker from
an empty table, with any legs arriving, any answers of the bridges and of the database, and any
crashes and restarts: when every act is `Timely`, every fill is settled on both sides or on neither.
A life may be cut at any act, so this holds in every state of a run. -/
theorem timely_all_or_nothing (bridges : BridgeRegistry) (intents : List (Uuid × IntentStatus))
    (clock : Int) (lives : List (Nat × List Moment))
    (hlives : Prog.AlongLives execCross Timely (crossChainWorker bridges) lives (.start intents clock)) :
    AllOrNothing (Prog.lives execCross (crossChainWorker bridges) lives (.start intents clock)) :=
  (Prog.lives_keep (fun rounds _ _ hs => sound_crossChainWorker rounds hs) hlives
    (sound_start intents clock)).toAllOrNothing

def statuses (db : CrossDb) : List (Uuid × LegStatus) := db.legs.rows.map fun l => (l.id, l.status)

/-- The fill of the demo goes through. -/
theorem demo_all_or_nothing :
    (statuses (demoLegRun [(1, demoMoments 5), (1, demoMoments 17)]) =
        [(10, .Confirmed), (11, .Executing)] ∧
      releasedLegs (demoLegRun [(1, demoMoments 5), (1, demoMoments 17)]).calls = [11]) ∧
    AllOrNothing (demoLegRun [(1, demoMoments 5), (1, demoMoments 17)]) :=
  ⟨by decide +kernel, timely_all_or_nothing _ _ _ _ (by decide +kernel)⟩

/-- The lock is not verified in time; more than ten minutes pass after the release. -/
def lateLife : List Moment :=
  ((demoMoments 10).map fun m => { m with turn := { m.turn with verify := fun _ => .ok .Pending } }) ++
    .quiet (demoTurn .served 600000001) :: List.replicate 8 (.quiet (demoTurn .served 1))

/-- `n` acts; the lock is verified, and the release fails. -/
def failedLife (n : Nat) : List Moment :=
  (demoMoments n).map fun m =>
    { m with turn := { m.turn with release := fun _ _ => .error (.ReleaseFailed "rejected") } }

/-- Released and refunded on both sides; and in another run confirmed on one side and failed on the
other, with a source that was never refunded. -/
theorem funds_on_one_side :
    (releasedLegs (demoLegRun [(1, lateLife)]).calls = [11] ∧
      statuses (demoLegRun [(1, lateLife)]) = [(10, .Refunded), (11, .Refunded)]) ∧
    (statuses (demoLegRun [(1, failedLife 19)]) = [(10, .Confirmed), (11, .Failed)] ∧
      ∀ n < 20, (10, .Refunded) ∉ statuses (demoLegRun [(1, failedLife n)])) ∧
    ¬ AllOrNothing (demoLegRun [(1, lateLife)]) ∧ ¬ AllOrNothing (demoLegRun [(1, failedLife 19)]) := by
  refine ⟨by decide +kernel, by decide +kernel, fun h => ?_, fun h => ?_⟩
  · have hkept : ∀ d ∈ (demoLegRun [(1, lateLife)]).legs.rows, d.legIndex = 1 →
      d.id ∈ releasedLegs (demoLegRun [(1, lateLife)]).calls → d.status ≠ .Refunded := h.kept
    revert hkept
    decide +kernel
  · have hdelivered : ∀ s ∈ (demoLegRun [(1, failedLife 19)]).legs.rows,
      ∀ d ∈ (demoLegRun [(1, failedLife 19)]).legs.rows, Fill s d → s.status = .Confirmed →
        d.status ≠ .Failed ∧ d.status ≠ .Refunded := h.delivered
    revert hdelivered
    decide +kernel

end IntentX.CrossChain
