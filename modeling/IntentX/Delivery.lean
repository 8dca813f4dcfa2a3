import IntentX.Streams

/-!
# Delivery of the event streams

`delivered_iff_lossless`: when the consumer has read everything there is, it has handled everything
that was published if and only if no step lost an event.  A crash loses what was read and not yet
handled (`crash_loses_entry`), for `subscribe` never asks for its pending entries.

Every event that was published is waiting, held by the running `subscribe`, handled, or lost, and
what is lost stays so (`StreamBus.Good.step`).
-/

namespace IntentX

open Lib

/-- The events that were read and not yet handled. -/
def Session.held : Session → List Item
  | .handling item rest => item :: rest
  | .acking _ rest => rest
  | _ => []

@[simp] theorem Session.held_batch (items : List Item) : (Session.batch items).held = items := by
  cases items <;> rfl

@[simp] theorem Session.held_ensuring (keys : List String) : (Session.ensuring keys).held = [] := by
  cases keys <;> rfl

section Run

variable (streams : List String) (group consumer : String)

/-- The step loses no event that was published on one of the streams: a crash, or an answer of
`XREADGROUP` that does not arrive, finds nothing read and not handled, and Redis forgets nothing
that the group has not been given. -/
def StreamBus.lossless (b : StreamBus) : BusStep → Bool
  | .publish stream _ _ trim =>
    !streams.contains stream ||
      (b.redis.forgotten group stream ((b.redis.stream stream).trims trim)).isEmpty
  | .next .lost =>
    match b.session with
    | .reading => (b.redis.xreadgroup group consumer streams).all fun x =>
        (parseXreadgroupResult x.1).isEmpty
    | _ => true
  | .crash => b.session.held.isEmpty
  | _ => true

/-- Every step of the run loses nothing. -/
def StreamBus.runLossless (b : StreamBus) : List BusStep → Bool
  | [] => true
  | x :: xs => b.lossless streams group consumer x &&
      (b.step streams group consumer x).runLossless xs

/-- `subscribe` waits for events, and there are none. -/
structure StreamBus.Idle (b : StreamBus) : Prop where
  reading : b.session = .reading
  empty : ∀ key ∈ streams, b.redis.undelivered group key = []

/-- What was published on the streams has been handled, or was read, or can be read. -/
def StreamBus.Complete (b : StreamBus) : Prop := ∀ p ∈ b.published, p.stream ∈ streams →
  p ∈ b.handled ∨ p ∈ b.session.held ∨ p ∈ b.redis.undelivered group p.stream

structure StreamBus.Good (b : StreamBus) : Prop where
  published : ∀ p ∈ b.published, p.id ≤ b.redis.lastId p.stream
  undelivered : ∀ key, ∀ p ∈ b.redis.undelivered group key, p ∈ b.published
  held : ∀ p ∈ b.session.held, p ∈ b.published ∧ p.stream ∈ streams ∧
    p.id ≤ b.redis.cursor group p.stream
  handled : ∀ p ∈ b.handled, p.id ≤ b.redis.cursor group p.stream
  nodup : (b.session.held ++ b.handled).Nodup

variable {streams group consumer} {b b' : StreamBus}

/-- What is waiting, held or handled is so in exactly one way. -/
theorem StreamBus.Good.held_not_handled (h : b.Good streams group) {p : Item} (hp : p ∈ b.session.held) :
    p ∉ b.handled ∧ p ∉ b.redis.undelivered group p.stream := by
  refine ⟨fun hh => (List.disjoint_of_nodup_append h.nodup) hp hh, fun hw => ?_⟩
  have hlt := Redis.cursor_lt hw
  have hle := (h.held p hp).2.2
  omega

theorem StreamBus.Good.undelivered_not_handled (h : b.Good streams group) {p : Item}
    (hp : p ∈ b.redis.undelivered group p.stream) : p ∉ b.handled ∧ p ∉ b.session.held := by
  have hlt := Redis.cursor_lt hp
  refine ⟨fun hh => ?_, fun hh => ?_⟩
  · have hle := h.handled p hh
    omega
  · have hle := (h.held p hh).2.2
    omega

/-- Steps that change nothing that counts. -/
theorem StreamBus.Good.quiet (h : b.Good streams group) (hq : Quiet group b.redis b'.redis)
    (hp : b'.published = b.published) (hh : b'.handled = b.handled)
    (hs : b'.session.held = b.session.held) :
    b'.Good streams group ∧ (b'.Complete streams group ↔ b.Complete streams group) := by
  constructor
  · constructor
    · rw [hp]
      exact fun p hmem => (h.published p hmem).trans (hq.lastId p.stream)
    · intro key p hmem
      rw [hq.undelivered] at hmem
      rw [hp]
      exact h.undelivered key p hmem
    · rw [hs, hp]
      intro p hmem
      rw [hq.cursor]
      exact h.held p hmem
    · rw [hh]
      intro p hmem
      rw [hq.cursor]
      exact h.handled p hmem
    · rw [hs, hh]
      exact h.nodup
  · unfold StreamBus.Complete
    simp only [hp, hh, hs, hq.undelivered]

/-! ### Publishing -/

section Publish

variable (b) (stream payload eventId : String) (trim : Nat)

/-- The event that `publish` adds. -/
def StreamBus.newItem : Item := ⟨stream, b.redis.lastId stream + 1, ⟨stream, payload, eventId⟩⟩

theorem StreamBus.publish_published : (b.publish stream payload eventId trim).published =
    b.newItem stream payload eventId :: b.published := rfl

theorem StreamBus.publish_cursor (key : String) :
    (b.publish stream payload eventId trim).redis.cursor group key = b.redis.cursor group key :=
  Redis.xadd_cursor _ _

theorem StreamBus.publish_lastId (key : String) :
    (b.publish stream payload eventId trim).redis.lastId key =
      if key = stream then b.redis.lastId stream + 1 else b.redis.lastId key :=
  Redis.xadd_lastId _ _

theorem StreamBus.publish_other {key : String} (h : key ≠ stream) :
    (b.publish stream payload eventId trim).redis.undelivered group key =
      b.redis.undelivered group key := Redis.xadd_undelivered_of_ne h _ _

theorem StreamBus.publish_split :
    b.redis.undelivered group stream ++ [b.newItem stream payload eventId] =
      b.redis.forgotten group stream ((b.redis.stream stream).trims trim) ++
        (b.publish stream payload eventId trim).redis.undelivered group stream := by
  have hevent : events stream [(b.redis.lastId stream + 1, publishFields stream payload eventId)] =
      [b.newItem stream payload eventId] := by
    simp [events, fieldsToEvent_publishFields, StreamBus.newItem]
  rw [← hevent]
  exact Redis.xadd_undelivered ((b.redis.stream stream).trims_le trim) _

/-- An event that waits was waiting before, or it is the new one. -/
theorem StreamBus.publish_back {key : String} {p : Item}
    (hp : p ∈ (b.publish stream payload eventId trim).redis.undelivered group key) :
    p ∈ b.redis.undelivered group key ∨ p = b.newItem stream payload eventId := by
  by_cases hkey : key = stream
  · subst hkey
    have hmem : p ∈ b.redis.undelivered group key ++ [b.newItem key payload eventId] := by
      rw [b.publish_split key payload eventId trim]
      exact List.mem_append_right _ hp
    simpa using hmem
  · rw [StreamBus.publish_other b stream payload eventId trim hkey] at hp
    exact .inl hp

variable {b}

theorem StreamBus.Good.newItem_new (h : b.Good streams group) :
    b.newItem stream payload eventId ∉ b.published := by
  intro hmem
  have hle := h.published _ hmem
  have hid : (b.newItem stream payload eventId).id =
      b.redis.lastId (b.newItem stream payload eventId).stream + 1 := rfl
  omega

theorem StreamBus.Good.publish (h : b.Good streams group) :
    (b.publish stream payload eventId trim).Good streams group := by
  constructor
  · intro p hp
    rw [StreamBus.publish_lastId]
    rcases List.mem_cons.1 hp with rfl | hp
    · rw [if_pos rfl]
      exact Nat.le_refl _
    · have hle := h.published p hp
      split
      · next hkey =>
        rw [hkey] at hle
        omega
      · exact hle
  · intro key p hp
    rw [StreamBus.publish_published]
    rcases b.publish_back stream payload eventId trim hp with hp | rfl
    · exact List.mem_cons_of_mem _ (h.undelivered key p hp)
    · exact List.mem_cons_self
  · intro p hp
    obtain ⟨hpub, hsub, hle⟩ := h.held p hp
    rw [StreamBus.publish_cursor]
    exact ⟨List.mem_cons_of_mem _ hpub, hsub, hle⟩
  · intro p hp
    rw [StreamBus.publish_cursor]
    exact h.handled p hp
  · exact h.nodup

/-- Nothing is forgotten that the group waits for. -/
theorem StreamBus.lossless_publish : b.lossless streams group consumer (.publish stream payload eventId trim)
      = true ↔ (stream ∈ streams →
      b.redis.forgotten group stream ((b.redis.stream stream).trims trim) = []) := by
  simp only [StreamBus.lossless, Bool.or_eq_true, Bool.not_eq_true', List.isEmpty_iff,
    List.contains_eq_mem, decide_eq_false_iff_not]
  exact imp_iff_not_or.symm

theorem StreamBus.Good.publish_complete (h : b.Good streams group) :
    (b.publish stream payload eventId trim).Complete streams group ↔ b.Complete streams group ∧
      b.lossless streams group consumer (.publish stream payload eventId trim) = true := by
  rw [StreamBus.lossless_publish]
  constructor
  · intro hc
    refine ⟨fun p hp hsub => ?_, fun hsub => List.eq_nil_iff_forall_not_mem.2 fun p hp => ?_⟩
    · refine (hc p (List.mem_cons_of_mem _ hp) hsub).imp id (Or.imp id fun hw => ?_)
      rcases b.publish_back stream payload eventId trim hw with hw | rfl
      · exact hw
      · exact absurd hp (h.newItem_new stream payload eventId)
    · obtain rfl := (mem_events hp).1
      have hw := Redis.undelivered_of_forgotten hp
      obtain ⟨hnot, hnot'⟩ := h.undelivered_not_handled hw
      rcases hc p (List.mem_cons_of_mem _ (h.undelivered _ p hw)) hsub with hmem | hmem | hmem
      · exact hnot hmem
      · exact hnot' hmem
      · exact Redis.forgotten_gone ((b.redis.stream _).trims_le trim) _ hp hmem
  · rintro ⟨hc, hloss⟩ p hp hsub
    have hkeep : p.stream = stream →
        p ∈ b.redis.undelivered group stream ++ [b.newItem stream payload eventId] →
        p ∈ (b.publish stream payload eventId trim).redis.undelivered group p.stream := by
      rintro rfl hmem
      rwa [b.publish_split _ payload eventId trim, hloss hsub, List.nil_append] at hmem
    rcases List.mem_cons.1 hp with rfl | hp
    · exact .inr (.inr (hkeep rfl (List.mem_append_right _ List.mem_cons_self)))
    · refine (hc p hp hsub).imp id (Or.imp id fun hw => ?_)
      by_cases hkey : p.stream = stream
      · exact hkeep hkey (List.mem_append_left _ (hkey ▸ hw))
      · rwa [b.publish_other stream payload eventId trim hkey]

end Publish

/-! ### The consumer -/

theorem StreamBus.Good.read (h : b.Good streams group) {batch : List Item} {r' : Redis}
    (hr : Reads group b.redis r' batch) (hkeys : ∀ p ∈ batch, p.stream ∈ streams) {s : Session}
    (hs : s.held.Sublist batch) : ({ b with redis := r', session := s } : StreamBus).Good streams group := by
  constructor
  · intro p hp
    rw [hr.lastId]
    exact h.published p hp
  · exact fun key p hp => h.undelivered key p (hr.rest key p hp)
  · intro p hp
    obtain ⟨hw, hle⟩ := hr.given p (hs.subset hp)
    exact ⟨h.undelivered _ p hw, hkeys p (hs.subset hp), hle⟩
  · exact fun p hp => (h.handled p hp).trans (hr.cursor p.stream)
  · refine (hr.nodup.sublist hs).append (List.nodup_append.1 h.nodup).2.1 fun p hp hp' => ?_
    exact (h.undelivered_not_handled (hr.given p (hs.subset hp)).1).1 hp'

/-- Reading is complete if and only if what was read is held. -/
theorem StreamBus.Good.read_complete (h : b.Good streams group) {batch : List Item} {r' : Redis}
    (hr : Reads group b.redis r' batch) (hkeys : ∀ p ∈ batch, p.stream ∈ streams)
    (hnone : b.session.held = []) {s : Session} (hs : s.held.Sublist batch) :
    ({ b with redis := r', session := s } : StreamBus).Complete streams group ↔
      b.Complete streams group ∧ ∀ p ∈ batch, p ∈ s.held := by
  constructor
  · intro hc
    refine ⟨fun p hp hsub => ?_, fun p hp => ?_⟩
    · rcases hc p hp hsub with hmem | hmem | hmem
      · exact .inl hmem
      · exact .inr (.inr (hr.given p (hs.subset hmem)).1)
      · exact .inr (.inr (hr.rest _ p hmem))
    · obtain ⟨hw, hle⟩ := hr.given p hp
      rcases hc p (h.undelivered _ p hw) (hkeys p hp) with hmem | hmem | hmem
      · exact absurd hmem (h.undelivered_not_handled hw).1
      · exact hmem
      · have hlt := Redis.cursor_lt hmem
        exact absurd hlt (not_lt.2 hle)
  · rintro ⟨hc, hheld⟩ p hp hsub
    rcases hc p hp hsub with hmem | hmem | hmem
    · exact .inl hmem
    · rw [hnone] at hmem
      cases hmem
    · exact .inr ((hr.split _ p hmem).imp (hheld p) id)

theorem StreamBus.Good.crash (h : b.Good streams group) :
    ({ b with session := .down } : StreamBus).Good streams group ∧
      (({ b with session := .down } : StreamBus).Complete streams group ↔
        b.Complete streams group ∧ b.session.held = []) := by
  refine ⟨⟨h.published, h.undelivered, nofun, h.handled, (List.nodup_append.1 h.nodup).2.1⟩, ?_, ?_⟩
  · intro hc
    refine ⟨fun p hp hsub => ?_, List.eq_nil_iff_forall_not_mem.2 fun p hp => ?_⟩
    · rcases hc p hp hsub with hmem | hmem | hmem
      · exact .inl hmem
      · cases hmem
      · exact .inr (.inr hmem)
    · obtain ⟨hpub, hsub, -⟩ := h.held p hp
      obtain ⟨hnot, hnot'⟩ := h.held_not_handled hp
      rcases hc p hpub hsub with hmem | hmem | hmem
      · exact hnot hmem
      · cases hmem
      · exact hnot' hmem
  · rintro ⟨hc, hnil⟩ p hp hsub
    rcases hc p hp hsub with hmem | hmem | hmem
    · exact .inl hmem
    · rw [hnil] at hmem
      cases hmem
    · exact .inr (.inr hmem)

theorem StreamBus.Good.handle (h : b.Good streams group) {item : Item} {rest : List Item}
    (hs : b.session = .handling item rest) :
    ({ b with handled := item :: b.handled, session := .acking item rest } : StreamBus).Good streams group ∧
      (({ b with handled := item :: b.handled, session := .acking item rest } : StreamBus).Complete streams
        group ↔ b.Complete streams group) := by
  have hheld : b.session.held = item :: rest := by rw [hs]; rfl
  have hgood := h.held
  rw [hheld] at hgood
  refine ⟨⟨h.published, h.undelivered, fun p hp => hgood p (List.mem_cons_of_mem _ hp), ?_, ?_⟩, ?_⟩
  · intro p hp
    rcases List.mem_cons.1 hp with rfl | hp
    · exact (hgood p List.mem_cons_self).2.2
    · exact h.handled p hp
  · have hnodup := h.nodup
    rw [hheld, List.cons_append] at hnodup
    exact List.perm_middle.nodup_iff.2 hnodup
  · refine forall_congr' fun p => forall_congr' fun _ => forall_congr' fun _ => ?_
    show p ∈ item :: b.handled ∨ p ∈ rest ∨ _ ↔ p ∈ b.handled ∨ p ∈ b.session.held ∨ _
    rw [hheld, List.mem_cons, List.mem_cons]
    tauto

/-- An `ensure_group` command, whatever becomes of it. -/
theorem StreamBus.Good.command (h : b.Good streams group) (fate : Fate) {r' : Redis} {s : Session}
    (hq : Quiet group b.redis r') (hnone : b.session.held = []) (hs : s.held = []) :
    (b.command fate r' s).Good streams group ∧
      ((b.command fate r' s).Complete streams group ↔ b.Complete streams group) := by
  cases fate with
  | served => exact h.quiet hq rfl rfl (hs.trans hnone.symm)
  | refused => exact h.quiet (.refl group _) rfl rfl hnone.symm
  | lost => exact h.quiet hq rfl rfl hnone.symm

/-- The entry of a new stream is no event. -/
theorem quiet_init (r : Redis) (key g : String) : Quiet g r (r.xadd key [("_init", "1")] 0) := by
  refine ⟨fun key' => ?_, fun key' => Redis.xadd_cursor _ _, fun key' => ?_⟩
  · rw [Redis.xadd_lastId]
    split
    · next h => rw [h]; exact Nat.le_succ _
    · exact Nat.le_refl _
  · by_cases h : key' = key
    · subst h
      have hsplit : r.undelivered g key' ++ events key' [(r.lastId key' + 1, [("_init", "1")])] = _ :=
        Redis.xadd_undelivered (Nat.zero_le _) _
      simpa [events, fieldsToEvent, Fields.get, List.lookup_cons, Redis.forgotten, Log.forgotten]
        using hsplit.symm
    · exact Redis.xadd_undelivered_of_ne h _ _

/-- `XREADGROUP` that is served hands over what it read; an answer that is lost loses it. -/
theorem StreamBus.Good.readCommand {result : List (String × List (Nat × Fields))} {r' : Redis}
    (h : b.Good streams group) (fate : Fate) (hs : b.session = .reading)
    (hread : b.redis.xreadgroup group consumer streams = some (result, r')) :
    (b.command fate r' (.batch (parseXreadgroupResult result))).Good streams group ∧
      ((b.command fate r' (.batch (parseXreadgroupResult result))).Complete streams group ↔
        b.Complete streams group ∧ b.lossless streams group consumer (.next fate) = true) := by
  have hnone : b.session.held = [] := by rw [hs]; rfl
  obtain ⟨hr, hkeys⟩ := reads_xreadgroup hread
  cases fate with
  | served =>
    have hsub : (Session.batch (parseXreadgroupResult result)).held.Sublist
        (parseXreadgroupResult result) := by simp
    refine ⟨h.read hr hkeys hsub, (h.read_complete hr hkeys hnone hsub).trans ?_⟩
    simp [StreamBus.lossless]
  | refused =>
    rw [and_iff_left (show b.lossless streams group consumer (.next .refused) = true from rfl)]
    exact h.quiet (.refl group _) rfl rfl hnone.symm
  | lost =>
    have hsub : Session.down.held.Sublist (parseXreadgroupResult result) := List.nil_sublist _
    refine ⟨h.read hr hkeys hsub, (h.read_complete hr hkeys hnone hsub).trans ?_⟩
    simp [StreamBus.lossless, hs, hread, Session.held, List.eq_nil_iff_forall_not_mem]

theorem StreamBus.Good.next (h : b.Good streams group) (fate : Fate) :
    (b.next streams group consumer fate).Good streams group ∧
      ((b.next streams group consumer fate).Complete streams group ↔ b.Complete streams group ∧
        b.lossless streams group consumer (.next fate) = true) := by
  have hkeep : ∀ {b' : StreamBus}, b.lossless streams group consumer (.next fate) = true →
      b'.Good streams group ∧ (b'.Complete streams group ↔ b.Complete streams group) →
      b'.Good streams group ∧ (b'.Complete streams group ↔ b.Complete streams group ∧
        b.lossless streams group consumer (.next fate) = true) := by
    intro b' hloss hstep
    rw [and_iff_left hloss]
    exact hstep
  -- away from `XREADGROUP` a command loses nothing
  have hloss : b.session ≠ .reading → b.lossless streams group consumer (.next fate) = true := by
    intro hne
    cases fate with
    | lost => simp only [StreamBus.lossless]
    | _ => rfl
  unfold StreamBus.next
  split
  · next hs => exact hkeep (hloss (by simp [hs])) ⟨h, Iff.rfl⟩
  · next key keys hs =>
    exact hkeep (hloss (by simp [hs])) (h.command fate (.refl group _) (by rw [hs]; rfl) rfl)
  · next key keys hs =>
    exact hkeep (hloss (by simp [hs])) (h.command fate (quiet_init _ _ _) (by rw [hs]; rfl) rfl)
  · next key keys hs =>
    refine hkeep (hloss (by simp [hs])) ?_
    exact h.command fate (quiet_xgroupCreate _ _ _) (by rw [hs]; rfl) (by simp)
  · next hs =>
    rcases hread : b.redis.xreadgroup group consumer streams with _ | ⟨result, r'⟩
    · have htrue : b.lossless streams group consumer (.next fate) = true := by
        cases fate <;> simp [StreamBus.lossless, hs, hread]
      exact hkeep htrue (h.quiet (.refl group _) rfl rfl (by rw [hs]; rfl))
    · exact h.readCommand fate hs hread
  · next item rest hs => exact hkeep (hloss (by simp [hs])) (h.handle hs)
  · next item rest hs =>
    have hheld : (Session.batch rest).held = b.session.held := by
      rw [hs, Session.held_batch]
      rfl
    refine hkeep (hloss (by simp [hs])) ?_
    split
    · exact h.quiet (.refl group _) rfl rfl hheld
    · exact h.quiet (quiet_xack _ _ _ _) rfl rfl hheld

theorem StreamBus.Good.step (h : b.Good streams group) (x : BusStep) :
    (b.step streams group consumer x).Good streams group ∧
      ((b.step streams group consumer x).Complete streams group ↔ b.Complete streams group ∧
        b.lossless streams group consumer x = true) := by
  cases x with
  | publish stream payload eventId trim =>
    exact ⟨h.publish stream payload eventId trim, h.publish_complete stream payload eventId trim⟩
  | subscribe =>
    rw [and_iff_left (show b.lossless streams group consumer .subscribe = true from rfl)]
    simp only [StreamBus.step]
    split
    · next hs => exact h.quiet (.refl group _) rfl rfl (by rw [hs, Session.held_ensuring]; rfl)
    · exact ⟨h, Iff.rfl⟩
  | next fate => exact h.next fate
  | crash =>
    obtain ⟨hgood, hiff⟩ := h.crash
    exact ⟨hgood, hiff.trans (by simp [StreamBus.lossless])⟩

/-- A run is complete if and only if no step of it loses an event. -/
theorem StreamBus.Good.run (h : b.Good streams group) (steps : List BusStep) :
    (b.run streams group consumer steps).Complete streams group ↔ b.Complete streams group ∧
      b.runLossless streams group consumer steps = true := by
  induction steps generalizing b with
  | nil => simp [StreamBus.run, StreamBus.runLossless]
  | cons x steps ih =>
    obtain ⟨hgood, hiff⟩ : _ ∧ ((b.step streams group consumer x).Complete streams group ↔ _) :=
      h.step x
    rw [show b.run streams group consumer (x :: steps) =
      (b.step streams group consumer x).run streams group consumer steps from rfl, ih hgood, hiff]
    simp [StreamBus.runLossless, and_assoc]

theorem StreamBus.Good.new : StreamBus.new.Good streams group := by
  refine ⟨nofun, fun key p hp => ?_, nofun, nofun, .nil⟩
  simp [StreamBus.new, Redis.undelivered, Redis.stream, Stream.empty, Log.empty, Log.after, events] at hp

variable (streams group consumer)

/-- **Everything is handled if and only if nothing was lost on the way.** -/
theorem delivered_iff_lossless (steps : List BusStep)
    (hidle : (StreamBus.new.run streams group consumer steps).Idle streams group) :
    (∀ p ∈ (StreamBus.new.run streams group consumer steps).published, p.stream ∈ streams →
      p ∈ (StreamBus.new.run streams group consumer steps).handled) ↔
    StreamBus.new.runLossless streams group consumer steps = true := by
  have hrun : (StreamBus.new.run streams group consumer steps).Complete streams group ↔ _ :=
    StreamBus.Good.new.run steps
  have hstart : StreamBus.new.Complete streams group := nofun
  rw [and_iff_right hstart] at hrun
  rw [← hrun]
  refine forall_congr' fun p => forall_congr' fun _ => forall_congr' fun hsub => ?_
  simp [hidle.reading, hidle.empty _ hsub, Session.held]

end Run

/-- Two events, one round of `subscribe`, and one more turn that finds nothing. -/
def calmSteps : List BusStep :=
  [.publish "stream:execution.completed" "a" "1" 0, .publish "stream:execution.completed" "b" "2" 0,
    .subscribe] ++ List.replicate 8 (.next .served)

theorem calm_delivered :
    (StreamBus.new.run ["stream:execution.completed"] "settlement-worker" "worker-1" calmSteps).handled.map
      (·.event.payload) = ["b", "a"] ∧
    ∀ p ∈ (StreamBus.new.run ["stream:execution.completed"] "settlement-worker" "worker-1"
      calmSteps).published, p.stream ∈ ["stream:execution.completed"] →
      p ∈ (StreamBus.new.run ["stream:execution.completed"] "settlement-worker" "worker-1"
        calmSteps).handled := by
  refine ⟨by decide +kernel, (delivered_iff_lossless _ _ _ calmSteps ⟨by rfl, ?_⟩).2 (by decide +kernel)⟩
  decide +kernel

/-- The consumer crashes after reading the event, and is restarted. -/
def crashSteps : List BusStep :=
  [.publish "stream:execution.completed" "a" "1" 0, .subscribe] ++
    List.replicate 3 (.next .served) ++ [.crash, .subscribe] ++ List.replicate 3 (.next .served)

theorem crash_loses_entry :
    (StreamBus.new.run ["stream:execution.completed"] "settlement-worker" "worker-1" crashSteps).Idle
      ["stream:execution.completed"] "settlement-worker" ∧
    ¬ ∀ p ∈ (StreamBus.new.run ["stream:execution.completed"] "settlement-worker" "worker-1"
      crashSteps).published, p.stream ∈ ["stream:execution.completed"] →
      p ∈ (StreamBus.new.run ["stream:execution.completed"] "settlement-worker" "worker-1"
        crashSteps).handled := by
  refine ⟨⟨by rfl, by decide +kernel⟩, ?_⟩
  decide +kernel

end IntentX
