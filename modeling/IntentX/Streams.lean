import IntentX.Basic
import IntentX.Lib.Log
import Mathlib.Logic.Function.Basic

/-!
# The event streams

`src/db/stream_bus.rs` over Redis streams: `publish`, `ensure_group` and the loop of `subscribe`,
for one consumer that is restarted under the same name.

`Redis` is what the server keeps: for each stream its entries and, for each consumer group, the
cursor and the entries that were delivered and not acknowledged.  `XREADGROUP` with `>` reads on
from the cursor.  `StreamBus` adds the running `subscribe` and, for the statements, what was published
and what the handler was given.  A `BusStep` is one command of one of the parties, or a crash.

`Quiet` and `Reads` say what the commands do to the events that a group has not been given.

Redis entry ids are numbered 1, 2, …; they are only compared.  The timestamp of an event is left
out: no handler reads it.
-/

namespace IntentX

open Lib

/-- `StreamEvent`, the payload still JSON text. -/
structure RawEvent where
  eventType : String
  payload : String
  eventId : String
  deriving DecidableEq, Repr

abbrev Fields := List (String × String)

/-- `HashMap::get` after the pairs were inserted one by one. -/
def Fields.get (fields : Fields) (key : String) : Option String := fields.reverse.lookup key

def fieldsToEvent (fields : Fields) : Option RawEvent := do
  let eventType ← fields.get "event_type"
  let payload ← fields.get "payload"
  return { eventType, payload, eventId := (fields.get "event_id").getD "" }

/-- The fields `publish` sends, and the event that a reader makes of them. -/
def publishFields (stream payload eventId : String) : Fields :=
  [("event_type", stream), ("payload", payload), ("event_id", eventId)]

theorem fieldsToEvent_publishFields (stream payload eventId : String) :
    fieldsToEvent (publishFields stream payload eventId) = some ⟨stream, payload, eventId⟩ := by
  simp [fieldsToEvent, publishFields, Fields.get, List.lookup_cons]

/-- An event as the handler gets it, with its place in Redis. -/
structure Item where
  stream : String
  id : Nat
  event : RawEvent
  deriving DecidableEq, Repr

/-- The events among the entries of a stream; other entries are skipped. -/
def events (stream : String) (entries : List (Nat × Fields)) : List Item :=
  entries.filterMap fun e => (fieldsToEvent e.2).map fun event => ⟨stream, e.1, event⟩

/-! ## Redis -/

structure Group where
  lastDelivered : Nat
  /-- delivered and not acknowledged, with the consumer -/
  pending : List (Nat × String)

structure Stream where
  log : Log Fields
  groups : String → Option Group
  delivered_le : ∀ g x, groups g = some x → x.lastDelivered ≤ log.lastId

def Stream.empty : Stream := ⟨.empty, fun _ => none, nofun⟩

abbrev Redis := String → Option Stream

/-- `MAX_STREAM_LEN`. -/
def maxStreamLen : Nat := 10000

/-- `XADD`, which may forget up to `k` old entries. -/
def Stream.add (st : Stream) (fields : Fields) (k : Nat) : Stream where
  log := (st.log.append fields).trim k
  groups := st.groups
  delivered_le := fun g x hx => Nat.le_succ_of_le (st.delivered_le g x hx)

/-- How many entries `XADD … MAXLEN ~ 10000` forgets, `trim` being what the server would like to:
it keeps 10000 at least. -/
def Stream.trims (st : Stream) (trim : Nat) : Nat :=
  min trim (st.log.entries.length + 1 - maxStreamLen)

def Redis.stream (r : Redis) (key : String) : Stream := (r key).getD .empty

def Redis.xadd (r : Redis) (key : String) (fields : Fields) (k : Nat) : Redis :=
  Function.update r key (some ((r.stream key).add fields k))

def Stream.setGroup (st : Stream) (g : String) (x : Group) (hx : x.lastDelivered ≤ st.log.lastId) :
    Stream where
  log := st.log
  groups := Function.update st.groups g (some x)
  delivered_le := by
    intro g' x' hg
    by_cases heq : g' = g
    · subst heq
      rw [Function.update_self] at hg
      cases hg
      exact hx
    · rw [Function.update_of_ne heq] at hg
      exact st.delivered_le g' x' hg

def Redis.setGroup (r : Redis) (key g : String) (x : Group)
    (hx : x.lastDelivered ≤ (r.stream key).log.lastId) : Redis :=
  Function.update r key (some ((r.stream key).setGroup g x hx))

/-- `XGROUP CREATE key g 0 MKSTREAM`; an existing group stays as it is (`BUSYGROUP`). -/
def Redis.xgroupCreate (r : Redis) (key g : String) : Redis :=
  match (r.stream key).groups g with
  | some _ => r
  | none => r.setGroup key g ⟨0, []⟩ (Nat.zero_le _)

/-- One stream of `XREADGROUP GROUP g consumer COUNT 10 … >`; `none` is `NOGROUP`. -/
def Redis.readStream (r : Redis) (g consumer key : String) : Option (List (Nat × Fields) × Redis) :=
  match hx : (r.stream key).groups g with
  | none => none
  | some x =>
    let read := (r.stream key).log.read x.lastDelivered 10
    some (read, r.setGroup key g
      { lastDelivered := (r.stream key).log.cursor x.lastDelivered 10,
        pending := x.pending ++ read.map fun e => (e.1, consumer) }
      (Log.cursor_le ((r.stream key).delivered_le g x hx)))

def Redis.xreadgroup (g consumer : String) :
    List String → Redis → Option (List (String × List (Nat × Fields)) × Redis)
  | [], r => some ([], r)
  | key :: keys, r => do
    let (entries, r) ← r.readStream g consumer key
    let (more, r) ← Redis.xreadgroup g consumer keys r
    return ((key, entries) :: more, r)

def Redis.xack (r : Redis) (key g : String) (id : Nat) : Redis :=
  match hx : (r.stream key).groups g with
  | none => r
  | some x => r.setGroup key g { x with pending := x.pending.filter fun p => p.1 != id }
      ((r.stream key).delivered_le g x hx)

/-- `parse_xreadgroup_result`. -/
def parseXreadgroupResult (result : List (String × List (Nat × Fields))) : List Item :=
  result.flatMap fun x => events x.1 x.2

/-! ## The bus -/

/-- Where `ensure_group` is. -/
inductive Ensure where
  | exists | init | create

/-- Where `subscribe` is. -/
inductive Session where
  /-- it is not running -/
  | down
  | ensure (at_ : Ensure) (key : String) (keys : List String)
  /-- at `XREADGROUP` -/
  | reading
  /-- about to call the handler for the first of the events read -/
  | handling (item : Item) (rest : List Item)
  /-- about to send `XACK` for the event just handled -/
  | acking (item : Item) (rest : List Item)

structure StreamBus where
  redis : Redis
  session : Session
  published : List Item
  handled : List Item

inductive BusStep where
  | publish (stream payload eventId : String) (trim : Nat)
  /-- `subscribe` is called -/
  | subscribe
  /-- `subscribe` goes on -/
  | next (fate : Fate)
  | crash

def Session.ensuring : List String → Session
  | [] => .reading
  | key :: keys => .ensure .exists key keys

def Session.batch : List Item → Session
  | [] => .reading
  | item :: rest => .handling item rest

section StreamBus

variable (streams : List String) (group consumer : String)

/-- A command of `subscribe`: where it goes on, and what Redis makes of the command.  An error
makes `subscribe` return, except for `XACK`. -/
def StreamBus.command (b : StreamBus) (fate : Fate) (redis : Redis) (session : Session) : StreamBus :=
  match fate with
  | .served => { b with redis, session }
  | .refused => { b with session := .down }
  | .lost => { b with redis, session := .down }

def StreamBus.next (b : StreamBus) (fate : Fate) : StreamBus :=
  match b.session with
  | .down => b
  | .ensure .exists key keys =>
    b.command fate b.redis (.ensure (if (b.redis key).isSome then .create else .init) key keys)
  | .ensure .init key keys =>
    b.command fate (b.redis.xadd key [("_init", "1")] 0) (.ensure .create key keys)
  | .ensure .create key keys =>
    b.command fate (b.redis.xgroupCreate key group) (.ensuring keys)
  | .reading =>
    match b.redis.xreadgroup group consumer streams with
    | none => { b with session := .down }
    | some (result, redis) => b.command fate redis (.batch (parseXreadgroupResult result))
  | .handling item rest => { b with handled := item :: b.handled, session := .acking item rest }
  | .acking item rest =>
    match fate with
    | .refused => { b with session := .batch rest }
    | _ => { b with redis := b.redis.xack item.stream group item.id, session := .batch rest }

def StreamBus.publish (b : StreamBus) (stream payload eventId : String) (trim : Nat) : StreamBus :=
  let st := b.redis.stream stream
  { b with
    redis := b.redis.xadd stream (publishFields stream payload eventId) (st.trims trim),
    published := ⟨stream, st.log.lastId + 1, ⟨stream, payload, eventId⟩⟩ :: b.published }

def StreamBus.step (b : StreamBus) : BusStep → StreamBus
  | .publish stream payload eventId trim => b.publish stream payload eventId trim
  | .subscribe =>
    match b.session with
    | .down => { b with session := .ensuring streams }
    | _ => b
  | .next fate => b.next streams group consumer fate
  | .crash => { b with session := .down }

def StreamBus.run (b : StreamBus) (steps : List BusStep) : StreamBus :=
  steps.foldl (StreamBus.step streams group consumer) b

/-- Redis is new, and nothing has been published. -/
def StreamBus.new : StreamBus := ⟨fun _ => none, .down, [], []⟩

end StreamBus

/-! ## What the commands do to the events that wait -/

theorem events_append (key : String) (es es' : List (Nat × Fields)) :
    events key (es ++ es') = events key es ++ events key es' := List.filterMap_append

theorem mem_events {key : String} {es : List (Nat × Fields)} {p : Item} (h : p ∈ events key es) :
    p.stream = key ∧ ∃ e ∈ es, e.1 = p.id := by
  obtain ⟨e, he, hp⟩ := List.mem_filterMap.1 h
  obtain ⟨event, -, rfl⟩ := Option.map_eq_some_iff.1 hp
  exact ⟨rfl, e, he, rfl⟩

theorem events_nodup {key : String} {es : List (Nat × Fields)}
    (h : es.Pairwise fun a b => a.1 < b.1) : (events key es).Nodup := by
  refine (List.Pairwise.filterMap _ (fun a a' hlt p hp p' hp' => ?_) h)
  obtain ⟨_, -, rfl⟩ := Option.map_eq_some_iff.1 hp
  obtain ⟨_, -, rfl⟩ := Option.map_eq_some_iff.1 hp'
  intro heq
  have hid : a.1 = a'.1 := congrArg Item.id heq
  omega

def Redis.cursor (r : Redis) (g key : String) : Nat :=
  ((r.stream key).groups g).elim 0 (·.lastDelivered)

/-- The events of a stream that a group has not been given. -/
def Redis.undelivered (r : Redis) (g key : String) : List Item :=
  events key ((r.stream key).log.after (r.cursor g key))

def Redis.lastId (r : Redis) (key : String) : Nat := (r.stream key).log.lastId

section Redis

variable {r r' : Redis} {g key key' : String}

theorem Redis.cursor_le : r.cursor g key ≤ r.lastId key := by
  unfold Redis.cursor Redis.lastId
  rcases hx : (r.stream key).groups g with _ | x
  · exact Nat.zero_le _
  · exact (r.stream key).delivered_le g x hx

theorem Redis.cursor_lt {p : Item} (h : p ∈ r.undelivered g key) : r.cursor g key < p.id := by
  obtain ⟨-, e, he, hid⟩ := mem_events h
  rw [← hid]
  exact (Log.mem_after.1 he).2

/-- Nothing has changed for the group but the number of entries. -/
structure Quiet (g : String) (r r' : Redis) : Prop where
  lastId : ∀ key, r.lastId key ≤ r'.lastId key
  cursor : ∀ key, r'.cursor g key = r.cursor g key
  undelivered : ∀ key, r'.undelivered g key = r.undelivered g key

theorem Quiet.refl (g : String) (r : Redis) : Quiet g r r :=
  ⟨fun _ => Nat.le_refl _, fun _ => rfl, fun _ => rfl⟩

theorem Redis.stream_update (st : Stream) :
    Redis.stream (Function.update r key (some st)) key' = if key' = key then st else r.stream key' := by
  unfold Redis.stream
  by_cases h : key' = key
  · subst h
    rw [Function.update_self, if_pos rfl]
    rfl
  · rw [Function.update_of_ne h, if_neg h]

theorem Redis.setGroup_log {x : Group} {hx} :
    ((r.setGroup key g x hx).stream key').log = (r.stream key').log := by
  unfold Redis.setGroup
  rw [Redis.stream_update]
  split
  · next h =>
    subst h
    rfl
  · rfl

theorem Redis.setGroup_cursor {x : Group} {hx} :
    (r.setGroup key g x hx).cursor g key' = if key' = key then x.lastDelivered else r.cursor g key' := by
  unfold Redis.setGroup Redis.cursor
  rw [Redis.stream_update]
  split
  · show (Function.update (r.stream key).groups g (some x) g).elim 0 _ = _
    rw [Function.update_self]
    rfl
  · rfl

/-- Replacing the group of a stream by one with the same cursor. -/
theorem quiet_setGroup {x : Group} {hx} (hc : x.lastDelivered = r.cursor g key) :
    Quiet g r (r.setGroup key g x hx) := by
  have hcursor : ∀ key', (r.setGroup key g x hx).cursor g key' = r.cursor g key' := by
    intro key'
    rw [Redis.setGroup_cursor]
    split
    · next h => rw [h, hc]
    · rfl
  refine ⟨fun key' => ?_, hcursor, fun key' => ?_⟩
  · unfold Redis.lastId
    rw [Redis.setGroup_log]
  · unfold Redis.undelivered
    rw [Redis.setGroup_log, hcursor]

theorem quiet_xgroupCreate (r : Redis) (key g : String) : Quiet g r (r.xgroupCreate key g) := by
  unfold Redis.xgroupCreate
  split
  · exact .refl g r
  · next hx => exact quiet_setGroup (by simp [Redis.cursor, hx])

theorem quiet_xack (r : Redis) (key g : String) (id : Nat) : Quiet g r (r.xack key g id) := by
  unfold Redis.xack
  split
  · exact .refl g r
  · next x hx => exact quiet_setGroup (by simp [Redis.cursor, hx])

theorem Stream.trims_le (st : Stream) (trim : Nat) : st.trims trim ≤ st.log.entries.length := by
  unfold Stream.trims maxStreamLen
  omega

theorem Redis.xadd_stream (fields : Fields) (k : Nat) :
    (r.xadd key fields k).stream key' =
      if key' = key then (r.stream key).add fields k else r.stream key' := Redis.stream_update _

theorem Redis.xadd_lastId (fields : Fields) (k : Nat) :
    (r.xadd key fields k).lastId key' = if key' = key then r.lastId key + 1 else r.lastId key' := by
  unfold Redis.lastId
  rw [Redis.xadd_stream]
  split <;> rfl

theorem Redis.xadd_cursor (fields : Fields) (k : Nat) :
    (r.xadd key fields k).cursor g key' = r.cursor g key' := by
  unfold Redis.cursor
  rw [Redis.xadd_stream]
  split
  · next h =>
    subst h
    rfl
  · rfl

theorem Redis.xadd_undelivered_of_ne (h : key' ≠ key) (fields : Fields) (k : Nat) :
    (r.xadd key fields k).undelivered g key' = r.undelivered g key' := by
  unfold Redis.undelivered
  rw [Redis.xadd_stream, if_neg h, Redis.xadd_cursor]

/-- The events that a group never gets when `XADD` forgets `k` entries. -/
def Redis.forgotten (r : Redis) (g key : String) (k : Nat) : List Item :=
  events key ((r.stream key).log.forgotten (r.cursor g key) k)

theorem Redis.xadd_undelivered {k : Nat} (hk : k ≤ (r.stream key).log.entries.length)
    (fields : Fields) :
    r.undelivered g key ++ events key [(r.lastId key + 1, fields)] =
      r.forgotten g key k ++ (r.xadd key fields k).undelivered g key := by
  unfold Redis.undelivered Redis.forgotten
  rw [Redis.xadd_cursor, Redis.xadd_stream, if_pos rfl, ← events_append, ← events_append,
    ← Log.forgotten_append hk fields]
  have hafter := Log.after_append (l := (r.stream key).log) (Redis.cursor_le (g := g)) fields
  exact congrArg (events key) (hafter.symm.trans Log.after_trim)

theorem Redis.undelivered_of_forgotten {k : Nat} {p : Item} (h : p ∈ r.forgotten g key k) :
    p ∈ r.undelivered g key := by
  unfold Redis.forgotten at h
  unfold Redis.undelivered
  rw [Log.after_trim (k := k), events_append]
  exact List.mem_append_left _ h

/-- What is forgotten is gone. -/
theorem Redis.forgotten_gone {k : Nat} (hk : k ≤ (r.stream key).log.entries.length)
    (fields : Fields) {p : Item} (h : p ∈ r.forgotten g key k) :
    p ∉ (r.xadd key fields k).undelivered g key := by
  have hnodup : (r.undelivered g key ++ events key [(r.lastId key + 1, fields)]).Nodup := by
    unfold Redis.undelivered Redis.lastId
    rw [← events_append, ← Log.after_append (Redis.cursor_le (g := g)) fields]
    exact events_nodup Log.after_sorted
  rw [Redis.xadd_undelivered hk] at hnodup
  exact List.disjoint_of_nodup_append hnodup h

/-! ### Reading -/

/-- What reading a batch does for the group. -/
structure Reads (g : String) (r r' : Redis) (batch : List Item) : Prop where
  lastId : ∀ key, r'.lastId key = r.lastId key
  cursor : ∀ key, r.cursor g key ≤ r'.cursor g key
  split : ∀ key p, p ∈ r.undelivered g key → p ∈ batch ∨ p ∈ r'.undelivered g key
  rest : ∀ key p, p ∈ r'.undelivered g key → p ∈ r.undelivered g key
  given : ∀ p ∈ batch, p ∈ r.undelivered g p.stream ∧ p.id ≤ r'.cursor g p.stream
  nodup : batch.Nodup

theorem Reads.nil (g : String) (r : Redis) : Reads g r r [] :=
  ⟨fun _ => rfl, fun _ => Nat.le_refl _, fun _ _ h => .inr h, fun _ _ h => h, nofun, .nil⟩

theorem Reads.append {r₁ r₂ r₃ : Redis} {b b' : List Item} (h : Reads g r₁ r₂ b)
    (h' : Reads g r₂ r₃ b') : Reads g r₁ r₃ (b ++ b') := by
  constructor
  · exact fun key => (h'.lastId key).trans (h.lastId key)
  · exact fun key => (h.cursor key).trans (h'.cursor key)
  · intro key p hp
    rcases h.split key p hp with hb | hrest
    · exact .inl (List.mem_append_left _ hb)
    · exact (h'.split key p hrest).imp (List.mem_append_right _) id
  · exact fun key p hp => h.rest key p (h'.rest key p hp)
  · intro p hp
    rcases List.mem_append.1 hp with hb | hb
    · exact ⟨(h.given p hb).1, (h.given p hb).2.trans (h'.cursor p.stream)⟩
    · exact ⟨h.rest _ p (h'.given p hb).1, (h'.given p hb).2⟩
  · refine h.nodup.append h'.nodup fun p hb hb' => ?_
    -- what was read first is not after the cursor any more
    have hlt := Redis.cursor_lt (h'.given p hb').1
    have hle := (h.given p hb).2
    omega

/-- Giving the group the next entries of a stream. -/
theorem reads_setGroup {x : Group} {hx} {c n : Nat} (hn : 0 < n) (hcur : r.cursor g key = c)
    (hc : x.lastDelivered = (r.stream key).log.cursor c n) :
    Reads g r (r.setGroup key g x hx) (events key ((r.stream key).log.read c n)) := by
  subst hcur
  have hcursor : (r.setGroup key g x hx).cursor g key = (r.stream key).log.cursor (r.cursor g key) n := by
    rw [Redis.setGroup_cursor, if_pos rfl, hc]
  have hother : ∀ key', key' ≠ key →
      (r.setGroup key g x hx).undelivered g key' = r.undelivered g key' := by
    intro key' hne
    unfold Redis.undelivered
    rw [Redis.setGroup_log, Redis.setGroup_cursor, if_neg hne]
  have hsplit : r.undelivered g key = events key ((r.stream key).log.read (r.cursor g key) n) ++
      (r.setGroup key g x hx).undelivered g key := by
    unfold Redis.undelivered
    rw [Redis.setGroup_log, hcursor, ← events_append, ← Log.after_cursor hn]
  constructor
  · intro key'
    unfold Redis.lastId
    rw [Redis.setGroup_log]
  · intro key'
    rw [Redis.setGroup_cursor]
    split
    · next h =>
      subst h
      rw [hc]
      exact Log.le_cursor
    · exact Nat.le_refl _
  · intro key' p hp
    by_cases h : key' = key
    · subst h
      rw [hsplit] at hp
      exact List.mem_append.1 hp
    · rw [hother key' h]
      exact .inr hp
  · intro key' p hp
    by_cases h : key' = key
    · subst h
      rw [hsplit]
      exact List.mem_append_right _ hp
    · rwa [hother key' h] at hp
  · intro p hp
    obtain ⟨rfl, e, he, hid⟩ := mem_events hp
    refine ⟨?_, ?_⟩
    · rw [hsplit]
      exact List.mem_append_left _ hp
    · rw [hcursor, ← hid]
      exact Log.le_cursor_of_read he
  · exact events_nodup (Log.after_sorted.sublist (List.take_sublist n _))

theorem reads_readStream {consumer : String} {entries : List (Nat × Fields)}
    (h : r.readStream g consumer key = some (entries, r')) : Reads g r r' (events key entries) := by
  unfold Redis.readStream at h
  split at h
  · cases h
  · next x hx =>
    have hcur : r.cursor g key = x.lastDelivered := by simp [Redis.cursor, hx]
    cases h
    exact reads_setGroup (by omega) hcur rfl

theorem reads_xreadgroup {consumer : String} {keys : List String}
    {result : List (String × List (Nat × Fields))}
    (h : r.xreadgroup g consumer keys = some (result, r')) :
    Reads g r r' (parseXreadgroupResult result) ∧
      ∀ p ∈ parseXreadgroupResult result, p.stream ∈ keys := by
  induction keys generalizing r result with
  | nil =>
    cases h
    exact ⟨.nil g _, nofun⟩
  | cons key keys ih =>
    simp only [Redis.xreadgroup, Option.bind_eq_bind, Option.bind_eq_some_iff, Prod.exists] at h
    obtain ⟨entries, r₁, hread, more, r₂, hmore, hres⟩ := h
    cases hres
    obtain ⟨hreads, hkeys⟩ := ih hmore
    refine ⟨(reads_readStream hread).append hreads, fun p hp => ?_⟩
    rcases List.mem_append.1 hp with hp | hp
    · rw [(mem_events hp).1]
      exact List.mem_cons_self
    · exact List.mem_cons_of_mem _ (hkeys p hp)

end Redis

end IntentX
