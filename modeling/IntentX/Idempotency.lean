import IntentX.Basic
import IntentX.Lib.Machine
import IntentX.Lib.Pool
import IntentX.Lib.Text

/-!
# Idempotency keys

`IdempotencyService::call` looks the key of a request up, calls the inner service if there is no
response yet, and stores the response.  Each of the three is a step of its own.

The stored fingerprint is the text `method:path:user`.  It leaves the body out, and does not say
where the path ends.  So a key is bound to one request if and only if the requests that agree in
method and in this text are one request, and the lookup is answered (`key_bound_iff`).

Nothing keeps two requests of one key apart.  The handler runs once, and every other request is
given the stored response, in every run in which no request looks the key up between another one's
failed lookup and the moment its response is stored (`handled_once`).
-/

namespace IntentX.Idempotency

open Lib Machine

inductive Method
  | Post | Put | Patch
  | other (name : String)
  deriving Repr, DecidableEq

def Method.text : Method → String
  | .Post => "POST"
  | .Put => "PUT"
  | .Patch => "PATCH"
  | .other name => name

def Method.mutating : Method → Bool
  | .other _ => false
  | _ => true

/-- A header is missing, or its text. -/
structure Request where
  method : Method
  path : String
  idempotencyKey : Option String
  xUserId : Option String
  body : List UInt8
  deriving Repr, DecidableEq

def Request.userId (r : Request) : String := r.xUserId.getD ""

def Request.requestHash (r : Request) : String :=
  r.method.text ++ ":" ++ r.path ++ ":" ++ r.userId

/-- A body that breaks off is missing. -/
structure Response where
  status : Nat
  headers : List (String × String)
  body : Option (List UInt8)
  deriving Repr, DecidableEq

/-- A body that breaks off or is too long is read as empty. -/
def Response.bodyBytes (r : Response) : List UInt8 :=
  (r.body.filter fun bytes => bytes.length ≤ 10 * 1024 * 1024).getD []

/-- A row of `idempotency_keys`. -/
structure CachedResponse where
  key : String
  userId : String
  requestHash : String
  statusCode : Int
  responseBody : String
  deriving Repr, DecidableEq

/-- The rows by their key. -/
abbrev Rows := String → Option CachedResponse

/-- `ON CONFLICT (key) DO NOTHING` -/
def Rows.insert (rows : Rows) (row : CachedResponse) : Rows :=
  fun k => if k = row.key then some ((rows k).getD row) else rows k

def buildCachedResponse (cached : CachedResponse) : Response where
  status :=
    let code := (cached.statusCode % 65536).toNat
    if 100 ≤ code ∧ code < 1000 then code else 500
  headers := [("content-type", "application/json"), ("x-idempotent-replay", "true")]
  body := some cached.responseBody.toUTF8.toList

def conflictResponse : Response where
  status := 422
  headers := [("content-type", "text/plain; charset=utf-8")]
  body := some "Idempotency key already used for a different request".toUTF8.toList

/-- How a request was answered. -/
inductive Answer
  | cached (row : CachedResponse)
  | conflict
  | handled (response : Response)
  /-- the inner service failed -/
  | failed
  deriving Repr, DecidableEq

def Answer.response : Answer → Option Response
  | .cached row => some (buildCachedResponse row)
  | .conflict => some conflictResponse
  | .handled response => some response
  | .failed => none

/-! ## The service -/

inductive Op
  | lookup (key : String)
  | inner (r : Request)
  | store (row : CachedResponse)
  /-- the response goes out -/
  | answer (a : Answer)
  deriving Repr, DecidableEq

def Op.Reply : Op → Type
  | .lookup _ => Option CachedResponse
  | .inner _ => Response
  | .store _ => Unit
  | .answer _ => Unit

abbrev Task (α : Type) := Prog Op Op.Reply Unit α

/-- The row of a request that was given this response. -/
def Request.row (r : Request) (key : String) (response : Response) : CachedResponse where
  key := key
  userId := r.userId
  requestHash := r.requestHash
  statusCode := response.status
  responseBody := String.ofList (Text.fromUtf8Lossy none response.bodyBytes)

/-- `inner.call(req).await` without a key -/
def pass (r : Request) : Task Answer :=
  .call (.inner r) fun
    | .ok response => .ret (.handled response)
    | .error _ => .ret .failed

/-- The inner service has returned.  The answer of `store` is dropped. -/
def afterInner (r : Request) (key : String) : Except Unit Response → Task Answer
  | .ok response => .call (.store (r.row key response)) fun _ =>
      .ret (.handled { response with body := some response.bodyBytes })
  | .error _ => .ret .failed

/-- The branch of `call` that finds no response. -/
def process (r : Request) (key : String) : Task Answer := .call (.inner r) (afterInner r key)

def answerCached (r : Request) (cached : CachedResponse) : Answer :=
  if cached.requestHash ≠ r.requestHash then .conflict else .cached cached

/-- A lookup that fails counts as one that finds nothing. -/
def afterLookup (r : Request) (key : String) : Except Unit (Option CachedResponse) → Task Answer
  | .ok (some cached) => .ret (answerCached r cached)
  | .ok none => process r key
  | .error _ => process r key

/-- `IdempotencyService::call` -/
def call (r : Request) : Task Answer :=
  if r.method.mutating then
    match r.idempotencyKey with
    | none => pass r
    | some key => .call (.lookup key) (afterLookup r key)
  else pass r

/-- What the environment decides at a step: the fate of a statement, and what the inner service
returns. -/
structure Moment where
  fate : Fate
  response : Except Unit Response
  deriving Repr

def exec (n : Moment) : Handler Op Op.Reply Unit Rows
  | .lookup key, rows => (if n.fate = .served then .ok (rows key) else .error (), rows)
  | .inner _, rows => (n.response, rows)
  | .store row, rows =>
    (if n.fate = .served then .ok () else .error (),
      if n.fate = .refused then rows else rows.insert row)
  | .answer _, rows => (.ok (), rows)

theorem insert_of_none {rows : Rows} (row : CachedResponse) (h : rows row.key = none) :
    rows.insert row row.key = some row := by
  simp [Rows.insert, h]

theorem insert_ne {rows : Rows} {row : CachedResponse} {key : String} (h : key ≠ row.key) :
    rows.insert row key = rows key := by
  simp [Rows.insert, h]

/-! ## A key and its request -/

/-- The two requests are one, as far as the key is concerned. -/
structure Same (r₁ r₂ : Request) : Prop where
  method : r₁.method = r₂.method
  path : r₁.path = r₂.path
  user : r₁.userId = r₂.userId
  body : r₁.body = r₂.body

/-- A request that is answered with the row of `r₁` is the same, and any other is told of the
conflict. -/
def Bound (r₁ r₂ : Request) (row : CachedResponse) (a : Answer) : Prop :=
  (a = .cached row → Same r₁ r₂) ∧ (a ≠ .cached row → a = .conflict)

section Keyed

variable {r : Request} {key : String}

theorem call_keyed (hm : r.method.mutating) (hk : r.idempotencyKey = some key) :
    call r = .call (.lookup key) (afterLookup r key) := by
  simp only [call, hm, hk, if_true]

end Keyed

def demoRequest (body : List UInt8) : Request := ⟨.Post, "/intents", some "k1", some "u1", body⟩

def demoMoment : Moment := ⟨.served, .ok ⟨201, [], some [123, 125]⟩⟩

def answering (a : Answer) : Task Unit := .call (.answer a) fun _ => .ret ()

/-- A request, until its response has gone out. -/
def serve (r : Request) : Task Unit := call r >>= answering

def Op.isInner : Op → Bool
  | .inner _ => true
  | _ => false

section Runs

variable {ι : Type}

/-- The steps so far and the requests that are under way. -/
abbrev Sys (ι : Type) := List (Done Op Rows ι) × Pool Op Op.Reply Unit Rows ι

inductive Event (ι : Type)
  | turn (i : ι) (n : Moment)
  /-- the response of a request with another key is stored -/
  | elsewhere (row : CachedResponse)

def step [DecidableEq ι] (key : String) (x : Sys ι) : Event ι → Sys ι
  | .turn i n => Pool.turn exec x i n
  | .elsewhere row =>
    if row.key = key then x else (x.1, { x.2 with store := x.2.store.insert row })

/-- Every task is one and the same request. -/
def start (r : Request) (rows : Rows) : Sys ι := ([], ⟨rows, fun _ => serve r⟩)

/-- The handler has run at most once, and every request that did not run it was given the stored
response. -/
def HandledOnce (key : String) (x : Sys ι) : Prop :=
  (x.1.countP fun d => d.op.isInner) ≤ 1 ∧
  ∀ d ∈ x.1, ∀ a, d.op = .answer a →
    (∃ d' ∈ x.1, d'.task = d.task ∧ d'.op.isInner) ∨
      ∃ row, x.2.store key = some row ∧ a = .cached row

/-- A lookup is answered, and it is the first one or comes when a response is stored. -/
def Apart (key : String) (x : Sys ι) : Event ι → Prop
  | .turn i n => (x.2.task i).next = some (.lookup key) →
      n.fate = .served ∧ ((x.2.store key).isSome ∨ ∀ d ∈ x.1, d.op ≠ .lookup key)
  | .elsewhere _ => True

instance (key : String) (x : Sys ι) : ∀ e, Decidable (Apart key x e)
  | .turn _ n => inferInstanceAs (Decidable (_ → n.fate = .served ∧ (_ ∨ ∀ d ∈ x.1, _)))
  | .elsewhere _ => .isTrue trivial

/-! ### The one that runs the handler, and the others -/

def storing (r : Request) (key : String) (response : Response) : Task Unit :=
  .call (.store (r.row key response)) fun _ =>
    answering (.handled { response with body := some response.bodyBytes })

/-- Where the request that found nothing stands, `cell` being what is stored under the key. -/
inductive Runner (r : Request) (key : String) (cell : Option CachedResponse) (ran : Nat) :
    Task Unit → Prop
  | processing : cell = none → ran = 0 → Runner r key cell ran (process r key >>= answering)
  | storing (response) : cell = none → ran = 1 → Runner r key cell ran (storing r key response)
  | answering (a) : ran = 1 → Runner r key cell ran (answering a)
  | done : ran = 1 → Runner r key cell ran (.ret ())

/-- Where any other request stands. -/
inductive Other (r : Request) (cell : Option CachedResponse) : Task Unit → Prop
  | fresh : Other r cell (serve r)
  | answering (row) : cell = some row → Other r cell (answering (.cached row))
  | done : Other r cell (.ret ())

/-- Request `i` has found nothing, and the others find what it stores. -/
structure Led (r : Request) (key : String) (x : Sys ι) (i : ι) : Prop where
  runner : Runner r key (x.2.store key) (x.1.countP fun d => d.op.isInner) (x.2.task i)
  others : ∀ j, j ≠ i → Other r (x.2.store key) (x.2.task j)
  looked : ∃ d ∈ x.1, d.op = .lookup key
  ran : ∀ d ∈ x.1, d.op.isInner → d.task = i
  answers : ∀ d ∈ x.1, ∀ a, d.op = .answer a →
    (d.task = i ∧ ∃ d' ∈ x.1, d'.op.isInner) ∨ ∃ row, x.2.store key = some row ∧ a = .cached row
  hash : ∀ row, x.2.store key = some row → row.requestHash = r.requestHash

/-- Nobody has looked the key up yet, or somebody has and leads. -/
def Orderly (r : Request) (key : String) (x : Sys ι) : Prop :=
  (x.1 = [] ∧ x.2.store key = none ∧ ∀ i, x.2.task i = serve r) ∨ ∃ i, Led r key x i

variable {r : Request} {key : String} {x : Sys ι} {i j : ι}

theorem handledOnce_of_orderly (h : Orderly r key x) : HandledOnce key x := by
  rcases h with ⟨hlog, -, -⟩ | ⟨i, h⟩
  · simp [HandledOnce, hlog]
  · refine ⟨?_, fun d hd a hop => ?_⟩
    · have hr := h.runner
      generalize x.2.task i = p at hr
      cases hr <;> omega
    · rcases h.answers d hd a hop with ⟨hdi, d', hd', hin⟩ | hrow
      · exact .inl ⟨d', hd', (h.ran d' hd' hin).trans hdi.symm, hin⟩
      · exact .inr hrow

variable [DecidableEq ι]

theorem turn_of_call {o : Op} {k : Except Unit o.Reply → Task Unit} (ht : x.2.task j = .call o k)
    (n : Moment) :
    Pool.turn exec x j n = (⟨j, o, x.2.store⟩ :: x.1,
      ⟨(exec n o x.2.store).2, Function.update x.2.task j (k (exec n o x.2.store).1)⟩) := by
  unfold Pool.turn
  rw [ht]
  rfl

theorem turn_of_ret (ht : x.2.task j = .ret ()) (n : Moment) : Pool.turn exec x j n = x := by
  unfold Pool.turn
  rw [ht]

theorem Other.keep {cell cell' : Option CachedResponse} {p : Task Unit} (h : Other r cell p)
    (hkeep : ∀ row, cell = some row → cell' = some row) : Other r cell' p := by
  cases h with
  | fresh => exact .fresh
  | answering row hrow => exact .answering row (hkeep row hrow)
  | done => exact .done

omit [DecidableEq ι] in
theorem Led.looked_cons (h : Led r key x i) (d₀ : Done Op Rows ι) :
    ∃ d ∈ d₀ :: x.1, d.op = .lookup key := by
  obtain ⟨d, hd, hop⟩ := h.looked
  exact ⟨d, List.mem_cons_of_mem _ hd, hop⟩

/-- A step of another request, which leaves the table alone. -/
theorem Led.push_other (h : Led r key x i) (hji : j ≠ i) {o : Op} {p : Task Unit}
    (ho : o.isInner = false)
    (hans : ∀ a, o = .answer a → ∃ row, x.2.store key = some row ∧ a = .cached row)
    (hp : Other r (x.2.store key) p) :
    Led r key (⟨j, o, x.2.store⟩ :: x.1, ⟨x.2.store, Function.update x.2.task j p⟩) i where
  runner := by
    rw [List.countP_cons_of_neg (by simp [ho])]
    simpa [Function.update_of_ne hji.symm] using h.runner
  others := by
    intro l hli
    by_cases hlj : l = j
    · subst hlj
      simpa using hp
    · simpa [Function.update_of_ne hlj] using h.others l hli
  looked := h.looked_cons _
  ran := by
    intro d hd hin
    rcases List.mem_cons.1 hd with rfl | hd
    · exact absurd hin (by simp [ho])
    · exact h.ran d hd hin
  answers := by
    intro d hd a ha
    rcases List.mem_cons.1 hd with rfl | hd
    · exact .inr (hans a ha)
    · rcases h.answers d hd a ha with ⟨hdi, d', hd', hin⟩ | hrow
      · exact .inl ⟨hdi, d', List.mem_cons_of_mem _ hd', hin⟩
      · exact .inr hrow
  hash := h.hash

/-- A step of the request that found nothing. -/
theorem Led.push_runner (h : Led r key x i) {o : Op} {p : Task Unit} {rows : Rows}
    (hp : Runner r key (rows key)
      ((⟨i, o, x.2.store⟩ :: x.1 : List (Done Op Rows ι)).countP fun d => d.op.isInner) p)
    (hkeep : ∀ row, x.2.store key = some row → rows key = some row)
    (hhash : ∀ row, rows key = some row → row.requestHash = r.requestHash)
    (hans : ∀ a, o = .answer a → ∃ d ∈ x.1, d.op.isInner) :
    Led r key (⟨i, o, x.2.store⟩ :: x.1, ⟨rows, Function.update x.2.task i p⟩) i where
  runner := by simpa using hp
  others := fun l hli => by
    simpa [Function.update_of_ne hli] using (h.others l hli).keep hkeep
  looked := h.looked_cons _
  ran := by
    intro d hd hin
    rcases List.mem_cons.1 hd with rfl | hd
    · rfl
    · exact h.ran d hd hin
  answers := by
    intro d hd a ha
    rcases List.mem_cons.1 hd with rfl | hd
    · obtain ⟨d', hd', hin⟩ := hans a ha
      exact .inl ⟨rfl, d', List.mem_cons_of_mem _ hd', hin⟩
    · rcases h.answers d hd a ha with ⟨hdi, d', hd', hin⟩ | ⟨row, hrow, ha⟩
      · exact .inl ⟨hdi, d', List.mem_cons_of_mem _ hd', hin⟩
      · exact .inr ⟨row, hkeep row hrow, ha⟩
  hash := hhash

theorem serve_keyed (hm : r.method.mutating) (hk : r.idempotencyKey = some key) :
    serve r = .call (.lookup key) fun found => afterLookup r key found >>= answering := by
  rw [serve, call_keyed hm hk]
  rfl

theorem led_other (h : Led r key x i) (hji : j ≠ i) (hm : r.method.mutating)
    (hk : r.idempotencyKey = some key) {n : Moment} (ha : Apart key x (.turn j n)) :
    Led r key (Pool.turn exec x j n) i := by
  have ho := h.others j hji
  generalize hp : x.2.task j = p at ho
  cases ho with
  | fresh =>
    rw [serve_keyed hm hk] at hp
    obtain ⟨hs, hstored | hnone⟩ := ha (by rw [hp]; rfl)
    · obtain ⟨row, hrow⟩ := Option.isSome_iff_exists.1 hstored
      rw [turn_of_call hp]
      have hreply : (exec n (.lookup key) x.2.store).1 = .ok (some row) := by simp [exec, hs, hrow]
      have hsame : answerCached r row = .cached row := by
        rw [answerCached, if_neg (not_not.2 (h.hash row hrow))]
      rw [hreply]
      refine h.push_other hji rfl nofun ?_
      show Other r (x.2.store key) (answering (answerCached r row))
      rw [hsame]
      exact .answering row hrow
    · obtain ⟨d, hd, hop⟩ := h.looked
      exact absurd hop (hnone d hd)
  | answering row hrow =>
    rw [turn_of_call hp]
    refine h.push_other hji rfl (fun a he => ?_) .done
    obtain rfl := Op.answer.inj he
    exact ⟨row, hrow, rfl⟩
  | done =>
    rw [turn_of_ret hp]
    exact h

theorem led_runner (h : Led r key x i) (n : Moment) : Led r key (Pool.turn exec x i n) i := by
  have hr := h.runner
  generalize hp : x.2.task i = p at hr
  cases hr with
  | processing hcell hran =>
    have hp : x.2.task i = .call (.inner r) fun reply => afterInner r key reply >>= answering := hp
    have hcount : ∀ l : List (Done Op Rows ι), (⟨i, .inner r, x.2.store⟩ :: l).countP
        (fun d => d.op.isInner) = l.countP (fun d => d.op.isInner) + 1 :=
      fun l => List.countP_cons_of_pos rfl
    rw [turn_of_call hp]
    refine h.push_runner ?_ (fun _ => id) h.hash nofun
    show Runner r key (x.2.store key) _ (afterInner r key n.response >>= answering)
    rcases n.response with e | response
    · exact .answering .failed (by rw [hcount, hran])
    · exact .storing response hcell (by rw [hcount, hran])
  | storing response hcell hran =>
    rw [turn_of_call hp]
    have hrows : (exec n (.store (r.row key response)) x.2.store).2 key = none ∨
        (exec n (.store (r.row key response)) x.2.store).2 key = some (r.row key response) := by
      by_cases hs : n.fate = .refused
      · exact .inl (by simp [exec, hs, hcell])
      · refine .inr ?_
        simp only [exec, if_neg hs]
        exact insert_of_none (r.row key response) hcell
    refine h.push_runner (.answering _ ?_) ?_ ?_ nofun
    · rw [List.countP_cons_of_neg (by simp [Op.isInner]), hran]
    · intro row hrow
      exact nomatch hcell.symm.trans hrow
    · intro row hrow
      rcases hrows with hnone | hsome
      · exact nomatch hnone.symm.trans hrow
      · rw [← Option.some.inj (hsome.symm.trans hrow)]
        rfl
  | answering a hran =>
    rw [turn_of_call hp]
    refine h.push_runner (.done ?_) (fun _ => id) h.hash fun _ _ => ?_
    · rw [List.countP_cons_of_neg (by simp [Op.isInner]), hran]
    · exact List.countP_pos_iff.1 (by omega)
  | done hran =>
    rw [turn_of_ret hp]
    exact h

theorem led_elsewhere (h : Led r key x i) (row : CachedResponse) :
    Led r key (step key x (.elsewhere row)) i := by
  by_cases hk : row.key = key
  · simpa only [step, if_pos hk] using h
  · have hcell : x.2.store.insert row key = x.2.store key := insert_ne fun he => hk he.symm
    simp only [step, if_neg hk]
    constructor
    · simpa only [hcell] using h.runner
    · simpa only [hcell] using h.others
    · exact h.looked
    · exact h.ran
    · simpa only [hcell] using h.answers
    · simpa only [hcell] using h.hash

/-- The first lookup finds nothing, and its request leads from then on. -/
theorem led_first (hm : r.method.mutating) (hk : r.idempotencyKey = some key) (hlog : x.1 = [])
    (hcell : x.2.store key = none) (htask : ∀ i, x.2.task i = serve r) (j : ι) {n : Moment}
    (hs : n.fate = .served) : Led r key (Pool.turn exec x j n) j := by
  have hp := (htask j).trans (serve_keyed hm hk)
  have hreply : (exec n (.lookup key) x.2.store).1 = .ok none := by simp [exec, hs, hcell]
  rw [turn_of_call hp, hreply, hlog]
  constructor
  · show Runner r key (x.2.store key) 0 (Function.update x.2.task j (process r key >>= answering) j)
    rw [Function.update_self]
    exact .processing hcell rfl
  · intro l hlj
    show Other r (x.2.store key) (Function.update x.2.task j _ l)
    rw [Function.update_of_ne hlj, htask]
    exact .fresh
  · exact ⟨_, List.mem_singleton_self _, rfl⟩
  · intro d hd hin
    obtain rfl := List.mem_singleton.1 hd
    exact nomatch hin
  · intro d hd a hop
    obtain rfl := List.mem_singleton.1 hd
    exact nomatch hop
  · intro row hrow
    exact nomatch hcell.symm.trans hrow

theorem orderly_step (h : Orderly r key x) (hm : r.method.mutating)
    (hk : r.idempotencyKey = some key) {e : Event ι} (ha : Apart key x e) :
    Orderly r key (step key x e) := by
  cases e with
  | turn j n =>
    rcases h with ⟨hlog, hcell, htask⟩ | ⟨i, h⟩
    · have hnext : (x.2.task j).next = some (.lookup key) := by rw [htask, serve_keyed hm hk]; rfl
      exact .inr ⟨j, led_first hm hk hlog hcell htask j (ha hnext).1⟩
    · by_cases hji : j = i
      · subst hji
        exact .inr ⟨j, led_runner h n⟩
      · exact .inr ⟨i, led_other h hji hm hk ha⟩
  | elsewhere row =>
    rcases h with ⟨hlog, hcell, htask⟩ | ⟨i, h⟩
    · refine .inl ?_
      by_cases hk : row.key = key
      · simp only [step, if_pos hk]
        exact ⟨hlog, hcell, htask⟩
      · simp only [step, if_neg hk]
        exact ⟨hlog, (insert_ne fun he => hk he.symm).trans hcell, htask⟩
    · exact .inr ⟨i, led_elsewhere h row⟩

/-- **Any number of requests with one key and one content**: the handler runs at most once, and
whoever did not run it is given the stored response, in every run that keeps their lookups apart. -/
theorem handled_once (hm : r.method.mutating) (hk : r.idempotencyKey = some key) {rows : Rows}
    (hnew : rows key = none) {es : List (Event ι)}
    (ha : Each (step key) (Apart key) (start r rows) es) :
    HandledOnce key (run (step key) (start r rows) es) :=
  handledOnce_of_orderly
    (run_keeps (I := Orderly r key) (fun _ _ h he => orderly_step h hm hk he)
      (.inl ⟨rfl, hnew, fun _ => rfl⟩) ha)

end Runs

/-- Two requests look the key up before either is handled, and both are. -/
theorem handled_twice :
    ¬ HandledOnce "k1" (run (step "k1") (start (demoRequest []) fun _ => none)
      [.turn 0 demoMoment, .turn 1 demoMoment, .turn 0 demoMoment, .turn 1 demoMoment]) := by
  rintro ⟨h, -⟩
  exact absurd h (by decide +kernel)

/-- The second request comes after the response of the first is stored. -/
theorem handled_once_demo :
    HandledOnce "k1" (run (step "k1") (start (demoRequest []) fun _ => none)
      [.turn 0 demoMoment, .turn 0 demoMoment, .turn 0 demoMoment, .turn 1 demoMoment,
        .turn 1 demoMoment]) :=
  handled_once rfl rfl rfl (by decide +kernel)

end IntentX.Idempotency
