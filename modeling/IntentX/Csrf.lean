import IntentX.Basic
import IntentX.Lib.Machine
import IntentX.Lib.Text

/-!
# CSRF tokens

`CsrfService::call` wants a token in the header `x-csrf-token`, the same one in the cookie if the
cookie is there, and then has `validate_token` read the token's user from Redis and delete it.  The
two commands are sent under the lock of the instance's own connection, and the answer of the second
is dropped.

So a token is single-use within an instance whose deletions take effect.  Over any number of
instances it lets at most one request through if and only if no request is let through with it while
another instance, which let a request through with it, is still to delete it, or after such a deletion
was lost (`single_use_iff`).
-/

namespace IntentX.Csrf

open Lib Machine

/-- A header is missing, or its text. -/
structure Request where
  method : String
  xCsrfToken : Option String
  cookie : Option String
  xUserId : Option String
  deriving Repr, DecidableEq

/-- `GET`, `HEAD` and `OPTIONS` need no token. -/
def safe (method : String) : Bool := method == "GET" || method == "HEAD" || method == "OPTIONS"

def trim (s : List Char) : List Char :=
  ((s.dropWhile Char.isWhitespace).reverse.dropWhile Char.isWhitespace).reverse

/-- The token in one field of the cookie header. -/
def fieldToken (field : List Char) : Option String :=
  let c := trim field
  if "csrf_token".toList.isPrefixOf c then
    match Text.splitn '=' 2 c with
    | [_, v] => some (String.ofList v)
    | _ => none
  else none

def cookieToken (cookies : String) : Option String :=
  (cookies.toList.splitOn ';').findSome? fieldToken

/-- The token that Redis is asked for, or why the request is refused before that. -/
def presented (r : Request) : Except String String :=
  match r.xCsrfToken with
  | none => .error "Missing X-CSRF-Token header"
  | some token =>
    match r.cookie.bind cookieToken with
    | some c => if c ≠ token then .error "CSRF token mismatch" else .ok token
    | none => .ok token

/-- The token was issued for the user of the request. -/
def userOk (r : Request) (user : String) : Bool :=
  match r.xUserId with
  | some requestUser => requestUser == user || user == "anonymous"
  | none => true

/-! ## The instances and their store -/

/-- A connection between the two commands: the token, and whether its request goes on. -/
structure Hold where
  token : String
  passed : Bool
  deriving Repr, DecidableEq

/-- The tokens in Redis with their users, the connection of each instance while it is locked, what
was issued, what was let through with which token, the latest first, and the tokens of these whose
deletion was lost. -/
structure Site where
  tokens : String → Option String
  holding : Nat → Option Hold
  issued : List (String × String)
  accepted : List (String × Request)
  undeleted : List String

def Site.new : Site := ⟨fun _ => none, fun _ => none, [], [], []⟩

def Site.set (s : Site) (token : String) (user : Option String) : String → Option String :=
  fun t => if t = token then user else s.tokens t

inductive Event
  | generate (inst : Nat) (user token : String) (fate : Fate)
  /-- a request gets to the first command -/
  | request (inst : Nat) (r : Request) (fate : Fate)
  /-- the second command -/
  | delete (inst : Nat) (fate : Fate)
  /-- `TOKEN_TTL_SECS` are over -/
  | expire (token : String)
  deriving Repr, DecidableEq

/-- The token and user that a request finds: it needs one, the connection is free, and Redis
answers. -/
def found (s : Site) (inst : Nat) (r : Request) (fate : Fate) : Option (String × String) :=
  if safe r.method ∨ (s.holding inst).isSome ∨ fate ≠ .served then none
  else
    match presented r with
    | .error _ => none
    | .ok token => (s.tokens token).map fun user => (token, user)

/-- What the step lets through; nothing that comes later stops it. -/
def letThrough (s : Site) : Event → Option (String × Request)
  | .request inst r fate =>
    match found s inst r fate with
    | some (token, user) => if userOk r user then some (token, r) else none
    | none => none
  | _ => none

def Site.lock (s : Site) (inst : Nat) (hold : Option Hold) : Nat → Option Hold :=
  fun j => if j = inst then hold else s.holding j

/-- The tokens after a deletion. -/
def Site.cleared (s : Site) (token : String) (fate : Fate) : String → Option String :=
  if fate = .refused then s.tokens else s.set token none

/-- The tokens of requests that went on whose deletion was lost. -/
def Site.leaving (s : Site) (hold : Hold) (fate : Fate) : List String :=
  if fate = .refused ∧ hold.passed then hold.token :: s.undeleted else s.undeleted

/-- An instance whose connection is locked waits. -/
def step (s : Site) : Event → Site
  | .generate inst user token fate =>
    if (s.holding inst).isSome ∨ fate = .refused then s
    else { s with tokens := s.set token user, issued := (token, user) :: s.issued }
  | .request inst r fate =>
    match found s inst r fate with
    | some (token, user) => { s with
        holding := s.lock inst (some ⟨token, userOk r user⟩)
        accepted := (letThrough s (.request inst r fate)).toList ++ s.accepted }
    | none => s
  | .delete inst fate =>
    match s.holding inst with
    | some hold => { s with
        tokens := s.cleared hold.token fate
        holding := s.lock inst none
        undeleted := s.leaving hold fate }
    | none => s
  | .expire token => { s with tokens := s.set token none }

/-- A new token is not one that was issued before. -/
def Fresh (s : Site) : Event → Prop
  | .generate _ _ token _ => token ∉ s.issued.map Prod.fst
  | _ => True

instance (s : Site) : ∀ e, Decidable (Fresh s e)
  | .generate _ _ token _ => inferInstanceAs (Decidable (token ∉ s.issued.map Prod.fst))
  | .request _ _ _ | .delete _ _ | .expire _ => .isTrue trivial

/-- A request is let through with no token with which an instance has let one through and whose deletion
is still to come or was lost. -/
def Apart (s : Site) (e : Event) : Prop :=
  ∀ x ∈ letThrough s e, (∀ j, s.holding j ≠ some ⟨x.1, true⟩) ∧ x.1 ∉ s.undeleted

/-- One instance, and its deletions take effect. -/
def Single : Event → Prop
  | .generate inst _ _ _ => inst = 0
  | .request inst _ _ => inst = 0
  | .delete inst fate => inst = 0 ∧ fate ≠ .refused
  | .expire _ => True

instance : ∀ e, Decidable (Single e)
  | .generate inst _ _ _ => inferInstanceAs (Decidable (inst = 0))
  | .request inst _ _ => inferInstanceAs (Decidable (inst = 0))
  | .delete inst fate => inferInstanceAs (Decidable (inst = 0 ∧ fate ≠ .refused))
  | .expire _ => .isTrue trivial

/-- A token that was used is gone, or about to be deleted, or its deletion was lost; and what is
stored was issued. -/
structure Site.Inv (s : Site) : Prop where
  used : ∀ t ∈ s.accepted.map Prod.fst, s.tokens t ≠ none →
    (∃ j, s.holding j = some ⟨t, true⟩) ∨ t ∈ s.undeleted
  held : ∀ j t, s.holding j = some ⟨t, true⟩ → t ∈ s.accepted.map Prod.fst
  left : ∀ t ∈ s.undeleted, t ∈ s.accepted.map Prod.fst
  stored : ∀ t u, s.tokens t = some u → (t, u) ∈ s.issued
  known : ∀ t ∈ s.accepted.map Prod.fst, t ∈ s.issued.map Prod.fst
  bound : ∀ x ∈ s.accepted, ∃ u, (x.1, u) ∈ s.issued ∧ userOk x.2 u = true

section Steps

variable {s : Site}

theorem found_stored {inst : Nat} {r : Request} {fate : Fate} {token user : String}
    (h : found s inst r fate = some (token, user)) :
    s.holding inst = none ∧ presented r = .ok token ∧ s.tokens token = some user := by
  unfold found at h
  split at h
  · exact nomatch h
  · next hno =>
    simp only [not_or, Bool.not_eq_true, Option.isSome_eq_false_iff, Option.isNone_iff_eq_none] at hno
    split at h
    · exact nomatch h
    · next t ht =>
      obtain ⟨u, hu, he⟩ := Option.map_eq_some_iff.1 h
      obtain ⟨rfl, rfl⟩ := Prod.mk.inj he
      exact ⟨hno.2.1, ht, hu⟩

/-- What is let through was found, and its user is right. -/
theorem letThrough_some {e : Event} {x : String × Request} (h : letThrough s e = some x) :
    ∃ inst fate user, e = .request inst x.2 fate ∧ found s inst x.2 fate = some (x.1, user) ∧
      userOk x.2 user = true := by
  cases e with
  | request inst r fate =>
    simp only [letThrough] at h
    split at h
    · next token user hf =>
      split at h
      · next hu =>
        obtain rfl := Option.some.inj h
        exact ⟨inst, fate, user, rfl, hf, hu⟩
      · exact nomatch h
    · exact nomatch h
  | _ => exact nomatch h

theorem accepted_step (s : Site) (e : Event) :
    (step s e).accepted = (letThrough s e).toList ++ s.accepted := by
  cases e with
  | request inst r fate =>
    simp only [step]
    rcases hf : found s inst r fate with _ | ⟨token, user⟩
    · simp [letThrough, hf]
    · rfl
  | generate inst user token fate =>
    simp only [step]
    split <;> rfl
  | delete inst fate =>
    simp only [step]
    split <;> rfl
  | expire token => rfl

theorem inv_new : Site.new.Inv :=
  ⟨fun _ h => (nomatch h), fun _ _ h => (nomatch h), fun _ h => (nomatch h), fun _ _ h => (nomatch h),
    fun _ h => (nomatch h), fun _ h => (nomatch h)⟩

theorem inv_generate (h : s.Inv) {inst : Nat} {user token : String} {fate : Fate}
    (hf : token ∉ s.issued.map Prod.fst) : (step s (.generate inst user token fate)).Inv := by
  simp only [step]
  split
  · exact h
  · refine ⟨fun t ht hs => ?_, h.held, h.left, fun t u ht => ?_, fun t ht => ?_, fun x hx => ?_⟩
    · have hne : t ≠ token := fun he => hf (he ▸ h.known t ht)
      simp only [Site.set, if_neg hne] at hs
      exact h.used t ht hs
    · by_cases he : t = token
      · simp only [Site.set, if_pos he] at ht
        rw [he, ← Option.some.inj ht]
        exact List.mem_cons_self
      · simp only [Site.set, if_neg he] at ht
        exact List.mem_cons_of_mem _ (h.stored t u ht)
    · exact List.mem_cons_of_mem _ (h.known t ht)
    · obtain ⟨u, hu, hok⟩ := h.bound x hx
      exact ⟨u, List.mem_cons_of_mem _ hu, hok⟩

theorem inv_request (h : s.Inv) {inst : Nat} {r : Request} {fate : Fate} :
    (step s (.request inst r fate)).Inv := by
  rcases hf : found s inst r fate with _ | ⟨token, user⟩
  · simp only [step, hf]
    exact h
  · obtain ⟨hfree, -, hstored⟩ := found_stored hf
    have hissued : token ∈ s.issued.map Prod.fst := List.mem_map.2 ⟨_, h.stored token user hstored, rfl⟩
    have hout : letThrough s (.request inst r fate) = if userOk r user then some (token, r) else none := by
      simp only [letThrough, hf]
    have hother : ∀ j, j ≠ inst → s.lock inst (some ⟨token, userOk r user⟩) j = s.holding j :=
      fun j hj => if_neg hj
    have hself : s.lock inst (some ⟨token, userOk r user⟩) inst = some ⟨token, userOk r user⟩ := if_pos rfl
    have hmem : ∀ x ∈ (letThrough s (.request inst r fate)).toList ++ s.accepted,
        (x = (token, r) ∧ userOk r user = true) ∨ x ∈ s.accepted := by
      intro x hx
      rw [hout] at hx
      rcases List.mem_append.1 hx with hx | hx
      · cases hu : userOk r user <;> simp_all
      · exact .inr hx
    have hold : ∀ x ∈ s.accepted, x ∈ (letThrough s (.request inst r fate)).toList ++ s.accepted :=
      fun x hx => List.mem_append_right _ hx
    simp only [step, hf]
    refine ⟨fun t ht hs => ?_, fun j t hj => ?_, fun t ht => ?_, h.stored, fun t ht => ?_, fun x hx => ?_⟩
    · obtain ⟨x, hx, rfl⟩ := List.mem_map.1 ht
      rcases hmem x hx with ⟨rfl, hu⟩ | hx
      · exact .inl ⟨inst, hself.trans (by rw [hu])⟩
      · refine (h.used x.1 (List.mem_map_of_mem hx) hs).imp_left ?_
        rintro ⟨j, hj⟩
        have hne : j ≠ inst := by
          rintro rfl
          rw [hfree] at hj
          exact nomatch hj
        exact ⟨j, (hother j hne).trans hj⟩
    · by_cases he : j = inst
      · obtain rfl := he
        obtain ⟨rfl, hu⟩ := Hold.mk.inj (Option.some.inj (hself.symm.trans hj))
        have hx : (token, r) ∈ (letThrough s (.request j r fate)).toList ++ s.accepted := by
          rw [hout, if_pos hu]
          exact List.mem_cons_self
        exact List.mem_map_of_mem hx
      · obtain ⟨x, hx, hxt⟩ := List.mem_map.1 (h.held j t ((hother j he).symm.trans hj))
        exact List.mem_map.2 ⟨x, hold x hx, hxt⟩
    · obtain ⟨x, hx, hxt⟩ := List.mem_map.1 (h.left t ht)
      exact List.mem_map.2 ⟨x, hold x hx, hxt⟩
    · obtain ⟨x, hx, rfl⟩ := List.mem_map.1 ht
      rcases hmem x hx with ⟨rfl, -⟩ | hx
      · exact hissued
      · exact h.known x.1 (List.mem_map_of_mem hx)
    · rcases hmem x hx with ⟨rfl, hu⟩ | hx
      · exact ⟨user, h.stored token user hstored, hu⟩
      · exact h.bound x hx

theorem cleared_some {token t u : String} {fate : Fate} (h : s.cleared token fate t = some u) :
    s.tokens t = some u ∧ (t = token → fate = .refused) := by
  unfold Site.cleared at h
  split at h
  · next hr => exact ⟨h, fun _ => hr⟩
  · by_cases he : t = token
    · simp [Site.set, he] at h
    · simp only [Site.set, if_neg he] at h
      exact ⟨h, fun he' => absurd he' he⟩

theorem mem_leaving {hold : Hold} {fate : Fate} {t : String} : t ∈ s.leaving hold fate ↔
    (t = hold.token ∧ fate = .refused ∧ hold.passed = true) ∨ t ∈ s.undeleted := by
  unfold Site.leaving
  split
  · next hr => simp [hr]
  · next hr => simp [hr]

theorem inv_delete (h : s.Inv) {inst : Nat} {fate : Fate} : (step s (.delete inst fate)).Inv := by
  rcases hh : s.holding inst with _ | hold
  · simp only [step, hh]
    exact h
  · have hother : ∀ j, j ≠ inst → s.lock inst none j = s.holding j := fun j hj => if_neg hj
    have hself : s.lock inst none inst = none := if_pos rfl
    simp only [step, hh]
    refine ⟨fun t ht hs => ?_, fun j t hj => ?_, fun t ht => ?_, fun t u ht => ?_, h.known, h.bound⟩
    · obtain ⟨u, hu⟩ := Option.ne_none_iff_exists'.1 hs
      obtain ⟨hu, hrefused⟩ := cleared_some hu
      rcases h.used t ht (by rw [hu]; exact Option.some_ne_none u) with ⟨j, hj⟩ | hleft
      · by_cases he : j = inst
        · obtain rfl := he
          obtain rfl := Option.some.inj (hh.symm.trans hj)
          exact .inr (mem_leaving.2 (.inl ⟨rfl, hrefused rfl, rfl⟩))
        · exact .inl ⟨j, (hother j he).trans hj⟩
      · exact .inr (mem_leaving.2 (.inr hleft))
    · by_cases he : j = inst
      · obtain rfl := he
        exact nomatch hself.symm.trans hj
      · exact h.held j t ((hother j he).symm.trans hj)
    · rcases mem_leaving.1 ht with ⟨rfl, -, hpassed⟩ | ht
      · exact h.held inst hold.token (by rw [hh, ← hpassed])
      · exact h.left t ht
    · exact h.stored t u (cleared_some ht).1

theorem inv_expire (h : s.Inv) (token : String) : (step s (.expire token)).Inv := by
  have hkeep : ∀ t u, s.set token none t = some u → s.tokens t = some u := by
    intro t u ht
    by_cases he : t = token
    · simp [Site.set, he] at ht
    · simpa only [Site.set, if_neg he] using ht
  refine ⟨fun t ht hs => ?_, h.held, h.left, fun t u ht => h.stored t u (hkeep t u ht), h.known, h.bound⟩
  obtain ⟨u, hu⟩ := Option.ne_none_iff_exists'.1 hs
  exact h.used t ht (by rw [hkeep t u hu]; exact Option.some_ne_none u)

theorem inv_step {e : Event} (h : s.Inv) (hf : Fresh s e) : (step s e).Inv := by
  cases e with
  | generate inst user token fate => exact inv_generate h hf
  | request inst r fate => exact inv_request h
  | delete inst fate => exact inv_delete h
  | expire token => exact inv_expire h token

/-- Where the invariant holds, a token is used again only if it is still to be deleted, or is left. -/
theorem apart_iff {e : Event} (h : s.Inv) :
    (∀ t ∈ (letThrough s e).map Prod.fst, t ∉ s.accepted.map Prod.fst) ↔ Apart s e := by
  constructor
  · intro hnew x hx
    have hx : x.1 ∉ s.accepted.map Prod.fst := hnew x.1 (Option.map_eq_some_iff.2 ⟨x, hx, rfl⟩)
    exact ⟨fun j hj => hx (h.held j x.1 hj), fun hl => hx (h.left x.1 hl)⟩
  · intro hapart t ht hmem
    obtain ⟨x, hx, rfl⟩ := Option.map_eq_some_iff.1 ht
    obtain ⟨inst, fate, user, -, hfound, -⟩ := letThrough_some hx
    obtain ⟨hholding, hundeleted⟩ := hapart x hx
    have hstored : s.tokens x.1 ≠ none := by
      rw [(found_stored hfound).2.2]
      exact Option.some_ne_none user
    rcases h.used x.1 hmem hstored with ⟨j, hj⟩ | hleft
    · exact hholding j hj
    · exact hundeleted hleft

/-- Of one instance whose deletions take effect, no other connection is locked and nothing is left. -/
theorem single_step {e : Event} (h : (∀ j, j ≠ 0 → s.holding j = none) ∧ s.undeleted = [])
    (he : Single e) :
    (∀ j, j ≠ 0 → (step s e).holding j = none) ∧ (step s e).undeleted = [] := by
  obtain ⟨hhold, hleft⟩ := h
  cases e with
  | generate inst user token fate =>
    simp only [step]
    split <;> exact ⟨hhold, hleft⟩
  | request inst r fate =>
    obtain rfl : inst = 0 := he
    simp only [step]
    split
    · exact ⟨fun j hj => (if_neg hj).trans (hhold j hj), hleft⟩
    · exact ⟨hhold, hleft⟩
  | delete inst fate =>
    obtain ⟨rfl, hfate⟩ : inst = 0 ∧ fate ≠ .refused := he
    simp only [step]
    split
    · refine ⟨fun j hj => (if_neg hj).trans (hhold j hj), List.eq_nil_iff_forall_not_mem.2 fun t ht => ?_⟩
      rcases mem_leaving.1 ht with ⟨-, hr, -⟩ | ht
      · exact hfate hr
      · rw [hleft] at ht
        exact nomatch ht
    · exact ⟨hhold, hleft⟩
  | expire token => exact ⟨hhold, hleft⟩

theorem apart_of_single {e : Event} (h : (∀ j, j ≠ 0 → s.holding j = none) ∧ s.undeleted = [])
    (he : Single e) : Apart s e := by
  intro x hx
  obtain ⟨inst, fate, user, rfl, hfound, -⟩ := letThrough_some hx
  refine ⟨fun j hj => ?_, by rw [h.2]; exact List.not_mem_nil⟩
  by_cases hj0 : j = 0
  · obtain rfl : inst = 0 := he
    rw [hj0, (found_stored hfound).1] at hj
    exact nomatch hj
  · rw [h.1 j hj0] at hj
    exact nomatch hj

end Steps

/-- **A token is single-use**, over any interleaving of any number of instances, if and only if no
request is let through with a token with which another instance has let one through and whose deletion
is still to come or was lost; within one instance whose deletions take effect it always is.  And what a
token lets through is a request of the user it was issued for, unless that is `anonymous` or the request
names none. -/
theorem single_use_iff {es : List Event} (hf : Each step Fresh .new es) :
    (((run step .new es).accepted.map Prod.fst).Nodup ↔ Each step Apart .new es) ∧
    ((∀ e ∈ es, Single e) → ((run step .new es).accepted.map Prod.fst).Nodup) ∧
    ∀ x ∈ (run step .new es).accepted,
      ∃ u, (x.1, u) ∈ (run step .new es).issued ∧ userOk x.2 u = true := by
  have hlog : ∀ s e, (step s e).accepted.map Prod.fst =
      ((letThrough s e).map Prod.fst).toList ++ s.accepted.map Prod.fst := by
    intro s e
    rw [accepted_step, List.map_append]
    cases letThrough s e <;> rfl
  have hiff : ((run step .new es).accepted.map Prod.fst).Nodup ↔ Each step Apart .new es := by
    rw [nodup_log_iff (fun s : Site => s.accepted.map Prod.fst) hlog]
    refine (and_iff_right List.nodup_nil).trans ?_
    exact each_iff_of_keeps (I := Site.Inv) (fun _ _ h hf _ => inv_step h hf)
      (fun _ _ h _ => apart_iff h) inv_new hf
  refine ⟨hiff, fun hsingle => hiff.2 ?_, ?_⟩
  · exact each_of_keeps (I := fun s => (∀ j, j ≠ 0 → s.holding j = none) ∧ s.undeleted = [])
      (fun _ _ h he => single_step h he) (fun _ _ h he => apart_of_single h he)
      ⟨fun _ _ => rfl, rfl⟩ (each_of_forall hsingle)
  · exact (run_keeps (fun _ _ h hf => inv_step h hf) inv_new hf).bound

def demoRequest : Request := ⟨"POST", some "t1", some "a=b; csrf_token=t1", some "u1"⟩

/-- Two instances read the token before either deletes it. -/
def demoRace : List Event :=
  [.generate 0 "u1" "t1" .served, .request 0 demoRequest .served, .request 1 demoRequest .served,
    .delete 0 .served, .delete 1 .served]

/-- The race lets two requests through, and one instance does not. -/
theorem single_use_race :
    ¬ ((run step .new demoRace).accepted.map Prod.fst).Nodup ∧
    ((run step .new [.generate 0 "u1" "t1" .served, .request 0 demoRequest .served,
      .delete 0 .served, .request 0 demoRequest .served]).accepted.map Prod.fst).Nodup := by
  refine ⟨fun h => ?_, ?_⟩
  · obtain ⟨-, -, hapart, -⟩ := (single_use_iff (by decide +kernel)).1.1 h
    exact (hapart ("t1", demoRequest) (by decide +kernel)).1 0 (by decide +kernel)
  · exact (single_use_iff (by decide +kernel)).2.1 (by decide)

end IntentX.Csrf
