import IntentX.Signing

/-!
# The text that is signed

`compute_signature` joins the five parts of a request with `|` and hashes what comes out.  The parts may have a
`|` in them, so the text of one request may be that of another.

    POST | /intents | {} | 1000 | 1001|n        POST | /intents | {}|1000 | 1001 | n

It is the text of one request only if and only if the method and the path have no `|`, the body has none behind
valid UTF-8, and neither the body nor the nonce has a piece that could be the timestamp.
-/

namespace IntentX.Signing

open Lib Text

/-- The byte between two parts. -/
def bar : UInt8 := .ofNat '|'.toNat

/-- What `HeaderValue::to_str` lets through: visible ASCII, spaces and tabs. -/
def HeaderText (bs : List UInt8) : Prop := ∀ b ∈ bs, b = 9 ∨ 32 ≤ b.toNat ∧ b.toNat < 127

instance (bs : List UInt8) : Decidable (HeaderText bs) := inferInstanceAs (Decidable (∀ b ∈ bs, _))

def InI64 (n : Int) : Prop := -2 ^ 63 ≤ n ∧ n < 2 ^ 63

instance (n : Int) : Decidable (InI64 n) := inferInstanceAs (Decidable (_ ∧ _))

/-- The timestamp is an `i64`, and the nonce comes out of a header. -/
structure Legal (x : Signed) : Prop where
  timestamp : InI64 x.timestamp
  nonce : HeaderText (utf8 x.nonce)

def front (x : Signed) : List UInt8 := utf8 x.method ++ bar :: (utf8 x.path ++ bar :: x.body)

def tail (x : Signed) : List UInt8 := utf8 (toString x.timestamp) ++ bar :: utf8 x.nonce

/-- What the hash is fed. -/
def signedMessage (x : Signed) : List UInt8 := front x ++ bar :: tail x

/-- No other request has the same text. -/
def Unambiguous (x : Signed) : Prop := ∀ y, Legal y → signedMessage y = signedMessage x → y = x

/-- No part can be cut elsewhere. -/
structure Separated (x : Signed) : Prop where
  method : '|' ∉ x.method.toList
  path : '|' ∉ x.path.toList
  /-- no text in the body is followed by a bar, and could be the end of the path -/
  body_text : ∀ t r, x.body ≠ utf8 t ++ bar :: r
  /-- no number in the body is between bars, or at the end behind one, and could be the timestamp -/
  body_number : ∀ c n e, InI64 n → x.body ++ [bar] = c ++ bar :: (utf8 (toString n) ++ bar :: e) → ¬ HeaderText e
  /-- no number in the nonce is followed by a bar -/
  nonce_number : ∀ c n e, InI64 n → bar :: utf8 x.nonce ≠ c ++ bar :: (utf8 (toString n) ++ bar :: e)

section Bars

variable {s : String} {b c : List UInt8} {n : Int}

theorem bar_mem_utf8 : bar ∈ utf8 s ↔ '|' ∈ s.toList := by
  constructor
  · intro h
    obtain ⟨ch, hch, hmem⟩ := List.mem_flatMap.1 h
    by_contra hnot
    exact notMem_utf8EncodeChar (show '|'.toNat < 128 by decide) (fun heq => hnot (heq ▸ hch)) hmem
  · intro h
    exact List.mem_flatMap.2 ⟨'|', h, by decide +kernel⟩

theorem bar_toString (n : Int) : bar ∉ utf8 (toString n) := by
  rw [bar_mem_utf8]
  intro h
  exact absurd (mem_toString h) (by decide)

/-- A text with a bar in its bytes is two texts. -/
theorem texts_of_cut (h : utf8 s = b ++ bar :: c) : ∃ t₁ t₂, utf8 t₁ = b ∧ utf8 t₂ = c := by
  obtain ⟨cs₁, cs₂, -, hb, hc⟩ := utf8_cut (show '|'.toNat < 128 by decide) h
  refine ⟨String.ofList cs₁, String.ofList cs₂, ?_, ?_⟩
  · rw [utf8, String.toList_ofList, hb]
  · rw [utf8, String.toList_ofList, hc]

theorem utf8_bar : utf8 "|" = [bar] := by decide +kernel

/-- A text with a bar is two texts. -/
theorem cut_of_mem (h : '|' ∈ s.toList) : ∃ t₁ t₂, s = t₁ ++ "|" ++ t₂ := by
  obtain ⟨cs₁, cs₂, hcs⟩ := List.append_of_mem h
  refine ⟨String.ofList cs₁, String.ofList cs₂, ?_⟩
  rw [← String.toList_inj]
  simp [hcs]

theorem ne_of_cut {t₁ t₂ : String} (h : s = t₁ ++ "|" ++ t₂) : t₁ ≠ s := by
  intro heq
  have hlen := congrArg String.length (heq.trans h)
  have hone : "|".length = 1 := rfl
  rw [String.length_append, String.length_append] at hlen
  omega

theorem headerText_append : HeaderText (b ++ c) ↔ HeaderText b ∧ HeaderText c := List.forall_mem_append

theorem headerText_bar : HeaderText [bar] := by
  intro x hx
  obtain rfl := List.mem_singleton.1 hx
  decide

theorem headerText_toString (n : Int) : HeaderText (utf8 (toString n)) := by
  intro x hx
  obtain ⟨ch, hch, hmem⟩ := List.mem_flatMap.1 hx
  have hrange : 32 ≤ ch.toNat ∧ ch.toNat < 127 := by
    rcases mem_toString hch with hdigit | rfl
    · rw [Char.isDigit, Bool.and_eq_true, decide_eq_true_iff, decide_eq_true_iff] at hdigit
      have hlo : '0'.toNat ≤ ch.toNat := hdigit.1
      have hhi : ch.toNat ≤ '9'.toNat := hdigit.2
      have h0 : '0'.toNat = 48 := rfl
      have h9 : '9'.toNat = 57 := rfl
      omega
    · decide
  rw [utf8EncodeChar_ascii (by omega), List.mem_singleton] at hmem
  subst hmem
  right
  rw [UInt8.toNat_ofNat']
  omega

theorem utf8_headerText (h : HeaderText b) : utf8 (String.ofList (b.map asChar)) = b := by
  refine utf8_ofList_asChar fun x hx => ?_
  rcases h x hx with rfl | h
  · decide
  · omega

end Bars

section Cuts

variable {x y : Signed}

/-- What the hash is fed, byte for byte. -/
theorem computeSignature_eq (hmac : List UInt8 → List UInt8 → List UInt8) (secret : String) (x : Signed) :
    computeSignature hmac secret x = String.ofList (hexEncode (hmac (utf8 secret) (signedMessage x))) := by
  simp only [computeSignature, toUTF8_toList, utf8_bar, signedMessage, front, tail, List.append_assoc,
    List.cons_append, List.nil_append]

theorem toString_inj {n m : Int} (hn : InI64 n) (hm : InI64 m) (h : utf8 (toString n) = utf8 (toString m)) :
    n = m := by
  have hparse : parseSigned 64 (toString n).toList = parseSigned 64 (toString m).toList := by
    rw [utf8_inj.1 h]
  rw [parseSigned_toString hn.1 hn.2, parseSigned_toString hm.1 hm.2] at hparse
  exact Option.some.inj hparse

theorem tail_inj (hx : Legal x) (hy : Legal y) (h : tail y = tail x) :
    y.timestamp = x.timestamp ∧ y.nonce = x.nonce := by
  rcases cut_of_notMem (bar_toString x.timestamp) h with ⟨htimestamp, hnonce⟩ | ⟨m, hm, -⟩
  · exact ⟨toString_inj hy.timestamp hx.timestamp htimestamp, utf8_inj.1 hnonce⟩
  · exact absurd (hm ▸ List.mem_append_right _ List.mem_cons_self) (bar_toString y.timestamp)

/-- With the text up to the body cut in the same place, a method or a path that is longer ends in the body. -/
theorem front_inj (hs : Separated x) (h : front y = front x) :
    y.method = x.method ∧ y.path = x.path ∧ y.body = x.body := by
  have hmethod : bar ∉ utf8 x.method := fun hmem => hs.method (bar_mem_utf8.1 hmem)
  have hpath : bar ∉ utf8 x.path := fun hmem => hs.path (bar_mem_utf8.1 hmem)
  rcases cut_of_notMem hmethod h with ⟨hm, hrest⟩ | ⟨m, hm, hrest⟩
  · rcases cut_of_notMem hpath hrest with ⟨hp, hbody⟩ | ⟨m, hp, hbody⟩
    · exact ⟨utf8_inj.1 hm, utf8_inj.1 hp, hbody⟩
    · obtain ⟨-, t, -, rfl⟩ := texts_of_cut hp
      exact absurd hbody (hs.body_text _ _)
  · rcases cut_of_notMem hpath hrest.symm with ⟨-, hbody⟩ | ⟨m', rfl, hbody⟩
    · exact absurd hbody.symm (hs.body_text _ _)
    · obtain ⟨-, t, -, ht⟩ := texts_of_cut hm
      obtain ⟨-, t', -, rfl⟩ := texts_of_cut ht
      exact absurd hbody (hs.body_text _ _)

/-- A cut behind the body of `x` makes a number of its nonce the timestamp. -/
theorem not_behind (hs : Separated x) (hy : Legal y) {m : List UInt8} : tail x ≠ m ++ bar :: tail y := by
  intro h
  rcases cut_of_notMem (bar_toString x.timestamp) h.symm with ⟨-, hnonce⟩ | ⟨m', rfl, hnonce⟩
  · exact hs.nonce_number [] _ _ hy.timestamp (congrArg (bar :: ·) hnonce.symm)
  · exact hs.nonce_number (bar :: m') _ _ hy.timestamp (congrArg (bar :: ·) hnonce)

/-- What comes behind the first two bars belongs to the body. -/
theorem exists_body {rest z : List UInt8} (hs : Separated x)
    (h : front y ++ bar :: rest = utf8 x.method ++ bar :: (utf8 x.path ++ bar :: z)) :
    ∃ c, z = c ++ bar :: rest := by
  have hmethod : bar ∉ utf8 x.method := fun hmem => hs.method (bar_mem_utf8.1 hmem)
  have hpath : bar ∉ utf8 x.path := fun hmem => hs.path (bar_mem_utf8.1 hmem)
  rw [front, List.append_assoc, List.cons_append, List.append_assoc, List.cons_append] at h
  rcases cut_of_notMem hmethod h with ⟨-, hrest⟩ | ⟨m, -, hrest⟩
  · rcases cut_of_notMem hpath hrest with ⟨-, hz⟩ | ⟨m, -, hz⟩
    · exact ⟨y.body, hz.symm⟩
    · exact ⟨m ++ bar :: y.body, by rw [hz, List.append_assoc, List.cons_append]⟩
  · rcases cut_of_notMem hpath hrest.symm with ⟨-, hz⟩ | ⟨m', -, hz⟩
    · exact ⟨utf8 y.path ++ bar :: y.body, by rw [← hz, List.append_assoc, List.cons_append]⟩
    · exact ⟨m' ++ bar :: (utf8 y.path ++ bar :: y.body), by rw [hz]; simp⟩

/-- A cut before the end of the body of `x` makes a number of it the timestamp. -/
theorem not_before (hs : Separated x) (hy : Legal y) {m : List UInt8} (hfront : front x = front y ++ bar :: m)
    (htail : tail y = m ++ bar :: tail x) : False := by
  have hnumber : ∃ e, HeaderText e ∧ m ++ [bar] = utf8 (toString y.timestamp) ++ bar :: e := by
    rcases cut_of_notMem (bar_toString y.timestamp) htail.symm with ⟨rfl, -⟩ | ⟨e, rfl, hnonce⟩
    · exact ⟨[], nofun, rfl⟩
    · refine ⟨e ++ [bar], ?_, by simp⟩
      have hlegal := hy.nonce
      rw [hnonce, headerText_append] at hlegal
      exact headerText_append.2 ⟨hlegal.1, headerText_bar⟩
  obtain ⟨e, he, hm⟩ := hnumber
  have hbar : front y ++ bar :: (utf8 (toString y.timestamp) ++ bar :: e) =
      utf8 x.method ++ bar :: (utf8 x.path ++ bar :: (x.body ++ [bar])) := by
    have hfront' := congrArg (· ++ [bar]) hfront
    simp only [front, List.append_assoc, List.cons_append] at hfront' ⊢
    rw [hfront', hm]
  obtain ⟨c, hc⟩ := exists_body hs hbar
  exact hs.body_number c _ e hy.timestamp hc he

theorem unambiguous_of_separated (hx : Legal x) (hs : Separated x) : Unambiguous x := by
  intro y hy h
  rcases cut_eq h with ⟨hfront, htail⟩ | ⟨m, -, htail⟩ | ⟨m, hfront, htail⟩
  · obtain ⟨hmethod, hpath, hbody⟩ := front_inj hs hfront
    obtain ⟨htimestamp, hnonce⟩ := tail_inj hx hy htail
    calc y = ⟨y.method, y.path, y.body, y.timestamp, y.nonce⟩ := rfl
      _ = x := by rw [hmethod, hpath, hbody, htimestamp, hnonce]
  · exact absurd htail (not_behind hs hy)
  · exact (not_before hs hy hfront htail).elim

/-- A number in the body is the timestamp of another request, which has what comes behind it in its nonce. -/
theorem body_number_of_unambiguous (hx : Legal x) (h : Unambiguous x) {c e : List UInt8} {n : Int} (hn : InI64 n)
    (hbody : x.body ++ [bar] = c ++ bar :: (utf8 (toString n) ++ bar :: e)) : ¬ HeaderText e := by
  intro he
  let nonce := String.ofList (e.map asChar) ++ toString x.timestamp ++ "|" ++ x.nonce
  have hnonce : utf8 nonce = e ++ tail x := by
    simp [nonce, tail, utf8_append, utf8_bar, utf8_headerText he]
  have hlegal : Legal { x with body := c, timestamp := n, nonce := nonce } := by
    refine ⟨hn, ?_⟩
    show HeaderText (utf8 nonce)
    rw [hnonce, tail, ← List.singleton_append]
    exact headerText_append.2 ⟨he, headerText_append.2 ⟨headerText_toString _,
      headerText_append.2 ⟨headerText_bar, hx.nonce⟩⟩⟩
  have hy := h _ hlegal (by
    have hrest := congrArg (· ++ tail x) hbody
    simp only [List.append_assoc, List.cons_append, List.nil_append] at hrest
    simp only [signedMessage, front, List.append_assoc, List.cons_append]
    rw [hrest, tail, hnonce])
  have hc : c = x.body := congrArg Signed.body hy
  have hlen := congrArg List.length hbody
  rw [hc] at hlen
  simp at hlen

/-- A number in the nonce is the timestamp of another request, which has what comes before it in its body. -/
theorem nonce_number_of_unambiguous (hx : Legal x) (h : Unambiguous x) {c e : List UInt8} {n : Int}
    (hn : InI64 n) : bar :: utf8 x.nonce ≠ c ++ bar :: (utf8 (toString n) ++ bar :: e) := by
  intro hnonce
  have hlegal : HeaderText (bar :: utf8 x.nonce) := headerText_append.2 ⟨headerText_bar, hx.nonce⟩
  have he : HeaderText e := by
    rw [hnonce] at hlegal
    exact fun b hb => hlegal b (List.mem_append_right _ (List.mem_cons_of_mem _ (List.mem_append_right _
      (List.mem_cons_of_mem _ hb))))
  have hy := h { x with
      body := x.body ++ bar :: (utf8 (toString x.timestamp) ++ c)
      timestamp := n
      nonce := String.ofList (e.map asChar) } ⟨hn, by rw [utf8_headerText he]; exact he⟩ (by
    simp only [signedMessage, front, tail, List.append_assoc, List.cons_append]
    rw [hnonce, utf8_headerText he])
  have hbody := congrArg (fun x : Signed => x.body.length) hy
  simp at hbody

/-- Where a part can be cut elsewhere, there is another request. -/
theorem separated_of_unambiguous (hx : Legal x) (h : Unambiguous x) : Separated x where
  method hmem := by
    obtain ⟨t₁, t₂, ht⟩ := cut_of_mem hmem
    have hy := h { x with method := t₁, path := t₂, body := utf8 x.path ++ bar :: x.body } ⟨hx.timestamp, hx.nonce⟩
      (by simp [signedMessage, front, tail, ht, utf8_append, utf8_bar])
    exact ne_of_cut ht (congrArg Signed.method hy)
  path hmem := by
    obtain ⟨t₁, t₂, ht⟩ := cut_of_mem hmem
    have hy := h { x with path := t₁, body := utf8 t₂ ++ bar :: x.body } ⟨hx.timestamp, hx.nonce⟩
      (by simp [signedMessage, front, tail, ht, utf8_append, utf8_bar])
    exact ne_of_cut ht (congrArg Signed.path hy)
  body_text t r hbody := by
    have hy := h { x with path := x.path ++ "|" ++ t, body := r } ⟨hx.timestamp, hx.nonce⟩
      (by simp [signedMessage, front, tail, hbody, utf8_append, utf8_bar])
    have hr : r = x.body := congrArg Signed.body hy
    have hlen := congrArg List.length (hr.trans hbody)
    simp at hlen
    omega
  body_number c n e hn hbody := body_number_of_unambiguous hx h hn hbody
  nonce_number c n e hn := nonce_number_of_unambiguous hx h hn

/-- The hash is fed the joined text, and this is the text of no other request if and only if no part can be cut
elsewhere. -/
theorem unambiguous_iff (hx : Legal x) :
    (∀ hmac secret, computeSignature hmac secret x =
      String.ofList (hexEncode (hmac (utf8 secret) (signedMessage x)))) ∧ (Unambiguous x ↔ Separated x) :=
  ⟨fun hmac secret => computeSignature_eq hmac secret x, separated_of_unambiguous hx, unambiguous_of_separated hx⟩

/-- A request without a bar. -/
theorem separated_of_notMem (hmethod : '|' ∉ x.method.toList) (hpath : '|' ∉ x.path.toList) (hbody : bar ∉ x.body)
    (hnonce : '|' ∉ x.nonce.toList) : Separated x where
  method := hmethod
  path := hpath
  body_text t r h := hbody (h ▸ List.mem_append_right _ List.mem_cons_self)
  body_number c n e _ h := by
    rcases cut_of_notMem hbody h.symm with ⟨-, hnil⟩ | ⟨m, -, hnil⟩
    · simp at hnil
    · simp at hnil
  nonce_number c n e _ h := by
    have hmem : bar ∈ utf8 x.nonce := by
      rcases cut_of_notMem (a := []) (z := utf8 x.nonce) nofun h.symm with ⟨-, hrest⟩ | ⟨m, -, hrest⟩
      · exact hrest ▸ List.mem_append_right _ List.mem_cons_self
      · exact hrest ▸ List.mem_append_right _ List.mem_cons_self
    exact hnonce (bar_mem_utf8.1 hmem)

end Cuts

/-! ## Requests of the tests -/

section Demo

def createIntent (body : String) (timestamp : Int) (nonce : String) : Signed :=
  ⟨"POST", "/intents", utf8 body, timestamp, nonce⟩

/-- Without a bar anywhere. -/
theorem createIntent_unambiguous : Unambiguous (createIntent "{}" 1000 "nonce1") :=
  ((unambiguous_iff ⟨by decide, by decide +kernel⟩).2).2
    (separated_of_notMem (by decide +kernel) (by decide +kernel) (by decide +kernel) (by decide +kernel))

/-- A nonce that begins with a number, and a body that ends with the timestamp. -/
theorem createIntent_ambiguous :
    Legal (createIntent "{}" 1000 "1001|n") ∧ Legal (createIntent "{}|1000" 1001 "n") ∧
      signedMessage (createIntent "{}" 1000 "1001|n") = signedMessage (createIntent "{}|1000" 1001 "n") ∧
      createIntent "{}" 1000 "1001|n" ≠ createIntent "{}|1000" 1001 "n" := by
  refine ⟨⟨by decide, by decide +kernel⟩, ⟨by decide, by decide +kernel⟩,
    by decide +kernel, ?_⟩
  intro h
  exact absurd (congrArg Signed.timestamp h) (by decide)

end Demo

end IntentX.Signing
