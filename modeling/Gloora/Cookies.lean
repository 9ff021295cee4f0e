import Gloora.Lib.Base64
import Gloora.History
import Gloora.Logins

/-!
# Session cookies

Flask keeps the session in a cookie that itsdangerous signs: the payload, the time and an HMAC
of both, joined by dots. The payload holds the flashed messages that no page has shown yet, too.
A browser that cannot forge an HMAC, and is given no other browser's cookie, gets its session
from a cookie that was issued to it, or none at all. So the server with signed cookies does only
what the server of `Gloora.Server` does, where browsers present sessions.
-/

namespace Gloora
set_option autoImplicit false

open PyText Runs

abbrev Bytes := List UInt8

/-- `dict(session)`, with the messages that wait under `_flashes`. -/
structure Contents where
  session : Session := {}
  flashes : List Flash := []
deriving DecidableEq

/-- What the cookies rest on. -/
structure CookieCodec where
  /-- The HMAC under the key that is derived from the app's secret. -/
  mac : Bytes → Bytes
  /-- The contents of a session as JSON, and back; `none` is an exception. -/
  dumps : Contents → Bytes
  loads : Bytes → Option Contents
  /-- `zlib.compress`, `zlib.decompress` -/
  compress : Bytes → Bytes
  decompress : Bytes → Option Bytes
  /-- The exception of `datetime.fromtimestamp`, if any; there is none up to the year 9999. -/
  fromTimestamp : Nat → Option Text
  fromTimestamp_none : ∀ t < 253402300800, fromTimestamp t = none

/-- The dot. -/
def sep : UInt8 := 46

/-- `signed_value.rsplit(sep, 1)`; `none` if there is no separator. -/
def rsplit : Bytes → Option (Bytes × Bytes)
  | [] => none
  | c :: cs =>
    match rsplit cs with
    | some (value, last) => some (c :: value, last)
    | none => if c = sep then some ([], cs) else none

/-- `int_to_bytes`, for an integer of 64 bits. -/
def intToBytes (n : Nat) : Bytes :=
  ([56, 48, 40, 32, 24, 16, 8, 0].map fun k => UInt8.ofNat (n / 2 ^ k)).dropWhile (· == 0)

/-- `bytes_to_int`; `none` is a `struct.error`. -/
def bytesToInt (bytestr : Bytes) : Option Nat :=
  if bytestr.length ≤ 8 then some (bytestr.foldl (fun n c => n * 256 + c.toNat) 0) else none

/-- `PERMANENT_SESSION_LIFETIME` in seconds. -/
def lifetime : Nat := 31 * 86400

namespace CookieCodec
variable (C : CookieCodec)

/-- `URLSafeSerializerMixin.dump_payload` -/
def dumpPayload (c : Contents) : Bytes :=
  let json := C.dumps c
  let compressed := C.compress json
  if compressed.length + 1 < json.length then sep :: Base64.encode compressed
  else Base64.encode json

/-- `URLSafeSerializerMixin.load_payload`; `none` is a `BadPayload`. -/
def loadPayload (payload : Bytes) : Option Contents :=
  if payload.head? = some sep then
    ((Base64.decode payload.tail).bind C.decompress).bind C.loads
  else (Base64.decode payload).bind C.loads

/-- What is signed for a session. -/
def timestamped (c : Contents) (now : Nat) : Bytes :=
  C.dumpPayload c ++ sep :: Base64.encode (intToBytes now)

/-- `dumps` of the signing serializer. -/
def cookie (c : Contents) (now : Nat) : Bytes :=
  C.timestamped c now ++ sep :: Base64.encode (C.mac (C.timestamped c now))

/-- `Signer.verify_signature` -/
def verifySignature (value sig : Bytes) : Bool :=
  match Base64.decode sig with
  | none => false
  | some sig => sig == C.mac value

/-- `TimestampSigner.unsign` with the lifetime of a session; errors are names of exceptions. -/
def unsign (now : Nat) (signed : Bytes) : Except Text Bytes :=
  match rsplit signed with
  | none => .error "BadSignature".toList
  | some (result, sig) =>
    match rsplit result with
    | none =>
      if C.verifySignature result sig then .error "BadTimeSignature".toList
      else .error "BadSignature".toList
    | some (value, tsBytes) =>
      if !C.verifySignature result sig then .error "BadTimeSignature".toList
      else
        match (Base64.decode tsBytes).bind bytesToInt with
        | none => .error "BadTimeSignature".toList
        | some ts =>
          if ts + lifetime < now ∨ now < ts then
            .error ((C.fromTimestamp ts).getD "SignatureExpired".toList)
          else
            match C.fromTimestamp ts with
            | none => .ok value
            | some e => .error e

/-- The exceptions that are a `BadSignature`. -/
def badSignatures : List Text :=
  ["BadSignature".toList, "BadTimeSignature".toList, "SignatureExpired".toList]

/-- `open_session` of Flask on the value of the cookie. -/
def openSession (now : Nat) (val : Option Bytes) : Except Text Contents :=
  match val with
  | none | some [] => .ok {}
  | some val =>
    match C.unsign now val with
    | .error e => if e ∈ badSignatures then .ok {} else .error e
    | .ok payload =>
      match C.loadPayload payload with
      | some c => .ok c
      | none => .error "BadPayload".toList

/-- The contents are read back from their JSON, compressed or not. -/
structure Faithful (c : Contents) : Prop where
  loads : C.loads (C.dumps c) = some c
  decompress : C.decompress (C.compress (C.dumps c)) = some (C.dumps c)

/-- Whoever presents `val` has an HMAC only of the contents that were signed for it, each at its
time: it has forged none, and has been given none that was signed for another. -/
def Unforged (issued : List (Contents × Nat)) (val : Option Bytes) : Prop :=
  ∀ value sig, val = some (value ++ sep :: sig) → sep ∉ sig →
    C.verifySignature value sig = true → ∃ p ∈ issued, value = C.timestamped p.1 p.2

end CookieCodec

section Bytes
variable {b value last : Bytes} {n : Nat}

theorem rsplit_eq_none : rsplit b = none ↔ sep ∉ b := by
  induction b with
  | nil => simp [rsplit]
  | cons c cs ih =>
    rw [rsplit, List.mem_cons, not_or, ← ih]
    cases hrest : rsplit cs with
    | none =>
      by_cases hc : c = sep
      · simp [hc]
      · simp [hc, Ne.symm hc]
    | some r => simp

theorem rsplit_append (value : Bytes) (h : sep ∉ last) :
    rsplit (value ++ sep :: last) = some (value, last) := by
  induction value with
  | nil =>
    rw [List.nil_append, rsplit, rsplit_eq_none.mpr h]
    exact if_pos rfl
  | cons c cs ih => rw [List.cons_append, rsplit, ih]

theorem rsplit_eq_some (h : rsplit b = some (value, last)) :
    b = value ++ sep :: last ∧ sep ∉ last := by
  induction b generalizing value with
  | nil => cases h
  | cons c cs ih =>
    rw [rsplit] at h
    cases hrest : rsplit cs with
    | none =>
      simp only [hrest] at h
      split_ifs at h with hc
      cases h
      exact ⟨by rw [hc, List.nil_append], rsplit_eq_none.mp hrest⟩
    | some r =>
      obtain ⟨front, back⟩ := r
      simp only [hrest, Option.some.injEq, Prod.mk.injEq] at h
      obtain ⟨rfl, rfl⟩ := h
      obtain ⟨hcs, hlast⟩ := ih hrest
      exact ⟨by rw [hcs, List.cons_append], hlast⟩

theorem sep_not_mem_encode (bs : Bytes) : sep ∉ Base64.encode bs := by
  intro h
  obtain ⟨n, hn, heq⟩ := Base64.mem_encode h
  revert heq
  revert n
  decide +kernel

theorem foldl_dropWhile_zero (b : Bytes) :
    (b.dropWhile (· == 0)).foldl (fun n c => n * 256 + c.toNat) 0 =
      b.foldl (fun n c => n * 256 + c.toNat) 0 := by
  induction b with
  | nil => rfl
  | cons c cs ih =>
    by_cases hc : c = 0
    · subst hc
      exact ih
    · rw [List.dropWhile_cons_of_neg (by simpa using hc)]

theorem bytesToInt_intToBytes (h : n < 2 ^ 64) : bytesToInt (intToBytes n) = some n := by
  have hlength : (intToBytes n).length ≤ 8 := (List.dropWhile_sublist _).length_le
  rw [bytesToInt, if_pos hlength, intToBytes, foldl_dropWhile_zero]
  simp only [List.map_cons, List.map_nil, List.foldl_cons, List.foldl_nil, UInt8.toNat_ofNat']
  congr 1
  omega

end Bytes

section Signatures
variable {C : CookieCodec} {c : Contents} {issued : List (Contents × Nat)} {now t : Nat}
  {val : Option Bytes} {signed sig payload : Bytes}

theorem loadPayload_dumpPayload (h : C.Faithful c) : C.loadPayload (C.dumpPayload c) = some c := by
  unfold CookieCodec.dumpPayload
  simp only
  split
  · rw [CookieCodec.loadPayload, List.head?_cons, if_pos rfl, List.tail_cons, Base64.decode_encode,
      Option.bind_some, h.decompress, Option.bind_some, h.loads]
  · have hhead : (Base64.encode (C.dumps c)).head? ≠ some sep :=
      fun heq => sep_not_mem_encode _ (List.mem_of_head? heq)
    rw [CookieCodec.loadPayload, if_neg hhead, Base64.decode_encode, Option.bind_some, h.loads]

theorem verifySignature_mac (C : CookieCodec) (value : Bytes) :
    C.verifySignature value (Base64.encode (C.mac value)) = true := by
  rw [CookieCodec.verifySignature, Base64.decode_encode]
  exact beq_self_eq_true _

/-- What `unsign` makes of a text whose signature is the one of some contents and a time. -/
theorem unsign_timestamped (now : Nat) (hsep : sep ∉ sig) (ht : t < 253402300800)
    (hsig : C.verifySignature (C.timestamped c t) sig = true) :
    C.unsign now (C.timestamped c t ++ sep :: sig) =
      if t + lifetime < now ∨ now < t then .error "SignatureExpired".toList
      else .ok (C.dumpPayload c) := by
  have hsplit : rsplit (C.timestamped c t) =
      some (C.dumpPayload c, Base64.encode (intToBytes t)) :=
    rsplit_append _ (sep_not_mem_encode _)
  have htime : (Base64.decode (Base64.encode (intToBytes t))).bind bytesToInt = some t := by
    rw [Base64.decode_encode, Option.bind_some]
    exact bytesToInt_intToBytes (Nat.lt_trans ht (by decide))
  unfold CookieCodec.unsign
  simp only [rsplit_append _ hsep, hsplit, hsig, htime, C.fromTimestamp_none t ht, Bool.not_true,
    Bool.false_eq_true, if_false, Option.getD_none]

/-- A text that is not signed is no session. -/
theorem unsign_unsigned (now : Nat) (h : ∀ value sig, signed = value ++ sep :: sig → sep ∉ sig →
    C.verifySignature value sig = false) : ∃ e ∈ CookieCodec.badSignatures,
      C.unsign now signed = .error e := by
  unfold CookieCodec.unsign
  cases hsplit : rsplit signed with
  | none => exact ⟨_, by simp [CookieCodec.badSignatures], rfl⟩
  | some r =>
    obtain ⟨result, sig⟩ := r
    obtain ⟨heq, hsep⟩ := rsplit_eq_some hsplit
    have hsig : C.verifySignature result sig = false := h _ _ heq hsep
    simp only [hsig]
    cases rsplit result with
    | none => exact ⟨_, by simp [CookieCodec.badSignatures], rfl⟩
    | some r => exact ⟨_, by simp [CookieCodec.badSignatures], rfl⟩

theorem openSession_error {e : Text} (he : e ∈ CookieCodec.badSignatures)
    (h : C.unsign now signed = .error e) : C.openSession now (some signed) = .ok {} := by
  unfold CookieCodec.openSession
  split
  · rfl
  · rfl
  · rename_i val hne heq
    cases heq
    rw [h]
    exact if_pos he

theorem openSession_ok (hne : signed ≠ []) (h : C.unsign now signed = .ok payload)
    (hc : C.loadPayload payload = some c) : C.openSession now (some signed) = .ok c := by
  unfold CookieCodec.openSession
  split
  · rename_i heq
    cases heq
  · rename_i heq
    exact absurd (Option.some.inj heq) hne
  · rename_i val _ heq
    cases heq
    simp only [h, hc]

/-- A session in a cookie is read as long as it lives. -/
theorem openSession_cookie (hc : C.Faithful c) (ht : t < 253402300800) (hafter : t ≤ now)
    (hbefore : now ≤ t + lifetime) : C.openSession now (some (C.cookie c t)) = .ok c := by
  have hunsign : C.unsign now (C.cookie c t) = .ok (C.dumpPayload c) := by
    rw [CookieCodec.cookie, unsign_timestamped _ (sep_not_mem_encode _) ht
      (verifySignature_mac C _)]
    exact if_neg (by omega)
  exact openSession_ok (by simp [CookieCodec.cookie]) hunsign (loadPayload_dumpPayload hc)

/-- A browser that has been sent a cookie forges nothing when it presents it. -/
theorem unforged_cookie (h : (c, t) ∈ issued) : C.Unforged issued (some (C.cookie c t)) := by
  intro value sig heq hsep _
  have hsplit : rsplit (C.cookie c t) =
      some (C.timestamped c t, Base64.encode (C.mac (C.timestamped c t))) :=
    rsplit_append _ (sep_not_mem_encode _)
  rw [Option.some.inj heq, rsplit_append value hsep] at hsplit
  cases hsplit
  exact ⟨(c, t), h, rfl⟩

/-- A browser that cannot forge an HMAC has a session that was issued to it, or none. -/
theorem openSession_unforged (now : Nat)
    (hissued : ∀ p ∈ issued, C.Faithful p.1 ∧ p.2 < 253402300800) (hval : C.Unforged issued val) :
    ∃ c, C.openSession now val = .ok c ∧
      (c = {} ∨ ∃ t, (c, t) ∈ issued ∧ t ≤ now ∧ now ≤ t + lifetime) := by
  cases val with
  | none => exact ⟨{}, rfl, .inl rfl⟩
  | some signed =>
    by_cases hsigned : ∃ value sig, signed = value ++ sep :: sig ∧ sep ∉ sig ∧
        C.verifySignature value sig = true
    · obtain ⟨value, sig, rfl, hsep, hsig⟩ := hsigned
      obtain ⟨⟨c, t⟩, hmem, rfl⟩ := hval value sig rfl hsep hsig
      obtain ⟨hc, ht⟩ := hissued _ hmem
      have hunsign := unsign_timestamped now hsep ht hsig
      by_cases hlives : t + lifetime < now ∨ now < t
      · rw [if_pos hlives] at hunsign
        exact ⟨{}, openSession_error (by simp [CookieCodec.badSignatures]) hunsign, .inl rfl⟩
      · rw [if_neg hlives] at hunsign
        exact ⟨c, openSession_ok (by simp) hunsign (loadPayload_dumpPayload hc),
          .inr ⟨t, hmem, by omega, by omega⟩⟩
    · -- without a genuine HMAC the cookie counts as absent
      have hunsigned : ∀ value sig, signed = value ++ sep :: sig → sep ∉ sig →
          C.verifySignature value sig = false := by
        intro value sig heq hsep
        rw [Bool.eq_false_iff]
        exact fun hsig => hsigned ⟨value, sig, heq, hsep, hsig⟩
      obtain ⟨e, he, herror⟩ := unsign_unsigned now hunsigned
      exact ⟨{}, openSession_error he herror, .inl rfl⟩

end Signatures

/-- The templates that show the messages, and so take them out of the session. -/
def messageTemplates : List Text :=
  ["male_page.html".toList, "female_page.html".toList, "forgot_password_male.html".toList,
    "verify_otp.html".toList, "reset_password.html".toList, "register_salon.html".toList]

/-- The messages that wait in the session after the request, where `queue` did before. -/
def Event.waiting (e : Event) (queue : List Flash) : List Flash :=
  let flashes := (if e.restarts then [] else queue) ++ e.outcome.flashes
  match e.outcome.body with
  | .page template => if template ∈ messageTemplates then [] else flashes
  | _ => flashes

/-- The server with signed cookies; `cookies b` holds what was signed for browser `b`, each with
the second in which it was. -/
structure Sealed where
  db : Db
  cookies : Nat → List (Contents × Nat)

def Sealed.init : Sealed := ⟨initAllDatabases, fun _ => []⟩

/-- One request with a cookie of its browser. Flask signs a session only if the handler has
touched it. -/
structure SealedStep (P : Platform) (C : CookieCodec) (τ : Sealed) (e : Event) (τ' : Sealed) :
    Prop where
  opened : ∃ val queue, C.Unforged (τ.cookies e.browser) val ∧
    C.openSession e.env.unixTime val = .ok ⟨e.cookie, queue⟩ ∧
    (τ'.cookies = τ.cookies ∨ τ'.cookies = Function.update τ.cookies e.browser
      ((⟨e.outcome.session, e.waiting queue⟩, e.env.unixTime) :: τ.cookies e.browser))
  before : e.before = τ.db
  served : e.outcome = handle P e.env e.before e.cookie e.request
  db : τ'.db = e.outcome.db

section Runs
variable {P : Platform} {C : CookieCodec} {τ τ' : Sealed} {e : Event} {es : List Event} {σ : Sys}
  {b : Nat} {p : Contents × Nat}

/-- All that was signed can be read back, and none of it after the year 9999. -/
def Sealed.Readable (C : CookieCodec) (τ : Sealed) : Prop :=
  ∀ b, ∀ p ∈ τ.cookies b, C.Faithful p.1 ∧ p.2 < 253402300800

/-- The server of `Gloora.Server` beside the one with signed cookies. -/
structure Unseals (τ : Sealed) (σ : Sys) : Prop where
  db : σ.db = τ.db
  jar : ∀ b, ∀ p ∈ τ.cookies b, p.1.session ∈ σ.jar b

theorem unseals_init : Unseals Sealed.init Sys.init := by
  refine ⟨rfl, ?_⟩
  intro b p hp
  cases hp

theorem Unseals.opens (h : Unseals τ σ) (hread : τ.Readable C) (b now : Nat) {val : Option Bytes}
    (hval : C.Unforged (τ.cookies b) val) :
    ∃ c, C.openSession now val = .ok c ∧ (c = {} ∨ c.session ∈ σ.jar b) := by
  obtain ⟨c, hopen, hc⟩ := openSession_unforged now (hread b) hval
  refine ⟨c, hopen, hc.imp_right ?_⟩
  intro hissued
  obtain ⟨t, hmem, -, -⟩ := hissued
  exact h.jar b (c, t) hmem

theorem SealedStep.signed (hstep : SealedStep P C τ e τ') : τ'.cookies = τ.cookies ∨
    ∃ flashes, τ'.cookies = Function.update τ.cookies e.browser
      ((⟨e.outcome.session, flashes⟩, e.env.unixTime) :: τ.cookies e.browser) := by
  obtain ⟨val, queue, -, -, hcookies⟩ := hstep.opened
  exact hcookies.imp_right fun heq => ⟨_, heq⟩

theorem SealedStep.cookies_grow (hstep : SealedStep P C τ e τ') (hp : p ∈ τ.cookies b) :
    p ∈ τ'.cookies b := by
  rcases hstep.signed with heq | ⟨flashes, heq⟩
  · exact heq ▸ hp
  · rw [heq]
    by_cases hb : b = e.browser
    · subst hb
      rw [Function.update_self]
      exact List.mem_cons_of_mem _ hp
    · rwa [Function.update_of_ne hb]

theorem SealedStep.mem_cookies (hstep : SealedStep P C τ e τ') (hp : p ∈ τ'.cookies b) :
    p ∈ τ.cookies b ∨ (b = e.browser ∧ p.1.session = e.outcome.session) := by
  rcases hstep.signed with heq | ⟨flashes, heq⟩
  · exact .inl (heq ▸ hp)
  · rw [heq] at hp
    by_cases hb : b = e.browser
    · subst hb
      rw [Function.update_self, List.mem_cons] at hp
      exact hp.symm.imp_right fun hnew => ⟨rfl, congrArg (fun p => p.1.session) hnew⟩
    · rw [Function.update_of_ne hb] at hp
      exact .inl hp

theorem SealedStep.readable (hstep : SealedStep P C τ e τ') (h : τ'.Readable C) : τ.Readable C :=
  fun b p hp => h b p (hstep.cookies_grow hp)

theorem mem_jar_after {s : Session} (h : s ∈ σ.jar b) (e : Event) : s ∈ (σ.after e).jar b := by
  by_cases hb : b = e.browser
  · subst hb
    simp [Sys.after, h]
  · simp [Sys.after, hb, h]

theorem Unseals.step (h : Unseals τ σ) (hread : τ.Readable C) (hstep : SealedStep P C τ e τ') :
    Step P σ e (σ.after e) ∧ Unseals τ' (σ.after e) := by
  obtain ⟨val, queue, hval, hopen, -⟩ := hstep.opened
  obtain ⟨c, hc, hissued⟩ := h.opens hread e.browser e.env.unixTime hval
  obtain rfl : ⟨e.cookie, queue⟩ = c := Except.ok.inj (hopen.symm.trans hc)
  have hpresented : e.cookie = {} ∨ e.cookie ∈ σ.jar e.browser :=
    hissued.imp_left fun hempty => congrArg Contents.session hempty
  refine ⟨⟨hpresented, hstep.before.trans h.db.symm, hstep.served, rfl, rfl⟩, hstep.db.symm, ?_⟩
  intro b p hp
  rcases hstep.mem_cookies hp with hold | ⟨rfl, hnew⟩
  · exact mem_jar_after (h.jar b p hold) e
  · simp [Sys.after, hnew]

theorem unseals_run (h : Run (SealedStep P C) Sealed.init es τ) (hread : τ.Readable C) :
    ∃ σ, Run (Step P) Sys.init es σ ∧ Unseals τ σ := by
  induction h with
  | nil => exact ⟨Sys.init, .nil, unseals_init⟩
  | @snoc es τ υ e _ hstep ih =>
    obtain ⟨σ, hrun, hσ⟩ := ih (hstep.readable hread)
    obtain ⟨hnext, hafter⟩ := hσ.step (hstep.readable hread) hstep
    exact ⟨σ.after e, .snoc hrun hnext, hafter⟩

/-- The server with signed cookies does only what the server of `Gloora.Server` does, as long as
nobody forges an HMAC and no browser gives its cookies to another: no cookie makes it fail, each
is read as a session that was issued to its browser, or as none, and the ones it has signed are
read for 31 days, with the messages in them. -/
theorem signed_cookies_refine (h : Run (SealedStep P C) Sealed.init es τ) (hread : τ.Readable C) :
    ∃ σ, Run (Step P) Sys.init es σ ∧ σ.db = τ.db ∧
      (∀ b now val, C.Unforged (τ.cookies b) val →
        ∃ c, C.openSession now val = .ok c ∧ (c = {} ∨ c.session ∈ σ.jar b)) ∧
      ∀ b c t now, (c, t) ∈ τ.cookies b → t ≤ now → now ≤ t + lifetime →
        C.openSession now (some (C.cookie c t)) = .ok c := by
  obtain ⟨σ, hrun, hσ⟩ := unseals_run h hread
  refine ⟨σ, hrun, hσ.db, fun b now val hval => hσ.opens hread b now hval, ?_⟩
  intro b c t now hmem hafter hbefore
  obtain ⟨hc, ht⟩ := hread b (c, t) hmem
  exact openSession_cookie hc ht hafter hbefore

end Runs

def bytes (s : String) : Bytes := s.toList.map fun c => .ofNat c.toNat

/-- The session of the administrator after the login, with its message. -/
def adminContents : Contents where
  session := adminSession
  flashes := [⟨"Admin Login Successful".toList, "success".toList⟩]

def adminJson : Bytes :=
  bytes "\x7b\"_flashes\":[\x7b\" t\":[\"success\",\"Admin Login Successful\"]\x7d],\"admin\":true\x7d"

def adminDeflated : Bytes :=
  [120, 156, 171, 86, 138, 79, 203, 73, 44, 206, 72, 45, 86, 178, 138, 174, 86, 82, 40, 1, 82, 74,
    197, 165, 201, 201, 169, 197, 197, 74, 58, 74, 142, 41, 185, 153, 121, 10, 62, 249, 233, 64, 50,
    24, 34, 154, 86, 154, 163, 20, 91, 27, 171, 163, 148, 8, 146, 83, 178, 42, 41, 42, 77, 173, 5, 0,
    96, 237, 24, 152]

/-- What the app computes for that session at one moment. -/
def adminCodec : CookieCodec where
  mac value :=
    if value = bytes ("eyJfZmxhc2hlcyI6W3siIHQiOlsic3VjY2VzcyIsIkFkbWluIExvZ2luIFN1Y2Nlc3NmdWwiX" ++
      "X1dLCJhZG1pbiI6dHJ1ZX0.ZVPxAA") then
      [167, 30, 98, 212, 16, 110, 132, 161, 101, 44, 121, 140, 7, 131, 85, 231, 111, 178, 197, 35]
    else []
  dumps c := if c = adminContents then adminJson else []
  loads json := if json = adminJson then some adminContents else none
  compress json := if json = adminJson then adminDeflated else []
  decompress compressed := if compressed = adminDeflated then some adminJson else none
  fromTimestamp t := if t < 253402300800 then none else some "ValueError".toList
  fromTimestamp_none _ h := if_pos h

def adminInput (now : Nat) (request : Request) : Input :=
  ⟨1, { calmly 0 "order" with unixTime := now }, request⟩

def adminLogin : Event :=
  Sys.init.event administered (adminInput 1700000000 (.loginPage (some adminForm)))

/-- Ten days later. -/
def adminVisit : Event :=
  (Sys.init.after adminLogin).event administered (adminInput 1700864000 .adminDashboard)

def adminCookie : Bytes :=
  bytes ("eyJfZmxhc2hlcyI6W3siIHQiOlsic3VjY2VzcyIsIkFkbWluIExvZ2luIFN1Y2Nlc3NmdWwiXX1dLCJhZG1pbiI6" ++
    "dHJ1ZX0.ZVPxAA.px5i1BBuhKFlLHmMB4NV52-yxSM")

theorem adminCookie_eq : adminCodec.cookie adminContents 1700000000 = adminCookie := by
  decide +kernel

theorem adminContents_faithful : adminCodec.Faithful adminContents := ⟨by decide, by decide⟩

def adminCookies : Nat → List (Contents × Nat) :=
  Function.update (fun _ => []) 1 [(adminContents, 1700000000)]

/-- The administrator logs in, and comes back with the cookie. -/
theorem sealed_visit : ∃ τ, Run (SealedStep administered adminCodec) Sealed.init
    [adminLogin, adminVisit] τ ∧ τ.cookies = adminCookies := by
  have hlogin : (⟨adminLogin.outcome.session, adminLogin.waiting []⟩ : Contents) = adminContents := by
    decide +kernel
  let τ : Sealed := ⟨adminLogin.outcome.db, adminCookies⟩
  have hfirst : SealedStep administered adminCodec Sealed.init adminLogin τ := by
    refine ⟨⟨none, [], ?_, rfl, .inr ?_⟩, rfl, rfl, rfl⟩
    · intro value sig heq
      cases heq
    · rw [hlogin]
      rfl
  have hsecond : SealedStep administered adminCodec τ adminVisit
      ⟨adminVisit.outcome.db, τ.cookies⟩ := by
    refine ⟨⟨some (adminCodec.cookie adminContents 1700000000), adminContents.flashes, ?_, ?_,
      .inl rfl⟩, rfl, rfl, rfl⟩
    · exact unforged_cookie (by simp [τ, adminCookies, adminVisit, Sys.event, adminInput])
    · exact openSession_cookie adminContents_faithful (by decide) (by decide) (by decide)
  exact ⟨_, (Run.nil.snoc hfirst).snoc hsecond, rfl⟩

theorem signed_cookies_refine_admin : ∃ σ,
    Run (Step administered) Sys.init [adminLogin, adminVisit] σ ∧
      adminVisit.cookie = adminSession ∧
        adminCodec.openSession 1700864000 (some adminCookie) = .ok adminContents := by
  obtain ⟨τ, hrun, hcookies⟩ := sealed_visit
  have hread : τ.Readable adminCodec := by
    intro b p hp
    rw [hcookies] at hp
    by_cases hb : b = 1
    · subst hb
      obtain rfl : p = (adminContents, 1700000000) := by simpa [adminCookies] using hp
      exact ⟨adminContents_faithful, by decide⟩
    · simp [adminCookies, hb] at hp
  obtain ⟨σ, hsteps, -, -, hopens⟩ := signed_cookies_refine hrun hread
  refine ⟨σ, hsteps, by decide +kernel, ?_⟩
  rw [← adminCookie_eq]
  exact hopens 1 _ _ _ (by simp [hcookies, adminCookies]) (by decide) (by decide)

end Gloora
