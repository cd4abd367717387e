import WaOps.Lib.Hex
import WaOps.Lib.JsNumber

namespace WaOps.Notify
open Lib

def webhookTimestampToleranceSeconds : ℤ := 300

/-- The 32 bytes of a SHA-256 digest. -/
@[ext]
structure Digest where
  bytes : List UInt8
  length_eq : bytes.length = 32

/-- The signature is any text of code units; of the other texts only their characters count. -/
structure SignatureInput where
  secret : String
  signature : List UInt16
  timestamp : String
  deliveryId : String
  body : String
  nowSeconds : Option ℤ := none
  deriving DecidableEq, Repr

inductive Reason where
  | badTimestamp | expired | mismatch
  deriving DecidableEq, Repr

structure Verdict where
  ok : Bool
  reason : Option Reason := none
  deriving DecidableEq, Repr

structure RangeError where
  code : String
  deriving DecidableEq, Repr

/-- `timingSafeEqual`, which throws on buffers of different lengths. -/
def timingSafeEqual (a b : List UInt8) : Except RangeError Bool :=
  if a.length ≠ b.length then .error { code := "ERR_CRYPTO_TIMING_SAFE_EQUAL_LENGTH" }
  else .ok (a = b)

def signedMessage (timestamp deliveryId body : String) : String :=
  timestamp ++ "." ++ deliveryId ++ "." ++ body

/-- `signature.replace(/^sha256=/, '')` -/
def providedSignature (signature : List UInt16) : List UInt16 :=
  if (Js.units "sha256=").isPrefixOf signature then signature.drop (Js.units "sha256=").length
  else signature

/-- `nowSeconds ?? Math.floor(Date.now() / 1000)` -/
def SignatureInput.now (dateNow : ℤ) (input : SignatureInput) : ℤ :=
  input.nowSeconds.getD (dateNow / 1000)

variable (hmac : String → String → Digest)

def SignatureInput.digest (input : SignatureInput) : List UInt8 :=
  (hmac input.secret (signedMessage input.timestamp input.deliveryId input.body)).bytes

def verifyWebhookSignature (dateNow : ℤ) (input : SignatureInput) : Except RangeError Verdict :=
  match (Js.number input.timestamp).integer with
  | none => .ok { ok := false, reason := some .badTimestamp }
  | some ts =>
    if Js.length input.timestamp > 20 then .ok { ok := false, reason := some .badTimestamp }
    else if |input.now dateNow - ts| > webhookTimestampToleranceSeconds then
      .ok { ok := false, reason := some .expired }
    else
      let expected := Js.units (String.ofList (Hex.encode (input.digest hmac)))
      let provided := providedSignature input.signature
      if provided.length ≠ expected.length then
        .ok { ok := false, reason := some .mismatch }
      else
        match timingSafeEqual (Hex.decode expected) (Hex.decode provided) with
        | .ok true => .ok { ok := true }
        | .ok false => .ok { ok := false, reason := some .mismatch }
        | .error e => .error e

/-- The headers a webhook is sent with, besides its content type. -/
structure WebhookHeaders where
  delivery : String
  timestamp : String
  signature : Option String
  deriving DecidableEq, Repr

/-- A secret that is missing or empty signs nothing. -/
def webhookHeaders (secret : Option String) (dateNow : ℤ) (deliveryId payload : String) :
    WebhookHeaders :=
  let timestamp := Js.integerText (dateNow / 1000)
  let signed := signedMessage timestamp deliveryId payload
  { delivery := deliveryId
    timestamp
    signature := (secret.filter (· ≠ "")).map fun s =>
      "sha256=" ++ String.ofList (Hex.encode (hmac s signed).bytes) }

/-- The timestamp has at most 20 characters and denotes an integer close to the current time. -/
def Timely (dateNow : ℤ) (input : SignatureInput) : Prop :=
  Js.length input.timestamp ≤ 20 ∧ ∃ ts : ℤ, Js.number input.timestamp = .finite ts ∧
    |input.now dateNow - ts| ≤ webhookTimestampToleranceSeconds

/-- The signature, less an optional prefix, is the digest in hexadecimal digits of either case. -/
def Signed (input : SignatureInput) : Prop :=
  ∃ digits : List Char, providedSignature input.signature = Js.units (String.ofList digits) ∧
    digits.map Char.toLower = Hex.encode (input.digest hmac)

/-- The low bytes of the signature are the digits of the digest. -/
def Reads (input : SignatureInput) : Prop :=
  ((providedSignature input.signature).map Hex.lowByte).map Char.toLower =
    Hex.encode (input.digest hmac)

/-- The signature has the length of a digest's text and a unit whose low byte is no digit. -/
def Truncated (input : SignatureInput) : Prop :=
  (providedSignature input.signature).length = 64 ∧
    ∃ u ∈ providedSignature input.signature, Hex.isHex (Hex.lowByte u) = false

/-- The low bytes of the signature are the digits of the digest, and it has a unit of two bytes. -/
def Disguised (input : SignatureInput) : Prop :=
  Reads hmac input ∧ ∃ u ∈ providedSignature input.signature, 256 ≤ u.toNat

variable {hmac} {dateNow : ℤ} {input : SignatureInput} {cs : List Char} {us : List UInt16}

theorem units_of_small (h : ∀ c ∈ cs, c.toNat < 0x10000) :
    Js.length (String.ofList cs) = cs.length := by
  induction cs with
  | nil => rfl
  | cons c cs ih =>
    obtain ⟨hc, hcs⟩ := List.forall_mem_cons.mp h
    have hcons : Js.length (String.ofList (c :: cs)) = 1 + Js.length (String.ofList cs) := by
      simp [Js.length, hc]
    rw [hcons, ih hcs, List.length_cons, Nat.add_comm]

theorem digest_length : (input.digest hmac).length = 32 :=
  Digest.length_eq _

theorem expected_length :
    (Js.units (String.ofList (Hex.encode (input.digest hmac)))).length = 64 := by
  have hread := congrArg List.length (Hex.lowByte_encode (input.digest hmac))
  rwa [List.length_map, Hex.encode_length, digest_length] at hread

/-- A text as long as a digest's decodes to as many bytes exactly when it reads as digits. -/
theorem decode_digest_length (h : us.length = 64) :
    (Hex.decode us).length = 32 ↔ ∀ u ∈ us, Hex.isHex (Hex.lowByte u) = true := by
  rw [Hex.decode, Hex.decodeDigits_length_iff (by rw [List.length_map, h]), List.forall_mem_map]

theorem reads_iff (h : (providedSignature input.signature).length = 64) :
    Reads hmac input ↔ Hex.decode (providedSignature input.signature) = input.digest hmac := by
  rw [Hex.decode, Hex.decodeDigits_iff (by rw [List.length_map, h, digest_length]), Reads]

/-- What reads as a digest is as long as its text and reads as digits. -/
theorem reads_digits (h : Reads hmac input) : (providedSignature input.signature).length = 64 ∧
    ∀ u ∈ providedSignature input.signature, Hex.isHex (Hex.lowByte u) = true := by
  obtain ⟨hlen, hhex⟩ := Hex.isHex_of_lower h
  rw [List.length_map, digest_length] at hlen
  exact ⟨hlen, List.forall_mem_map.mp hhex⟩

/-- A signature is the digest's text where it reads as one and its units are of one byte. -/
theorem signed_iff_reads :
    Signed hmac input ↔
      Reads hmac input ∧ ∀ u ∈ providedSignature input.signature, u.toNat < 256 := by
  constructor
  · rintro ⟨digits, hprovided, hlower⟩
    have hsmall : ∀ c ∈ digits, c.toNat < 256 := by
      intro c hc
      have := Hex.isHex_small ((Hex.isHex_of_lower hlower).2 c hc)
      omega
    rw [Reads, hprovided, Hex.lowByte_units hsmall]
    exact ⟨hlower, Hex.units_small hsmall⟩
  · rintro ⟨hreads, hsmall⟩
    exact ⟨_, (Hex.units_lowByte hsmall).symm, hreads⟩

/-- The receiver's answer to a timely request, by the text it is given as a signature. -/
theorem verify_timely (h : Timely dateNow input) :
    verifyWebhookSignature hmac dateNow input =
      if (providedSignature input.signature).length ≠ 64 then
        .ok { ok := false, reason := some .mismatch }
      else
        match timingSafeEqual (input.digest hmac)
          (Hex.decode (providedSignature input.signature)) with
        | .ok true => .ok { ok := true }
        | .ok false => .ok { ok := false, reason := some .mismatch }
        | .error e => .error e := by
  obtain ⟨hlen, ts, hts, hclose⟩ := h
  have hinteger : (Js.number input.timestamp).integer = some ts := Js.integer_iff.mpr hts
  simp only [verifyWebhookSignature, hinteger]
  rw [if_neg (not_lt.mpr hlen), if_neg (not_lt.mpr hclose), expected_length, Hex.decode_encode]

/-- What is not timely is refused. -/
theorem verify_untimely (hmac : String → String → Digest) (h : ¬Timely dateNow input) :
    ∃ reason, verifyWebhookSignature hmac dateNow input =
      .ok { ok := false, reason := some reason } := by
  unfold verifyWebhookSignature
  split
  · exact ⟨_, rfl⟩
  · rename_i ts hinteger
    split
    · exact ⟨_, rfl⟩
    · rename_i hlen
      split
      · exact ⟨_, rfl⟩
      · rename_i hclose
        exact absurd ⟨not_lt.mp hlen, ts, Js.integer_iff.mp hinteger, not_lt.mp hclose⟩ h

theorem timingSafeEqual_eq {a b : List UInt8} (h : a.length = b.length) :
    timingSafeEqual a b = .ok (a = b) :=
  if_neg (not_not_intro h)

/-- A text of a digest's length that reads as digits is compared to the digest. -/
theorem verify_digits (hmac : String → String → Digest) (h : Timely dateNow input)
    (hunits : (providedSignature input.signature).length = 64)
    (hhex : ∀ u ∈ providedSignature input.signature, Hex.isHex (Hex.lowByte u) = true) :
    ∃ v, verifyWebhookSignature hmac dateNow input = .ok v ∧ (v.ok = true ↔ Reads hmac input) := by
  have hlen := (decode_digest_length hunits).mpr hhex
  rw [verify_timely h, if_neg (not_not_intro hunits),
    timingSafeEqual_eq (digest_length.trans hlen.symm), reads_iff hunits]
  by_cases heq : input.digest hmac = Hex.decode (providedSignature input.signature)
  · rw [decide_eq_true heq]
    exact ⟨_, rfl, fun _ => heq.symm, fun _ => rfl⟩
  · rw [decide_eq_false heq]
    exact ⟨_, rfl, fun hfalse => absurd hfalse Bool.false_ne_true, fun hd => absurd hd.symm heq⟩

/-- A text of a digest's length that does not read as digits makes the comparison throw. -/
theorem verify_truncated (hmac : String → String → Digest) (h : Timely dateNow input)
    (ht : Truncated input) : ∃ e, verifyWebhookSignature hmac dateNow input = .error e := by
  obtain ⟨hunits, u, hu, hhex⟩ := ht
  have hlen : (input.digest hmac).length ≠
      (Hex.decode (providedSignature input.signature)).length := by
    rw [digest_length]
    intro heq
    have hall := (decode_digest_length hunits).mp heq.symm u hu
    rw [hhex] at hall
    cases hall
  rw [verify_timely h, if_neg (not_not_intro hunits), timingSafeEqual, if_pos hlen]
  exact ⟨_, rfl⟩

theorem truncated_iff (hunits : (providedSignature input.signature).length = 64) :
    Truncated input ↔
      ¬∀ u ∈ providedSignature input.signature, Hex.isHex (Hex.lowByte u) = true := by
  unfold Truncated
  rw [and_iff_right hunits]
  simp only [not_forall, exists_prop, Bool.not_eq_true]

theorem verify_returns_iff (hmac : String → String → Digest) :
    (∃ v, verifyWebhookSignature hmac dateNow input = .ok v) ↔
      ¬(Timely dateNow input ∧ Truncated input) := by
  constructor
  · rintro ⟨v, hv⟩ ⟨htimely, htruncated⟩
    obtain ⟨e, he⟩ := verify_truncated hmac htimely htruncated
    rw [he] at hv
    cases hv
  · intro h
    by_cases htimely : Timely dateNow input
    · by_cases hunits : (providedSignature input.signature).length = 64
      · have hhex := not_not.mp (mt (truncated_iff hunits).mpr fun ht => h ⟨htimely, ht⟩)
        obtain ⟨v, hv, -⟩ := verify_digits hmac htimely hunits hhex
        exact ⟨v, hv⟩
      · rw [verify_timely htimely, if_pos hunits]
        exact ⟨_, rfl⟩
    · obtain ⟨reason, hreason⟩ := verify_untimely hmac htimely
      exact ⟨_, hreason⟩

/-- What is accepted is timely and reads as the digest, and what is and does is accepted. -/
theorem verify_accepts_iff (hmac : String → String → Digest) :
    (∃ v, verifyWebhookSignature hmac dateNow input = .ok v ∧ v.ok = true) ↔
      Timely dateNow input ∧ Reads hmac input := by
  constructor
  · rintro ⟨v, hv, hok⟩
    have htimely : Timely dateNow input := by
      by_contra hlate
      obtain ⟨reason, hreason⟩ := verify_untimely hmac hlate
      rw [hreason] at hv
      cases hv
      cases hok
    refine ⟨htimely, ?_⟩
    by_cases hunits : (providedSignature input.signature).length = 64
    · have hall := (verify_returns_iff hmac).mp ⟨v, hv⟩
      have hhex := not_not.mp (mt (truncated_iff hunits).mpr fun ht => hall ⟨htimely, ht⟩)
      obtain ⟨v', hv', hreads⟩ := verify_digits hmac htimely hunits hhex
      obtain rfl := Except.ok.inj (hv.symm.trans hv')
      exact hreads.mp hok
    · rw [verify_timely htimely, if_pos hunits] at hv
      cases hv
      cases hok
  · rintro ⟨htimely, hreads⟩
    obtain ⟨hunits, hhex⟩ := reads_digits hreads
    obtain ⟨v, hv, hiff⟩ := verify_digits hmac htimely hunits hhex
    exact ⟨v, hv, hiff.mpr hreads⟩

/-- Accepting what is signed, no more, is refusing what is disguised. -/
theorem accepts_signed_iff {v : Verdict} (hv : verifyWebhookSignature hmac dateNow input = .ok v) :
    (v.ok = true ↔ Timely dateNow input ∧ Signed hmac input) ↔
      ¬(Timely dateNow input ∧ Disguised hmac input) := by
  have hok : v.ok = true ↔ Timely dateNow input ∧ Reads hmac input := by
    rw [← verify_accepts_iff hmac]
    constructor
    · intro hok
      exact ⟨v, hv, hok⟩
    · rintro ⟨v', hv', hok⟩
      obtain rfl := Except.ok.inj (hv.symm.trans hv')
      exact hok
  have hlarge : (∃ u ∈ providedSignature input.signature, 256 ≤ u.toNat) ↔
      ¬∀ u ∈ providedSignature input.signature, u.toNat < 256 := by
    simp only [not_forall, exists_prop, not_lt]
  rw [hok, signed_iff_reads, Disguised, hlarge]
  tauto

/-- The receiver answers, and accepts exactly the timely requests that are signed, unless a
timely request carries a text of a digest's length that does not read as digits, or one that
reads as the digest and is not its text. -/
theorem verify_conforms_iff (hmac : String → String → Digest) (dateNow : ℤ)
    (input : SignatureInput) :
    (∃ v, verifyWebhookSignature hmac dateNow input = .ok v ∧
        (v.ok = true ↔ Timely dateNow input ∧ Signed hmac input)) ↔
      ¬(Timely dateNow input ∧ (Truncated input ∨ Disguised hmac input)) := by
  rw [and_or_left, not_or, ← verify_returns_iff hmac]
  constructor
  · rintro ⟨v, hv, hok⟩
    exact ⟨⟨v, hv⟩, (accepts_signed_iff hv).mp hok⟩
  · rintro ⟨⟨v, hv⟩, hplain⟩
    exact ⟨v, hv, (accepts_signed_iff hv).mpr hplain⟩

/-- HMAC-SHA256 of `1800000000.dlv_1.{}` under `whsec_test_123`. -/
def sampleDigest : Digest where
  bytes := [43, 11, 45, 142, 158, 252, 57, 66, 218, 69, 151, 209, 159, 198, 83, 144, 223, 186,
    190, 27, 236, 148, 30, 172, 221, 187, 85, 67, 157, 164, 143, 152]
  length_eq := rfl

/-- A timely request with a signature. -/
def delivered (signature : String) : SignatureInput :=
  { secret := "whsec_test_123"
    signature := Js.units signature
    timestamp := "1800000000"
    deliveryId := "dlv_1"
    body := "\x7b\x7d"
    nowSeconds := some 1800000000 }

/-- A signature of the letter g 64 times. -/
def garbled : SignatureInput :=
  delivered "gggggggggggggggggggggggggggggggggggggggggggggggggggggggggggggggg"

theorem garbled_throws :
    ¬∃ v, verifyWebhookSignature (fun _ _ => sampleDigest) 0 garbled = .ok v ∧
      (v.ok = true ↔ Timely 0 garbled ∧ Signed (fun _ _ => sampleDigest) garbled) := by
  have hthrown : verifyWebhookSignature (fun _ _ => sampleDigest) 0 garbled =
      .error { code := "ERR_CRYPTO_TIMING_SAFE_EQUAL_LENGTH" } := by
    decide +kernel
  rintro ⟨v, hv, -⟩
  rw [hthrown] at hv
  cases hv

/-- The digest's text with another letter for its b, of the same low byte, is accepted. -/
example : verifyWebhookSignature (fun _ _ => sampleDigest) 0
    (delivered "2\u01620b2d8e9efc3942da4597d19fc65390dfbabe1bec941eacddbb55439da48f98") =
      .ok { ok := true } := by
  decide +kernel

end WaOps.Notify
