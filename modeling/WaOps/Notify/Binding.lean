import WaOps.Lib.Zod
import WaOps.Notify.Webhook

namespace WaOps.Notify
open Lib

/-- With the signature, nothing but the three fields it was made for is ever accepted. -/
def Binds (hmac : String → String → Digest) (secret signature timestamp deliveryId body : String) :
    Prop :=
  ∀ (dateNow : ℤ) (nowSeconds : Option ℤ) (timestamp' deliveryId' body' : String),
    (∃ v, verifyWebhookSignature hmac dateNow
        { secret, signature := Js.units signature, timestamp := timestamp'
          deliveryId := deliveryId', body := body', nowSeconds } = .ok v ∧ v.ok = true) →
      timestamp' = timestamp ∧ deliveryId' = deliveryId ∧ body' = body

variable {hmac : String → String → Digest} {secret deliveryId body timestamp deliveryId' body'
  timestamp' : String} {p q r p' q' r' : List Char} {n : ℤ}

theorem signedMessage_toList (timestamp deliveryId body : String) :
    (signedMessage timestamp deliveryId body).toList =
      timestamp.toList ++ '.' :: (deliveryId.toList ++ '.' :: body.toList) := by
  simp [signedMessage]

/-- A text of two dots can be cut in one way only. -/
theorem cut_unique (hp : '.' ∉ p) (hq : '.' ∉ q) (hr : '.' ∉ r)
    (h : p' ++ '.' :: (q' ++ '.' :: r') = p ++ '.' :: (q ++ '.' :: r)) :
    p' = p ∧ q' = q ∧ r' = r := by
  have hcount := congrArg (List.count '.') h
  simp only [List.count_append, List.count_cons_self, List.count_eq_zero_of_not_mem hp,
    List.count_eq_zero_of_not_mem hq, List.count_eq_zero_of_not_mem hr] at hcount
  have hp' : '.' ∉ p' := List.count_eq_zero.mp (by omega)
  have hq' : '.' ∉ q' := List.count_eq_zero.mp (by omega)
  have hr' : '.' ∉ r' := List.count_eq_zero.mp (by omega)
  have hsplit : Js.split '.' (p ++ '.' :: (q ++ '.' :: r)) = [p, q, r] :=
    Js.split_three.mpr ⟨rfl, hp, hq, hr⟩
  have hsplit' : Js.split '.' (p ++ '.' :: (q ++ '.' :: r)) = [p', q', r'] :=
    Js.split_three.mpr ⟨h.symm, hp', hq', hr'⟩
  rw [hsplit] at hsplit'
  cases hsplit'
  exact ⟨rfl, rfl, rfl⟩

theorem uuid_no_dot (h : Zod.isUuid deliveryId = true) : '.' ∉ deliveryId.toList := by
  intro hdot
  simp only [Zod.isUuid, Bool.and_eq_true, List.all_eq_true] at h
  have hparts : '.' = '-' ∨ ∃ part ∈ Js.split '-' deliveryId.toList, '.' ∈ part :=
    Js.mem_split hdot
  rcases hparts with hsep | ⟨part, hpart, hc⟩
  · cases hsep
  · exact absurd (h.2 part hpart '.' hc) (by decide)

theorem integerText_no_dot (n : ℤ) : '.' ∉ (Js.integerText n).toList := by
  intro hdot
  rcases Js.integerText_chars n '.' hdot with hc | hc
  · cases hc
  · cases hc

theorem provided_prefixed (cs : List Char) :
    providedSignature (Js.units ("sha256=" ++ String.ofList cs)) =
      Js.units (String.ofList cs) := by
  have hunits : Js.units ("sha256=" ++ String.ofList cs) =
      Js.units "sha256=" ++ Js.units (String.ofList cs) := by
    simp [Js.units]
  rw [hunits, providedSignature, if_pos (List.isPrefixOf_iff_prefix.mpr (List.prefix_append _ _)),
    List.drop_left]

/-- The signature of one message is read as that of another exactly if they have the same
digest. -/
theorem signed_iff {signature : String} {dateNow : ℤ} {nowSeconds : Option ℤ}
    (hsignature : (webhookHeaders hmac (some secret) dateNow deliveryId body).signature =
      some signature) :
    Reads hmac { secret, signature := Js.units signature, timestamp := timestamp'
                 deliveryId := deliveryId', body := body', nowSeconds } ↔
      hmac secret (signedMessage timestamp' deliveryId' body') =
        hmac secret (signedMessage (Js.integerText (dateNow / 1000)) deliveryId body) := by
  obtain ⟨s, hs, rfl⟩ := Option.map_eq_some_iff.mp hsignature
  obtain rfl := Option.some.inj (Option.filter_eq_some_iff.mp hs).1
  unfold Reads SignatureInput.digest
  rw [provided_prefixed, Hex.lowByte_encode, Hex.encode_lower, Hex.encode_inj, eq_comm]
  exact Digest.ext_iff.symm

/-- At the moment it is made for a timestamp is timely. -/
theorem timely_at_once {input : SignatureInput} {n : ℤ} (hn : n.natAbs < 10 ^ 15)
    (htimestamp : input.timestamp = Js.integerText n) (hnow : input.nowSeconds = some n) :
    Timely 0 input := by
  have hchars : ∀ c ∈ (Js.integerText n).toList, c.toNat < 0x10000 := by
    intro c hc
    rcases Js.integerText_chars n c hc with rfl | hc
    · decide
    · obtain ⟨-, hhigh⟩ := Js.isDigit_bounds hc
      omega
  have hlen := Js.integerText_length (by omega) hn
  have hunits := units_of_small hchars
  rw [String.ofList_toList] at hunits
  refine ⟨?_, n, ?_, ?_⟩
  · rw [htimestamp, hunits]
    omega
  · rw [htimestamp]
    exact Js.number_integerText (by omega)
  · rw [SignatureInput.now, hnow, Option.getD_some, sub_self, abs_zero]
    decide

/-- A body with a dot in it can be cut there, and its first part moved to the delivery id. -/
theorem signedMessage_moved {timestamp : String} (hbody : body.toList = p ++ '.' :: r) :
    signedMessage timestamp (deliveryId ++ "." ++ String.ofList p) (String.ofList r) =
      signedMessage timestamp deliveryId body := by
  rw [← String.toList_inj, signedMessage_toList, signedMessage_toList, hbody]
  simp

/-- The signature of a webhook binds its timestamp, delivery id and body exactly if the body has
no dot, where no other message has the digest of the signed one. -/
theorem signature_binds_iff (hmac : String → String → Digest)
    (secret deliveryId body signature : String) (dateNow : ℤ)
    (hdate : dateNow.natAbs ≤ 8640000000000000) (huuid : Zod.isUuid deliveryId = true)
    (hsignature : (webhookHeaders hmac (some secret) dateNow deliveryId body).signature =
      some signature)
    (hunique : ∀ m, hmac secret m =
        hmac secret (signedMessage (Js.integerText (dateNow / 1000)) deliveryId body) →
      m = signedMessage (Js.integerText (dateNow / 1000)) deliveryId body) :
    Binds hmac secret signature
        (webhookHeaders hmac (some secret) dateNow deliveryId body).timestamp deliveryId body ↔
      '.' ∉ body.toList := by
  have hn : (dateNow / 1000).natAbs < 10 ^ 15 := by omega
  constructor
  · intro hbinds hdot
    obtain ⟨p, r, hbody⟩ := List.append_of_mem hdot
    have haccepted := (verify_accepts_iff hmac).mpr ⟨timely_at_once hn rfl rfl,
      (signed_iff hsignature).mpr (congrArg (hmac secret) (signedMessage_moved hbody))⟩
    obtain ⟨-, -, hsame⟩ := hbinds 0 (some (dateNow / 1000)) _ _ _ haccepted
    have hlen := congrArg List.length (hsame ▸ hbody)
    simp at hlen
    omega
  · intro hdot dateNow' nowSeconds timestamp' deliveryId' body' haccepted
    obtain ⟨-, hsigned⟩ := (verify_accepts_iff hmac).mp haccepted
    have hmessage := hunique _ ((signed_iff hsignature).mp hsigned)
    rw [← String.toList_inj, signedMessage_toList, signedMessage_toList] at hmessage
    obtain ⟨ht, hd, hb⟩ :=
      cut_unique (integerText_no_dot _) (uuid_no_dot huuid) hdot hmessage
    exact ⟨String.toList_inj.mp ht, String.toList_inj.mp hd, String.toList_inj.mp hb⟩

/-- A stand-in for HMAC-SHA256 that is right about one message. -/
def hmacOf (message : String) (digest : Digest) : String → String → Digest :=
  fun _ m => if m = message then digest else ⟨List.replicate 32 0, List.length_replicate⟩

theorem hmacOf_unique {message : String} {digest : Digest}
    (hdigest : digest.bytes ≠ List.replicate 32 0) (m : String)
    (h : hmacOf message digest secret m = hmacOf message digest secret message) : m = message := by
  by_contra hne
  simp only [hmacOf, if_neg hne, if_true] at h
  exact hdigest (congrArg Digest.bytes h).symm

def sampleId : String := "6f1c1a52-7c1b-4c0e-9d5a-2f1f6c1b7a10"

def dottedBody : String :=
  "\x7b\"incident_id\":null,\"event\":\x7b\"event_type\":\"container.oom\"\x7d\x7d"

/-- The HMAC-SHA256 under `whsec_test_123` of the message with the dotted body. -/
def dottedDigest : Digest where
  bytes := [205, 155, 153, 188, 29, 77, 118, 142, 62, 233, 44, 238, 135, 154, 244, 7, 63, 237, 66,
    253, 128, 145, 50, 181, 160, 197, 229, 2, 219, 96, 110, 37]
  length_eq := rfl

def dottedHmac : String → String → Digest :=
  hmacOf (signedMessage "1800000000" sampleId dottedBody) dottedDigest

/-- The part of the body up to the dot, moved to the delivery id, leaves a message that is
accepted with the signature of the one that was sent. -/
theorem dotted_body_moves :
    (webhookHeaders dottedHmac (some "whsec_test_123") 1800000000000 sampleId dottedBody).signature =
        some "sha256=cd9b99bc1d4d768e3ee92cee879af4073fed42fd809132b5a0c5e502db606e25" ∧
      (∀ m, dottedHmac "whsec_test_123" m =
          dottedHmac "whsec_test_123" (signedMessage "1800000000" sampleId dottedBody) →
        m = signedMessage "1800000000" sampleId dottedBody) ∧
      ¬Binds dottedHmac "whsec_test_123"
        "sha256=cd9b99bc1d4d768e3ee92cee879af4073fed42fd809132b5a0c5e502db606e25"
        "1800000000" sampleId dottedBody := by
  refine ⟨by decide +kernel, hmacOf_unique (by decide), ?_⟩
  intro hbinds
  have hmoved := hbinds 0 (some 1800000000) "1800000000"
    (sampleId ++ ".\x7b\"incident_id\":null,\"event\":\x7b\"event_type\":\"container")
    "oom\"\x7d\x7d" ⟨{ ok := true }, by decide +kernel, rfl⟩
  exact absurd hmoved.2.2 (by decide)

def plainBody : String :=
  "\x7b\"incident_id\":null,\"event\":\x7b\"event_type\":\"oom\"\x7d\x7d"

/-- The HMAC-SHA256 under `whsec_test_123` of the message with the plain body. -/
def plainDigest : Digest where
  bytes := [190, 253, 142, 41, 59, 217, 111, 186, 52, 98, 31, 165, 46, 207, 65, 101, 137, 10, 219,
    248, 228, 37, 10, 240, 78, 174, 206, 188, 145, 7, 250, 139]
  length_eq := rfl

theorem plain_body_bound :
    let hmac := hmacOf (signedMessage "1800000000" sampleId plainBody) plainDigest
    Binds hmac "whsec_test_123"
        "sha256=befd8e293bd96fba34621fa52ecf4165890adbf8e4250af04eaecebc9107fa8b"
        (webhookHeaders hmac (some "whsec_test_123") 1800000000000 sampleId plainBody).timestamp
        sampleId plainBody ↔
      '.' ∉ plainBody.toList :=
  signature_binds_iff (hmacOf (signedMessage "1800000000" sampleId plainBody) plainDigest)
    "whsec_test_123" sampleId plainBody _ 1800000000000 (by decide) (by decide +kernel)
    (by decide +kernel) (hmacOf_unique (by decide))

end WaOps.Notify
