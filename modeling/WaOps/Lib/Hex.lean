import Mathlib.Data.List.Basic
import Mathlib.Tactic.IntervalCases
import WaOps.Lib.Js

namespace Lib.Hex

def value (c : Char) : Option Nat :=
  if 48 ≤ c.toNat ∧ c.toNat ≤ 57 then some (c.toNat - 48)
  else if 97 ≤ c.toNat ∧ c.toNat ≤ 102 then some (c.toNat - 87)
  else if 65 ≤ c.toNat ∧ c.toNat ≤ 70 then some (c.toNat - 55)
  else none

def isHex (c : Char) : Bool :=
  (value c).isSome

def pair (b : UInt8) : List Char :=
  [Nat.digitChar (b.toNat / 16), Nat.digitChar (b.toNat % 16)]

def encode (bytes : List UInt8) : List Char :=
  bytes.flatMap pair

/-- Pairs of digits in either case, up to the first pair that is none. -/
def decodeDigits : List Char → List UInt8
  | a :: b :: cs =>
    match value a, value b with
    | some x, some y => UInt8.ofNat (16 * x + y) :: decodeDigits cs
    | _, _ => []
  | _ => []

/-- The byte that is left of a code unit, as a character. -/
def lowByte (u : UInt16) : Char :=
  Char.ofNat (u.toNat % 256)

/-- `Buffer.from(text, 'hex')`, which reads no more than the low byte of each code unit. -/
def decode (text : List UInt16) : List UInt8 :=
  decodeDigits (text.map lowByte)

variable {a b c : Char} {cs : List Char} {byte : UInt8} {bytes : List UInt8} {n x y : Nat}

theorem toLower_toNat (c : Char) :
    c.toLower.toNat = if 65 ≤ c.toNat ∧ c.toNat ≤ 90 then c.toNat + 32 else c.toNat := by
  unfold Char.toLower
  split
  · rename_i h
    have hupper : 65 ≤ c.toNat ∧ c.toNat ≤ 90 := h
    rw [if_pos hupper]
    show (c.val + (97 - 65)).toNat = c.val.toNat + 32
    have hle : c.val.toNat ≤ 90 := hupper.2
    rw [UInt32.toNat_add]
    simp
    omega
  · rename_i h
    have hother : ¬(65 ≤ c.toNat ∧ c.toNat ≤ 90) := h
    rw [if_neg hother]

theorem digitChar_toNat (h : n < 16) :
    (Nat.digitChar n).toNat = if n < 10 then 48 + n else 87 + n := by
  interval_cases n <;> rfl

theorem value_toNat : value c = some n ↔
    n < 16 ∧ (c.toNat = (if n < 10 then 48 else 87) + n ∨ 10 ≤ n ∧ c.toNat = 55 + n) := by
  unfold value
  split_ifs <;> simp only [Option.some.injEq, false_iff] <;> omega

/-- A digit is read for what its lower case writes. -/
theorem value_iff : value c = some n ↔ n < 16 ∧ c.toLower = Nat.digitChar n := by
  rw [value_toNat]
  apply and_congr_right
  intro hn
  rw [← Char.toNat_inj, toLower_toNat, digitChar_toNat hn]
  split_ifs <;> omega

theorem digits_inj (hx : x < 16) (hn : n < 16) : Nat.digitChar x = Nat.digitChar n ↔ x = n := by
  rw [← Char.toNat_inj, digitChar_toNat hx, digitChar_toNat hn]
  split_ifs <;> omega

theorem encode_length : (encode bytes).length = 2 * bytes.length := by
  induction bytes with
  | nil => rfl
  | cons b bytes ih =>
    simp only [encode, List.flatMap_cons, List.length_append, List.length_cons] at ih ⊢
    rw [ih]
    simp only [pair, List.length_cons, List.length_nil]
    omega

theorem decodeDigits_pair (ha : value a = some x) (hb : value b = some y) :
    decodeDigits (a :: b :: cs) = UInt8.ofNat (16 * x + y) :: decodeDigits cs := by
  rw [decodeDigits, ha, hb]

theorem decodeDigits_stops (h : isHex a = false ∨ isHex b = false) :
    decodeDigits (a :: b :: cs) = [] := by
  rw [decodeDigits]
  split
  · rename_i x y ha hb
    simp [isHex, ha, hb] at h
  · rfl

/-- A pair reads as the byte that its lower case writes. -/
theorem pair_iff (ha : value a = some x) (hb : value b = some y) :
    UInt8.ofNat (16 * x + y) = byte ↔ [a.toLower, b.toLower] = pair byte := by
  obtain ⟨hx, hax⟩ := value_iff.mp ha
  obtain ⟨hy, hby⟩ := value_iff.mp hb
  have hbyte : byte.toNat < 256 := byte.toNat_lt
  rw [hax, hby, pair, List.cons.injEq, List.cons.injEq, digits_inj hx (by omega),
    digits_inj hy (by omega), ← UInt8.toNat_inj, UInt8.toNat_ofNat']
  constructor
  · intro h
    refine ⟨?_, ?_, rfl⟩ <;> omega
  · rintro ⟨rfl, rfl, -⟩
    omega

theorem pair_hex (h : [a.toLower, b.toLower] = pair byte) : isHex a = true ∧ isHex b = true := by
  have hbyte : byte.toNat < 256 := byte.toNat_lt
  obtain ⟨ha, hb⟩ := List.cons_eq_cons.mp h
  have hx := value_iff.mpr ⟨by omega, ha⟩
  have hy := value_iff.mpr ⟨Nat.mod_lt _ (by omega), List.head_eq_of_cons_eq hb⟩
  exact ⟨Option.isSome_iff_exists.mpr ⟨_, hx⟩, Option.isSome_iff_exists.mpr ⟨_, hy⟩⟩

theorem stopped (h : ¬(isHex a = true ∧ isHex b = true)) : isHex a = false ∨ isHex b = false := by
  simpa only [not_and_or, Bool.not_eq_true] using h

/-- Reading gives the bytes exactly from their digits, in either case. -/
theorem decodeDigits_iff (h : cs.length = 2 * bytes.length) :
    decodeDigits cs = bytes ↔ cs.map Char.toLower = encode bytes := by
  induction bytes generalizing cs with
  | nil =>
    obtain rfl := List.length_eq_zero_iff.mp h
    simp [decodeDigits, encode]
  | cons byte bytes ih =>
    match cs, h with
    | a :: b :: cs, h =>
      have hlen : cs.length = 2 * bytes.length := by
        simp only [List.length_cons] at h
        omega
      have hencode : (a :: b :: cs).map Char.toLower = encode (byte :: bytes) ↔
          [a.toLower, b.toLower] = pair byte ∧ cs.map Char.toLower = encode bytes := by
        simp [encode, pair, and_assoc]
      rw [hencode]
      by_cases hpair : isHex a = true ∧ isHex b = true
      · obtain ⟨x, hx⟩ := Option.isSome_iff_exists.mp hpair.1
        obtain ⟨y, hy⟩ := Option.isSome_iff_exists.mp hpair.2
        rw [decodeDigits_pair hx hy, List.cons.injEq, pair_iff hx hy, ih hlen]
      · rw [decodeDigits_stops (stopped hpair)]
        constructor
        · intro hnil
          cases hnil
        · rintro ⟨hp, -⟩
          exact absurd (pair_hex hp) hpair

/-- As many bytes are read as there are pairs exactly when all are digits. -/
theorem decodeDigits_length_iff (h : cs.length = 2 * n) :
    (decodeDigits cs).length = n ↔ ∀ c ∈ cs, isHex c = true := by
  induction n generalizing cs with
  | zero =>
    obtain rfl := List.length_eq_zero_iff.mp h
    simp [decodeDigits]
  | succ n ih =>
    match cs, h with
    | a :: b :: cs, h =>
      have hlen : cs.length = 2 * n := by
        simp only [List.length_cons] at h
        omega
      rw [List.forall_mem_cons, List.forall_mem_cons, ← ih hlen]
      by_cases hpair : isHex a = true ∧ isHex b = true
      · obtain ⟨x, hx⟩ := Option.isSome_iff_exists.mp hpair.1
        obtain ⟨y, hy⟩ := Option.isSome_iff_exists.mp hpair.2
        simp [decodeDigits_pair hx hy, hpair]
      · rw [decodeDigits_stops (stopped hpair)]
        constructor
        · intro hzero
          cases hzero
        · rintro ⟨ha, hb, -⟩
          exact absurd ⟨ha, hb⟩ hpair

theorem digitChar_lower (h : n < 16) : (Nat.digitChar n).toLower = Nat.digitChar n := by
  interval_cases n <;> rfl

theorem encode_lower (bytes : List UInt8) : (encode bytes).map Char.toLower = encode bytes := by
  induction bytes with
  | nil => rfl
  | cons byte bytes ih =>
    have hbyte : byte.toNat < 256 := byte.toNat_lt
    rw [encode, List.flatMap_cons, List.map_append]
    congr 1
    rw [pair, List.map_cons, List.map_cons, digitChar_lower (by omega), digitChar_lower (by omega)]
    rfl

/-- What is written is read. -/
theorem decodeDigits_encode (bytes : List UInt8) : decodeDigits (encode bytes) = bytes :=
  (decodeDigits_iff encode_length).mpr (encode_lower bytes)

theorem encode_inj {bytes' : List UInt8} : encode bytes = encode bytes' ↔ bytes = bytes' := by
  constructor
  · intro h
    have hread := congrArg decodeDigits h
    rwa [decodeDigits_encode, decodeDigits_encode] at hread
  · rintro rfl
    rfl

theorem isHex_small (h : isHex c = true) : c.toNat < 128 := by
  obtain ⟨n, hn⟩ := Option.isSome_iff_exists.mp h
  have hvalue := value_toNat.mp hn
  split at hvalue <;> omega

/-- What has the digits of some bytes has digits only. -/
theorem isHex_of_lower (h : cs.map Char.toLower = encode bytes) :
    cs.length = 2 * bytes.length ∧ ∀ c ∈ cs, isHex c = true := by
  have hlen : cs.length = 2 * bytes.length := by
    rw [← List.length_map, h, encode_length]
  have hlength := congrArg List.length ((decodeDigits_iff hlen).mpr h)
  exact ⟨hlen, (decodeDigits_length_iff hlen).mp hlength⟩

theorem lowByte_toNat (u : UInt16) : (lowByte u).toNat = u.toNat % 256 := by
  have hvalid : (u.toNat % 256).isValidChar := .inl (by omega)
  rw [lowByte, Char.ofNat, dif_pos hvalid]
  rfl

/-- A character of one byte is one code unit. -/
theorem units_cons (h : c.toNat < 256) : Js.units (String.ofList (c :: cs)) =
    UInt16.ofNat c.toNat :: Js.units (String.ofList cs) := by
  have hbasic : c.toNat < 0x10000 := by omega
  simp [Js.units, hbasic]

/-- Characters of one byte are read as they are. -/
theorem lowByte_units (h : ∀ c ∈ cs, c.toNat < 256) :
    (Js.units (String.ofList cs)).map lowByte = cs := by
  induction cs with
  | nil => rfl
  | cons c cs ih =>
    obtain ⟨hc, hcs⟩ := List.forall_mem_cons.mp h
    have hread : lowByte (UInt16.ofNat c.toNat) = c := by
      rw [← Char.toNat_inj, lowByte_toNat, UInt16.toNat_ofNat']
      omega
    rw [units_cons hc, List.map_cons, hread, ih hcs]

theorem units_small (h : ∀ c ∈ cs, c.toNat < 256) :
    ∀ u ∈ Js.units (String.ofList cs), u.toNat < 256 := by
  induction cs with
  | nil =>
    intro u hu
    cases hu
  | cons c cs ih =>
    obtain ⟨hc, hcs⟩ := List.forall_mem_cons.mp h
    rw [units_cons hc, List.forall_mem_cons, UInt16.toNat_ofNat']
    exact ⟨by omega, ih hcs⟩

/-- A text of one-byte units is that of its low bytes. -/
theorem units_lowByte {us : List UInt16} (h : ∀ u ∈ us, u.toNat < 256) :
    Js.units (String.ofList (us.map lowByte)) = us := by
  induction us with
  | nil => rfl
  | cons u us ih =>
    obtain ⟨hu, hus⟩ := List.forall_mem_cons.mp h
    have hbyte : (lowByte u).toNat = u.toNat := by
      rw [lowByte_toNat, Nat.mod_eq_of_lt hu]
    rw [List.map_cons, units_cons (by omega), hbyte, ih hus, UInt16.ofNat_toNat]

theorem lowByte_encode (bytes : List UInt8) :
    (Js.units (String.ofList (encode bytes))).map lowByte = encode bytes := by
  apply lowByte_units
  intro c hc
  have := isHex_small ((isHex_of_lower (encode_lower bytes)).2 c hc)
  omega

theorem decode_encode (bytes : List UInt8) :
    decode (Js.units (String.ofList (encode bytes))) = bytes := by
  rw [decode, lowByte_encode, decodeDigits_encode]

end Lib.Hex
