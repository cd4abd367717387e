import WaOps.Lib.Js

namespace Lib.Js

def isHighSurrogate (u : UInt16) : Bool := 0xd800 ≤ u.toNat && u.toNat < 0xdc00

def isLowSurrogate (u : UInt16) : Bool := 0xdc00 ≤ u.toNat && u.toNat < 0xe000

/-- The character of a pair of surrogates. -/
def paired (high low : UInt16) : Char :=
  Char.ofNat (0x10000 + (high.toNat - 0xd800) * 0x400 + (low.toNat - 0xdc00))

/-- A surrogate without its partner is written as the replacement character. -/
def characters : List UInt16 → List Char
  | [] => []
  | [u] => [if isHighSurrogate u || isLowSurrogate u then '\ufffd' else Char.ofNat u.toNat]
  | u :: v :: us =>
    if isHighSurrogate u && isLowSurrogate v then paired u v :: characters us
    else if isHighSurrogate u || isLowSurrogate u then '\ufffd' :: characters (v :: us)
    else Char.ofNat u.toNat :: characters (v :: us)

variable {u v : UInt16} {us vs : List UInt16} {c : Char}

/-- What comes first is decoded alone where the rest does not begin with a low surrogate. -/
theorem characters_append (h : ∀ v ∈ vs.head?, isLowSurrogate v = false) :
    characters (us ++ vs) = characters us ++ characters vs := by
  induction us using characters.induct with
  | case1 => rfl
  | case2 u =>
    cases vs with
    | nil => simp [characters]
    | cons v vs =>
      have hv := h v rfl
      simp only [List.cons_append, List.nil_append, characters, hv, Bool.and_false,
        Bool.false_eq_true, if_false]
      split <;> rfl
  | case3 u v us hpair ih =>
    simp only [List.cons_append, characters, hpair, if_true, ih]
  | case4 u v us hpair hsurrogate ih =>
    rw [List.cons_append] at ih
    simp only [List.cons_append, characters, hpair, hsurrogate, Bool.false_eq_true,
      if_true, if_false, List.cons_append, ih]
  | case5 u v us hpair hsurrogate ih =>
    rw [List.cons_append] at ih
    simp only [List.cons_append, characters, hpair, hsurrogate, Bool.false_eq_true,
      if_false, List.cons_append, ih]

/-- A character of the basic plane is one code unit, no surrogate. -/
theorem characters_basic (h : isHighSurrogate u = false) (hl : isLowSurrogate u = false) :
    characters (u :: us) = Char.ofNat u.toNat :: characters us := by
  cases us with
  | nil => simp [characters, h, hl]
  | cons v us => simp [characters, h, hl]

theorem char_bounds (c : Char) : c.toNat < 0xd800 ∨ 0xdfff < c.toNat ∧ c.toNat < 0x110000 :=
  c.valid

/-- Decoding gives back the character its units were made of. -/
theorem characters_unit (c : Char) (us : List UInt16) :
    characters (units (String.singleton c) ++ us) = c :: characters us := by
  have hb := char_bounds c
  simp only [units, String.toList_singleton, List.flatMap_cons, List.flatMap_nil, List.append_nil]
  split
  · rename_i hsmall
    have hu : (UInt16.ofNat c.toNat).toNat = c.toNat := by
      simp only [UInt16.toNat_ofNat']
      omega
    rw [List.singleton_append, characters_basic, hu, Char.ofNat_toNat]
    · simp only [isHighSurrogate, hu]
      simp
      omega
    · simp only [isLowSurrogate, hu]
      simp
      omega
  · rename_i hlarge
    have hhigh : (UInt16.ofNat (0xd800 + (c.toNat - 0x10000) / 0x400)).toNat =
        0xd800 + (c.toNat - 0x10000) / 0x400 := by
      simp only [UInt16.toNat_ofNat']
      omega
    have hlow : (UInt16.ofNat (0xdc00 + (c.toNat - 0x10000) % 0x400)).toNat =
        0xdc00 + (c.toNat - 0x10000) % 0x400 := by
      simp only [UInt16.toNat_ofNat']
      omega
    have hpair : (isHighSurrogate (UInt16.ofNat (0xd800 + (c.toNat - 0x10000) / 0x400)) &&
        isLowSurrogate (UInt16.ofNat (0xdc00 + (c.toNat - 0x10000) % 0x400))) = true := by
      simp only [isHighSurrogate, isLowSurrogate, hhigh, hlow]
      simp
      omega
    have hvalue : paired (UInt16.ofNat (0xd800 + (c.toNat - 0x10000) / 0x400))
        (UInt16.ofNat (0xdc00 + (c.toNat - 0x10000) % 0x400)) = c := by
      have hsum : 0x10000 + (0xd800 + (c.toNat - 0x10000) / 0x400 - 0xd800) * 0x400 +
          (0xdc00 + (c.toNat - 0x10000) % 0x400 - 0xdc00) = c.toNat := by omega
      rw [paired, hhigh, hlow, hsum, Char.ofNat_toNat]
    simp only [List.cons_append, List.nil_append, characters, hpair, if_true, hvalue]

/-- A text without lone surrogates is written as it is. -/
theorem characters_units (s : String) : characters (units s) = s.toList := by
  have hlist : ∀ cs : List Char, characters (units (String.ofList cs)) = cs := by
    intro cs
    induction cs with
    | nil => rfl
    | cons c cs ih =>
      have hcons : units (String.ofList (c :: cs)) =
          units (String.singleton c) ++ units (String.ofList cs) := by
        simp [units]
      rw [hcons, characters_unit, ih]
  have h := hlist s.toList
  rwa [String.ofList_toList] at h

end Lib.Js
