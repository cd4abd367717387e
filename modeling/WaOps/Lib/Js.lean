import Mathlib.Algebra.GroupWithZero.Nat
import Mathlib.Algebra.Order.Ring.Rat
import Mathlib.Data.List.Basic
import Mathlib.Tactic.IntervalCases

namespace Lib.Js

/-- The length in UTF-16 code units. -/
def length (s : String) : Nat :=
  (s.toList.map (fun c => if c.toNat < 0x10000 then 1 else 2)).sum

/-- The UTF-16 code units of a text. -/
def units (s : String) : List UInt16 :=
  s.toList.flatMap (fun c =>
    if c.toNat < 0x10000 then [UInt16.ofNat c.toNat]
    else
      [UInt16.ofNat (0xd800 + (c.toNat - 0x10000) / 0x400),
        UInt16.ofNat (0xdc00 + (c.toNat - 0x10000) % 0x400)])

def isSpace (c : Char) : Bool :=
  c.isWhitespace || c == '\x0b' || c == '\x0c' || c == '\u00a0' || c == '\u1680' ||
    ('\u2000' ≤ c && c ≤ '\u200a') || c == '\u2028' || c == '\u2029' || c == '\u202f' ||
    c == '\u205f' || c == '\u3000' || c == '\ufeff'

def trim (cs : List Char) : List Char :=
  ((cs.dropWhile isSpace).reverse.dropWhile isSpace).reverse

def digitsValue (base : Nat) : List Char → Option Nat
  | [] => none
  | cs => cs.foldl (fun acc c => acc.bind (fun n =>
      let d := if c.isDigit then c.toNat - 48
        else if 'a' ≤ c ∧ c ≤ 'f' then c.toNat - 87
        else if 'A' ≤ c ∧ c ≤ 'F' then c.toNat - 55
        else base
      if d < base then some (n * base + d) else none)) (some 0)

/-- BigInt(text), none where it throws a SyntaxError. -/
def bigInt (text : String) : Option Int :=
  match trim text.toList with
  | [] => some 0
  | '-' :: ds => (digitsValue 10 ds).map (fun n => -(n : Int))
  | '+' :: ds => (digitsValue 10 ds).map Int.ofNat
  | '0' :: 'x' :: ds | '0' :: 'X' :: ds => (digitsValue 16 ds).map Int.ofNat
  | '0' :: 'o' :: ds | '0' :: 'O' :: ds => (digitsValue 8 ds).map Int.ofNat
  | '0' :: 'b' :: ds | '0' :: 'B' :: ds => (digitsValue 2 ds).map Int.ofNat
  | ds => (digitsValue 10 ds).map Int.ofNat

theorem isDigit_bounds {c : Char} (h : c.isDigit = true) : 48 ≤ c.toNat ∧ c.toNat ≤ 57 := by
  simp only [Char.isDigit, Bool.and_eq_true, decide_eq_true_eq] at h
  exact ⟨h.1, h.2⟩

theorem isSpace_digit {c : Char} (h : c.isDigit = true) : isSpace c = false := by
  obtain ⟨hl, hu⟩ := isDigit_bounds h
  rw [← Char.ofNat_toNat c]
  generalize c.toNat = n at hl hu
  interval_cases n <;> rfl

/-- A text without spaces has none to trim. -/
theorem trim_eq_self {cs : List Char} (h : ∀ c ∈ cs, isSpace c = false) : trim cs = cs := by
  have hd : ∀ ds : List Char, (∀ c ∈ ds, isSpace c = false) → ds.dropWhile isSpace = ds := by
    intro ds hds
    cases ds with
    | nil => rfl
    | cons c ds => simp [hds c List.mem_cons_self]
  rw [trim, hd cs h, hd cs.reverse (by simpa using h), List.reverse_reverse]

theorem trim_digits {cs : List Char} (h : ∀ c ∈ cs, c.isDigit = true) : trim cs = cs :=
  trim_eq_self fun c hc => isSpace_digit (h c hc)

theorem digitsValue_digits {cs : List Char} (h : ∀ c ∈ cs, c.isDigit = true) (hne : cs ≠ []) :
    digitsValue 10 cs = some (Nat.ofDigitChars 10 cs 0) := by
  have hfold : ∀ (ds : List Char) (n : Nat), (∀ c ∈ ds, c.isDigit = true) →
      ds.foldl (fun acc c => acc.bind (fun n =>
        let d := if c.isDigit then c.toNat - 48
          else if 'a' ≤ c ∧ c ≤ 'f' then c.toNat - 87
          else if 'A' ≤ c ∧ c ≤ 'F' then c.toNat - 55
          else 10
        if d < 10 then some (n * 10 + d) else none)) (some n) = some (Nat.ofDigitChars 10 ds n) := by
    intro ds
    induction ds with
    | nil => intro n _; rfl
    | cons c ds ih =>
      intro n hds
      have hc := hds c List.mem_cons_self
      have hlt : c.toNat - 48 < 10 := by
        obtain ⟨hl, hu⟩ := isDigit_bounds hc
        omega
      simp only [List.foldl_cons, Option.bind_some, hc, if_true, hlt, Nat.ofDigitChars_cons]
      rw [ih _ fun d hd => hds d (List.mem_cons_of_mem c hd)]
      simp [Nat.mul_comm]
  unfold digitsValue
  split
  · exact absurd rfl hne
  · exact hfold _ 0 h

/-- What String(n) writes, BigInt reads. -/
theorem bigInt_toString (n : Nat) : bigInt (toString n) = some (n : Int) := by
  have hd : ∀ c ∈ Nat.toDigits 10 n, c.isDigit = true :=
    fun c hc => Nat.isDigit_of_mem_toDigits (by decide) (by decide) hc
  have hv := digitsValue_digits hd Nat.toDigits_ne_nil
  rw [Nat.ofDigitChars_ten_toDigits] at hv
  have hl : (toString n).toList = Nat.toDigits 10 n := Nat.toList_repr
  unfold bigInt
  rw [hl, trim_digits hd]
  split
  case _ h => exact absurd h Nat.toDigits_ne_nil
  -- No digit is a sign or marks a base.
  all_goals try (rename_i h; simp [h] at hd)
  rw [hv]
  rfl

/-- `text.split(sep)` for a separator of one character. -/
def split (sep : Char) : List Char → List (List Char)
  | [] => [[]]
  | c :: cs =>
    if c = sep then [] :: split sep cs
    else
      match split sep cs with
      | [] => [[c]]
      | part :: parts => (c :: part) :: parts

/-- The rest of the text after a prefix. -/
def after (pre : String) (text : String) : Option (List Char) :=
  if pre.toList.isPrefixOf text.toList then some (text.toList.drop pre.toList.length) else none

theorem split_ne_nil {sep : Char} {cs : List Char} : split sep cs ≠ [] := by
  cases cs with
  | nil => simp [split]
  | cons c cs =>
    simp only [split]
    split
    · simp
    · split <;> simp

/-- The first part ends at the first separator. -/
theorem split_iff {sep : Char} {cs part : List Char} {parts : List (List Char)} :
    split sep cs = part :: parts ↔ sep ∉ part ∧
      (parts = [] ∧ cs = part ∨ ∃ rest, cs = part ++ sep :: rest ∧ split sep rest = parts) := by
  induction cs generalizing part parts with
  | nil =>
    simp only [split, List.cons.injEq]
    constructor
    · intro ⟨hpart, hparts⟩
      subst hpart hparts
      simp
    · intro ⟨_, h⟩
      rcases h with ⟨hparts, hpart⟩ | ⟨rest, hcs, -⟩
      · exact ⟨hpart, hparts.symm⟩
      · simp at hcs
  | cons c cs ih =>
    simp only [split]
    split
    · rename_i hc
      subst hc
      simp only [List.cons.injEq]
      constructor
      · intro ⟨hpart, hparts⟩
        subst hpart
        exact ⟨List.not_mem_nil, .inr ⟨cs, rfl, hparts⟩⟩
      · intro ⟨hsep, h⟩
        cases part with
        | nil =>
          rcases h with ⟨-, hcs⟩ | ⟨rest, hcs, hrest⟩
          · cases hcs
          · cases hcs
            exact ⟨rfl, hrest⟩
        | cons d part =>
          rcases h with ⟨-, hcs⟩ | ⟨rest, hcs, -⟩
          · cases hcs
            exact absurd List.mem_cons_self hsep
          · cases hcs
            exact absurd List.mem_cons_self hsep
    · rename_i hc
      split
      · rename_i hnil
        exact absurd hnil split_ne_nil
      · rename_i p ps hsplit
        have hp := ih.mp hsplit
        simp only [List.cons.injEq]
        constructor
        · intro ⟨hpart, hparts⟩
          subst hpart hparts
          refine ⟨by simp [Ne.symm hc, hp.1], ?_⟩
          rcases hp.2 with ⟨hnil, hcs⟩ | ⟨rest, hcs, hrest⟩
          · exact .inl ⟨hnil, by rw [hcs]⟩
          · exact .inr ⟨rest, by rw [hcs]; rfl, hrest⟩
        · intro ⟨hsep, h⟩
          cases part with
          | nil =>
            rcases h with ⟨-, hcs⟩ | ⟨rest, hcs, -⟩
            · cases hcs
            · cases hcs
              exact absurd rfl hc
          | cons d part =>
            have hrest : split sep cs = part :: parts := by
              refine ih.mpr ⟨fun hm => hsep (List.mem_cons_of_mem d hm), ?_⟩
              rcases h with ⟨hnil, hcs⟩ | ⟨rest, hcs, hrest⟩
              · cases hcs
                exact .inl ⟨hnil, rfl⟩
              · cases hcs
                exact .inr ⟨rest, rfl, hrest⟩
            rw [hsplit] at hrest
            cases hrest
            rcases h with ⟨-, hcs⟩ | ⟨rest, hcs, -⟩ <;> cases hcs <;> exact ⟨rfl, rfl⟩

/-- Nothing but the separators is lost. -/
theorem mem_split {sep c : Char} {cs : List Char} (h : c ∈ cs) :
    c = sep ∨ ∃ part ∈ split sep cs, c ∈ part := by
  induction cs with
  | nil => cases h
  | cons d cs ih =>
    simp only [split]
    rcases List.mem_cons.mp h with rfl | h
    · split
      · rename_i hsep
        exact .inl hsep
      · split <;> simp
    · rcases ih h with hsep | ⟨part, hpart, hc⟩
      · exact .inl hsep
      · right
        split
        · exact ⟨part, List.mem_cons_of_mem _ hpart, hc⟩
        · split
          · rename_i hnil
            rw [hnil] at hpart
            cases hpart
          · rename_i p ps hsplit
            rw [hsplit] at hpart
            rcases List.mem_cons.mp hpart with rfl | hpart
            · exact ⟨_, List.mem_cons_self, List.mem_cons_of_mem d hc⟩
            · exact ⟨part, List.mem_cons_of_mem _ hpart, hc⟩

theorem split_three {sep : Char} {cs p q r : List Char} : split sep cs = [p, q, r] ↔
    cs = p ++ sep :: (q ++ sep :: r) ∧ sep ∉ p ∧ sep ∉ q ∧ sep ∉ r := by
  simp only [split_iff, List.cons_ne_nil, false_and, false_or, true_and, split_ne_nil, and_false,
    exists_false, or_false]
  constructor
  · intro ⟨hp, rest, hcs, hq, rest', hrest, hr, hr'⟩
    subst hr'
    subst hrest
    exact ⟨hcs, hp, hq, hr⟩
  · intro ⟨hcs, hp, hq, hr⟩
    exact ⟨hp, _, hcs, hq, _, rfl, hr, rfl⟩

theorem after_iff {pre text : String} {rest : List Char} :
    after pre text = some rest ↔ text.toList = pre.toList ++ rest := by
  unfold after
  split
  · rename_i h
    obtain ⟨t, ht⟩ := List.isPrefixOf_iff_prefix.mp h
    rw [← ht, List.drop_left, Option.some.injEq, List.append_cancel_left_eq]
  · rename_i h
    simp only [reduceCtorEq, false_iff]
    intro ht
    exact h (List.isPrefixOf_iff_prefix.mpr ⟨rest, ht.symm⟩)

/-- A number by its exact value; the sign of zero is left out. -/
inductive Number where
  | nan
  | infinite (negative : Bool)
  | finite (value : Rat)
  deriving DecidableEq, Repr

def Number.lt : Number → Number → Bool
  | .nan, _ | _, .nan => false
  | .finite a, .finite b => a < b
  | .infinite a, .infinite b => a && !b
  | .infinite a, .finite _ => a
  | .finite _, .infinite b => !b

/-- `a >= b`. -/
def Number.ge (a b : Number) : Bool :=
  a ≠ .nan && b ≠ .nan && !a.lt b

def Number.isFinite : Number → Bool
  | .finite _ => true
  | _ => false

inductive Json where
  | null
  | bool (value : Bool)
  | number (value : Number)
  | string (text : String)
  | array (items : List Json)
  | object (fields : List (String × Json))

/-- `value.key`, none for undefined. Reading a key of null throws before this. -/
def Json.field (key : String) : Json → Option Json
  | .object fields => (fields.find? (fun f => f.1 = key)).map Prod.snd
  | _ => none

/-- `value ?? other` for a value that may be undefined. -/
def nullish (value : Option Json) (other : Json) : Json :=
  match value with
  | none | some .null => other
  | some v => v

/-- Whether a value that may be undefined counts as false in a condition. -/
def falsy : Option Json → Bool
  | none | some .null | some (.bool false) | some (.string "") => true
  | some (.number v) => v = .nan || v = .finite 0
  | _ => false

/-- `Number(value)`. What it makes of a text, an array or an object is a parameter. -/
def toNumber (ofText : Json → Number) : Json → Number
  | .null => .finite 0
  | .bool b => .finite (if b then 1 else 0)
  | .number n => n
  | v => ofText v

end Lib.Js
