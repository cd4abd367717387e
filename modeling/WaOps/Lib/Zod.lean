import WaOps.Lib.Js

namespace Lib.Zod
open Js

inductive PathPart where
  | key (name : String)
  | index (n : Nat)
  deriving DecidableEq, Repr

inductive IssueCode where
  | invalidType | tooSmall | tooBig | invalidEnumValue | invalidString
  deriving DecidableEq, Repr

structure Issue where
  path : List PathPart := []
  code : IssueCode
  deriving DecidableEq, Repr

inductive Parsed (α : Type) where
  | ok (value : α)
  | error (issues : List Issue)

/-- A check of a value that may be undefined. -/
abbrev Check (α : Type) := List PathPart → Option Json → Parsed α

variable {α β : Type}

def Parsed.map (f : α → β) : Parsed α → Parsed β
  | .ok a => .ok (f a)
  | .error issues => .error issues

/-- The issues of all fields are reported together. -/
def Parsed.ap (f : Parsed (α → β)) (x : Parsed α) : Parsed β :=
  match f, x with
  | .ok f, .ok a => .ok (f a)
  | .ok _, .error issues => .error issues
  | .error issues, .ok _ => .error issues
  | .error issues, .error issues' => .error (issues ++ issues')

def Parsed.toOption : Parsed α → Option α
  | .ok a => some a
  | .error _ => none

def settle (issues : List Issue) (a : α) : Parsed α :=
  if issues.isEmpty then .ok a else .error issues

def string (min max : Nat) : Check String
  | path, some (.string s) =>
    settle ((if length s < min then [{ path, code := .tooSmall }] else []) ++
      if max < length s then [{ path, code := .tooBig }] else []) s
  | path, _ => .error [{ path, code := .invalidType }]

/-- A text without an upper bound. -/
def stringFrom (min : Nat) : Check String
  | path, some (.string s) => settle (if length s < min then [{ path, code := .tooSmall }] else []) s
  | path, _ => .error [{ path, code := .invalidType }]

/-- What an email address is is a parameter. -/
def email (isEmail : String → Bool) : Check String
  | path, some (.string s) => settle (if isEmail s then [] else [{ path, code := .invalidString }]) s
  | path, _ => .error [{ path, code := .invalidType }]

def isHex (c : Char) : Bool :=
  c.isDigit || ('a' ≤ c && c ≤ 'f') || ('A' ≤ c && c ≤ 'F')

def isUuid (s : String) : Bool :=
  let groups := split '-' s.toList
  groups.map List.length = [8, 4, 4, 4, 12] && groups.all (fun g => g.all isHex)

def uuid : Check String
  | path, some (.string s) => settle (if isUuid s then [] else [{ path, code := .invalidString }]) s
  | path, _ => .error [{ path, code := .invalidType }]

def isLeap (year : Nat) : Bool :=
  year % 4 = 0 && (year % 100 ≠ 0 || year % 400 = 0)

def monthDays (year month : Nat) : Nat :=
  if month = 2 then (if isLeap year then 29 else 28)
  else if month ∈ [4, 6, 9, 11] then 30
  else 31

def inRange (min max : Nat) (digits : List Char) : Bool :=
  (digitsValue 10 digits).any (fun n => min ≤ n && n ≤ max)

def isDate (year month day : List Char) : Bool :=
  match digitsValue 10 year, digitsValue 10 month with
  | some y, some m => inRange 1 12 month && inRange 1 (monthDays y m) day
  | _, _ => false

/-- The seconds, which may be left out, and the zone. -/
def isSecondsAndZone : List Char → Bool
  | ['Z'] => true
  | ':' :: s₁ :: s₂ :: rest =>
    inRange 0 59 [s₁, s₂] &&
      match rest with
      | ['Z'] => true
      | '.' :: fraction =>
        match fraction.reverse with
        | 'Z' :: d :: ds => (d :: ds).all Char.isDigit
        | _ => false
      | _ => false
  | _ => false

/-- The regular expression of `z.string().datetime()`. -/
def isDatetime (s : String) : Bool :=
  match s.toList with
  | y₁ :: y₂ :: y₃ :: y₄ :: '-' :: m₁ :: m₂ :: '-' :: d₁ :: d₂ :: 'T' :: h₁ :: h₂ :: ':' ::
      n₁ :: n₂ :: rest =>
    isDate [y₁, y₂, y₃, y₄] [m₁, m₂] [d₁, d₂] && inRange 0 23 [h₁, h₂] &&
      inRange 0 59 [n₁, n₂] && isSecondsAndZone rest
  | _ => false

def datetime : Check String
  | path, some (.string s) =>
    settle (if isDatetime s then [] else [{ path, code := .invalidString }]) s
  | path, _ => .error [{ path, code := .invalidType }]

example : isDatetime "2024-02-29T23:59:59.123456789Z" = true := by decide

def enum (values : List (String × α)) : Check α
  | path, some (.string s) =>
    match values.find? (fun v => v.1 = s) with
    | some v => .ok v.2
    | none => .error [{ path, code := .invalidEnumValue }]
  | path, _ => .error [{ path, code := .invalidType }]

/-- `z.coerce.number().int()` within bounds. -/
def coerceInt (ofText : Json → Number) (min : Int) (max : Option Int) : Check Int
  | path, v =>
    let bounds (q : Rat) : List Issue :=
      (if q < min then [{ path, code := .tooSmall }] else []) ++
        if max.any (fun m => (m : Rat) < q) then [{ path, code := .tooBig }] else []
    match v.map (toNumber ofText) with
    | some (.finite q) =>
      settle ((if q.den = 1 then [] else [{ path, code := .invalidType }]) ++ bounds q) q.num
    | some (.infinite negative) =>
      .error ({ path, code := .invalidType } ::
        if negative then [{ path, code := .tooSmall }]
        else if max.isSome then [{ path, code := .tooBig }] else [])
    | _ => .error [{ path, code := .invalidType }]

def items (check : Check α) (path : List PathPart) : Nat → List Json → Parsed (List α)
  | _, [] => .ok []
  | n, v :: vs =>
    ((check (path ++ [.index n]) (some v)).map List.cons).ap (items check path (n + 1) vs)

def array (max : Nat) (check : Check α) : Check (List α)
  | path, some (.array vs) =>
    (settle (if max < vs.length then [{ path, code := .tooBig }] else []) id).ap
      (items check path 0 vs)
  | path, _ => .error [{ path, code := .invalidType }]

def optional (check : Check α) : Check (Option α)
  | _, none => .ok none
  | path, some v => (check path (some v)).map some

def nullable (check : Check α) : Check (Option α)
  | _, some .null => .ok none
  | path, v => (check path v).map some

/-- The fields of an object schema are checked in their order. -/
def field (v : Json) (name : String) (check : Check α) : Parsed α :=
  check [.key name] (v.field name)

def object (v : Option Json) (fields : Json → Parsed α) : Parsed α :=
  match v with
  | some (.object fs) => fields (.object fs)
  | _ => .error [{ code := .invalidType }]

variable {ofText : Json → Number} {lo n : Int} {hi : Option Int} {path : List PathPart}
  {v : Option Json}

theorem settle_ok {issues : List Issue} {a b : α} (h : settle issues a = .ok b) :
    issues = [] ∧ a = b := by
  unfold settle at h
  split at h
  · rename_i hempty
    cases h
    exact ⟨List.isEmpty_iff.mp hempty, rfl⟩
  · cases h

theorem ap_ok {f : Parsed (α → β)} {x : Parsed α} {b : β} (h : f.ap x = .ok b) :
    ∃ g a, f = .ok g ∧ x = .ok a ∧ g a = b := by
  cases f with
  | ok g =>
    cases x with
    | ok a =>
      cases h
      exact ⟨g, a, rfl, rfl, rfl⟩
    | error issues => cases h
  | error issues => cases x <;> cases h

theorem map_ok {f : α → β} {x : Parsed α} {b : β} (h : x.map f = .ok b) :
    ∃ a, x = .ok a ∧ f a = b := by
  cases x with
  | ok a =>
    cases h
    exact ⟨a, rfl, rfl⟩
  | error issues => cases h

theorem coerceInt_ok (h : coerceInt ofText lo hi path v = .ok n) :
    lo ≤ n ∧ ∀ m ∈ hi, n ≤ m := by
  unfold coerceInt at h
  dsimp only at h
  split at h
  · rename_i x hx
    obtain ⟨hissues, rfl⟩ := settle_ok h
    simp only [List.append_eq_nil_iff, ite_eq_left_iff, ite_eq_right_iff, List.cons_ne_nil,
      imp_false, not_not, not_lt] at hissues
    obtain ⟨hden, hlow, hhigh⟩ := hissues
    have hint : (x.num : Rat) = x := Rat.coe_int_num_of_den_eq_one hden
    refine ⟨?_, ?_⟩
    · rw [← hint] at hlow
      exact_mod_cast hlow
    · intro m hm
      rw [Option.mem_def.mp hm, ← hint] at hhigh
      simpa using hhigh
  · cases h
  · cases h

theorem optional_coerceInt_ok {found : Option Int}
    (h : optional (coerceInt ofText lo hi) path v = .ok found) :
    ∀ n ∈ found, lo ≤ n ∧ ∀ m ∈ hi, n ≤ m := by
  intro n hn
  cases v with
  | none =>
    cases h
    cases hn
  | some v =>
    obtain ⟨a, ha, rfl⟩ := map_ok h
    cases hn
    exact coerceInt_ok ha

end Lib.Zod
