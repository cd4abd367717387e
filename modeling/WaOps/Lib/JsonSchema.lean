import WaOps.Lib.Zod

namespace Lib.JsonSchema
open Js

inductive JsonType where
  | null | number | integer | string | array | object
  deriving DecidableEq, Repr

/-- A keyword accepts every value of a type it says nothing about. The option of ajv is `strict:
false`, under which a number need not be finite. -/
abbrev Schema := Json → Bool

/-- `!(n % 1) && !isNaN(n)`; the remainder of an infinity is NaN, which is falsy. -/
def isWhole : Number → Bool
  | .nan => false
  | .infinite _ => true
  | .finite q => q.den = 1

def JsonType.has : JsonType → Json → Bool
  | .null, .null => true
  | .number, .number _ => true
  | .integer, .number n => isWhole n
  | .string, .string _ => true
  | .array, .array _ => true
  | .object, .object _ => true
  | _, _ => false

/-- The keywords of one schema object. -/
def all (keywords : List Schema) : Schema := fun v => keywords.all (fun k => k v)

def type (t : JsonType) : Schema := t.has

/-- `enum` of texts. -/
def enum (texts : List String) : Schema
  | .string s => s ∈ texts
  | _ => false

def maxItems (n : Nat) : Schema
  | .array vs => vs.length ≤ n
  | _ => true

def items (schema : Schema) : Schema
  | .array vs => vs.all schema
  | _ => true

def texts (vs : List Json) : List String :=
  vs.filterMap (fun v => match v with | .string s => some s | _ => none)

def required (names : List String) : Schema
  | .object fields => names.all (fun name => ((Json.object fields).field name).isSome)
  | _ => true

def isSeparator (c : Char) : Bool :=
  c = 't' || c = 'T' || isSpace c

/-- The sign, hours and minutes of a zone; none where there is no zone or not one. -/
def zone : List Char → Option (Int × Nat × Nat)
  | ['z'] | ['Z'] => some (1, 0, 0)
  | sign :: h₁ :: h₂ :: rest =>
    let s : Option Int := if sign = '+' then some 1 else if sign = '-' then some (-1) else none
    let m : Option Nat :=
      match rest with
      | [] => some 0
      | [m₁, m₂] | [':', m₁, m₂] => digitsValue 10 [m₁, m₂]
      | _ => none
    match s, digitsValue 10 [h₁, h₂], m with
    | some s, some h, some m => some (s, h, m)
    | _, _, _ => none
  | _ => none

/-- What follows the whole seconds: digits after a point are skipped. -/
def afterFraction : List Char → Option (List Char)
  | '.' :: rest =>
    if rest.takeWhile Char.isDigit = [] then none else some (rest.dropWhile Char.isDigit)
  | rest => some rest

/-- A leap second counts at the end of a day in UTC. -/
def isClock (hr min sec : Nat) (sign : Int) (tzH tzM : Nat) : Bool :=
  if tzH > 23 || tzM > 59 then false
  else if hr ≤ 23 && min ≤ 59 && sec < 60 then true
  else
    let utcMin : Int := min - tzM * sign
    let utcHr : Int := hr - tzH * sign - if utcMin < 0 then 1 else 0
    (utcHr = 23 || utcHr = -1) && (utcMin = 59 || utcMin = -1) && sec < 61

def isTime : List Char → Bool
  | h₁ :: h₂ :: ':' :: m₁ :: m₂ :: ':' :: s₁ :: s₂ :: rest =>
    match digitsValue 10 [h₁, h₂], digitsValue 10 [m₁, m₂], digitsValue 10 [s₁, s₂],
      (afterFraction rest).bind zone with
    | some hr, some min, some sec, some (sign, tzH, tzM) => isClock hr min sec sign tzH tzM
    | _, _, _, _ => false
  | _ => false

def isDay : List Char → Bool
  | [y₁, y₂, y₃, y₄, '-', m₁, m₂, '-', d₁, d₂] => Zod.isDate [y₁, y₂, y₃, y₄] [m₁, m₂] [d₁, d₂]
  | _ => false

def isDateTime (s : String) : Bool :=
  match s.toList.splitOnP isSeparator with
  | [day, time] => isDay day && isTime time
  | _ => false

def dateTime : Schema
  | .string s => isDateTime s
  | _ => true

example : isDateTime "2016-12-31T23:59:60Z" = true := by decide
example : isDateTime "2026-09-24 12:00:00+02:00" = true := by decide

section
variable {v : Json} {o : Option Json} {names : List String} {props : List (String × Schema)}
  {k : Schema} {ks : List Schema}

/-- The value has no field besides these. -/
def Closed (names : List String) (v : Json) : Prop :=
  ∀ fields, v = .object fields → ∀ f ∈ fields, f.1 ∈ names

end

end Lib.JsonSchema
