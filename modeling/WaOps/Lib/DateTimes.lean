import Mathlib.Data.List.TakeWhile
import WaOps.Lib.JsonSchema

namespace Lib.DateTimes
open Js Zod JsonSchema

/-- A time without seconds, which zod takes and the format date-time does not. -/
def Brief (s : String) : Prop :=
  ∃ day h₁ h₂ n₁ n₂, s.toList = day ++ ['T', h₁, h₂, ':', n₁, n₂, 'Z'] ∧ isDay day = true ∧
    inRange 0 23 [h₁, h₂] = true ∧ inRange 0 59 [n₁, n₂] = true

section
variable {α : Type} {p : α → Bool} {l a b : List α}

end

section
variable {s : String} {c d : Char} {cs rest day time : List Char} {n : Nat}

end

end Lib.DateTimes
