import WaOps.Api.Answers
import WaOps.Api.Failures

namespace WaOps.Api
open Lib Lib.Scoped Lib.Programs Lib.Tables

variable {env : Env} {ctx : Caller} {α β : Type} {id : String}

theorem parse_reads {parsed : Zod.Parsed β} : Reads (parse parsed) := by
  intro s
  cases parsed <;> rfl

theorem findOrNotFound_reads {i : TableName} {name text : String} {p : String → i.Row → Bool} :
    Reads (findOrNotFound env i name text p) := by
  refine Reads.bind uuidOf_reads fun id => Reads.bind findFirst_reads fun found => ?_
  cases found with
  | none => exact fun _ => rfl
  | some r => exact pure_reads

theorem assignee_reads {assigneeId : Option String} :
    Reads (assigneeId.mapM (checkAssignee env ctx)) := by
  cases assigneeId with
  | none => exact pure_reads
  | some assigneeId =>
    refine Reads.bind ?_ fun _ => pure_reads
    refine Reads.bind uuidOf_reads fun userId => Reads.bind findFirst_reads fun member => ?_
    exact Reads.bind throwIf_reads fun _ => pure_reads

theorem map_reads {c : Handler α} {g : α → β} (h : Reads c) : Reads (g <$> c) :=
  Reads.bind h fun _ => pure_reads

theorem getIncident_reads : Reads (IncidentsController.get env ctx id) := by
  refine Reads.bind findOrNotFound_reads fun incident => ?_
  split
  · exact pure_reads
  · exact pure_reads
  · refine Reads.bind ?_ fun host => ?_
    · unfold resourceHost
      split
      · exact findFirst_reads
      · exact Reads.bind uuidOf_reads fun _ => findFirst_reads
    · cases host with
      | some host => exact pure_reads
      | none => exact pure_reads

theorem parseQuery_reads {message : String} {parsed : Zod.Parsed β} :
    Reads (parseQuery message parsed) := by
  intro s
  cases parsed <;> rfl

theorem orInternal_reads {found : Option β} : Reads (orInternal found) := by
  intro s
  cases found <;> rfl

theorem series_reads {query : Option Js.Json} :
    Reads (MetricsController.series env ctx id query) := by
  refine Reads.bind parseQuery_reads fun q => Reads.bind findOrNotFound_reads fun host => ?_
  refine Reads.bind throwIf_reads fun _ => Reads.bind orInternal_reads fun b => ?_
  exact Reads.bind findMany_reads fun _ => pure_reads

theorem longSeries_reads {query : Option Js.Json} :
    Reads (MetricsController.longSeries env ctx id query) := by
  refine Reads.bind parseQuery_reads fun q => Reads.bind findOrNotFound_reads fun host => ?_
  exact Reads.bind throwIf_reads fun _ => Reads.bind findMany_reads fun _ => pure_reads

end WaOps.Api
