import WaOps.Api.Store
import WaOps.Lib.Zod

namespace WaOps.Api
open Lib Lib.Zod

/-- `body ?? {}` -/
def orEmpty : Option Js.Json → Option Js.Json
  | none | some .null => some (.object [])
  | body => body

structure CreateHost where
  name : String
  osType : Option String
  osVersion : Option String
  arch : Option String
  environment : Option String

def CreateHostSchema (body : Option Js.Json) : Parsed CreateHost :=
  object body fun v =>
    (field v "name" (string 1 120)).map CreateHost.mk
      |>.ap (field v "osType" (optional (string 0 40)))
      |>.ap (field v "osVersion" (optional (string 0 80)))
      |>.ap (field v "arch" (optional (string 0 40)))
      |>.ap (field v "environment" (optional (string 0 40)))

/-- AckSchema and ResolveSchema: the note. -/
def NoteSchema (body : Option Js.Json) : Parsed (Option String) :=
  object body fun v => field v "note" (optional (string 0 1000))

def AckSchema := NoteSchema

def ResolveSchema := NoteSchema

structure CreateToken where
  name : Option String
  ttlMinutes : Option Int

def priorities : List (String × Priority) :=
  [("low", .low), ("normal", .normal), ("high", .high), ("urgent", .urgent)]

def statuses : List (String × TicketStatus) :=
  [("open", .open), ("in_progress", .inProgress), ("resolved", .resolved), ("closed", .closed)]

structure CreateTicket where
  title : String
  description : String
  priority : Option Priority
  labels : Option (List String)
  incidentId : Option String

def CreateTicketSchema (body : Option Js.Json) : Parsed CreateTicket :=
  object body fun v =>
    (field v "title" (string 1 200)).map CreateTicket.mk
      |>.ap (field v "description" (string 1 10000))
      |>.ap (field v "priority" (optional (enum priorities)))
      |>.ap (field v "labels" (optional (array 10 (string 1 40))))
      |>.ap (field v "incident_id" (optional uuid))

structure PatchTicket where
  title : Option String
  description : Option String
  priority : Option Priority
  labels : Option (List String)

def PatchTicketSchema (body : Option Js.Json) : Parsed PatchTicket :=
  object body fun v =>
    (field v "title" (optional (string 1 200))).map PatchTicket.mk
      |>.ap (field v "description" (optional (string 1 10000)))
      |>.ap (field v "priority" (optional (enum priorities)))
      |>.ap (field v "labels" (optional (array 10 (string 1 40))))

def CommentSchema (body : Option Js.Json) : Parsed String :=
  object body fun v => field v "body" (string 1 5000)

def AssignSchema (body : Option Js.Json) : Parsed (Option String) :=
  object body fun v => field v "assignee_id" (nullable uuid)

structure Transition where
  status : TicketStatus
  note : Option String

def TransitionSchema (body : Option Js.Json) : Parsed Transition :=
  object body fun v =>
    (field v "status" (enum statuses)).map Transition.mk
      |>.ap (field v "note" (optional (string 0 1000)))

structure SeriesQuery where
  metric : Option String
  fromMs : Option Int
  toMs : Option Int
  buckets : Option Int
  mount : Option String
  interface : Option String

structure LongQuery where
  metric : Option String
  days : Int
  buckets : Option Int

variable (ofText : Js.Json → Js.Number)

def CreateTokenSchema (body : Option Js.Json) : Parsed CreateToken :=
  object body fun v =>
    (field v "name" (optional (string 1 120))).map CreateToken.mk
      |>.ap (field v "ttl_minutes" (optional (coerceInt ofText 1 (some 60))))

def QuerySchema (query : Option Js.Json) : Parsed SeriesQuery :=
  object query fun v =>
    (field v "metric" (optional (string 1 128))).map SeriesQuery.mk
      |>.ap (field v "from" (optional (coerceInt ofText 0 none)))
      |>.ap (field v "to" (optional (coerceInt ofText 0 none)))
      |>.ap (field v "buckets" (optional (coerceInt ofText 1 (some 200))))
      |>.ap (field v "mount" (optional (string 0 200)))
      |>.ap (field v "interface" (optional (string 0 200)))

def LongQuerySchema (query : Option Js.Json) : Parsed LongQuery :=
  object query fun v =>
    (field v "metric" (optional (string 1 128))).map LongQuery.mk
      |>.ap ((field v "days" (optional (coerceInt ofText 1 (some 90)))).map (·.getD 7))
      |>.ap (field v "buckets" (optional (coerceInt ofText 10 (some 500))))

end WaOps.Api
