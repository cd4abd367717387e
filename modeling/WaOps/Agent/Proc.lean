import WaOps.Agent.Collector
import WaOps.Lib.Fields
import WaOps.Lib.Upserts

namespace WaOps.Agent
open Lib Lib.Fields Lib.Upserts

/-- `strings.SplitN(line, ":", 2)`, none where it has one part. -/
def splitColon (line : List Char) : Option (List Char × List Char) :=
  match line.dropWhile (fun c => c ≠ ':') with
  | [] => none
  | _ :: rest => some (line.takeWhile (fun c => c ≠ ':'), rest)

/-- `strings.TrimSpace` -/
def trimSpace (cs : List Char) : List Char :=
  ((cs.dropWhile isSpace).reverse.dropWhile isSpace).reverse

/-- `strings.TrimSuffix(key, ":")` -/
def trimColon (key : List Char) : List Char :=
  if key.getLast? = some ':' then key.dropLast else key

def linesOf (content : String) : List (List Char) :=
  content.toList.splitOn '\n'

section Parsers
variable {F : Type} (float : Float64 F)

/-- `a == b` of floats. -/
def Float64.eq (a b : F) : Bool :=
  float.le a b && float.le b a

/-- The variables of ParseMemInfo. -/
structure MemInfo (F : Type) where
  total : F
  available : F
  free : F
  buffers : F
  cached : F
  haveAvailable : Bool

def MemInfo.read (m : MemInfo F) (line : List Char) : MemInfo F :=
  match fields line with
  | first :: second :: _ =>
    match float.parse second with
    | none => m
    | some v =>
      let key := String.ofList (trimColon first)
      if key = "MemTotal" then { m with total := v }
      else if key = "MemAvailable" then { m with available := v, haveAvailable := true }
      else if key = "MemFree" then { m with free := v }
      else if key = "Buffers" then { m with buffers := v }
      else if key = "Cached" then { m with cached := v }
      else m
  | _ => m

def MemInfo.zero : MemInfo F :=
  { total := float.ofNat 0
    available := float.ofNat 0
    free := float.ofNat 0
    buffers := float.ofNat 0
    cached := float.ofNat 0
    haveAvailable := false }

/-- The bytes used and available. -/
def MemInfo.usage (m : MemInfo F) : Except CollectError (F × F) :=
  if float.eq m.total (float.ofNat 0) then .error .noSamples
  else
    let kb := float.ofNat 1024
    let available :=
      if m.haveAvailable then m.available else float.add (float.add m.free m.buffers) m.cached
    .ok (float.mul (float.sub m.total available) kb, float.mul available kb)

def parseMemInfo (content : String) : Except CollectError (F × F) :=
  ((linesOf content).foldl (MemInfo.read float) (MemInfo.zero float)).usage float

def parseLoadAvg (content : String) : Except CollectError (F × F × F) :=
  match fields content.toList with
  | f1 :: f5 :: f15 :: _ =>
    match float.parse f1, float.parse f5, float.parse f15 with
    | some l1, some l5, some l15 => .ok (l1, l5, l15)
    | _, _, _ => .error .noSamples
  | _ => .error .noSamples

/-- What a line of /proc/net/dev adds to the map, if anything. -/
def readInterface (line : List Char) : Option (String × F × F) := do
  let (left, right) ← splitColon line
  let name := String.ofList (trimSpace left)
  if name = "lo" then none
  else
    let counters := fields right
    if counters.length < 9 then none
    else
      let rx ← counters[0]?.bind float.parse
      let tx ← counters[8]?.bind float.parse
      some (name, rx, tx)

/-- The map, in the order in which its keys were added; Go walks it in any. -/
def parseNetDev (content : String) : Except CollectError (List (String × F × F)) :=
  let out := (((linesOf content).drop 2).filterMap (readInterface float)).foldl
    (fun out new => upsert (fun r => some r.1) new.1 new (fun _ => new) out) []
  if out = [] then .error .noSamples else .ok out

def parseUptime (content : String) : F :=
  let minusOne := float.sub (float.ofNat 0) (float.ofNat 1)
  match fields content.toList with
  | [] => minusOne
  | first :: _ => (float.parse (trimSpace first)).getD minusOne

/-- The texts of the files; one that cannot be read is absent. -/
structure ProcFiles where
  stat : Option String
  memInfo : Option String
  loadAvg : Option String
  netDev : Option String
  uptime : Option String

/-- What a cycle finds in the files. -/
def ProcFiles.sources (files : ProcFiles) (now : Int) (statfs : Option (F × F)) : Sources F :=
  { now
    stat := files.stat
    memInfo := files.memInfo.bind (fun text => (parseMemInfo float text).toOption)
    loadAvg := files.loadAvg.bind (fun text => (parseLoadAvg float text).toOption)
    statfs
    netDev := (files.netDev.bind (fun text => (parseNetDev float text).toOption)).getD []
    uptime := (files.uptime.map (parseUptime float)).filter (float.le (float.ofNat 0)) }

end Parsers

end WaOps.Agent
