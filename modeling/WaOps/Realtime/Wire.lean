import WaOps.Lib.Lines
import WaOps.Realtime.Broker

namespace WaOps.Realtime
open Lib Lib.Lines

/-- A text is its UTF-16 code units, so it may be cut anywhere. -/
abbrev Text := List UInt16

/-- Line feed, carriage return, space, colon and NUL. -/
def lf : UInt16 := 0x0a
def cr : UInt16 := 0x0d
def space : UInt16 := 0x20
def colon : UInt16 := 0x3a
def nul : UInt16 := 0

/-- What `send` reads of an event; `json` is JSON.stringify of the whole of it. -/
structure WireEvent where
  id : Text
  type : Text
  json : Text
  deriving DecidableEq, Repr

/-- What `res.write` is called with. -/
inductive Wire where
  | event (evt : WireEvent)
  | comment (text : Text)
  deriving DecidableEq, Repr

def Wire.text : Wire → Text
  | .event evt =>
    Js.units "id: " ++ evt.id ++ lf :: Js.units "event: " ++ evt.type ++ lf ::
      Js.units "data: " ++ evt.json ++ [lf, lf]
  | .comment text => colon :: text ++ [lf, lf]

/-- A frame of the broker's streams as it is written. -/
def Frame.wire (stringify : RealtimeEvent → Text) : Frame → Wire
  | .event _ evt =>
    .event { id := Js.units evt.id, type := Js.units evt.type, json := stringify evt }
  | .comment text => .comment (Js.units text)

structure SseFrame where
  id : Text
  event : Text
  data : Text
  deriving DecidableEq, Repr

/-- The fields of SseParser besides its buffer. -/
structure SseFields where
  data : List Text := []
  eventName : Text := []
  id : Text := []
  deriving DecidableEq, Repr

def SseFields.dispatch (p : SseFields) : SseFields × Option SseFrame :=
  if p.data = [] then ({ p with eventName := [] }, none)
  else
    let event := if p.eventName = [] then Js.units "message" else p.eventName
    ({ p with data := [], eventName := [] },
      some { id := p.id, event, data := [lf].intercalate p.data })

/-- A field that is not one of these is left out. -/
def SseFields.set (p : SseFields) (field value : Text) : SseFields :=
  if field = Js.units "data" then { p with data := p.data ++ [value] }
  else if field = Js.units "event" then { p with eventName := value }
  else if field = Js.units "id" ∧ nul ∉ value then { p with id := value }
  else p

/-- The body of the loop, for one line. -/
def SseFields.read (p : SseFields) (line : Text) : SseFields × Option SseFrame :=
  let line := if line.getLast? = some cr then line.dropLast else line
  if line = [] then p.dispatch
  else if line.head? = some colon then (p, none)
  else
    let field := line.takeWhile (· ≠ colon)
    let value := (line.dropWhile (· ≠ colon)).drop 1
    let value := if value.head? = some space then value.drop 1 else value
    (p.set field value, none)

structure SseParser where
  buffer : Text := []
  fields : SseFields := {}
  deriving DecidableEq, Repr

def SseParser.push (p : SseParser) (chunk : Text) : SseParser × List SseFrame :=
  let ((fields, buffer), frames) := Lines.push lf SseFields.read (p.fields, p.buffer) chunk
  ({ buffer, fields }, frames)

/-- The loop of `push`, on what is in the buffer. -/
def SseParser.drain (p : SseParser) : SseParser × List SseFrame :=
  if lf ∈ p.buffer then
    let nl := p.buffer.idxOf lf
    let (fields, frame) := p.fields.read (p.buffer.take nl)
    let (q, frames) := SseParser.drain { buffer := p.buffer.drop (nl + 1), fields }
    (q, frame.toList ++ frames)
  else (p, [])
termination_by p.buffer.length
decreasing_by
  rename_i h
  have := List.length_pos_of_mem h
  simp only [List.length_drop]
  omega

/-- One chunk after the other. -/
def SseParser.feed (p : SseParser) : List Text → SseParser × List SseFrame
  | [] => (p, [])
  | chunk :: chunks =>
    let (q, frames) := p.push chunk
    let (r, more) := q.feed chunks
    (r, frames ++ more)

/-- The frames of a sequence of chunks. -/
def SseParser.frames (p : SseParser) (chunks : List Text) : List SseFrame := (p.feed chunks).2

def isDigit (u : UInt16) : Bool :=
  0x30 ≤ u && u ≤ 0x39

/-- The ids and types the broker's events have; JSON.stringify writes no raw line end. -/
structure WireEvent.Plain (evt : WireEvent) : Prop where
  id : evt.id ≠ [] ∧ ∀ u ∈ evt.id, isDigit u
  type : evt.type ≠ [] ∧ lf ∉ evt.type ∧ cr ∉ evt.type
  json : lf ∉ evt.json ∧ cr ∉ evt.json

/-- An event as above, or a comment of one line. -/
def Wire.Plain : Wire → Prop
  | .event evt => evt.Plain
  | .comment text => lf ∉ text

/-- The frame an event should give. -/
def Wire.frame : Wire → Option SseFrame
  | .event evt => some { id := evt.id, event := evt.type, data := evt.json }
  | .comment _ => none

/-- The lines of a frame's text. -/
def Wire.lines : Wire → List Text
  | .event evt => [Js.units "id: " ++ evt.id, Js.units "event: " ++ evt.type,
      Js.units "data: " ++ evt.json, []]
  | .comment text => [colon :: text, []]

theorem digit_ne {u v : UInt16} (h : isDigit u) (hv : isDigit v = false) : u ≠ v := by
  intro he
  rw [he, hv] at h
  cases h

theorem WireEvent.Plain.id_not_mem {evt : WireEvent} (h : evt.Plain) {u : UInt16}
    (hu : isDigit u = false) : u ∉ evt.id :=
  fun hm => digit_ne (h.id.2 u hm) hu rfl

theorem lines_text {w : Wire} (h : w.Plain) (rest : Text) :
    Lines.lines lf (w.text ++ rest) =
      (w.lines ++ (Lines.lines lf rest).1, (Lines.lines lf rest).2) := by
  have hblank : Lines.lines lf (lf :: rest) =
      ([] :: (Lines.lines lf rest).1, (Lines.lines lf rest).2) := by
    simp [Lines.lines]
  cases w with
  | event evt =>
    have hid : lf ∉ Js.units "id: " ++ evt.id := by
      rw [List.mem_append, not_or]
      exact ⟨by decide, h.id_not_mem rfl⟩
    have htype : lf ∉ Js.units "event: " ++ evt.type := by
      rw [List.mem_append, not_or]
      exact ⟨by decide, h.type.2.1⟩
    have hjson : lf ∉ Js.units "data: " ++ evt.json := by
      rw [List.mem_append, not_or]
      exact ⟨by decide, h.json.1⟩
    have htext : Wire.text (.event evt) ++ rest = (Js.units "id: " ++ evt.id) ++ lf ::
        ((Js.units "event: " ++ evt.type) ++ lf ::
          ((Js.units "data: " ++ evt.json) ++ lf :: (lf :: rest))) := by
      simp [Wire.text]
    rw [htext, lines_line hid, lines_line htype, lines_line hjson, hblank]
    rfl
  | comment text =>
    have hline : lf ∉ colon :: text := by
      rw [List.mem_cons, not_or]
      exact ⟨by decide, h⟩
    have htext : Wire.text (.comment text) ++ rest = (colon :: text) ++ lf :: (lf :: rest) := by
      simp [Wire.text]
    rw [htext, lines_line hline, hblank]
    rfl

theorem lines_written {written : List Wire} (h : ∀ w ∈ written, w.Plain) :
    (Lines.lines lf (written.flatMap Wire.text)).1 = written.flatMap Wire.lines := by
  induction written with
  | nil => rfl
  | cons w written ih =>
    rw [List.flatMap_cons, lines_text (h w List.mem_cons_self), List.flatMap_cons,
      ih (fun w hm => h w (List.mem_cons_of_mem _ hm))]

/-- A line of the form the broker writes sets its field; the space after the colon is not
part of the value. -/
theorem read_field (p : SseFields) {name value : Text} (hne : name ≠ []) (hname : colon ∉ name)
    (hcr : cr ∉ name ++ colon :: space :: value) :
    p.read (name ++ colon :: space :: value) = (p.set name value, none) := by
  have hlast : (name ++ colon :: space :: value).getLast? ≠ some cr :=
    fun he => hcr (List.mem_of_getLast? he)
  have hhead : (name ++ colon :: space :: value).head? ≠ some colon := by
    obtain ⟨c, name, rfl⟩ := List.exists_cons_of_ne_nil hne
    rw [List.cons_append, List.head?_cons]
    intro he
    exact hname (by simp [Option.some.inj he])
  have hall : ∀ u ∈ name, decide (u ≠ colon) = true := by
    intro u hu
    rw [decide_eq_true_eq]
    intro he
    exact hname (he ▸ hu)
  have htake : (name ++ colon :: space :: value).takeWhile (· ≠ colon) = name := by
    rw [List.takeWhile_append_of_pos hall]
    simp
  have hdrop : (name ++ colon :: space :: value).dropWhile (· ≠ colon) =
      colon :: space :: value := by
    rw [List.dropWhile_append_of_pos hall]
    simp
  simp only [SseFields.read, if_neg hlast, if_neg hhead, htake, hdrop]
  simp

section
variable (p : SseFields) {value : Text}

theorem read_id (hcr : cr ∉ value) (hnul : nul ∉ value) :
    p.read (Js.units "id: " ++ value) = ({ p with id := value }, none) := by
  have hline : cr ∉ Js.units "id" ++ colon :: space :: value := by
    simp only [List.mem_append, List.mem_cons, not_or]
    exact ⟨by decide, by decide, by decide, hcr⟩
  have hread := read_field p (by decide) (by decide) hline
  rw [SseFields.set, if_neg (by decide), if_neg (by decide), if_pos ⟨rfl, hnul⟩] at hread
  exact hread

theorem read_event (hcr : cr ∉ value) :
    p.read (Js.units "event: " ++ value) = ({ p with eventName := value }, none) := by
  have hline : cr ∉ Js.units "event" ++ colon :: space :: value := by
    simp only [List.mem_append, List.mem_cons, not_or]
    exact ⟨by decide, by decide, by decide, hcr⟩
  have hread := read_field p (by decide) (by decide) hline
  rw [SseFields.set, if_neg (by decide), if_pos rfl] at hread
  exact hread

theorem read_data (hcr : cr ∉ value) :
    p.read (Js.units "data: " ++ value) = ({ p with data := p.data ++ [value] }, none) := by
  have hline : cr ∉ Js.units "data" ++ colon :: space :: value := by
    simp only [List.mem_append, List.mem_cons, not_or]
    exact ⟨by decide, by decide, by decide, hcr⟩
  have hread := read_field p (by decide) (by decide) hline
  rw [SseFields.set, if_pos rfl] at hread
  exact hread

theorem read_comment (text : Text) : p.read (colon :: text) = (p, none) := by
  have hstripped : ∃ rest, (if (colon :: text).getLast? = some cr then (colon :: text).dropLast
      else colon :: text) = colon :: rest := by
    split
    · rename_i hlast
      cases text with
      | nil => exact absurd hlast (by decide)
      | cons u text => exact ⟨_, rfl⟩
    · exact ⟨text, rfl⟩
  obtain ⟨rest, hrest⟩ := hstripped
  simp [SseFields.read, hrest]

theorem read_blank : p.read [] = p.dispatch := rfl

end

/-- Nothing of the next event has been read. -/
def SseFields.Idle (p : SseFields) : Prop :=
  p.data = [] ∧ p.eventName = []

theorem read_wire {p : SseFields} (hp : p.Idle) {w : Wire} (h : w.Plain) :
    (readLines SseFields.read p w.lines).1.Idle ∧
      (readLines SseFields.read p w.lines).2 = w.frame.toList := by
  obtain ⟨hdata, hname⟩ := hp
  cases w with
  | event evt =>
    have htype := h.type.1
    simp [Wire.lines, Wire.frame, readLines, read_id _ (h.id_not_mem rfl) (h.id_not_mem rfl),
      read_event _ h.type.2.2, read_data _ h.json.2, read_blank, SseFields.dispatch,
      SseFields.Idle, hdata, htype, List.intercalate]
  | comment text =>
    -- the blank line after a comment has no event to dispatch
    simp [Wire.lines, Wire.frame, readLines, read_comment, read_blank, SseFields.dispatch,
      SseFields.Idle, hdata]

theorem read_written {written : List Wire} {p : SseFields} (hp : p.Idle)
    (h : ∀ w ∈ written, w.Plain) :
    (readLines SseFields.read p (written.flatMap Wire.lines)).2 =
      written.filterMap Wire.frame := by
  induction written generalizing p with
  | nil => rfl
  | cons w written ih =>
    obtain ⟨hidle, hframe⟩ := read_wire hp (h w List.mem_cons_self)
    have hrest := ih hidle (fun w hm => h w (List.mem_cons_of_mem _ hm))
    rw [List.flatMap_cons, readLines_append, hframe, hrest, List.filterMap_cons]
    cases w.frame <;> rfl

/-- The loop reads the complete lines of the buffer and leaves the rest. -/
theorem drain_eq (p : SseParser) : p.drain =
    ({ buffer := (Lines.lines lf p.buffer).2
       fields := (readLines SseFields.read p.fields (Lines.lines lf p.buffer).1).1 },
      (readLines SseFields.read p.fields (Lines.lines lf p.buffer).1).2) := by
  fun_induction SseParser.drain p with
  | case1 p hmem nl fields frame hread q frames hdrain ih =>
    obtain ⟨line, rest, hbuffer, hline⟩ := List.eq_append_cons_of_mem hmem
    have hnl : nl = line.length := by
      change p.buffer.idxOf lf = line.length
      rw [hbuffer, List.idxOf_append_of_notMem hline, List.idxOf_cons_self, Nat.add_zero]
    have htake : p.buffer.take nl = line := by rw [hnl, hbuffer, List.take_left]
    have hdrop : p.buffer.drop (nl + 1) = rest := by
      rw [hnl, hbuffer, ← List.singleton_append, ← List.append_assoc]
      exact List.drop_left' (by simp)
    rw [htake] at hread
    rw [hdrop] at hdrain ih
    have hlines : Lines.lines lf p.buffer =
        (line :: (Lines.lines lf rest).1, (Lines.lines lf rest).2) := by
      rw [hbuffer, lines_line hline]
    rw [hdrain] at ih
    simp only [Prod.mk.injEq] at ih
    obtain ⟨rfl, rfl⟩ := ih
    rw [hlines]
    simp only [readLines, hread]
  | case2 p hmem =>
    have hlines : Lines.lines lf p.buffer = ([], p.buffer) := lines_partial hmem
    rw [hlines]
    rfl

theorem push_eq_drain (p : SseParser) (chunk : Text) :
    p.push chunk = ({ p with buffer := p.buffer ++ chunk } : SseParser).drain := by
  rw [drain_eq]
  rfl

theorem feed_eq_pushAll (p : SseParser) (chunks : List Text) : p.feed chunks =
    ({ buffer := (pushAll lf SseFields.read (p.fields, p.buffer) chunks).1.2
       fields := (pushAll lf SseFields.read (p.fields, p.buffer) chunks).1.1 },
      (pushAll lf SseFields.read (p.fields, p.buffer) chunks).2) := by
  induction chunks generalizing p with
  | nil => rfl
  | cons chunk chunks ih =>
    have hfeed : p.feed (chunk :: chunks) = (((p.push chunk).1.feed chunks).1,
        (p.push chunk).2 ++ ((p.push chunk).1.feed chunks).2) := rfl
    rw [hfeed, ih]
    rfl

/-- However a text is cut into chunks, a fresh parser returns the frames it returns for the
whole text and ends where it ends then. -/
theorem feed_eq_push (chunks : List Text) :
    ({} : SseParser).feed chunks = ({} : SseParser).push chunks.flatten := by
  rw [feed_eq_pushAll, pushAll_eq_push rfl]
  rfl

theorem frames_flatten (chunks : List Text) :
    ({} : SseParser).frames chunks = (({} : SseParser).push chunks.flatten).2 := by
  rw [SseParser.frames, feed_eq_pushAll, pushAll_eq_push rfl]
  rfl

/-- A whole text of frames and comments is read as its frames. -/
theorem push_written {written : List Wire} (hplain : ∀ w ∈ written, w.Plain) :
    (({} : SseParser).push (written.flatMap Wire.text)).2 = written.filterMap Wire.frame := by
  have hread := read_written (p := {}) ⟨rfl, rfl⟩ hplain
  rw [← lines_written hplain] at hread
  exact hread

/-- However the text of the broker's frames is cut, the parser finds each event once, in order,
as it was sent. -/
theorem frames_of_chunks (written : List Wire) (chunks : List Text)
    (hplain : ∀ w ∈ written, w.Plain) (hcut : chunks.flatten = written.flatMap Wire.text) :
    ({} : SseParser).frames chunks = written.filterMap Wire.frame := by
  rw [frames_flatten, hcut]
  exact push_written hplain

def createdEvent : WireEvent where
  id := Js.units "7"
  type := Js.units "incident.created"
  json := Js.units "[1, 2]"

theorem createdEvent_plain : createdEvent.Plain where
  id := ⟨by decide, List.all_eq_true.mp (by decide)⟩
  type := by decide
  json := by decide

/-- Cut inside a field, with a heartbeat before the event. -/
theorem frames_of_cut_event : ({} : SseParser).frames
      [(Wire.text (.comment (Js.units "keep-alive")) ++ Wire.text (.event createdEvent)).take 17,
        (Wire.text (.comment (Js.units "keep-alive")) ++ Wire.text (.event createdEvent)).drop 17] =
    [Wire.comment (Js.units "keep-alive"), .event createdEvent].filterMap Wire.frame := by
  apply frames_of_chunks
  · intro w hw
    rcases List.mem_cons.mp hw with rfl | hw
    · change lf ∉ Js.units "keep-alive"
      decide
    · rw [List.mem_singleton.mp hw]
      exact createdEvent_plain
  · simp

/-- A code unit below the surrogates stands for its character alone. -/
theorem mem_units {s : String} {u : UInt16} (hu : u.toNat < 0xd800) (h : u ∈ Js.units s) :
    ∃ c ∈ s.toList, c.toNat = u.toNat := by
  obtain ⟨c, hc, hm⟩ := List.mem_flatMap.mp h
  refine ⟨c, hc, ?_⟩
  split at hm
  · rename_i hlt
    rw [List.mem_singleton.mp hm, UInt16.toNat_ofNat']
    omega
  · have hval : c.toNat < 0xd800 ∨ 0xdfff < c.toNat ∧ c.toNat < 0x110000 := c.valid
    rcases List.mem_cons.mp hm with rfl | hm
    · rw [UInt16.toNat_ofNat'] at hu
      omega
    · rw [List.mem_singleton.mp hm, UInt16.toNat_ofNat'] at hu
      omega

theorem units_not_mem {s : String} {u : UInt16} (hu : u.toNat < 0xd800)
    (h : ∀ c ∈ s.toList, c.toNat ≠ u.toNat) : u ∉ Js.units s := by
  intro hm
  obtain ⟨c, hc, he⟩ := mem_units hu hm
  exact h c hc he

theorem units_digits {s : String} (h : ∀ c ∈ s.toList, c.isDigit = true) :
    ∀ u ∈ Js.units s, isDigit u := by
  intro u hu
  obtain ⟨c, hc, hm⟩ := List.mem_flatMap.mp hu
  obtain ⟨hlow, hhigh⟩ := Js.isDigit_bounds (h c hc)
  rw [if_pos (by omega)] at hm
  rw [List.mem_singleton.mp hm, isDigit, Bool.and_eq_true, decide_eq_true_eq, decide_eq_true_eq,
    UInt16.le_iff_toNat_le, UInt16.le_iff_toNat_le, UInt16.toNat_ofNat']
  constructor
  · rw [Nat.mod_eq_of_lt (by omega)]
    exact hlow
  · rw [Nat.mod_eq_of_lt (by omega)]
    exact hhigh

theorem units_ne_nil {s : String} (h : s ≠ "") : Js.units s ≠ [] := by
  intro hn
  apply h
  rw [Js.units, List.flatMap_eq_nil_iff] at hn
  rw [← String.toList_eq_nil_iff, List.eq_nil_iff_forall_not_mem]
  intro c hc
  have := hn c hc
  split at this <;> cases this

/-- What the publisher's ids and types look like; a comment is one line. -/
def Frame.Plain : Frame → Prop
  | .event _ evt => (evt.id ≠ "" ∧ ∀ c ∈ evt.id.toList, c.isDigit) ∧
      evt.type ≠ "" ∧ ∀ c ∈ evt.type.toList, c.toNat ≠ lf.toNat ∧ c.toNat ≠ cr.toNat
  | .comment text => ∀ c ∈ text.toList, c.toNat ≠ lf.toNat

theorem Frame.Plain.wire {stringify : RealtimeEvent → Text}
    (hs : ∀ evt, lf ∉ stringify evt ∧ cr ∉ stringify evt) {f : Frame} (h : f.Plain) :
    (f.wire stringify).Plain := by
  cases f with
  | event origin evt =>
    obtain ⟨⟨hne, hdigits⟩, htype, hline⟩ := h
    exact {
      id := ⟨units_ne_nil hne, units_digits hdigits⟩
      type := ⟨units_ne_nil htype, units_not_mem (by decide) (fun c hc => (hline c hc).1),
        units_not_mem (by decide) (fun c hc => (hline c hc).2)⟩
      json := hs evt }
  | comment text => exact units_not_mem (by decide) h

/-- The frames a stream of the broker has written, as its client reads them. -/
theorem stream_read {stringify : RealtimeEvent → Text}
    (hs : ∀ evt, lf ∉ stringify evt ∧ cr ∉ stringify evt) {st : Stream} {chunks : List Text}
    (h : ∀ f ∈ st.written, f.Plain)
    (hcut : chunks.flatten = (st.written.map (Frame.wire stringify)).flatMap Wire.text) :
    ({} : SseParser).frames chunks =
      (st.written.map (Frame.wire stringify)).filterMap Wire.frame := by
  rw [frames_flatten, hcut]
  apply push_written
  intro w hw
  obtain ⟨f, hf, rfl⟩ := List.mem_map.mp hw
  exact (h f hf).wire hs

end WaOps.Realtime
