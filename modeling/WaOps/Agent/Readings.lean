import Mathlib.Data.List.Induction
import WaOps.Agent.Proc
import WaOps.Lib.Strconv

namespace WaOps.Agent
open Lib Lib.Fields Lib.Upserts

/-- The float64 of the agent's host. -/
def binary64 : Float64 Js.Number where
  parse := Strconv.parseFloat
  ofNat n := Js.toDouble n
  add := Js.Number.add
  sub := Js.Number.sub
  mul := Js.Number.mul
  div := Js.Number.div
  lt := Js.Number.lt
  le a b := b.ge a
  isNaN v := v = .nan

@[simp] theorem binary64_add (a b : Js.Number) : binary64.add a b = a.add b := rfl

@[simp] theorem binary64_sub (a b : Js.Number) : binary64.sub a b = a.sub b := rfl

@[simp] theorem binary64_mul (a b : Js.Number) : binary64.mul a b = a.mul b := rfl

@[simp] theorem binary64_le (a b : Js.Number) : binary64.le a b = b.ge a := rfl

/-- The text of some lines, each ended by a newline. -/
def textOf (lines : List (List Char)) : String :=
  String.ofList (['\n'].intercalate (lines ++ [[]]))

/-- A figure with two decimals, as the kernel prints a load or a time. -/
structure Hundredths where
  whole : UInt64
  part : Fin 100

def Hundredths.text (x : Hundredths) : List Char :=
  Strconv.hundredths x.whole.toNat x.part

def Hundredths.value (x : Hundredths) : ℚ :=
  x.whole.toNat + (x.part : ℕ) / 100

/-- The text of a counter. -/
def counterText (n : UInt64) : List Char :=
  Nat.toDigits 10 n.toNat

/-- A line of /proc/meminfo: its key, and the columns after the key with its colon. -/
structure MemLine where
  key : String
  columns : List (Column Char)
  value : UInt64

/-- A line of /proc/net/dev. -/
structure NetLine where
  indent : List Char
  name : String
  columns : List (Column Char)
  rx : UInt64
  tx : UInt64

/-- The files of a machine, and the figures that the kernel has of it. -/
structure LinuxHost where
  stat : Option String
  memory : List MemLine
  loads : List (Column Char)
  load : Hundredths × Hundredths × Hundredths
  headers : List Char × List Char
  interfaces : List NetLine
  clock : List (Column Char)
  uptime : Hundredths

def MemLine.text (l : MemLine) : List Char :=
  laid ({ gap := [], word := l.key.toList ++ [':'] } :: l.columns)

def NetLine.text (l : NetLine) : List Char :=
  l.indent ++ (l.name.toList ++ ':' :: laid l.columns)

def LinuxHost.files (m : LinuxHost) : ProcFiles :=
  { stat := m.stat
    memInfo := some (textOf (m.memory.map MemLine.text))
    loadAvg := some (textOf [laid m.loads])
    netDev := some (textOf (m.headers.1 :: m.headers.2 :: m.interfaces.map NetLine.text))
    uptime := some (textOf [laid m.clock]) }

/-- The last line of a key states its value. -/
def stated (lines : List MemLine) (key : String) : Option UInt64 :=
  ((lines.filter (fun l => l.key = key)).getLast?).map MemLine.value

/-- A column's word is the text of a figure. -/
def Shows (columns : List (Column Char)) (n : Nat) (text : List Char) : Prop :=
  ∃ c, columns[n]? = some c ∧ c.word = text

structure MemLine.Formed (l : MemLine) : Prop where
  key : ∀ c ∈ l.key.toList, isSpace c = false
  columns : Apart isSpace ({ gap := [], word := l.key.toList ++ [':'] } :: l.columns)
  value : Shows l.columns 0 (counterText l.value)
  line : '\n' ∉ l.text

structure NetLine.Formed (l : NetLine) : Prop where
  indent : ∀ c ∈ l.indent, isSpace c = true
  name : l.name ≠ "" ∧ ∀ c ∈ l.name.toList, isSpace c = false ∧ c ≠ ':'
  columns : Apart isSpace l.columns
  rx : Shows l.columns 0 (counterText l.rx)
  tx : Shows l.columns 8 (counterText l.tx)
  line : '\n' ∉ l.text

/-- The kilobytes available; an older kernel does not state them. -/
def availableOf (lines : List MemLine) : Nat :=
  match stated lines "MemAvailable" with
  | some v => v.toNat
  | none =>
    let part (key : String) := ((stated lines key).map UInt64.toNat).getD 0
    part "MemFree" + part "Buffers" + part "Cached"

/-- The files are formed as the kernel's are and state what the machine has, which is less than
8 PiB of memory. -/
structure LinuxHost.Formed (m : LinuxHost) : Prop where
  memory : ∀ l ∈ m.memory, l.Formed
  total : ∃ total, stated m.memory "MemTotal" = some total ∧ 0 < total.toNat ∧
    total.toNat < 2 ^ 43
  available : availableOf m.memory < 2 ^ 43
  loads : Apart isSpace m.loads
  load1 : Shows m.loads 0 m.load.1.text
  load5 : Shows m.loads 1 m.load.2.1.text
  load15 : Shows m.loads 2 m.load.2.2.text
  headers : '\n' ∉ m.headers.1 ∧ '\n' ∉ m.headers.2
  interfaces : ∀ l ∈ m.interfaces, l.Formed
  names : (m.interfaces.map NetLine.name).Nodup
  clock : Apart isSpace m.clock
  uptime : Shows m.clock 0 m.uptime.text

/-- The samples a cycle is to make of a machine. The bytes of the memory are exact, and every
other value is the double nearest to the machine's figure. -/
def LinuxHost.report (m : LinuxHost) (host : String) (now : Int) (avail used : Js.Number)
    (total : UInt64) : List (HostSample Js.Number) :=
  let figure (metric : String) (value : Js.Number) (dimensions : Option (String × String)) :
      HostSample Js.Number :=
    { metric, resourceId := host, observedAt := now, value, dimensions }
  let available : ℤ := availableOf m.memory
  [figure "host.memory.used_bytes" (.finite (((total.toNat - available) * 1024 : ℤ) : ℚ)) none,
    figure "host.memory.available_bytes" (.finite ((available * 1024 : ℤ) : ℚ)) none,
    figure "host.load.1" (Js.toDouble m.load.1.value) none,
    figure "host.load.5" (Js.toDouble m.load.2.1.value) none,
    figure "host.load.15" (Js.toDouble m.load.2.2.value) none,
    figure "host.filesystem.available_bytes" avail (some ("mount", "/")),
    figure "host.filesystem.used_bytes" used (some ("mount", "/"))] ++
  (m.interfaces.filter (fun l => l.name ≠ "lo")).flatMap (fun l =>
    [figure "host.network.rx_bytes_total" (Js.toDouble l.rx.toNat) (some ("interface", l.name)),
      figure "host.network.tx_bytes_total" (Js.toDouble l.tx.toNat)
        (some ("interface", l.name))]) ++
  [figure "host.uptime_seconds" (Js.toDouble m.uptime.value) none]

variable {lines : List (List Char)} {columns : List (Column Char)} {n : Nat} {text : List Char}
  {v : Js.Number}

theorem fields_laid (h : Apart isSpace columns) :
    fields (laid columns) = columns.map Column.word := by
  have hwords : words isSpace (laid columns ++ []) = columns.map Column.word :=
    words_laid h (by simp)
  rw [List.append_nil] at hwords
  exact hwords

theorem linesOf_textOf (h : ∀ line ∈ lines, '\n' ∉ line) :
    linesOf (textOf lines) = lines ++ [[]] := by
  have hall : ∀ line ∈ lines ++ [[]], '\n' ∉ line := by
    intro line hline
    rcases List.mem_append.mp hline with hline | hline
    · exact h line hline
    · rw [List.mem_singleton.mp hline]
      exact List.not_mem_nil
  rw [linesOf, textOf, String.toList_ofList, List.splitOn_intercalate '\n' hall (by simp)]

/-- The newline that ends a file of one line is no word of it. -/
theorem fields_textOf (h : Apart isSpace columns) :
    fields (textOf [laid columns]).toList = columns.map Column.word := by
  have htext : (textOf [laid columns]).toList = laid columns ++ ['\n'] := by
    simp [textOf]
  rw [htext]
  exact words_laid h fun c hc => by simp [List.mem_singleton.mp hc, isSpace, Char.isWhitespace]

theorem Shows.word (h : Shows columns n text) :
    (columns.map Column.word)[n]?.bind binary64.parse = binary64.parse text := by
  obtain ⟨c, hc, hv⟩ := h
  rw [List.getElem?_map, hc, ← hv]
  rfl

theorem parse_counter (n : UInt64) :
    binary64.parse (counterText n) = some (Js.toDouble n.toNat) :=
  Strconv.parseFloat_digits n.toNat_lt

theorem parse_hundredths (x : Hundredths) :
    binary64.parse x.text = some (Js.toDouble x.value) :=
  Strconv.parseFloat_hundredths x.whole.toNat_lt x.part.isLt

theorem trimColon_key (key : List Char) : trimColon (key ++ [':']) = key := by
  simp [trimColon]

/-- What a line does to the variables. -/
theorem read_line {l : MemLine} (h : l.Formed) (m : MemInfo Js.Number) :
    m.read binary64 l.text =
      let v := Js.toDouble l.value.toNat
      if l.key = "MemTotal" then { m with total := v }
      else if l.key = "MemAvailable" then { m with available := v, haveAvailable := true }
      else if l.key = "MemFree" then { m with free := v }
      else if l.key = "Buffers" then { m with buffers := v }
      else if l.key = "Cached" then { m with cached := v }
      else m := by
  have hv := h.value.word
  rw [parse_counter] at hv
  have hfields : fields l.text = (l.key.toList ++ [':']) :: l.columns.map Column.word :=
    fields_laid h.columns
  cases hcolumns : l.columns.map Column.word with
  | nil =>
    rw [hcolumns] at hv
    cases hv
  | cons word rest =>
    rw [hcolumns] at hv
    have hword : binary64.parse word = some (Js.toDouble l.value.toNat) := hv
    simp only [MemInfo.read, hfields, hcolumns, hword, trimColon_key, String.ofList_toList]

/-- A variable that one key sets, after some lines. -/
theorem foldl_stated {G : Type} (π : MemInfo Js.Number → G) (g : UInt64 → G) (key : String)
    {lines : List MemLine} (m : MemInfo Js.Number)
    (h : ∀ l ∈ lines, ∀ m : MemInfo Js.Number,
      π (m.read binary64 l.text) = if l.key = key then g l.value else π m) :
    π ((lines.map MemLine.text).foldl (MemInfo.read binary64) m) =
      ((stated lines key).map g).getD (π m) := by
  induction lines using List.reverseRecOn with
  | nil => rfl
  | append_singleton lines l ih =>
    have hl := h l (by simp)
    have hrest := ih (fun l' hl' => h l' (List.mem_append_left _ hl'))
    rw [List.map_append, List.foldl_append, List.map_singleton, List.foldl_cons, List.foldl_nil, hl,
      hrest]
    unfold stated
    by_cases hk : l.key = key <;> simp [hk]

/-- A kilobyte count of the machine as a double. -/
theorem toDouble_nat {k : ℕ} (h : k < 2 ^ 53) : Js.toDouble k = .finite ((k : ℤ) : ℚ) :=
  Js.toDouble_int (n := k) (by simpa using h)

theorem double_part (part : Option UInt64) (h : (part.map UInt64.toNat).getD 0 < 2 ^ 53) :
    (part.map (fun v => Js.toDouble v.toNat)).getD (binary64.ofNat 0) =
      .finite ((((part.map UInt64.toNat).getD 0 : ℕ) : ℤ) : ℚ) := by
  cases part with
  | none => exact toDouble_nat (k := 0) (by decide)
  | some v => exact toDouble_nat h

theorem parseMemInfo_text {lines : List MemLine} (h : ∀ l ∈ lines, l.Formed) {total : UInt64}
    (htotal : stated lines "MemTotal" = some total) (hpos : 0 < total.toNat)
    (hsmall : total.toNat < 2 ^ 43) (havailable : availableOf lines < 2 ^ 43) :
    parseMemInfo binary64 (textOf (lines.map MemLine.text)) =
      .ok (.finite ((((total.toNat : ℤ) - availableOf lines) * 1024 : ℤ) : ℚ),
        .finite (((availableOf lines : ℤ) * 1024 : ℤ) : ℚ)) := by
  have hlines : ∀ line ∈ lines.map MemLine.text, '\n' ∉ line := by
    intro line hline
    obtain ⟨l, hl, rfl⟩ := List.mem_map.mp hline
    exact (h l hl).line
  have hend : ∀ m : MemInfo Js.Number, m.read binary64 [] = m := fun m => rfl
  rw [parseMemInfo, linesOf_textOf hlines, List.foldl_append, List.foldl_cons, List.foldl_nil, hend]
  let double (v : UInt64) := Js.toDouble v.toNat
  have hsum := foldl_stated MemInfo.total double "MemTotal" (MemInfo.zero binary64)
    (fun l hl m => by rw [read_line (h l hl)]; dsimp only; split_ifs <;> simp_all [double])
  have hread := foldl_stated MemInfo.available double "MemAvailable" (MemInfo.zero binary64)
    (fun l hl m => by rw [read_line (h l hl)]; dsimp only; split_ifs <;> simp_all [double])
  have hhave := foldl_stated MemInfo.haveAvailable (fun _ => true) "MemAvailable"
    (MemInfo.zero binary64)
    (fun l hl m => by rw [read_line (h l hl)]; dsimp only; split_ifs <;> simp_all)
  have hfree := foldl_stated MemInfo.free double "MemFree" (MemInfo.zero binary64)
    (fun l hl m => by rw [read_line (h l hl)]; dsimp only; split_ifs <;> simp_all [double])
  have hbuffers := foldl_stated MemInfo.buffers double "Buffers" (MemInfo.zero binary64)
    (fun l hl m => by rw [read_line (h l hl)]; dsimp only; split_ifs <;> simp_all [double])
  have hcached := foldl_stated MemInfo.cached double "Cached" (MemInfo.zero binary64)
    (fun l hl m => by rw [read_line (h l hl)]; dsimp only; split_ifs <;> simp_all [double])
  generalize (lines.map MemLine.text).foldl (MemInfo.read binary64) (MemInfo.zero binary64) = m
    at *
  have htotal' : m.total = .finite ((total.toNat : ℤ) : ℚ) := by
    rw [hsum, htotal]
    exact toDouble_nat (by omega)
  have hamount : (if m.haveAvailable = true then m.available
      else binary64.add (binary64.add m.free m.buffers) m.cached) =
        .finite ((availableOf lines : ℤ) : ℚ) := by
    unfold availableOf at havailable ⊢
    cases hstated : stated lines "MemAvailable" with
    | some v =>
      rw [hstated] at havailable hhave hread
      have hyes : m.haveAvailable = true := hhave
      rw [if_pos hyes, hread]
      exact toDouble_nat (by dsimp only at havailable; omega)
    | none =>
      rw [hstated] at havailable hhave
      dsimp only at havailable ⊢
      have hnot : ¬ m.haveAvailable = true := by simp [hhave, MemInfo.zero]
      have hf := double_part (stated lines "MemFree") (by omega)
      have hb := double_part (stated lines "Buffers") (by omega)
      have hc := double_part (stated lines "Cached") (by omega)
      rw [if_neg hnot, hfree.trans hf, hbuffers.trans hb, hcached.trans hc]
      rw [binary64_add, binary64_add, Js.add_int (by omega), Js.add_int (by omega)]
      push_cast
      rfl
  have hne : binary64.eq m.total (binary64.ofNat 0) = false := by
    have hzero : binary64.ofNat 0 = .finite ((0 : ℤ) : ℚ) := toDouble_nat (k := 0) (by decide)
    rw [htotal', hzero, Bool.eq_false_iff, Ne, Float64.eq, Bool.and_eq_true, binary64_le,
      binary64_le, Js.ge_int, Js.ge_int]
    omega
  have hkb : binary64.ofNat 1024 = .finite ((1024 : ℤ) : ℚ) := toDouble_nat (k := 1024) (by decide)
  rw [MemInfo.usage, hne]
  simp only [Bool.false_eq_true, if_false, hamount, htotal', hkb, binary64_sub, binary64_mul]
  rw [Js.sub_int (by omega), Js.mul_int (by omega), Js.mul_int (by omega)]

theorem splitColon_at {left right : List Char} (h : ':' ∉ left) :
    splitColon (left ++ ':' :: right) = some (left, right) := by
  have hleft : ∀ c ∈ left, (decide (c ≠ ':')) = true := by
    intro c hc
    simp only [ne_eq, decide_not, Bool.not_eq_true', decide_eq_false_iff_not]
    rintro rfl
    exact h hc
  rw [splitColon, List.dropWhile_append_of_pos hleft, List.takeWhile_append_of_pos hleft]
  simp

theorem trimSpace_name {indent name : List Char} (hindent : ∀ c ∈ indent, isSpace c = true)
    (hname : ∀ c ∈ name, isSpace c = false) : trimSpace (indent ++ name) = name := by
  have hnone : ∀ {cs : List Char}, (∀ c ∈ cs, isSpace c = false) → cs.dropWhile isSpace = cs := by
    intro cs hcs
    cases cs with
    | nil => rfl
    | cons c cs => simp [hcs c List.mem_cons_self]
  rw [trimSpace, List.dropWhile_append_of_pos hindent, hnone hname,
    hnone (fun c hc => hname c (List.mem_reverse.mp hc)), List.reverse_reverse]

/-- The counters of an interface as the doubles nearest to them. -/
def NetLine.entry (l : NetLine) : String × Js.Number × Js.Number :=
  (l.name, Js.toDouble l.rx.toNat, Js.toDouble l.tx.toNat)

theorem readInterface_text {l : NetLine} (h : l.Formed) :
    readInterface binary64 l.text = if l.name = "lo" then none else some l.entry := by
  have hcolon : ':' ∉ l.indent ++ l.name.toList := by
    intro hm
    rcases List.mem_append.mp hm with hm | hm
    · have hspace := h.indent ':' hm
      revert hspace
      decide
    · exact (h.name.2 ':' hm).2 rfl
  have hsplit : splitColon l.text = some (l.indent ++ l.name.toList, laid l.columns) := by
    rw [NetLine.text, ← List.append_assoc]
    exact splitColon_at hcolon
  have htrim : trimSpace (l.indent ++ l.name.toList) = l.name.toList :=
    trimSpace_name h.indent (fun c hc => (h.name.2 c hc).1)
  have hlength : ¬ (l.columns.map Column.word).length < 9 := by
    obtain ⟨c, hc, -⟩ := h.tx
    obtain ⟨hlt, -⟩ := List.getElem?_eq_some_iff.mp hc
    rw [List.length_map]
    omega
  simp only [readInterface, hsplit, Option.bind_eq_bind, Option.bind_some, htrim,
    String.ofList_toList, fields_laid h.columns, if_neg hlength, h.rx.word, h.tx.word,
    parse_counter, NetLine.entry]

/-- Under names that differ the map has what was added. -/
theorem foldl_upsert {F : Type} {entries out : List (String × F × F)}
    (h : ((out ++ entries).map Prod.fst).Nodup) :
    entries.foldl (fun out new => upsert (fun r => some r.1) new.1 new (fun _ => new) out) out =
      out ++ entries := by
  induction entries generalizing out with
  | nil => simp
  | cons new entries ih =>
    have hnew : lookup (fun r : String × F × F => some r.1) new.1 out = none := by
      rw [lookup_none]
      intro r hr heq
      rw [List.map_append, List.nodup_append] at h
      exact h.2.2 r.1 (List.mem_map_of_mem hr) new.1 (by simp) (Option.some.inj heq)
    have hone : upsert (fun r => some r.1) new.1 new (fun _ => new) out = out ++ [new] := by
      rw [upsert, hnew]
      rfl
    rw [List.foldl_cons, hone, ih (by simpa using h), List.append_assoc]
    rfl

/-- The interfaces that are reported. -/
def shown (interfaces : List NetLine) : List (String × Js.Number × Js.Number) :=
  (interfaces.filter (fun l => l.name ≠ "lo")).map NetLine.entry

theorem parseNetDev_text {interfaces : List NetLine} {headers : List Char × List Char}
    (hheaders : '\n' ∉ headers.1 ∧ '\n' ∉ headers.2) (h : ∀ l ∈ interfaces, l.Formed)
    (hnames : (interfaces.map NetLine.name).Nodup) :
    ((parseNetDev binary64 (textOf (headers.1 :: headers.2 :: interfaces.map NetLine.text))
      ).toOption).getD [] = shown interfaces := by
  have hlines : ∀ line ∈ headers.1 :: headers.2 :: interfaces.map NetLine.text,
      '\n' ∉ line := by
    intro line hline
    simp only [List.mem_cons] at hline
    rcases hline with rfl | rfl | hline
    · exact hheaders.1
    · exact hheaders.2
    · obtain ⟨l, hl, rfl⟩ := List.mem_map.mp hline
      exact (h l hl).line
  have hread : (interfaces.map NetLine.text ++ [[]]).filterMap (readInterface binary64) =
      shown interfaces := by
    have hend : readInterface binary64 [] = none := rfl
    rw [List.filterMap_append, List.filterMap_map, List.filterMap_cons_none hend,
      List.filterMap_nil, List.append_nil, shown, ← List.filterMap_eq_map,
      ← List.filterMap_eq_filter, List.filterMap_filterMap]
    apply List.filterMap_congr
    intro l hl
    rw [Function.comp_apply, readInterface_text (h l hl)]
    by_cases hlo : l.name = "lo" <;> simp [Option.guard, hlo]
  have hdistinct : (([] ++ shown interfaces).map Prod.fst).Nodup := by
    rw [List.nil_append, shown, List.map_map]
    exact hnames.sublist (List.filter_sublist.map _)
  rw [parseNetDev, linesOf_textOf hlines]
  simp only [List.cons_append, List.drop_succ_cons, List.drop_zero, hread, foldl_upsert hdistinct,
    List.nil_append]
  split
  · rename_i hnone
    rw [hnone]
    rfl
  · rfl

theorem parseLoadAvg_text {load : Hundredths × Hundredths × Hundredths}
    (h : Apart isSpace columns) (h1 : Shows columns 0 load.1.text)
    (h5 : Shows columns 1 load.2.1.text) (h15 : Shows columns 2 load.2.2.text) :
    parseLoadAvg binary64 (textOf [laid columns]) =
      .ok (Js.toDouble load.1.value, Js.toDouble load.2.1.value, Js.toDouble load.2.2.value) := by
  have w1 := h1.word
  have w5 := h5.word
  have w15 := h15.word
  rw [parse_hundredths] at w1 w5 w15
  rw [parseLoadAvg, fields_textOf h]
  generalize columns.map Column.word = words at *
  match words with
  | f1 :: f5 :: f15 :: _ =>
    simp only [List.getElem?_cons_zero, List.getElem?_cons_succ, Option.bind_some] at w1 w5 w15
    simp only [w1, w5, w15]
  | [] | [_] | [_, _] => simp at w15

theorem parseUptime_text {up : Hundredths} (h : Apart isSpace columns)
    (hup : Shows columns 0 up.text) :
    parseUptime binary64 (textOf [laid columns]) = Js.toDouble up.value := by
  have hv := hup.word
  rw [parse_hundredths] at hv
  rw [parseUptime, fields_textOf h]
  cases columns with
  | nil => cases hv
  | cons c rest =>
    have hword : binary64.parse c.word = some (Js.toDouble up.value) := hv
    have htrim : trimSpace ([] ++ c.word) = c.word :=
      trimSpace_name (fun _ hx => nomatch hx) (h.words c List.mem_cons_self).2
    rw [List.nil_append] at htrim
    simp only [List.map_cons, htrim, hword, Option.getD_some]

/-- An uptime is not negative, so it is reported. -/
theorem uptime_reported (x : Hundredths) :
    binary64.le (binary64.ofNat 0) (Js.toDouble x.value) = true := by
  have hpositive : (0 : ℚ) ≤ x.value := by
    unfold Hundredths.value
    positivity
  have hzero : binary64.ofNat 0 = .finite ((0 : ℤ) : ℚ) := toDouble_nat (k := 0) (by decide)
  obtain ⟨v, hv⟩ := Strconv.hundredths_finite x.whole.toNat_lt x.part.isLt
  have hvalue : Js.toDouble x.value = .finite v := hv
  have hnonneg : 0 ≤ v := Js.toDouble_nonneg hpositive hvalue
  rw [hzero, hvalue, binary64_le]
  simp [Js.Number.ge, Js.Number.lt, hnonneg]

/-- A new collector has no CPU window yet. -/
theorem collectHost_others {F : Type} (float : Float64 F) (host : String) (src : Sources F) :
    collectHost float host src = (newCollector host).collectOthers src := by
  unfold collectHost Collector.collect
  cases src.stat with
  | none => rfl
  | some cur => simp [Collector.collectCpu, newCollector]

/-- The samples of a cycle are the figures that the kernel has: none is lost, misread or put
under another name, and the loopback is left out. -/
theorem cycle_reads (host : String) (m : LinuxHost) (now : Int) (avail used : Js.Number)
    (h : m.Formed) : ∃ total, stated m.memory "MemTotal" = some total ∧
      collectHost binary64 host (m.files.sources binary64 now (some (avail, used))) =
        m.report host now avail used total := by
  obtain ⟨total, htotal, hpos, hsmall⟩ := h.total
  refine ⟨total, htotal, ?_⟩
  have hmemory :=
    congrArg Except.toOption (parseMemInfo_text h.memory htotal hpos hsmall h.available)
  have hload := congrArg Except.toOption (parseLoadAvg_text h.loads h.load1 h.load5 h.load15)
  have hnet := parseNetDev_text h.headers h.interfaces h.names
  have huptime := parseUptime_text h.clock h.uptime
  have hsources : m.files.sources binary64 now (some (avail, used)) =
      { now
        stat := m.stat
        memInfo := some (.finite ((((total.toNat : ℤ) - availableOf m.memory) * 1024 : ℤ) : ℚ),
          .finite (((availableOf m.memory : ℤ) * 1024 : ℤ) : ℚ))
        loadAvg := some (Js.toDouble m.load.1.value, Js.toDouble m.load.2.1.value,
          Js.toDouble m.load.2.2.value)
        statfs := some (avail, used)
        netDev := shown m.interfaces
        uptime := some (Js.toDouble m.uptime.value) } := by
    simp only [ProcFiles.sources, LinuxHost.files, Option.bind_some, Option.map_some, hmemory,
      hload, hnet, huptime, Option.filter_some, uptime_reported, if_true]
    rfl
  rw [collectHost_others, hsources]
  simp only [Collector.collectOthers, Collector.sample, newCollector, Option.elim_some, shown,
    NetLine.entry, List.flatMap_map, LinuxHost.report]
  rfl

def column (word : String) : Column Char :=
  { gap := [' '], word := word.toList }

def counters (rx tx : String) : List (Column Char) :=
  [column rx, column "50", column "0", column "0", column "0", column "0", column "0", column "0",
    column tx]

/-- A machine with one interface beside the loopback, whose kernel is an older one. -/
def smallHost : LinuxHost where
  stat := some "cpu  100 0 50 800 50\n"
  memory := [{ key := "MemTotal", columns := [column "1000", column "kB"], value := 1000 },
    { key := "MemFree", columns := [column "100", column "kB"], value := 100 },
    { key := "Buffers", columns := [column "50", column "kB"], value := 50 },
    { key := "Cached", columns := [column "150", column "kB"], value := 150 },
    { key := "HugePages_Total", columns := [column "0"], value := 0 }]
  loads := [{ gap := [], word := "0.52".toList }, column "1.05", column "0.00", column "1/467",
    column "12345"]
  load := (⟨0, 52⟩, ⟨1, 5⟩, ⟨0, 0⟩)
  headers := ("Inter-|   Receive".toList, " face |bytes".toList)
  interfaces := [
    { indent := "    ".toList, name := "lo", columns := counters "1000" "1000", rx := 1000,
      tx := 1000 },
    { indent := "  ".toList, name := "eth0", columns := counters "5000" "7000", rx := 5000,
      tx := 7000 }]
  clock := [{ gap := [], word := "3600.27".toList }, column "7200.10"]
  uptime := ⟨3600, 27⟩

example : smallHost.files.loadAvg = some "0.52 1.05 0.00 1/467 12345\n" := by decide

theorem spaceless {text : List Char} (h : text.any isSpace = false) :
    ∀ c ∈ text, isSpace c = false := by
  simpa using h

theorem smallHost_formed : smallHost.Formed where
  memory := by
    intro l hl
    simp only [smallHost, List.mem_cons, List.not_mem_nil, or_false] at hl
    rcases hl with rfl | rfl | rfl | rfl | rfl
    all_goals exact ⟨spaceless (by decide), by decide, ⟨_, rfl, by decide⟩, by decide⟩
  total := ⟨1000, by decide, by decide, by decide⟩
  available := by decide
  loads := by decide
  load1 := ⟨_, rfl, by decide⟩
  load5 := ⟨_, rfl, by decide⟩
  load15 := ⟨_, rfl, by decide⟩
  headers := ⟨by decide, by decide⟩
  interfaces := by
    intro l hl
    simp only [smallHost, List.mem_cons, List.not_mem_nil, or_false] at hl
    rcases hl with rfl | rfl
    all_goals
      refine ⟨List.all_eq_true.mp (by decide), ⟨by decide, ?_⟩, by decide, ⟨_, rfl, by decide⟩,
        ⟨_, rfl, by decide⟩, by decide⟩
      exact fun c hc => ⟨spaceless (by decide) c hc, fun heq => absurd (heq ▸ hc) (by decide)⟩
  names := by decide
  clock := by decide
  uptime := ⟨_, rfl, by decide⟩

theorem small_cycle_reads : ∃ total, stated smallHost.memory "MemTotal" = some total ∧
    collectHost binary64 "host_m1"
        (smallHost.files.sources binary64 0 (some (.finite 20, .finite 10))) =
      smallHost.report "host_m1" 0 (.finite 20) (.finite 10) total :=
  cycle_reads "host_m1" smallHost 0 (.finite 20) (.finite 10) smallHost_formed

end WaOps.Agent
