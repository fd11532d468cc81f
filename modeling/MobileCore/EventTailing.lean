import MobileCore.EventLog
import MobileCore.LabelledRuns
import MobileCore.LineScanner

/-!
# The event log that the visualiser follows

What a simulator logs comes into the file in pieces, a poll reads the file from where the last one
has stopped to its end. It takes a last line that has no newline for a line like the others.
-/

namespace MobileCore.EventTailing

open MobileCore.EventLog
open MobileCore.LabelledRuns
open MobileCore.LineScanner (block completeLines newline)
open MobileCore.PythonJson
open MobileCore.TextFiles
open MobileCore.CppText (Str lit)

/-- `pending` is what is still to be written of the lines. A file that is not there yet is read
like an empty one. -/
structure State where
  pending : List UInt8 := []
  file : List UInt8 := []
  pos : Nat := 0

inductive Input where
  | logEvent (e : LogCall)
  | write (n : Nat)
  | poll

/-- A poll shows the size of the file, then what it returns. -/
inductive Event where
  | logged (e : LogCall)
  | polled (size : Nat)
  | delivered (v : Json)

section Steps

variable (charset : Charset) (table : List (Str × MsgMeta)) (depth : Nat)

/-- What is no JSON is passed over. Every other error ends the poll. -/
def loadLines : List Text → Except LoadError (List Json)
  | [] => .ok []
  | line :: lines =>
    match loads (depth + 1) line with
    | .ok v => (loadLines lines).map (v :: ·)
    | .error .decode => loadLines lines
    | .error e => .error e

def readLines (data : List UInt8) : List Text := strippedLines (translate (charset.decode data))

def poll (s : State) : State × List Event :=
  match loadLines depth (readLines charset (s.file.drop s.pos)) with
  | .ok events => ({ s with pos := s.file.length }, .polled s.file.length :: events.map .delivered)
  | .error _ => (s, [.polled s.file.length])

def step : Machine State Input Event
  | s, .logEvent e =>
    some ({ s with pending := s.pending ++ (line table e ++ [newline]) }, [.logged e])
  | s, .write n =>
    some ({ s with file := s.file ++ s.pending.take n, pending := s.pending.drop n }, [])
  | s, .poll => some (poll charset depth s)

end Steps

def init : State := {}

def logged (tr : List Event) : List LogCall :=
  tr.filterMap fun
    | .logged e => some e
    | _ => none

def delivered (tr : List Event) : List Json :=
  tr.filterMap fun
    | .delivered v => some v
    | _ => none

def sizes (tr : List Event) : List Nat :=
  tr.filterMap fun
    | .polled size => some size
    | _ => none

def seen (tr : List Event) (s : State) : List UInt8 := s.file.take ((sizes tr).getLast?.getD 0)

/-- The events are delivered once each and in order, none is left out, and those whose lines have
been seen whole have been delivered. -/
structure Delivers (charset : Charset) (table : List (Str × MsgMeta)) (tr : List Event)
    (s : State) : Prop where
  inOrder : delivered tr <+: (logged tr).map (eventDict charset table)
  complete : (completeLines (seen tr s)).length ≤ (delivered tr).length

/-- The data are the first `n` lines, the last of them with or without its newline. -/
def Whole (lines : List Str) (n : Nat) (data : List UInt8) : Prop :=
  ∃ rest ∈ [[], [newline]], data ++ rest = block (lines.take n)

instance (lines : List Str) (n : Nat) (data : List UInt8) : Decidable (Whole lines n data) :=
  inferInstanceAs (Decidable (∃ rest ∈ [[], [newline]], _))

/-- No poll finds the end of the file within an event. -/
def Settled (table : List (Str × MsgMeta)) (tr : List Event) (s : State) : Input → Prop
  | .poll => ∃ n < (logged tr).length + 1, Whole ((logged tr).map (line table)) n s.file
  | _ => True

instance (table : List (Str × MsgMeta)) (tr : List Event) (s : State) :
    DecidablePred (Settled table tr s)
  | .poll => inferInstanceAs (Decidable (∃ n < (logged tr).length + 1, _))
  | .logEvent _ | .write _ => .isTrue trivial

section Ends

variable {lines : List Str} {n m : Nat} {front data : List UInt8}

theorem block_append (xs ys : List Str) : block (xs ++ ys) = block xs ++ block ys :=
  List.flatMap_append

theorem take_append_middle {α : Type} (l : List α) (h : n ≤ m) :
    l.take m = l.take n ++ (l.take m).drop n := by
  conv_lhs => rw [← List.take_append_drop n (l.take m), List.take_take, Nat.min_eq_left h]

theorem length_block_lt (hlines : [] ∉ lines) (hnm : n < m) (hm : m ≤ lines.length) :
    (block (lines.take n)).length + 2 ≤ (block (lines.take m)).length := by
  have hlength : 0 < ((lines.take m).drop n).length := by
    rw [List.length_drop, List.length_take]
    omega
  obtain ⟨line, rest, hmiddle⟩ := List.exists_cons_of_ne_nil (List.ne_nil_of_length_pos hlength)
  have hline : 0 < line.length := by
    refine List.length_pos_of_ne_nil ?_
    rintro rfl
    apply hlines
    apply List.mem_of_mem_take
    apply List.mem_of_mem_drop
    rw [hmiddle]
    exact List.mem_cons_self
  rw [take_append_middle lines (Nat.le_of_lt hnm), block_append, hmiddle, LineScanner.block_cons]
  simp only [List.length_append, List.length_cons]
  omega

theorem Whole.le (hlines : [] ∉ lines) (hn : n ≤ lines.length) (hfront : Whole lines n front)
    (hdata : Whole lines m (front ++ data)) : n ≤ m := by
  by_contra hlt
  have hlonger := length_block_lt hlines (Nat.not_le.mp hlt) hn
  obtain ⟨x, hx, hfront⟩ := hfront
  obtain ⟨y, -, hdata⟩ := hdata
  have hshort : x.length ≤ 1 := by
    rcases List.mem_pair.mp hx with rfl | rfl
    · exact Nat.zero_le 1
    · exact Nat.le_refl 1
  rw [← hfront, ← hdata] at hlonger
  simp only [List.length_append] at hlonger
  omega

theorem Whole.between (hnm : n ≤ m) (hfront : Whole lines n front)
    (hdata : Whole lines m (front ++ data)) :
    ∃ x ∈ [[], [newline]], ∃ y ∈ [[], [newline]],
      data ++ y = x ++ block ((lines.take m).drop n) := by
  obtain ⟨x, hx, hfront⟩ := hfront
  obtain ⟨y, hy, hdata⟩ := hdata
  refine ⟨x, hx, y, hy, ?_⟩
  rw [take_append_middle lines hnm, block_append, ← hfront, List.append_assoc,
    List.append_assoc] at hdata
  exact List.append_cancel_left hdata

theorem length_completeLines (data : List UInt8) :
    (completeLines data).length = data.count newline := by
  induction data with
  | nil => rfl
  | cons c data ih =>
      rw [completeLines]
      split
      · rename_i hc
        rw [hc, List.length_cons, ih, List.count_cons_self]
      · rename_i hc
        rw [List.count_cons_of_ne hc, ← ih]
        split
        · rename_i hnone
          rw [hnone]
        · rename_i hlines
          rw [hlines, List.length_cons, List.length_cons]

theorem Whole.completeLines_le (hlines : ∀ line ∈ lines, newline ∉ line) (h : Whole lines n data) :
    (completeLines data).length ≤ n := by
  obtain ⟨x, -, hdata⟩ := h
  have hblock : completeLines (block (lines.take n)) = lines.take n :=
    LineScanner.completeLines_block fun line hline => hlines line (List.mem_of_mem_take hline)
  rw [← hdata] at hblock
  calc
    (completeLines data).length = data.count newline := length_completeLines data
    _ ≤ (data ++ x).count newline := (List.sublist_append_left data x).count_le newline
    _ = (lines.take n).length := by rw [← length_completeLines, hblock]
    _ ≤ n := List.length_take_le n lines

end Ends

section Reading

variable {charset : Charset} {table : List (Str × MsgMeta)}

/-- What an event log is made of. -/
def Clean (data : List UInt8) : Prop := ∀ b ∈ data, b = newline ∨ 32 ≤ b.toNat

theorem clean_block (es : List LogCall) : Clean (block (es.map (line table))) := by
  intro b hb
  obtain ⟨l, hl, hb⟩ := List.mem_flatMap.mp hb
  obtain ⟨e, -, rfl⟩ := List.mem_map.mp hl
  rcases List.mem_append.mp hb with hb | hb
  · exact Or.inr (printable_line table e b hb)
  · exact Or.inl (List.mem_singleton.mp hb)

theorem readLines_clean {data : List UInt8} (h : Clean data) :
    readLines charset data = strippedLines (charset.decode data) := by
  rw [readLines, translate_of_not_mem]
  intro hreturn
  obtain ⟨b, hb, hvalue⟩ := charset.mem_of_mem_decode data (by decide) hreturn
  rcases h b hb with rfl | hlow
  · exact absurd hvalue (by decide)
  · omega

theorem strippedLines_line_event (e : LogCall) :
    strippedLines (charset.decode (line table e)) = [charset.decode (line table e)] := by
  have hnewline : 10 ∉ charset.decode (line table e) := by
    intro hmem
    obtain ⟨b, hb, hvalue⟩ := charset.mem_of_mem_decode (line table e) (by decide) hmem
    have hprintable := printable_line table e b hb
    omega
  rw [decode_line, objectText] at hnewline ⊢
  rw [strippedLines, splitLines_last hnewline (List.cons_ne_nil _ _), List.map_singleton,
    strip_of_ends rfl rfl]
  rfl

theorem strippedLines_block (es : List LogCall) :
    strippedLines (charset.decode (block (es.map (line table)))) =
      es.map fun e => charset.decode (line table e) := by
  induction es with
  | nil =>
      show strippedLines (charset.decode []) = []
      rw [charset.decode_nil]
      rfl
  | cons e es ih =>
      rw [List.map_cons, LineScanner.block_cons, charset.decode_ascii _ _ newline (by decide)]
      show strippedLines (_ ++ 10 :: _) = _
      rw [strippedLines_append, strippedLines_line_event, ih]
      rfl

theorem loadLines_lines (depth : Nat) (es : List LogCall) :
    loadLines depth (es.map fun e => charset.decode (line table e)) =
      .ok (es.map (eventDict charset table)) := by
  induction es with
  | nil => rfl
  | cons e es ih =>
      simp only [List.map_cons, loadLines, loads_line, ih]
      rfl

theorem strippedLines_concat {y : List UInt8} (hy : y ∈ [[], [newline]]) (data : List UInt8) :
    strippedLines (charset.decode (data ++ y)) = strippedLines (charset.decode data) := by
  rcases List.mem_pair.mp hy with rfl | rfl
  · rw [List.append_nil]
  · rw [charset.decode_concat data (by decide)]
    exact (strippedLines_append _ []).trans (List.append_nil _)

theorem strippedLines_front {x : List UInt8} (hx : x ∈ [[], [newline]]) (data : List UInt8) :
    strippedLines (charset.decode (x ++ data)) = strippedLines (charset.decode data) := by
  rcases List.mem_pair.mp hx with rfl | rfl
  · rfl
  · rw [List.singleton_append, charset.decode_cons (by decide)]
    exact strippedLines_append [] _

theorem readLines_between {es : List LogCall} {n m : Nat} {front data : List UInt8} (hnm : n ≤ m)
    (hfront : Whole (es.map (line table)) n front)
    (hdata : Whole (es.map (line table)) m (front ++ data)) :
    readLines charset data =
      ((es.take m).drop n).map fun e => charset.decode (line table e) := by
  obtain ⟨x, hx, y, hy, hbetween⟩ := hfront.between hnm hdata
  rw [← List.map_take, ← List.map_drop] at hbetween
  have hclean : Clean data := by
    intro b hb
    have hmem : b ∈ x ++ block (((es.take m).drop n).map (line table)) := by
      rw [← hbetween]
      exact List.mem_append_left y hb
    rcases List.mem_append.mp hmem with hmem | hmem
    · rcases List.mem_pair.mp hx with rfl | rfl
      · cases hmem
      · exact Or.inl (List.mem_singleton.mp hmem)
    · exact clean_block _ b hmem
  calc
    readLines charset data = strippedLines (charset.decode data) := readLines_clean hclean
    _ = strippedLines (charset.decode (data ++ y)) := (strippedLines_concat hy data).symm
    _ = strippedLines (charset.decode (block (((es.take m).drop n).map (line table)))) := by
      rw [hbetween, strippedLines_front hx]
    _ = ((es.take m).drop n).map fun e => charset.decode (line table e) := strippedLines_block _

end Reading

section Runs

variable {charset : Charset} {table : List (Str × MsgMeta)} {depth : Nat} {tr es : List Event}
  {s s' : State}

theorem logged_append (tr es : List Event) : logged (tr ++ es) = logged tr ++ logged es :=
  List.filterMap_append

theorem delivered_append (tr es : List Event) :
    delivered (tr ++ es) = delivered tr ++ delivered es :=
  List.filterMap_append

theorem sizes_append (tr es : List Event) : sizes (tr ++ es) = sizes tr ++ sizes es :=
  List.filterMap_append

theorem shown_values (size : Nat) (values : List Json) :
    sizes (.polled size :: values.map .delivered) = [size] ∧
      delivered (.polled size :: values.map .delivered) = values ∧
      logged (.polled size :: values.map .delivered) = [] := by
  induction values with
  | nil => exact ⟨rfl, rfl, rfl⟩
  | cons v values ih =>
      obtain ⟨hsizes, hdelivered, hlogged⟩ := ih
      exact ⟨hsizes, congrArg (v :: ·) hdelivered, hlogged⟩

/-- The last poll has found `n` lines and delivered them. -/
structure Tracks (charset : Charset) (table : List (Str × MsgMeta)) (tr : List Event) (s : State)
    (n : Nat) : Prop where
  written : s.file ++ s.pending = block ((logged tr).map (line table))
  pos : (sizes tr).getLast?.getD 0 = s.pos
  pos_le : s.pos ≤ s.file.length
  le : n ≤ (logged tr).length
  whole : Whole ((logged tr).map (line table)) n (s.file.take s.pos)
  delivered : delivered tr = ((logged tr).take n).map (eventDict charset table)

theorem tracks_init : Tracks charset table [] init 0 := by
  refine ⟨rfl, rfl, Nat.le_refl 0, Nat.le_refl 0, ?_, rfl⟩
  exact ⟨[], List.mem_cons_self, rfl⟩

theorem Tracks.delivers {n : Nat} (h : Tracks charset table tr s n) :
    Delivers charset table tr s := by
  constructor
  · rw [h.delivered]
    exact (List.take_prefix n (logged tr)).map _
  · have hlines : ∀ l ∈ (logged tr).map (line table), newline ∉ l := by
      intro l hl hmem
      obtain ⟨e, -, rfl⟩ := List.mem_map.mp hl
      exact absurd (printable_line table e newline hmem) (by decide)
    rw [seen, h.pos, h.delivered, List.length_map, List.length_take, Nat.min_eq_left h.le]
    exact h.whole.completeLines_le hlines

theorem Tracks.logEvent {n : Nat} (h : Tracks charset table tr s n) (e : LogCall) :
    Tracks charset table (tr ++ [.logged e])
      { s with pending := s.pending ++ (line table e ++ [newline]) } n := by
  have hlogged : logged (tr ++ [.logged e]) = logged tr ++ [e] := logged_append tr [.logged e]
  have hlines : ((logged tr ++ [e]).map (line table)).take n =
      ((logged tr).map (line table)).take n := by
    rw [List.map_append, List.take_append_of_le_length]
    rw [List.length_map]
    exact h.le
  constructor
  · rw [hlogged, ← List.append_assoc, h.written, List.map_append, block_append, List.map_singleton,
      block, block, List.flatMap_singleton]
  · rw [sizes_append]
    show (sizes tr ++ []).getLast?.getD 0 = s.pos
    rw [List.append_nil, h.pos]
  · exact h.pos_le
  · rw [hlogged, List.length_append]
    exact Nat.le_add_right_of_le h.le
  · rw [hlogged, Whole, hlines]
    exact h.whole
  · rw [hlogged, delivered_append, List.take_append_of_le_length h.le, ← h.delivered]
    exact List.append_nil _

theorem Tracks.write {n : Nat} (h : Tracks charset table tr s n) (k : Nat) :
    Tracks charset table tr
      { s with file := s.file ++ s.pending.take k, pending := s.pending.drop k } n := by
  refine ⟨?_, h.pos, ?_, h.le, ?_, h.delivered⟩
  · rw [List.append_assoc, List.take_append_drop]
    exact h.written
  · rw [List.length_append]
    exact Nat.le_add_right_of_le h.pos_le
  · rw [List.take_append_of_le_length h.pos_le]
    exact h.whole

theorem Tracks.polled {n m : Nat} (h : Tracks charset table tr s n) (hm : m ≤ (logged tr).length)
    (hwhole : Whole ((logged tr).map (line table)) m s.file) :
    Tracks charset table (tr ++ (poll charset depth s).2) (poll charset depth s).1 m := by
  have hlines : [] ∉ (logged tr).map (line table) := by
    intro hmem
    obtain ⟨e, -, he⟩ := List.mem_map.mp hmem
    exact List.cons_ne_nil _ _ he
  have hdata := hwhole
  rw [← List.take_append_drop s.pos s.file] at hdata
  have hnm : n ≤ m := h.whole.le hlines (by rw [List.length_map]; exact h.le) hdata
  have hload : loadLines depth (readLines charset (s.file.drop s.pos)) =
      .ok ((((logged tr).take m).drop n).map (eventDict charset table)) := by
    rw [readLines_between hnm h.whole hdata, loadLines_lines]
  have hpoll : poll charset depth s = ({ s with pos := s.file.length }, .polled s.file.length ::
      ((((logged tr).take m).drop n).map (eventDict charset table)).map .delivered) := by
    rw [poll, hload]
  obtain ⟨hsizes, hdelivered, hlogged⟩ := shown_values s.file.length
    ((((logged tr).take m).drop n).map (eventDict charset table))
  have hall : logged (tr ++ (poll charset depth s).2) = logged tr := by
    rw [hpoll, logged_append, hlogged, List.append_nil]
  constructor
  · rw [hall, hpoll]
    exact h.written
  · rw [hpoll, sizes_append, hsizes, List.getLast?_concat]
    rfl
  · rw [hpoll]
  · rw [hall]
    exact hm
  · rw [hall, hpoll]
    show Whole _ m (s.file.take s.file.length)
    rw [List.take_length]
    exact hwhole
  · rw [hall, hpoll, delivered_append, hdelivered, h.delivered, ← List.map_append,
      ← take_append_middle (logged tr) hnm]

theorem tracks_step {n : Nat} {i : Input} (h : Tracks charset table tr s n)
    (hguard : Settled table tr s i) (hstep : step charset table depth s i = some (s', es)) :
    ∃ m, Tracks charset table (tr ++ es) s' m := by
  cases i with
  | logEvent e =>
      cases hstep
      exact ⟨n, h.logEvent e⟩
  | write k =>
      cases hstep
      rw [List.append_nil]
      exact ⟨n, h.write k⟩
  | poll =>
      obtain ⟨rfl, rfl⟩ := Prod.ext_iff.mp (Option.some.inj hstep)
      obtain ⟨m, hm, hwhole⟩ := hguard
      exact ⟨m, h.polled (Nat.le_of_lt_succ hm) hwhole⟩

/-- As long as no poll finds the end of the file within an event, every event is delivered. -/
theorem delivers_of_settled (charset : Charset) (table : List (Str × MsgMeta)) (depth : Nat)
    (tr : List Event) (s : State)
    (hrun : Run (step charset table depth) (Settled table) init tr s) :
    Delivers charset table tr s := by
  have htracks : ∃ n, Tracks charset table tr s n := by
    refine hrun.invariant (I := fun tr s => ∃ n, Tracks charset table tr s n) ⟨0, tracks_init⟩ ?_
    rintro _ _ _ _ _ ⟨n, h⟩ hguard hstep
    exact tracks_step h hguard hstep
  obtain ⟨n, h⟩ := htracks
  exact h.delivers

end Runs

section Schedules

def registered : LogCall :=
  { nowMs := 1700000000000, fromNode := lit "AMF", toNode := lit "gNB",
    msg := lit "HTTP AMF Registration", interfaceName := lit "N2/NGAP", port := 38412,
    sim := lit "5g" }

/-- One event is seen before its newline, the other comes in two parts. -/
theorem delivers_parted : ∃ tr s, Delivers utf8 [] tr s ∧ (delivered tr).length = 2 := by
  have hexec : (exec (step utf8 [] 0) init [.poll, .logEvent registered, .write 182, .poll,
      .write 1, .poll, .logEvent registered, .write 90, .write 93, .poll, .poll]).map
        (fun r => (delivered r.2).length) = some 2 := by decide +kernel
  obtain ⟨tr, s, hrun, hseen⟩ := exists_run_of_exec (P := Settled []) _ (by decide +kernel) hexec
  exact ⟨tr, s, delivers_of_settled utf8 [] 0 tr s hrun, hseen⟩

/-- A poll that finds the first part of an event passes over both parts. -/
theorem not_delivers_split : ¬∀ tr s, Reach (step utf8 [] 0) init tr s → Delivers utf8 [] tr s := by
  intro h
  have hexec : (exec (step utf8 [] 0) init [.logEvent registered, .write 90, .poll, .write 93,
      .poll]).map (fun r => ((delivered r.2).length, (completeLines (seen r.2 r.1)).length)) =
      some (0, 1) := by decide +kernel
  obtain ⟨tr, s, hrun, hseen⟩ := exists_reach_of_exec hexec
  obtain ⟨hdelivered, hlines⟩ := Prod.mk.inj hseen
  have hcomplete := (h tr s hrun).complete
  rw [hdelivered, hlines] at hcomplete
  exact absurd hcomplete (by decide)

end Schedules

end MobileCore.EventTailing
