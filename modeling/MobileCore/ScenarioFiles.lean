import Mathlib.Data.List.DropRight
import MobileCore.CppText

/-!
# Scenario files of the 4G simulator

The runner reads its own subset of YAML line by line. It cuts a line at the first `#` before it
looks at the quotes.
-/

namespace MobileCore.ScenarioFiles

open MobileCore.CppText

structure Step where
  cmd : Str := []
  expect : Str := []
  delay_ms : Int := 0
deriving DecidableEq

structure Scenario where
  name : Str := []
  mode : Str := lit "ENGINEER"
  steps : List Step := []
deriving DecidableEq

section Parser

def isBlank (c : UInt8) : Bool := c == 32 || c == 9 || c == 13 || c == 10

def trim (s : Str) : Str := (s.rdropWhile isBlank).dropWhile isBlank

def stripQuotes (s : Str) : Str :=
  if 2 ≤ s.length ∧ ((s.head? = some 34 ∧ s.getLast? = some 34) ∨
      (s.head? = some 39 ∧ s.getLast? = some 39)) then s.tail.dropLast
  else s

def lines : Str → List Str
  | [] => []
  | c :: rest =>
    if c = 10 then [] :: lines rest
    else
      match lines rest with
      | [] => [[c]]
      | line :: more => (c :: line) :: more

/-- What the parser holds between two lines. -/
structure Reader where
  sc : Scenario
  cur_step : Step := {}
  in_steps : Bool := false
  step_open : Bool := false

def Reader.push (r : Reader) : Scenario :=
  if r.step_open then { r.sc with steps := r.sc.steps ++ [r.cur_step] } else r.sc

def Reader.item (r : Reader) : Reader :=
  { r with sc := r.push, cur_step := {}, step_open := true }

def Reader.set (r : Reader) (key val : Str) : Reader :=
  if r.in_steps then
    if key = lit "cmd" then { r with cur_step := { r.cur_step with cmd := val } }
    else if key = lit "expect" then { r with cur_step := { r.cur_step with expect := val } }
    else if key = lit "delay_ms" then
      match stoi val with
      | none => r
      | some n => { r with cur_step := { r.cur_step with delay_ms := n } }
    else r
  else
    if key = lit "name" then { r with sc := { r.sc with name := val } }
    else if key = lit "mode" then { r with sc := { r.sc with mode := val } }
    else if key = lit "steps" then { r with in_steps := true }
    else r

def Reader.field (r : Reader) (t : Str) : Reader :=
  if 58 ∈ t then
    r.set (trim (t.takeWhile (· != 58))) (stripQuotes (trim (t.dropWhile (· != 58)).tail))
  else r

def uncommented (line : Str) : Str := line.takeWhile (· != 35)

def Reader.line (r : Reader) (line : Str) : Reader :=
  match trim (uncommented line) with
  | [] => r
  | 45 :: t => if r.in_steps then r.item.field (trim t) else r
  | t => r.field t

def parseYaml (sc : Scenario) (text : Str) : Scenario :=
  ((lines text).foldl Reader.line { sc }).push

end Parser

section Rendering

/-- A string that fits on a line. -/
abbrev Line := { s : Str // 10 ∉ s }

/-- A step to be written, with the fields it gives. -/
structure WrittenStep where
  cmd : Line
  expect : Option Line := none
  delay_ms : Option (Fin (2 ^ 31)) := none

structure WrittenScenario where
  name : Line
  mode : Line
  steps : List WrittenStep

def quote (s : Str) : Str := 34 :: (s ++ [34])

def entry (lead key value : Str) : Str := lead ++ (key ++ 58 :: 32 :: value)

def WrittenStep.lines (st : WrittenStep) : List Str :=
  entry (lit "  - ") (lit "cmd") (quote st.cmd.1) ::
    (st.expect.toList.map (fun s => entry (lit "    ") (lit "expect") (quote s.1)) ++
      st.delay_ms.toList.map fun n => entry (lit "    ") (lit "delay_ms") (natText n))

def WrittenScenario.lines (sc : WrittenScenario) : List Str :=
  entry [] (lit "name") (quote sc.name.1) :: entry [] (lit "mode") (quote sc.mode.1) ::
    lit "steps:" :: sc.steps.flatMap WrittenStep.lines

def WrittenScenario.text (sc : WrittenScenario) : Str := (sc.lines.map (· ++ [10])).flatten

/-- The step that a written one stands for, its strings passed through a function. -/
def WrittenStep.mapped (f : Str → Str) (st : WrittenStep) : Step where
  cmd := f st.cmd.1
  expect := (st.expect.map fun s => f s.1).getD []
  delay_ms := (st.delay_ms.map fun n => (n.1 : Int)).getD 0

def WrittenScenario.mapped (f : Str → Str) (sc : WrittenScenario) : Scenario where
  name := f sc.name.1
  mode := f sc.mode.1
  steps := sc.steps.map (WrittenStep.mapped f)

/-- The scenario that was written. -/
def WrittenScenario.meant (sc : WrittenScenario) : Scenario := sc.mapped id

end Rendering

theorem lines_line {line : Str} (h : 10 ∉ line) (rest : Str) :
    lines (line ++ 10 :: rest) = line :: lines rest := by
  induction line with
  | nil => rfl
  | cons c line ih =>
      obtain ⟨hc, hline⟩ := not_or.mp (mt List.mem_cons.mpr h)
      rw [List.cons_append, lines, if_neg (Ne.symm hc), ih hline]

theorem lines_flatten {ls : List Str} (h : ∀ line ∈ ls, 10 ∉ line) :
    lines (ls.map (· ++ [10])).flatten = ls := by
  induction ls with
  | nil => rfl
  | cons line ls ih =>
      obtain ⟨hline, hrest⟩ := List.forall_mem_cons.mp h
      rw [List.map_cons, List.flatten_cons, List.append_assoc, List.singleton_append,
        lines_line hline, ih hrest]

section Trimming

variable {c : UInt8} (hc : isBlank c = false)

include hc

theorem rdropWhile_append (front w : Str) :
    (front ++ c :: w).rdropWhile isBlank = front ++ (c :: w).rdropWhile isBlank := by
  have hstop : ¬isBlank c = true := by simp [hc]
  induction w using List.reverseRecOn with
  | nil =>
      rw [List.rdropWhile_concat_neg _ _ _ hstop, List.rdropWhile_singleton, if_neg hstop]
  | append_singleton w d ih =>
      rw [← List.cons_append, ← List.append_assoc, List.rdropWhile_concat, List.rdropWhile_concat,
        ih]
      split
      · rfl
      · exact List.append_assoc _ _ _

theorem rdropWhile_cons (w : Str) : (c :: w).rdropWhile isBlank = c :: w.rdropWhile isBlank := by
  have hstop : ¬isBlank c = true := by simp [hc]
  induction w using List.reverseRecOn with
  | nil =>
      rw [List.rdropWhile_singleton, if_neg hstop]
      rfl
  | append_singleton w d ih =>
      rw [← List.cons_append, List.rdropWhile_concat, List.rdropWhile_concat, ih]
      split <;> rfl

theorem trim_lead {lead : Str} (hlead : ∀ b ∈ lead, isBlank b = true) (w : Str) :
    trim (lead ++ c :: w) = (c :: w).rdropWhile isBlank := by
  have hstop : ¬isBlank c = true := by simp [hc]
  rw [trim, rdropWhile_append hc, List.dropWhile_append_of_pos hlead, rdropWhile_cons hc,
    List.dropWhile_cons_of_neg hstop]

end Trimming

theorem uncommented_append {front : Str} (h : 35 ∉ front) (rest : Str) :
    uncommented (front ++ rest) = front ++ uncommented rest := by
  have hall : ∀ c ∈ front, (c != 35) = true := by
    intro c hc
    have hne : c ≠ 35 := fun heq => h (heq ▸ hc)
    simpa using hne
  exact List.takeWhile_append_of_pos hall

/-- What the parser has for a string between quotes. -/
def seen (s : Str) : Str :=
  stripQuotes ((34 :: uncommented (s ++ [34])).rdropWhile isBlank)

theorem not_mem_seen (s : Str) : 35 ∉ seen s := by
  have hcut : 35 ∉ uncommented (s ++ [34]) := by
    intro hmem
    exact absurd (List.mem_takeWhile_imp hmem) (by decide)
  have htext : 35 ∉ (34 :: uncommented (s ++ [34])).rdropWhile isBlank := by
    intro hmem
    rcases List.mem_cons.mp ((List.rdropWhile_prefix _ _).subset hmem) with h | h
    · exact absurd h (by decide)
    · exact hcut h
  rw [seen, stripQuotes]
  split
  · intro hmem
    exact htext (List.mem_of_mem_tail ((List.dropLast_sublist _).subset hmem))
  · exact htext

theorem seen_of_not_mem {s : Str} (h : 35 ∉ s) : seen s = s := by
  have hcut : uncommented (s ++ [34]) = s ++ [34] := uncommented_append h [34]
  have htrim : (34 :: (s ++ [34])).rdropWhile isBlank = 34 :: (s ++ [34]) := by
    rw [← List.cons_append, List.rdropWhile_concat_neg]
    decide
  rw [seen, hcut, htrim, stripQuotes, if_pos]
  · rw [List.tail_cons, List.dropLast_concat]
  · refine ⟨by simp, .inl ⟨rfl, ?_⟩⟩
    rw [← List.cons_append, List.getLast?_concat]

theorem seen_eq_iff (s : Str) : seen s = s ↔ 35 ∉ s := by
  constructor
  · intro h
    rw [← h]
    exact not_mem_seen s
  · exact seen_of_not_mem

/-- A name that the parser finds in front of the first colon of a line. -/
structure FieldName (key : Str) : Prop where
  start : ∃ d rest, key = d :: rest ∧ isBlank d = false ∧ d ≠ 45
  colonless : 58 ∉ key
  hashless : 35 ∉ key
  trimmed : trim key = key

theorem field_entry (r : Reader) {key : Str} (hkey : FieldName key) {c : UInt8}
    (hc : isBlank c = false) (w : Str) :
    r.field (key ++ 58 :: 32 :: (c :: w).rdropWhile isBlank) =
      r.set key (stripQuotes ((c :: w).rdropWhile isBlank)) := by
  have hall : ∀ b ∈ key, (b != 58) = true := by
    intro b hb
    have hne : b ≠ 58 := fun heq => hkey.colonless (heq ▸ hb)
    simpa using hne
  have hvalue : trim (32 :: (c :: w).rdropWhile isBlank) = (c :: w).rdropWhile isBlank := by
    have hlead : ∀ b ∈ [(32 : UInt8)], isBlank b = true := by simp [isBlank]
    rw [rdropWhile_cons hc, ← List.singleton_append, trim_lead hc hlead, rdropWhile_cons hc,
      List.rdropWhile_idempotent]
  rw [Reader.field, if_pos (List.mem_append_right key List.mem_cons_self),
    List.takeWhile_append_of_pos hall, List.dropWhile_append_of_pos hall]
  simp only [bne_self_eq_false, Bool.false_eq_true, not_false_eq_true, List.takeWhile_cons_of_neg,
    List.dropWhile_cons_of_neg, List.append_nil, List.tail_cons]
  rw [hkey.trimmed, hvalue]

theorem trim_entry {lead body : Str} (hlead : lead.all isBlank = true) {d : UInt8}
    (hd : isBlank d = false) (hbody : 35 ∉ d :: body) {c : UInt8} (hc : isBlank c = false)
    (hhash : c ≠ 35) (w : Str) :
    trim (uncommented (lead ++ (d :: body ++ c :: w))) =
      d :: body ++ (c :: uncommented w).rdropWhile isBlank := by
  have hblank := List.all_eq_true.mp hlead
  have hmem : 35 ∉ lead := fun hmem => absurd (hblank 35 hmem) (by decide)
  have hvalue : uncommented (c :: w) = c :: uncommented w :=
    uncommented_append (fun h => hhash (List.mem_singleton.mp h).symm) w
  rw [uncommented_append hmem, uncommented_append hbody, hvalue, List.cons_append,
    trim_lead hd hblank, ← List.cons_append, rdropWhile_append hc]

theorem line_of_dash (r : Reader) {line t : Str} (h : trim (uncommented line) = 45 :: t)
    (hsteps : r.in_steps = true) : r.line line = r.item.field (trim t) := by
  rw [Reader.line, h]
  exact if_pos hsteps

theorem line_of_text (r : Reader) {line t : Str} {d : UInt8}
    (h : trim (uncommented line) = d :: t) (hd : d ≠ 45) : r.line line = r.field (d :: t) := by
  rw [Reader.line, h]
  split
  · rename_i hnil
    cases hnil
  · rename_i hcons
    exact absurd (List.cons.inj hcons).1 hd
  · rfl

theorem line_field (r : Reader) {lead key : Str}
    (hlead : lead.all isBlank = true) (hkey : FieldName key) {c : UInt8}
    (hc : isBlank c = false) (hhash : c ≠ 35) (w : Str) :
    r.line (entry lead key (c :: w)) =
      r.set key (stripQuotes ((c :: uncommented w).rdropWhile isBlank)) := by
  obtain ⟨d, rest, hstart, hd, hdash⟩ := hkey.start
  have hbody : 35 ∉ d :: (rest ++ [58, 32]) := by
    rw [← List.cons_append, ← hstart, List.mem_append, not_or]
    exact ⟨hkey.hashless, by decide⟩
  have hentry : entry lead key (c :: w) = lead ++ (d :: (rest ++ [58, 32]) ++ c :: w) := by
    simp [entry, hstart]
  have htext : d :: (rest ++ [58, 32]) ++ (c :: uncommented w).rdropWhile isBlank =
      key ++ 58 :: 32 :: (c :: uncommented w).rdropWhile isBlank := by
    simp [hstart]
  have htrim := trim_entry hlead hd hbody hc hhash w
  rw [← hentry, List.cons_append] at htrim
  rw [line_of_text r htrim hdash, ← List.cons_append, htext]
  exact field_entry r hkey hc _

theorem line_item (r : Reader) (hsteps : r.in_steps = true) {key : Str} (hkey : FieldName key)
    {c : UInt8} (hc : isBlank c = false) (hhash : c ≠ 35) (w : Str) :
    r.line (entry (lit "  - ") key (c :: w)) =
      r.item.set key (stripQuotes ((c :: uncommented w).rdropWhile isBlank)) := by
  obtain ⟨d, rest, hstart, hd, _⟩ := hkey.start
  have hbody : 35 ∉ (45 : UInt8) :: (32 :: (key ++ [58, 32])) := by
    simp [hkey.hashless]
  have hentry : entry (lit "  - ") key (c :: w) =
      [32, 32] ++ (45 :: (32 :: (key ++ [58, 32])) ++ c :: w) := by
    simp [entry, show lit "  - " = [32, 32, 45, 32] from rfl]
  have hblanks : [(32 : UInt8), 32].all isBlank = true := rfl
  have hblank : ∀ b ∈ [(32 : UInt8)], isBlank b = true := by simp [isBlank]
  have hvalue : trim (32 :: (key ++ [58, 32]) ++ (c :: uncommented w).rdropWhile isBlank) =
      key ++ 58 :: 32 :: (c :: uncommented w).rdropWhile isBlank := by
    have hsplit : 32 :: (key ++ [58, 32]) ++ (c :: uncommented w).rdropWhile isBlank =
        [32] ++ d :: (rest ++ [58, 32] ++ c :: (uncommented w).rdropWhile isBlank) := by
      simp [hstart, rdropWhile_cons hc]
    rw [hsplit, trim_lead hd hblank, ← List.cons_append, rdropWhile_append hc,
      rdropWhile_cons hc, List.rdropWhile_idempotent, rdropWhile_cons hc, hstart]
    simp
  have htrim := trim_entry hblanks rfl hbody hc hhash w
  rw [← hentry, List.cons_append] at htrim
  rw [line_of_dash r htrim hsteps, hvalue]
  exact field_entry r.item hkey hc _

theorem line_quoted (r : Reader) {lead key : Str}
    (hlead : lead.all isBlank = true) (hkey : FieldName key) (s : Str) :
    r.line (entry lead key (quote s)) = r.set key (seen s) :=
  line_field r hlead hkey rfl (by decide) (s ++ [34])

theorem line_number (r : Reader) {lead key : Str}
    (hlead : lead.all isBlank = true) (hkey : FieldName key) (n : Nat) :
    r.line (entry lead key (natText n)) = r.set key (natText n) := by
  have hdigit : ∀ c ∈ natText n, isBlank c = false ∧ c ≠ 35 ∧ c ≠ 34 ∧ c ≠ 39 := by
    intro c hc
    have hother (b : UInt8) (hb : b < 48) : c ≠ b := by
      rintro rfl
      exact absurd (natText_digits n c hc).1 (by simpa using hb)
    have hblank : isBlank c = false := by
      simp [isBlank, hother 32 (by decide), hother 9 (by decide), hother 13 (by decide),
        hother 10 (by decide)]
    exact ⟨hblank, hother 35 (by decide), hother 34 (by decide), hother 39 (by decide)⟩
  have htrim : (natText n).rdropWhile isBlank = natText n := by
    rw [List.rdropWhile_eq_self_iff]
    intro hne
    rw [(hdigit _ (List.getLast_mem hne)).1]
    exact Bool.false_ne_true
  obtain ⟨c, w, htext⟩ := List.exists_cons_of_ne_nil (natText_ne_nil n)
  rw [htext] at hdigit htrim ⊢
  obtain ⟨hblank, hhash, hdouble, hsingle⟩ := hdigit c List.mem_cons_self
  have hcut : uncommented w = w := by
    have hmem : 35 ∉ w := fun hmem => (hdigit 35 (List.mem_cons_of_mem c hmem)).2.1 rfl
    rw [← List.append_nil w, uncommented_append hmem]
    rfl
  rw [line_field r hlead hkey hblank hhash w, hcut, htrim, stripQuotes, if_neg]
  simp [hdouble, hsingle]

def Reader.holding (r : Reader) (st : Step) : Reader :=
  { r with sc := r.push, cur_step := st, step_open := true }

theorem Reader.push_holding (r : Reader) (st : Step) :
    (r.holding st).push = { r.push with steps := r.push.steps ++ [st] } := rfl

section Steps

variable {r : Reader} (hsteps : r.in_steps = true)

include hsteps

theorem set_cmd (st : Step) (val : Str) :
    (r.holding st).set (lit "cmd") val = r.holding { st with cmd := val } := by
  rw [Reader.set, if_pos (by exact hsteps), if_pos rfl]
  rfl

theorem set_expect (st : Step) (val : Str) :
    (r.holding st).set (lit "expect") val = r.holding { st with expect := val } := by
  rw [Reader.set, if_pos (by exact hsteps), if_neg (by decide), if_pos rfl]
  rfl

theorem set_delay_ms (st : Step) (n : Fin (2 ^ 31)) :
    (r.holding st).set (lit "delay_ms") (natText n) = r.holding { st with delay_ms := n.1 } := by
  rw [Reader.set, if_pos (by exact hsteps), if_neg (by decide), if_neg (by decide), if_pos rfl,
    stoi_natText n.isLt]
  rfl

theorem foldl_step (st : WrittenStep) :
    st.lines.foldl Reader.line r = r.holding (st.mapped seen) := by
  have hcmd : FieldName (lit "cmd") := ⟨⟨_, _, rfl, rfl, by decide⟩, by decide, by decide, by decide⟩
  have hexpect : FieldName (lit "expect") :=
    ⟨⟨_, _, rfl, rfl, by decide⟩, by decide, by decide, by decide⟩
  have hdelay : FieldName (lit "delay_ms") :=
    ⟨⟨_, _, rfl, rfl, by decide⟩, by decide, by decide, by decide⟩
  have hlead : (lit "    ").all isBlank = true := rfl
  have hitem : r.line (entry (lit "  - ") (lit "cmd") (quote st.cmd.1)) =
      r.holding { cmd := seen st.cmd.1 } :=
    (line_item r hsteps hcmd rfl (by decide) _).trans (set_cmd hsteps {} _)
  obtain ⟨cmd, expect, delay⟩ := st
  rw [WrittenStep.lines, List.foldl_cons, hitem, List.foldl_append]
  cases expect with
  | none =>
      cases delay with
      | none => rfl
      | some n => exact (line_number _ hlead hdelay n).trans (set_delay_ms hsteps _ n)
  | some s =>
      have hline : (r.holding { cmd := seen cmd.1 }).line
          (entry (lit "    ") (lit "expect") (quote s.1)) =
            r.holding { cmd := seen cmd.1, expect := seen s.1 } :=
        (line_quoted _ hlead hexpect s.1).trans (set_expect hsteps _ _)
      cases delay with
      | none => exact hline
      | some n =>
          rw [Option.toList_some, List.map_singleton, List.foldl_cons, List.foldl_nil, hline]
          exact (line_number _ hlead hdelay n).trans (set_delay_ms hsteps _ n)

theorem foldl_steps (sts : List WrittenStep) :
    ((sts.flatMap WrittenStep.lines).foldl Reader.line r).push =
      { r.push with steps := r.push.steps ++ sts.map (WrittenStep.mapped seen) } := by
  induction sts generalizing r with
  | nil =>
      show r.push = _
      rw [List.map_nil, List.append_nil]
  | cons st sts ih =>
      have hheld : (r.holding (st.mapped seen)).in_steps = true := hsteps
      rw [List.flatMap_cons, List.foldl_append, foldl_step hsteps, ih hheld, Reader.push_holding,
        List.map_cons, List.append_assoc, List.singleton_append]

end Steps

theorem WrittenStep.lines_whole (st : WrittenStep) : ∀ line ∈ st.lines, 10 ∉ line := by
  have hquote : ∀ s : Line, 10 ∉ quote s.1 := by
    intro s
    simp [quote, s.2]
  have hentry : ∀ {lead key value : Str}, 10 ∉ lead → 10 ∉ key → 10 ∉ value →
      10 ∉ entry lead key value := by
    intro lead key value hlead hkey hvalue
    simp [entry, hlead, hkey, hvalue]
  intro line hline
  rw [WrittenStep.lines, List.mem_cons, List.mem_append, List.mem_map, List.mem_map] at hline
  rcases hline with rfl | ⟨s, _, rfl⟩ | ⟨n, _, rfl⟩
  · exact hentry (by decide) (by decide) (hquote st.cmd)
  · exact hentry (by decide) (by decide) (hquote s)
  · exact hentry (by decide) (by decide) (not_mem_natText _ 10 (.inl (by decide)))

theorem WrittenScenario.lines_whole (sc : WrittenScenario) : ∀ line ∈ sc.lines, 10 ∉ line := by
  have hname : 10 ∉ entry [] (lit "name") (quote sc.name.1) := by
    have hkey : 10 ∉ lit "name" := by decide
    simp [entry, quote, hkey, sc.name.2]
  have hmode : 10 ∉ entry [] (lit "mode") (quote sc.mode.1) := by
    have hkey : 10 ∉ lit "mode" := by decide
    simp [entry, quote, hkey, sc.mode.2]
  intro line hline
  rw [WrittenScenario.lines, List.mem_cons, List.mem_cons, List.mem_cons, List.mem_flatMap]
    at hline
  rcases hline with rfl | rfl | rfl | ⟨st, _, hline⟩
  · exact hname
  · exact hmode
  · decide
  · exact st.lines_whole line hline

/-- The parser has every field of the file, the strings as far as it sees them. -/
theorem parseYaml_text (sc : WrittenScenario) : parseYaml {} sc.text = sc.mapped seen := by
  have hname : FieldName (lit "name") :=
    ⟨⟨_, _, rfl, rfl, by decide⟩, by decide, by decide, by decide⟩
  have hmode : FieldName (lit "mode") :=
    ⟨⟨_, _, rfl, rfl, by decide⟩, by decide, by decide, by decide⟩
  have hlead : ([] : Str).all isBlank = true := rfl
  have hhead : ((sc.lines.take 3).foldl Reader.line { sc := {} }) =
      { sc := { name := seen sc.name.1, mode := seen sc.mode.1 }, in_steps := true } := by
    show Reader.line (Reader.line (Reader.line _ _) _) (lit "steps:") = _
    rw [line_quoted _ hlead hname, line_quoted _ hlead hmode]
    rfl
  have hlines : sc.lines = sc.lines.take 3 ++ sc.steps.flatMap WrittenStep.lines := rfl
  rw [parseYaml, WrittenScenario.text, lines_flatten sc.lines_whole, hlines, List.foldl_append,
    hhead, foldl_steps rfl]
  rfl

def WrittenStep.strings (st : WrittenStep) : List Str :=
  st.cmd.1 :: st.expect.toList.map Subtype.val

def WrittenScenario.strings (sc : WrittenScenario) : List Str :=
  sc.name.1 :: sc.mode.1 :: sc.steps.flatMap WrittenStep.strings

theorem WrittenStep.mapped_eq_iff (st : WrittenStep) :
    st.mapped seen = st.mapped id ↔ ∀ s ∈ st.strings, 35 ∉ s := by
  obtain ⟨cmd, expect, delay⟩ := st
  cases expect with
  | none => simp [WrittenStep.mapped, WrittenStep.strings, seen_eq_iff]
  | some s => simp [WrittenStep.mapped, WrittenStep.strings, seen_eq_iff]

theorem WrittenScenario.mapped_eq_iff (sc : WrittenScenario) :
    sc.mapped seen = sc.meant ↔ ∀ s ∈ sc.strings, 35 ∉ s := by
  have hsteps : sc.steps.map (WrittenStep.mapped seen) = sc.steps.map (WrittenStep.mapped id) ↔
      ∀ s ∈ sc.steps.flatMap WrittenStep.strings, 35 ∉ s := by
    rw [List.map_inj_left]
    simp only [WrittenStep.mapped_eq_iff, List.mem_flatMap]
    constructor
    · rintro h s ⟨st, hst, hs⟩
      exact h st hst s hs
    · intro h st hst s hs
      exact h s ⟨st, hst, hs⟩
  rw [WrittenScenario.meant, WrittenScenario.mapped, WrittenScenario.mapped, Scenario.mk.injEq,
    hsteps, id, id, seen_eq_iff, seen_eq_iff, WrittenScenario.strings, List.forall_mem_cons,
    List.forall_mem_cons]

/-- A file is read as it was meant exactly if no string of it has a `#`. -/
theorem parseYaml_eq_iff (sc : WrittenScenario) :
    parseYaml {} sc.text = sc.meant ↔ ∀ s ∈ sc.strings, 35 ∉ s := by
  rw [parseYaml_text]
  exact sc.mapped_eq_iff

/-- A command is cut at its `#`, and keeps the quote in front. -/
theorem comment_in_command :
    ¬∀ sc : WrittenScenario, parseYaml {} sc.text = sc.meant := by
  intro h
  have hcut := h { name := ⟨lit "n", by decide⟩, mode := ⟨lit "ENGINEER", by decide⟩,
                   steps := [{ cmd := ⟨lit "CR 1 #x", by decide⟩ }] }
  exact absurd hcut (by decide)

end MobileCore.ScenarioFiles
