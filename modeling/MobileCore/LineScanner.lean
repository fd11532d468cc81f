import Mathlib.Data.List.Basic

/-!
# Lines read through a buffer

A scanner reads a file into a buffer, which it doubles up to a limit, and splits one line after the
other off its front. What is left at the end of the file it takes for a line, too.
-/

namespace MobileCore.LineScanner

def newline : UInt8 := 10

def carriageReturn : UInt8 := 13

section Lines

/-- The lines that have their newline. -/
def completeLines : List UInt8 → List (List UInt8)
  | [] => []
  | c :: rest =>
    if c = newline then [] :: completeLines rest
    else
      match completeLines rest with
      | [] => []
      | line :: lines => (c :: line) :: lines

def block (lines : List (List UInt8)) : List UInt8 := lines.flatMap (· ++ [newline])

variable {line rest data : List UInt8} {lines : List (List UInt8)}

theorem block_cons : block (line :: lines) = line ++ newline :: block lines := by
  rw [block, List.flatMap_cons, List.append_assoc]
  rfl

theorem completeLines_cons (h : newline ∉ line) :
    completeLines (line ++ newline :: rest) = line :: completeLines rest := by
  induction line with
  | nil => rfl
  | cons c line ih =>
      obtain ⟨hc, hline⟩ := not_or.mp (mt List.mem_cons.mpr h)
      rw [List.cons_append, completeLines, if_neg (Ne.symm hc), ih hline]

/-- Whatever is read is its complete lines and a rest without a newline. -/
theorem exists_lines (data : List UInt8) : ∃ lines rest, data = block lines ++ rest ∧
    (∀ line ∈ lines, newline ∉ line) ∧ newline ∉ rest := by
  induction data with
  | nil => exact ⟨[], [], rfl, by simp, by simp⟩
  | cons c data ih =>
      obtain ⟨lines, rest, rfl, hlines, hrest⟩ := ih
      by_cases hc : c = newline
      · refine ⟨[] :: lines, rest, ?_, ?_, hrest⟩
        · rw [block_cons, hc]
          rfl
        · intro line hline
          rcases List.mem_cons.mp hline with rfl | hline
          · exact List.not_mem_nil
          · exact hlines line hline
      · cases lines with
        | nil =>
            refine ⟨[], c :: rest, rfl, hlines, ?_⟩
            exact List.not_mem_cons_of_ne_of_not_mem (Ne.symm hc) hrest
        | cons line lines =>
            refine ⟨(c :: line) :: lines, rest, ?_, ?_, hrest⟩
            · rw [block_cons, block_cons]
              rfl
            · intro line' hline'
              rcases List.mem_cons.mp hline' with rfl | hline'
              · exact List.not_mem_cons_of_ne_of_not_mem (Ne.symm hc) (hlines line List.mem_cons_self)
              · exact hlines line' (List.mem_cons_of_mem line hline')

theorem completeLines_append (hlines : ∀ line ∈ lines, newline ∉ line) (rest : List UInt8) :
    completeLines (block lines ++ rest) = lines ++ completeLines rest := by
  induction lines with
  | nil => rfl
  | cons line lines ih =>
      rw [block_cons, List.append_assoc, List.cons_append,
        completeLines_cons (hlines line List.mem_cons_self),
        ih fun l hl => hlines l (List.mem_cons_of_mem line hl), List.cons_append]

/-- The data ends with a line, if there is any. -/
def Terminated (data : List UInt8) : Prop := data ≠ [] → data.getLast? = some newline

instance (data : List UInt8) : Decidable (Terminated data) :=
  inferInstanceAs (Decidable (data ≠ [] → _))

theorem Terminated.eq_block (h : Terminated data) : data = block (completeLines data) ∧
    ∀ line ∈ completeLines data, newline ∉ line := by
  obtain ⟨lines, rest, rfl, hlines, hrest⟩ := exists_lines data
  have hempty : rest = [] := by
    by_contra hne
    have hlast := h (List.append_ne_nil_of_right_ne_nil _ hne)
    rw [List.getLast?_append_of_ne_nil _ hne] at hlast
    exact hrest (List.mem_of_getLast? hlast)
  rw [hempty, completeLines_append hlines]
  simpa [completeLines] using hlines

theorem Terminated.append {front back : List UInt8} (hfront : Terminated front)
    (hback : Terminated back) : Terminated (front ++ back) := by
  intro hne
  cases back with
  | nil =>
      rw [List.append_nil] at hne ⊢
      exact hfront hne
  | cons c back =>
      rw [List.getLast?_append_of_ne_nil _ (List.cons_ne_nil c back)]
      exact hback (List.cons_ne_nil c back)

end Lines

section Scanning

def maxTokenSize : Nat := 65536

def startBufSize : Nat := 4096

def dropCR (line : List UInt8) : List UInt8 :=
  if line.getLast? = some carriageReturn then line.dropLast else line

/-- `window` is the part of the buffer that is in use. -/
structure Scanner where
  unread : List UInt8
  window : List UInt8 := []
  start : Nat := 0
  size : Nat := 0
  atEOF : Bool := false
  fits : start + window.length ≤ size := by simp

/-- How far to advance, and the line; `none` asks for more data. -/
def scanLines (data : List UInt8) (atEOF : Bool) : Option (Nat × List UInt8) :=
  match data.findIdx? (· = newline) with
  | some i => some (i + 1, dropCR (data.take i))
  | none => if atEOF ∧ data ≠ [] then some (data.length, dropCR data) else none

theorem scanLines_le {data text : List UInt8} {atEOF : Bool} {advance : Nat}
    (h : scanLines data atEOF = some (advance, text)) : advance ≤ data.length ∧ 0 < advance := by
  unfold scanLines at h
  split at h
  · rename_i i hi
    cases h
    exact ⟨(List.findIdx?_eq_some_iff_findIdx_eq.mp hi).1, Nat.succ_pos i⟩
  · split at h
    · rename_i hdata
      cases h
      exact ⟨Nat.le_refl _, List.length_pos_of_ne_nil hdata.2⟩
    · cases h

namespace Scanner

/-- The window is moved to the front of the buffer when there is no room behind it, or much before
it. -/
def shift (s : Scanner) : Scanner :=
  if 0 < s.start ∧ (s.start + s.window.length = s.size ∨ s.size / 2 < s.start) then
    { s with start := 0, fits := by have := s.fits; omega }
  else s

/-- A full buffer is doubled; `none` where it must not grow. -/
def grow (s : Scanner) : Option Scanner :=
  if s.start + s.window.length = s.size then
    if hlimit : maxTokenSize ≤ s.size then none
    else
      some { s with
        start := 0
        size := min (if s.size = 0 then startBufSize else s.size * 2) maxTokenSize
        fits := by have := s.fits; split <;> omega }
  else some s

def read (s : Scanner) : Scanner :=
  if s.unread = [] then { s with atEOF := true }
  else
    let room := s.size - (s.start + s.window.length)
    { s with
      unread := s.unread.drop room
      window := s.window ++ s.unread.take room
      fits := by
        have := s.fits
        rw [List.length_append, List.length_take]
        omega }

end Scanner

inductive Scan where
  | token (text : List UInt8) (s : Scanner)
  | more (s : Scanner)
  | stop (s : Scanner)

namespace Scanner

/-- One turn of `Scan`. -/
def scan (s : Scanner) : Scan :=
  match hscan : scanLines s.window s.atEOF with
  | some (advance, text) =>
    .token text { s with
      start := s.start + advance
      window := s.window.drop advance
      fits := by
        have := s.fits
        have := (scanLines_le hscan).1
        rw [List.length_drop]
        omega }
  | none =>
    if s.atEOF then .stop s
    else
      match s.shift.grow with
      | none => .stop s.shift
      | some s' => .more s'.read

/-- What is still to be done: every byte is read once and given out once. -/
def remaining (s : Scanner) : Nat :=
  2 * s.unread.length + s.window.length + if s.atEOF then 0 else 1

theorem grow_room {s s' : Scanner} (h : s.grow = some s') :
    s'.start + s'.window.length < s'.size ∧ s'.unread = s.unread ∧ s'.window = s.window ∧
      s'.atEOF = s.atEOF := by
  have hfits := s.fits
  unfold grow at h
  split at h
  · split at h
    · cases h
    · rename_i hfull hlimit
      cases h
      refine ⟨?_, rfl, rfl, rfl⟩
      simp only [maxTokenSize, startBufSize] at hlimit ⊢
      split <;> omega
  · cases h
    exact ⟨by omega, rfl, rfl, rfl⟩

theorem shift_window (s : Scanner) : s.shift.unread = s.unread ∧ s.shift.window = s.window ∧
    s.shift.atEOF = s.atEOF ∧ s.shift.size = s.size := by
  unfold shift
  split <;> exact ⟨rfl, rfl, rfl, rfl⟩

theorem scan_token {s s' : Scanner} {text : List UInt8} (h : s.scan = .token text s') :
    s'.remaining < s.remaining := by
  unfold scan at h
  split at h
  · rename_i advance text' hscan
    cases h
    obtain ⟨hle, hpos⟩ := scanLines_le hscan
    simp only [remaining, List.length_drop]
    omega
  · split at h
    · cases h
    · split at h <;> cases h

theorem scan_more {s s' : Scanner} (h : s.scan = .more s') : s'.remaining < s.remaining := by
  unfold scan at h
  split at h
  · cases h
  · split at h
    · cases h
    · rename_i hEOF
      split at h
      · cases h
      · rename_i s₁ hgrow
        cases h
        obtain ⟨hroom, hunread, hwindow, hEOF'⟩ := grow_room hgrow
        obtain ⟨hunread', hwindow', hEOF'', -⟩ := s.shift_window
        rw [hunread'] at hunread
        rw [hwindow'] at hwindow
        rw [hEOF'', Bool.eq_false_iff.mpr hEOF] at hEOF'
        unfold read
        split
        · rename_i hempty
          rw [hunread] at hempty
          simp [remaining, hunread, hwindow, hempty, hEOF]
        · rename_i hsome
          rw [hunread] at hsome
          have hlength := List.length_pos_of_ne_nil hsome
          rw [hwindow] at hroom
          simp only [remaining, hunread, hwindow, hEOF', hEOF, List.length_append, List.length_take,
            List.length_drop, Bool.false_eq_true, if_false]
          omega

/-- The lines that `Scan` gives one after the other, and where it stops. -/
def texts (s : Scanner) : List (List UInt8) × Scanner :=
  match _h : s.scan with
  | .token text s' => (text :: (texts s').1, (texts s').2)
  | .more s' => texts s'
  | .stop s' => ([], s')
termination_by s.remaining
decreasing_by
  · exact scan_token _h
  · exact scan_more _h

end Scanner

def newScanner (unread : List UInt8) : Scanner := { unread }

example : (newScanner [97, 13, 10, 10, 98]).texts.1 = [[97], [], [98]] := by decide +kernel

end Scanning

section WholeLines

variable {s : Scanner} {lines : List (List UInt8)} {line data : List UInt8}

theorem completeLines_block (hlines : ∀ line ∈ lines, newline ∉ line) :
    completeLines (block lines) = lines := by
  have happend := completeLines_append hlines []
  rwa [List.append_nil, completeLines, List.append_nil] at happend

theorem block_front (hlines : ∀ line ∈ lines, newline ∉ line) (hline : newline ∉ line)
    (h : line ++ newline :: data = block lines) : ∃ rest, lines = line :: rest ∧ data = block rest := by
  have hsplit : lines = line :: completeLines data := by
    rw [← completeLines_block hlines, ← h, completeLines_cons hline]
  refine ⟨completeLines data, hsplit, ?_⟩
  rw [hsplit, block_cons] at h
  exact (List.cons.inj (List.append_cancel_left h)).2

theorem scanLines_line (hline : newline ∉ line) (rest : List UInt8) (atEOF : Bool) :
    scanLines (line ++ newline :: rest) atEOF = some (line.length + 1, dropCR line) := by
  have hfind : (line ++ newline :: rest).findIdx? (· = newline) = some line.length := by
    rw [List.findIdx?_append, List.findIdx?_eq_none_iff.mpr]
    · simp [List.findIdx?_cons]
    · intro c hc
      rw [decide_eq_false_iff_not]
      rintro rfl
      exact hline hc
  rw [scanLines, hfind]
  simp

theorem scanLines_none {atEOF : Bool} (hline : newline ∉ line) (hmore : atEOF = true → line = []) :
    scanLines line atEOF = none := by
  have hfind : line.findIdx? (· = newline) = none := by
    refine List.findIdx?_eq_none_iff.mpr fun c hc => ?_
    rw [decide_eq_false_iff_not]
    rintro rfl
    exact hline hc
  rw [scanLines, hfind]
  exact if_neg fun h => h.2 (hmore h.1)

theorem Scanner.grow_some (hshort : s.window.length < maxTokenSize) : ∃ s', s.shift.grow = some s' := by
  have hfull (h : s.shift.start + s.shift.window.length = s.shift.size) : s.shift.start = 0 := by
    by_contra hstart
    unfold shift at h hstart
    split at h
    · rename_i hmoved
      rw [if_pos hmoved] at hstart
      exact hstart rfl
    · rename_i hkept
      rw [if_neg hkept] at hstart
      exact hkept ⟨Nat.pos_of_ne_zero hstart, Or.inl h⟩
  unfold grow
  split
  · rename_i h
    rw [hfull h, s.shift_window.2.1] at h
    split
    · omega
    · exact ⟨_, rfl⟩
  · exact ⟨_, rfl⟩

theorem Scanner.read_block (h : s.window ++ s.unread = data) :
    s.read.window ++ s.read.unread = data := by
  unfold read
  split
  · exact h
  · rw [List.append_assoc, List.take_append_drop, h]

theorem Scanner.read_atEOF (h : s.atEOF = false) : s.read.atEOF = true → s.read.unread = [] := by
  unfold read
  split
  · rename_i hempty
    exact fun _ => hempty
  · intro hEOF
    rw [h] at hEOF
    cases hEOF

/-- A scanner whose lines all have their newline and fit into the buffer. -/
structure Scanner.Sound (s : Scanner) (lines : List (List UInt8)) : Prop where
  data : s.window ++ s.unread = block lines
  whole : ∀ line ∈ lines, newline ∉ line
  short : ∀ line ∈ lines, line.length < maxTokenSize
  ended : s.atEOF = true → s.unread = []

theorem Scanner.Sound.window_short (h : s.Sound lines) (hwindow : newline ∉ s.window) :
    s.window.length < maxTokenSize := by
  cases lines with
  | nil =>
      have hempty : s.window = [] := (List.append_eq_nil_iff.mp h.data).1
      rw [hempty]
      decide
  | cons line rest =>
      refine Nat.lt_of_le_of_lt ?_ (h.short line List.mem_cons_self)
      have hdata := h.data
      rw [block_cons] at hdata
      rcases List.append_eq_append_iff.mp hdata with ⟨tail, hline, -⟩ | ⟨tail, hlong, htail⟩
      · rw [hline, List.length_append]
        exact Nat.le_add_right _ _
      · cases tail with
        | nil =>
            rw [List.append_nil] at hlong
            exact Nat.le_of_eq (congrArg List.length hlong)
        | cons c tail =>
            obtain ⟨rfl, -⟩ := List.cons.inj htail
            exact absurd (hlong ▸ List.mem_append_right line List.mem_cons_self) hwindow

/-- A scan of such a scanner gives its first line, or reads on until there is none. -/
theorem Scanner.Sound.scan (h : s.Sound lines) :
    (∃ line rest s', lines = line :: rest ∧ s.scan = .token (dropCR line) s' ∧ s'.Sound rest) ∨
      (∃ s', s.scan = .more s' ∧ s'.Sound lines) ∨
      ∃ s', s.scan = .stop s' ∧ lines = [] ∧ s'.unread = [] := by
  by_cases hwindow : newline ∈ s.window
  · left
    obtain ⟨line, after, hsplit, hline⟩ := List.eq_append_cons_of_mem hwindow
    have hdata := h.data
    rw [hsplit, List.append_assoc, List.cons_append] at hdata
    obtain ⟨rest, rfl, hrest⟩ := block_front h.whole hline hdata
    have hscan := scanLines_line hline after s.atEOF
    rw [← hsplit] at hscan
    have hdrop : s.window.drop (line.length + 1) = after := by
      rw [hsplit]
      simp
    unfold Scanner.scan
    split
    · rename_i advance text hfound
      obtain ⟨rfl, rfl⟩ := Prod.mk.inj (Option.some.inj (hfound.symm.trans hscan))
      refine ⟨line, rest, _, rfl, rfl, ?_, ?_, ?_, h.ended⟩
      · show s.window.drop (line.length + 1) ++ s.unread = block rest
        rw [hdrop, hrest]
      · exact fun l hl => h.whole l (List.mem_cons_of_mem line hl)
      · exact fun l hl => h.short l (List.mem_cons_of_mem line hl)
    · rename_i hnone
      rw [hscan] at hnone
      cases hnone
  · right
    have hend (hEOF : s.atEOF = true) : lines = [] ∧ s.window = [] := by
      have hdata := h.data
      rw [h.ended hEOF, List.append_nil] at hdata
      cases lines with
      | nil => exact ⟨rfl, hdata⟩
      | cons line rest =>
          rw [block_cons] at hdata
          exact absurd (hdata ▸ List.mem_append_right line List.mem_cons_self) hwindow
    have hscan := scanLines_none hwindow fun hEOF => (hend hEOF).2
    unfold Scanner.scan
    split
    · rename_i hfound
      rw [hscan] at hfound
      cases hfound
    · split
      · rename_i hEOF
        exact Or.inr ⟨s, rfl, (hend hEOF).1, h.ended hEOF⟩
      · rename_i hEOF
        obtain ⟨s', hgrow⟩ := Scanner.grow_some (h.window_short hwindow)
        obtain ⟨-, hunread, hwindow', hEOF'⟩ := Scanner.grow_room hgrow
        obtain ⟨hunread₀, hwindow₀, hEOF₀, -⟩ := s.shift_window
        rw [hgrow]
        refine Or.inl ⟨s'.read, rfl, ?_, h.whole, h.short, ?_⟩
        · apply Scanner.read_block
          rw [hwindow', hunread, hwindow₀, hunread₀, h.data]
        · apply Scanner.read_atEOF
          rw [hEOF', hEOF₀, Bool.eq_false_iff.mpr hEOF]

/-- The induction is along the scans. -/
theorem Scanner.Sound.texts (h : s.Sound lines) :
    s.texts.1 = lines.map dropCR ∧ s.texts.2.unread = [] := by
  induction s using Scanner.texts.induct generalizing lines with
  | case1 s text s' hscan ih =>
      rcases h.scan with ⟨line, rest, s₁, rfl, htoken, hsound⟩ | ⟨s₁, hmore, -⟩ | ⟨s₁, hstop, -⟩
      · rw [hscan] at htoken
        obtain ⟨rfl, rfl⟩ := Scan.token.inj htoken
        obtain ⟨htexts, hunread⟩ := ih hsound
        rw [Scanner.texts, hscan]
        exact ⟨congrArg (dropCR line :: ·) htexts, hunread⟩
      · rw [hscan] at hmore
        cases hmore
      · rw [hscan] at hstop
        cases hstop
  | case2 s s' hscan ih =>
      rcases h.scan with ⟨line, rest, s₁, -, htoken, -⟩ | ⟨s₁, hmore, hsound⟩ | ⟨s₁, hstop, -⟩
      · rw [hscan] at htoken
        cases htoken
      · rw [hscan] at hmore
        obtain rfl := Scan.more.inj hmore
        rw [Scanner.texts, hscan]
        exact ih hsound
      · rw [hscan] at hstop
        cases hstop
  | case3 s s' hscan =>
      rcases h.scan with ⟨line, rest, s₁, -, htoken, -⟩ | ⟨s₁, hmore, -⟩ | ⟨s₁, hstop, rfl, hunread⟩
      · rw [hscan] at htoken
        cases htoken
      · rw [hscan] at hmore
        cases hmore
      · rw [hscan] at hstop
        obtain rfl := Scan.stop.inj hstop
        rw [Scanner.texts, hscan]
        exact ⟨rfl, hunread⟩

theorem texts_newScanner (hdata : Terminated data)
    (hshort : ∀ line ∈ completeLines data, line.length < maxTokenSize) :
    (newScanner data).texts.1 = (completeLines data).map dropCR ∧
      (newScanner data).texts.2.unread = [] := by
  obtain ⟨hblock, hlines⟩ := hdata.eq_block
  exact Scanner.Sound.texts ⟨hblock, hlines, hshort, fun h => by cases h⟩

end WholeLines

end MobileCore.LineScanner
