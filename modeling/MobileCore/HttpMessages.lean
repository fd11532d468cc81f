import MobileCore.ByteStreams
import MobileCore.HttpConnections

/-!
# HTTP messages

`httpBuild` writes a start line, the header fields and a body; `httpRecv` reads the head byte by
byte to the blank line and then as many bytes as `Content-Length` says.
-/

namespace MobileCore.HttpMessages

open ByteStreams CppText HttpConnections LastWrite

def crlf : Str := lit "\r\n"

/-- The field lines of a message: the extra header, if there is one, comes first. -/
def headerLines (body extraHeader : Str) : List Str :=
  (if extraHeader = [] then [] else [extraHeader]) ++
    [lit "Content-Type: application/json", lit "Content-Length: " ++ natText body.length]

def httpBuild (startLine body extraHeader : Str) : Str :=
  startLine ++ crlf ++ (headerLines body extraHeader).flatMap (· ++ crlf) ++ crlf ++ body

structure HttpMessage extends SessionManagement.HttpMessage where
  headers : Table Str Str

/-- Reads byte by byte until the text ends in the blank line. -/
def recvHead (raw : Str) (s : Inlet UInt8) : Option (Str × Inlet UInt8) :=
  if blankLine.isSuffixOf raw then some (raw, s)
  else
    match _hrecv : recvAll 1 s with
    | none => none
    | some (c, s') => recvHead (raw ++ c) s'
termination_by s.bytes.length
decreasing_by
  obtain ⟨hbytes, hone⟩ := recvAll_bytes _hrecv
  rw [hbytes, List.length_append]
  omega

inductive Outcome where
  | closed
  | thrown
  | message (msg : HttpMessage) (s : Inlet UInt8)

def maxSize : Nat := 2 ^ 63 - 1

def httpRecv (s : Inlet UInt8) : Outcome :=
  match recvHead [] s with
  | none => .closed
  | some (text, s₁) =>
    let raw := text.take (text.length - 4)
    let fields := headers (headLines raw).tail
    match bodyLength maxSize (fields.lookup (lit "Content-Length")) with
    | none => .thrown
    | some n =>
      match recvAll (n % 2 ^ 32) s₁ with
      | none => .closed
      | some (body, s₂) =>
        .message
          { startLine := chomp ((headLines raw).headD [])
            body := body ++ List.replicate (n - n % 2 ^ 32) 0
            headers := fields } s₂

/-- What a message is without its header fields and the rest of its connection. -/
def Outcome.received : Outcome → Received
  | closed => .closed
  | thrown => .thrown
  | message msg _ => .message msg.toHttpMessage

section Streams

variable {s : Inlet UInt8}

theorem recvHead_nil {raw : Str} (hraw : ¬blankLine <:+: raw) (h : s.bytes = []) :
    recvHead raw s = none := by
  have hsuffix : ¬blankLine.isSuffixOf raw = true := by
    rw [List.isSuffixOf_iff_suffix]
    exact fun hend => hraw hend.isInfix
  rw [recvHead, if_neg hsuffix]
  split
  · rfl
  · rename_i c s₁ hread
    rw [recvAll_eq_none (by rw [h]; exact Nat.one_pos)] at hread
    cases hread

theorem recvHead_cons {raw : Str} {c : UInt8} {rest : Str} (hraw : ¬blankLine <:+: raw)
    (h : s.bytes = c :: rest) :
    ∃ s₁, recvHead raw s = recvHead (raw ++ [c]) s₁ ∧ s₁.bytes = rest := by
  have hsuffix : ¬blankLine.isSuffixOf raw = true := by
    rw [List.isSuffixOf_iff_suffix]
    exact fun hend => hraw hend.isInfix
  obtain ⟨s₁, hread, hrest⟩ := recvAll_receives [c] s rest h
  change recvAll 1 s = _ at hread
  refine ⟨s₁, ?_, hrest⟩
  rw [recvHead, if_neg hsuffix]
  split
  · rename_i hnone
    rw [hread] at hnone
    cases hnone
  · rename_i part s₂ hsome
    rw [hread] at hsome
    obtain ⟨rfl, rfl⟩ := Prod.mk.inj (Option.some.inj hsome)
    rfl

theorem recvHead_none {raw : Str} (h : ¬blankLine <:+: raw ++ s.bytes) : recvHead raw s = none := by
  induction hbytes : s.bytes generalizing raw s with
  | nil =>
      rw [hbytes, List.append_nil] at h
      exact recvHead_nil h hbytes
  | cons c rest ih =>
      obtain ⟨s₁, hstep, hrest⟩ := recvHead_cons (fun hraw => h (hraw.trans
        (List.prefix_append raw s.bytes).isInfix)) hbytes
      rw [hstep]
      apply ih _ hrest
      rwa [hrest, List.append_assoc, List.singleton_append, ← hbytes]

theorem recvHead_of_find {raw : Str} {p : Nat} (hraw : ¬blankLine <:+: raw)
    (hfind : find blankLine (raw ++ s.bytes) = some p) :
    ∃ s', recvHead raw s = some ((raw ++ s.bytes).take (p + 4), s') ∧
      s'.bytes = (raw ++ s.bytes).drop (p + 4) := by
  induction hbytes : s.bytes generalizing raw s with
  | nil =>
      rw [hbytes, List.append_nil] at hfind
      exact absurd ((find_isSome_iff _ _).mp (Option.isSome_of_eq_some hfind)) hraw
  | cons c rest ih =>
      obtain ⟨s₁, hstep, hrest⟩ := recvHead_cons hraw hbytes
      have hwhole : raw ++ c :: rest = raw ++ [c] ++ rest := by
        rw [List.append_assoc, List.singleton_append]
      rw [hstep, hwhole]
      rw [hbytes, hwhole] at hfind
      by_cases hsuffix : blankLine <:+ raw ++ [c]
      · refine ⟨s₁, ?_⟩
        rw [recvHead, if_pos (List.isSuffixOf_iff_suffix.mpr hsuffix), hrest]
        obtain ⟨front, hfront⟩ := hsuffix
        have hearlier : ¬blankLine <:+: (front ++ blankLine).dropLast := by
          rw [hfront, List.dropLast_concat]
          exact hraw
        rw [← hfront, List.append_assoc, find_first rest (by decide) hearlier] at hfind
        obtain rfl := Option.some.inj hfind
        have hlength : front.length + 4 = (raw ++ [c]).length := by
          rw [← hfront, List.length_append]
          rfl
        rw [hlength, List.take_left, List.drop_left]
        exact ⟨rfl, rfl⟩
      · rw [← hrest] at hfind
        apply ih _ hfind hrest
        rw [List.infix_concat_iff]
        exact not_or_intro hsuffix hraw

/-- How the bytes come to be read plays no part in what is read. -/
theorem httpRecv_received (s : Inlet UInt8) :
    (httpRecv s).received = HttpConnections.httpRecv maxSize s.bytes := by
  have hempty : ¬blankLine <:+: [] := by decide
  rw [httpRecv, HttpConnections.httpRecv, contentLength]
  cases hfind : find blankLine s.bytes with
  | none =>
      rw [recvHead_none]
      · rfl
      · rw [List.nil_append, ← find_isSome_iff, hfind]
        exact Bool.false_ne_true
  | some p =>
      obtain ⟨s₁, hhead, hrest⟩ := recvHead_of_find (s := s) hempty hfind
      have hwhole : p + 4 ≤ s.bytes.length := by
        have hle := (prefix_of_find hfind).length_le
        rw [List.length_drop] at hle
        have hfour : blankLine.length = 4 := rfl
        omega
      rw [List.nil_append] at hhead hrest
      have hraw : (s.bytes.take (p + 4)).take ((s.bytes.take (p + 4)).length - 4) =
          s.bytes.take p := by
        rw [List.length_take_of_le hwhole, List.take_take, Nat.add_sub_cancel,
          Nat.min_eq_left (Nat.le_add_right p 4)]
      rw [hhead]
      dsimp only [Option.bind_some]
      rw [hraw]
      cases bodyLength maxSize ((headers (headLines (s.bytes.take p)).tail).lookup
          (lit "Content-Length")) with
      | none => rfl
      | some n =>
          dsimp only
          have hbytes : s.bytes.drop (p + blankLine.length) = s₁.bytes := hrest.symm
          rw [hbytes]
          rcases Nat.lt_or_ge s₁.bytes.length (n % 2 ^ 32) with hshort | hlong
          · rw [recvAll_eq_none hshort, if_pos hshort]
            rfl
          · obtain ⟨s₂, hread, -⟩ := recvAll_take hlong
            rw [hread, if_neg (Nat.not_lt.mpr hlong)]
            rfl

end Streams

section Lines

/-- A line without line ends. -/
def Plain (line : Str) : Prop := 13 ∉ line ∧ 10 ∉ line

variable {line text : Str}

theorem find_skip (hline : 13 ∉ line) :
    find blankLine (line ++ text) = (find blankLine text).map (· + line.length) := by
  induction line with
  | nil => simp
  | cons c line ih =>
      rw [List.mem_cons, not_or] at hline
      rw [List.cons_append, find, if_neg, ih hline.2, Option.map_map]
      · rfl
      · intro hfront
        rw [List.isPrefixOf_iff_prefix] at hfront
        exact hline.1 (List.cons_prefix_cons.mp hfront).1

theorem find_line (hline : 13 ∉ line) (htext : ¬crlf <+: text) :
    find blankLine (line ++ (crlf ++ text)) =
      (find blankLine text).map (· + (line ++ crlf).length) := by
  have hfirst : ¬blankLine.isPrefixOf (13 :: 10 :: text) = true := by
    rw [List.isPrefixOf_iff_prefix]
    exact fun hfront => htext (List.cons_prefix_cons.mp (List.cons_prefix_cons.mp hfront).2).2
  have hsecond : ¬blankLine.isPrefixOf (10 :: text) = true := by
    rw [List.isPrefixOf_iff_prefix]
    exact fun hfront => absurd (List.cons_prefix_cons.mp hfront).1 (by decide)
  have hcrlf : find blankLine (crlf ++ text) = (find blankLine text).map (· + 2) := by
    show find blankLine (13 :: 10 :: text) = _
    rw [find, if_neg hfirst, find, if_neg hsecond, Option.map_map]
    rfl
  rw [find_skip hline, hcrlf, Option.map_map, List.length_append, Nat.add_comm line.length]
  congr
  funext p
  exact Nat.add_assoc p 2 line.length

theorem find_blankLine (text : Str) : find blankLine (blankLine ++ text) = some 0 := by
  show find blankLine (13 :: 10 :: 13 :: 10 :: text) = some 0
  rw [find, if_pos]
  rw [List.isPrefixOf_iff_prefix]
  exact List.prefix_append blankLine text

theorem not_crlf_prefix (hline : 13 ∉ line) (hnonempty : line ≠ []) : ¬crlf <+: line ++ text := by
  obtain ⟨c, rest, rfl⟩ := List.exists_cons_of_ne_nil hnonempty
  intro hfront
  exact hline (List.mem_cons.mpr (Or.inl (List.cons_prefix_cons.mp hfront).1))

theorem find_head (first : Str) (lines : List Str) (rest : Str)
    (hplain : ∀ line ∈ first :: lines, 13 ∉ line) (hnonempty : ∀ line ∈ lines, line ≠ []) :
    find blankLine (crlf.intercalate (first :: lines) ++ (blankLine ++ rest)) =
      some (crlf.intercalate (first :: lines)).length := by
  induction lines generalizing first with
  | nil =>
      rw [List.intercalate_singleton, find_skip (hplain first List.mem_cons_self), find_blankLine,
        Option.map_some, Nat.zero_add]
  | cons line lines ih =>
      have hrest := ih line (fun other hother => hplain other (List.mem_cons_of_mem first hother))
        fun other hother => hnonempty other (List.mem_cons_of_mem line hother)
      have hline : ¬crlf <+: crlf.intercalate (line :: lines) ++ (blankLine ++ rest) := by
        have hfirst {text : Str} : ¬crlf <+: line ++ text :=
          not_crlf_prefix (hplain line (by simp)) (hnonempty line List.mem_cons_self)
        cases lines with
        | nil =>
            rw [List.intercalate_singleton]
            exact hfirst
        | cons next lines =>
            rw [List.intercalate_cons_cons, List.append_assoc, List.append_assoc]
            exact hfirst
      have hlength : (first ++ crlf ++ crlf.intercalate (line :: lines)).length =
          (first ++ crlf).length + (crlf.intercalate (line :: lines)).length := List.length_append
      rw [List.intercalate_cons_cons, hlength, List.append_assoc, List.append_assoc,
        find_line (hplain first List.mem_cons_self) hline, hrest, Option.map_some, Nat.add_comm]

theorem chomp_plain (hline : Plain line) : chomp line = line := by
  rw [chomp, if_neg]
  intro hlast
  exact hline.1 (List.mem_of_getLast? hlast)

theorem chomp_cr (line : Str) : chomp (line ++ [13]) = line := by
  rw [chomp, List.getLast?_concat, if_pos rfl, List.dropLast_concat]

theorem splitOn_head (first : Str) (lines : List Str)
    (hplain : ∀ line ∈ first :: lines, Plain line) :
    ((crlf.intercalate (first :: lines)).splitOn 10).map chomp = first :: lines := by
  induction lines generalizing first with
  | nil =>
      have hfirst := hplain first List.mem_cons_self
      rw [List.intercalate_singleton, List.splitOn_eq_singleton hfirst.2, List.map_singleton,
        chomp_plain hfirst]
  | cons line lines ih =>
      have hfirst := hplain first List.mem_cons_self
      have hcr : (10 : UInt8) ∉ first ++ [13] := by
        rw [List.mem_append, List.mem_singleton, not_or]
        exact ⟨hfirst.2, by decide⟩
      have hsplit : crlf.intercalate (first :: line :: lines) =
          (first ++ [13]) ++ 10 :: crlf.intercalate (line :: lines) := by
        rw [List.intercalate_cons_cons, List.append_assoc, List.append_assoc]
        rfl
      rw [hsplit, List.splitOn_append_cons_self_of_not_mem hcr, List.map_cons, chomp_cr,
        ih line fun other hother => hplain other (List.mem_cons_of_mem first hother)]

theorem headLines_head (first : Str) (lines : List Str)
    (hplain : ∀ line ∈ first :: lines, Plain line)
    (hlast : (first :: lines).getLast? ≠ some []) :
    (headLines (crlf.intercalate (first :: lines))).map chomp = first :: lines := by
  have hsplit := splitOn_head first lines hplain
  rw [headLines, if_neg, hsplit]
  intro hempty
  apply hlast
  rw [← hsplit, List.getLast?_map, hempty]
  rfl

/-- The name of a header field; a line without a colon is none. -/
def isField (name line : Str) : Bool := 58 ∈ line ∧ line.takeWhile (· != 58) = name

/-- The value of a field is without its leading spaces. -/
def fieldValue (line : Str) : Str := (line.dropWhile (· != 58)).tail.dropWhile (· == 32)

theorem ne_colon {name : Str} (hname : 58 ∉ name) : ∀ c ∈ name, (c != 58) = true := by
  intro c hc
  rw [bne_iff_ne]
  rintro rfl
  exact hname hc

theorem isField_colon {name : Str} (hname : 58 ∉ name) (value : Str) :
    isField name (name ++ 58 :: value) = true := by
  rw [isField, decide_eq_true_eq, List.takeWhile_append_of_pos (ne_colon hname),
    List.takeWhile_cons_of_neg (by decide), List.append_nil]
  exact ⟨List.mem_append_right name List.mem_cons_self, rfl⟩

theorem fieldValue_colon {name : Str} (hname : 58 ∉ name) (value : Str) :
    fieldValue (name ++ 58 :: value) = value.dropWhile (· == 32) := by
  rw [fieldValue, List.dropWhile_append_of_pos (ne_colon hname),
    List.dropWhile_cons_of_neg (by decide), List.tail_cons]

theorem lookup_headers (lines : List Str) (name : Str) :
    (headers lines).lookup name = (lastWhere (isField name) (lines.map chomp)).map fieldValue := by
  have hwrites : headers lines =
      (lines.map chomp).foldl
        (write (fun line => decide (58 ∈ line)) (List.takeWhile (· != 58)) fieldValue) ∅ := by
    rw [headers, List.foldl_map]
    congr
    funext fields line
    simp [write, fieldValue]
  rw [hwrites, lookup_foldl_write]
  congr
  funext line
  rw [isField, Bool.decide_and]
  rfl

theorem plain_append {front back : Str} (hfront : Plain front) (hback : Plain back) :
    Plain (front ++ back) := by
  constructor
  · rw [List.mem_append]
    exact not_or_intro hfront.1 hback.1
  · rw [List.mem_append]
    exact not_or_intro hfront.2 hback.2

theorem plain_headerLines {extraHeader : Str} (body : Str) (hextra : Plain extraHeader) :
    ∀ line ∈ headerLines body extraHeader, Plain line ∧ line ≠ [] := by
  have hdigits : Plain (natText body.length) :=
    ⟨not_mem_natText _ _ (by decide), not_mem_natText _ _ (by decide)⟩
  intro line hline
  rw [headerLines, List.mem_append] at hline
  rcases hline with hline | hline
  · split at hline
    · cases hline
    · rename_i hnonempty
      rw [List.mem_singleton.mp hline]
      exact ⟨hextra, hnonempty⟩
  · rcases List.mem_pair.mp hline with rfl | rfl
    · exact ⟨⟨by decide, by decide⟩, by decide⟩
    · exact ⟨plain_append ⟨by decide, by decide⟩ hdigits, by simp [lit]⟩

theorem intercalate_append_crlf (first : Str) (lines : List Str) :
    crlf.intercalate (first :: lines) ++ crlf = (first :: lines).flatMap (· ++ crlf) := by
  induction lines generalizing first with
  | nil => simp
  | cons line lines ih =>
      rw [List.intercalate_cons_cons, List.append_assoc, ih]
      simp

theorem httpBuild_eq (startLine body extraHeader : Str) :
    httpBuild startLine body extraHeader =
      crlf.intercalate (startLine :: headerLines body extraHeader) ++ (blankLine ++ body) := by
  have hblank : blankLine = crlf ++ crlf := rfl
  rw [hblank, List.append_assoc crlf, ← List.append_assoc, intercalate_append_crlf,
    List.flatMap_cons, httpBuild]
  simp only [List.append_assoc]

theorem contentLength_headerLines (body extraHeader : Str) :
    (lastWhere (isField (lit "Content-Length")) (headerLines body extraHeader)).map fieldValue =
      some (natText body.length) := by
  have hsnoc : headerLines body extraHeader =
      ((if extraHeader = [] then [] else [extraHeader]) ++ [lit "Content-Type: application/json"]) ++
        [lit "Content-Length: " ++ natText body.length] := by
    rw [List.append_assoc]
    rfl
  have hline : lit "Content-Length: " ++ natText body.length =
      lit "Content-Length" ++ 58 :: 32 :: natText body.length := rfl
  have hvalue : (natText body.length).dropWhile (· == 32) = natText body.length := by
    obtain ⟨c, digits, htext⟩ := List.exists_cons_of_ne_nil (natText_ne_nil body.length)
    rw [htext, List.dropWhile_cons_of_neg]
    rw [beq_iff_eq]
    rintro rfl
    exact not_mem_natText body.length 32 (by decide) (htext ▸ List.mem_cons_self)
  rw [hsnoc, lastWhere_snoc, hline, if_pos (isField_colon (by decide) _), Option.map_some,
    fieldValue_colon (by decide), List.dropWhile_cons_of_pos (by decide), hvalue]

end Lines

section Messages

variable {s : Inlet UInt8} {first body later : Str} {lines : List Str}

theorem httpRecv_lines (hfirst : Plain first) (hlines : ∀ line ∈ lines, Plain line ∧ line ≠ [])
    (hsome : lines ≠ []) (hbody : body.length < 2 ^ 32)
    (hlength : (lastWhere (isField (lit "Content-Length")) lines).map fieldValue =
      some (natText body.length))
    (hbytes : s.bytes = crlf.intercalate (first :: lines) ++ (blankLine ++ (body ++ later))) :
    ∃ msg s', httpRecv s = .message msg s' ∧ s'.bytes = later ∧ msg.startLine = first ∧
      msg.body = body ∧
      ∀ name, msg.headers.lookup name = (lastWhere (isField name) lines).map fieldValue := by
  have hplain : ∀ line ∈ first :: lines, Plain line := by
    intro line hline
    rcases List.mem_cons.mp hline with rfl | hline
    · exact hfirst
    · exact (hlines line hline).1
  have hfind : find blankLine ([] ++ s.bytes) = some (crlf.intercalate (first :: lines)).length := by
    rw [List.nil_append, hbytes]
    apply find_head
    · exact fun line hline => (hplain line hline).1
    · exact fun line hline => (hlines line hline).2
  have hchomp : (headLines (crlf.intercalate (first :: lines))).map chomp = first :: lines := by
    apply headLines_head first lines hplain
    intro hlast
    rw [List.getLast?_cons_of_ne_nil hsome] at hlast
    exact (hlines [] (List.mem_of_getLast? hlast)).2 rfl
  generalize crlf.intercalate (first :: lines) = head at hbytes hfind hchomp
  obtain ⟨s₁, hread, hrest⟩ := recvHead_of_find (by decide) hfind
  have hfour : head.length + 4 = (head ++ blankLine).length := by
    rw [List.length_append]
    rfl
  rw [List.nil_append, hbytes, ← List.append_assoc, hfour] at hread hrest
  rw [List.take_left] at hread
  rw [List.drop_left] at hrest
  have hraw : (head ++ blankLine).take ((head ++ blankLine).length - 4) = head := by
    rw [← hfour, Nat.add_sub_cancel, List.take_left]
  have hfields (name : Str) : (headers (headLines head).tail).lookup name =
      (lastWhere (isField name) lines).map fieldValue := by
    rw [lookup_headers, List.map_tail, hchomp, List.tail_cons]
  have hbodyLength : bodyLength maxSize
      ((headers (headLines head).tail).lookup (lit "Content-Length")) = some body.length := by
    rw [hfields, hlength, bodyLength, stoul_natText (by omega)]
    apply if_pos
    rw [maxSize]
    omega
  obtain ⟨s₂, hbody₂, hlater⟩ := recvAll_receives body s₁ later hrest
  have hreceived : httpRecv s = .message
      { startLine := chomp ((headLines head).headD [])
        body := body ++ List.replicate (body.length - body.length) 0
        headers := headers (headLines head).tail } s₂ := by
    rw [httpRecv, hread]
    dsimp only
    rw [hraw, hbodyLength]
    dsimp only
    rw [Nat.mod_eq_of_lt hbody, hbody₂]
  refine ⟨_, s₂, hreceived, hlater, ?_, ?_, hfields⟩
  · cases hlist : headLines head with
    | nil =>
        rw [hlist] at hchomp
        cases hchomp
    | cons line rest =>
        rw [hlist, List.map_cons] at hchomp
        exact (List.cons.inj hchomp).1
  · rw [Nat.sub_self]
    exact List.append_nil body

end Messages

/-- What was built is received, its start line, its body and the last field of each name, and the
bytes behind it stay on the connection, in whatever pieces all of them come. -/
theorem httpRecv_httpBuild (startLine body extraHeader : Str) (hstart : Plain startLine)
    (hextra : Plain extraHeader) (hbody : body.length < 2 ^ 32) (s : Inlet UInt8) (later : Str)
    (hbytes : s.bytes = httpBuild startLine body extraHeader ++ later) :
    ∃ msg s', httpRecv s = .message msg s' ∧ s'.bytes = later ∧
      msg.startLine = startLine ∧ msg.body = body ∧
      ∀ name, msg.headers.lookup name =
        (lastWhere (isField name) (headerLines body extraHeader)).map fieldValue := by
  apply httpRecv_lines hstart (plain_headerLines body hextra) _ hbody
  · exact contentLength_headerLines body extraHeader
  · rw [hbytes, httpBuild_eq]
    simp only [List.append_assoc]
  · rw [headerLines]
    exact List.append_ne_nil_of_right_ne_nil _ (List.cons_ne_nil _ _)

section Inputs

def byteByByte (text : Str) : Inlet UInt8 := ⟨text.map fun c => [c], by simp⟩

theorem byteByByte_bytes (text : Str) : (byteByByte text).bytes = text := by
  rw [Inlet.bytes, byteByByte, ← List.flatMap_def]
  exact List.flatMap_singleton' text

/-- A request whose extra header comes back under its name. -/
theorem request_received :
    ∃ msg s', httpRecv (byteByByte (httpBuild (lit "PUT /a HTTP/1.1") (lit "{}") (lit "Host: b"))) =
        .message msg s' ∧ msg.startLine = lit "PUT /a HTTP/1.1" ∧ msg.body = lit "{}" ∧
      msg.headers.lookup (lit "Host") = some (lit "b") := by
  obtain ⟨msg, s', hreceived, -, hstart, hbody, hfields⟩ :=
    httpRecv_httpBuild (lit "PUT /a HTTP/1.1") (lit "{}") (lit "Host: b") ⟨by decide, by decide⟩
      ⟨by decide, by decide⟩ (by decide) _ [] ((byteByByte_bytes _).trans (List.append_nil _).symm)
  exact ⟨msg, s', hreceived, hstart, hbody, hfields _⟩

def lower (c : UInt8) : UInt8 := if 65 ≤ c ∧ c ≤ 90 then c + 32 else c

/-- Every field of the message is there under its name, in upper or lower case. -/
def FieldsRecovered (lines : List Str) (fields : Table Str Str) : Prop :=
  ∀ line ∈ lines, 58 ∈ line → ∃ name, name.map lower = (line.takeWhile (· != 58)).map lower ∧
    fields.lookup name = some (fieldValue line)

/-- The extra header's type is replaced by the one that every message has. -/
theorem contentType_replaced :
    ∃ msg s', httpRecv (byteByByte
        (httpBuild (lit "GET / HTTP/1.1") [] (lit "Content-Type: text/plain"))) = .message msg s' ∧
      ¬FieldsRecovered (headerLines [] (lit "Content-Type: text/plain")) msg.headers := by
  obtain ⟨msg, s', hreceived, -, -, -, hfields⟩ :=
    httpRecv_lines (s := byteByByte
      (httpBuild (lit "GET / HTTP/1.1") [] (lit "Content-Type: text/plain")))
      ⟨by decide, by decide⟩ (plain_headerLines [] ⟨by decide, by decide⟩) (by decide) (by decide)
      (contentLength_headerLines [] (lit "Content-Type: text/plain"))
      ((byteByByte_bytes _).trans (httpBuild_eq _ _ _))
  refine ⟨msg, s', hreceived, fun hall => ?_⟩
  obtain ⟨name, -, hlookup⟩ := hall (lit "Content-Type: text/plain") (by decide) (by decide)
  rw [hfields] at hlookup
  obtain ⟨line, hlast, hvalue⟩ := Option.map_eq_some_iff.mp hlookup
  have hlines : headerLines [] (lit "Content-Type: text/plain") =
      [lit "Content-Type: text/plain", lit "Content-Type: application/json",
        lit "Content-Length: 0"] := by
    decide +kernel
  have hline := List.mem_reverse.mp (List.mem_of_find?_eq_some hlast)
  have hname : isField name line = true := ((lastWhere_eq_some _ _ _).mp hlast).1
  rw [hlines, List.mem_cons, List.mem_pair] at hline
  rcases hline with rfl | rfl | rfl
  · rw [isField, decide_eq_true_eq] at hname
    rw [← hname.2] at hlast
    exact absurd hlast (by decide +kernel)
  · exact absurd hvalue (by decide +kernel)
  · exact absurd hvalue (by decide +kernel)

end Inputs

end MobileCore.HttpMessages
