import MobileCore.LastWrite
import MobileCore.SessionManagement

namespace MobileCore.HttpConnections

open CppText LastWrite SessionManagement

/-- How `httpRecv` ends: the stream ends early, a conversion or an allocation throws, or a
message is there. -/
inductive Received where
  | closed
  | thrown
  | message (msg : HttpMessage)
deriving DecidableEq

def blankLine : Str := lit "\r\n\r\n"

/-- The lines that `getline` reads; no empty one after a final line feed. -/
def headLines (raw : Str) : List Str :=
  let pieces := raw.splitOn 10
  if pieces.getLast? = some [] then pieces.dropLast else pieces

def chomp (line : Str) : Str := if line.getLast? = some 13 then line.dropLast else line

/-- The header fields, the last value of each name. -/
def headers (lines : List Str) : Table Str Str :=
  lines.foldl
    (fun fields line =>
      let line := chomp line
      if 58 ∈ line then
        fields.insert (line.takeWhile (· != 58))
          ((line.dropWhile (· != 58)).tail.dropWhile (· == 32))
      else fields) ∅

def contentLength (stream : Str) : Option Str :=
  (find blankLine stream).bind fun p =>
    (headers (headLines (stream.take p)).tail).lookup (lit "Content-Length")

/-- The body length; `none` where `stoul` throws or no string of the length can be allocated. -/
def bodyLength (room : Nat) : Option Str → Option Nat
  | none => some 0
  | some value =>
    match stoul 10 value with
    | none => none
    | some n => if n ≤ room then some n else none

/-- The body buffer has the whole length, and `recvAll` fills it up to the length modulo 2^32. -/
def httpRecv (room : Nat) (stream : Str) : Received :=
  match find blankLine stream with
  | none => .closed
  | some p =>
    match bodyLength room (contentLength stream) with
    | none => .thrown
    | some n =>
      let rest := stream.drop (p + blankLine.length)
      let wanted := n % 2 ^ 32
      if rest.length < wanted then .closed
      else
        .message
          { startLine := chomp ((headLines (stream.take p)).headD [])
            body := rest.take wanted ++ List.replicate (n - wanted) 0 }

def LengthReads (room : Nat) (stream : Str) : Prop :=
  ∀ value, contentLength stream = some value → ∃ n, stoul 10 value = some n ∧ n ≤ room

theorem httpRecv_thrown_iff (room : Nat) (stream : Str) :
    httpRecv room stream = .thrown ↔ ¬ LengthReads room stream := by
  rw [httpRecv]
  cases hfind : find blankLine stream with
  | none =>
      have hnone : contentLength stream = none := by rw [contentLength, hfind, Option.bind_none]
      have hreads : LengthReads room stream := fun value hvalue => by
        rw [hnone] at hvalue
        cases hvalue
      exact iff_of_false (by simp) (not_not_intro hreads)
  | some p =>
      have hlength : bodyLength room (contentLength stream) = none ↔ ¬ LengthReads room stream := by
        rw [LengthReads]
        cases contentLength stream with
        | none => simp [bodyLength]
        | some value => cases hstoul : stoul 10 value <;> simp [bodyLength, hstoul]
      dsimp only
      rw [← hlength]
      cases bodyLength room (contentLength stream) with
      | none => simp
      | some n =>
          dsimp only
          split <;> simp

theorem lengthReads_of_httpRecv {room : Nat} {stream : Str} {received : Received}
    (h : httpRecv room stream = received) (hreceived : received ≠ .thrown) :
    LengthReads room stream := by
  by_contra hnot
  rw [(httpRecv_thrown_iff room stream).mpr hnot] at h
  exact hreceived h.symm

def n2Frames : Nat → Str → List Str
  | fuel + 1, b₀ :: b₁ :: b₂ :: b₃ :: rest =>
    let len := b₀.toNat + 256 * b₁.toNat + 65536 * b₂.toNat + 16777216 * b₃.toNat
    if len = 0 ∨ 65536 < len ∨ rest.length < len then []
    else rest.take len :: n2Frames fuel (rest.drop len)
  | _, _ => []

end MobileCore.HttpConnections
