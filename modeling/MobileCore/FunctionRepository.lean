import MobileCore.HttpConnections

namespace MobileCore.FunctionRepository

open CppText LastWrite WireJson
open SessionManagement (HttpMessage)

structure NfProfile where
  nfInstanceId : Str
  nfType : Str
  host : Str
  port : UInt16
deriving DecidableEq

structure State where
  profiles : Table Str NfProfile := ∅

/-- The responses, and the end of the process. -/
inductive Event where
  | registered (text : Str)
  | found (text : Str)
  | notFound (text : Str)
  | crashed
deriving DecidableEq

def splitPath (path : Str) : List Str := (path.splitOn 47).filter fun part => !part.isEmpty

def getQueryParam (path key : Str) : Str :=
  if 63 ∈ path then
    let query := (path.dropWhile (· != 63)).tail
    let needle := key ++ lit "="
    match find needle query with
    | none => []
    | some p => (query.drop (p + needle.length)).takeWhile (· != 38)
  else []

def nextWord (text : Str) : Str × Str :=
  let rest := text.dropWhile isSpace
  (rest.takeWhile fun c => !isSpace c, rest.dropWhile fun c => !isSpace c)

def method (req : HttpMessage) : Str := (nextWord req.startLine).1

def path (req : HttpMessage) : Str := (nextWord (nextWord req.startLine).2).1

def isRegister (req : HttpMessage) : Bool :=
  method req = lit "PUT" ∧ (find (lit "/nnrf-nfm/v1/nf-instances/") (path req)).isSome

def isDiscover (req : HttpMessage) : Bool :=
  method req = lit "GET" ∧ (find (lit "/nnrf-disc/v1/nf-instances") (path req)).isSome

def handleRegister (s : State) (nfInstanceId body : Str) : State × List Event :=
  let nfType := get body (lit "nfType")
  let host := get body (lit "host")
  match stoi (get body (lit "port")) with
  | none => (s, [.crashed])
  | some port =>
    ({ s with profiles := s.profiles.insert nfType ⟨nfInstanceId, nfType, host, UInt16.ofInt port⟩ },
      [.registered (httpBuild (lit "HTTP/1.1 201 Created")
        (obj [(lit "nfInstanceId", str nfInstanceId), (lit "nfType", str nfType)]) [])])

def handleDiscover (s : State) (targetType : Str) : State × List Event :=
  match s.profiles.lookup targetType with
  | none => (s, [.notFound (httpBuild (lit "HTTP/1.1 404 Not Found") (lit "\x7b\x7d") [])])
  | some p =>
    (s, [.found (httpBuild (lit "HTTP/1.1 200 OK")
      (obj [(lit "nfInstanceId", str p.nfInstanceId), (lit "nfType", str p.nfType),
        (lit "host", str p.host), (lit "port", num p.port.toNat)]) [])])

def handleRequest (s : State) (req : HttpMessage) : State × List Event :=
  if isRegister req then
    let parts := splitPath ((path req).takeWhile (· != 63))
    handleRegister s (parts.getD 3 []) req.body
  else if isDiscover req then
    handleDiscover s (getQueryParam (path req) (lit "target-nf-type"))
  else (s, [.notFound (httpBuild (lit "HTTP/1.1 404 Not Found") (lit "\x7b\x7d") [])])

theorem crashed_handleRequest (s : State) (req : HttpMessage) :
    .crashed ∈ (handleRequest s req).2 ↔
      isRegister req = true ∧ stoi (get req.body (lit "port")) = none := by
  rw [handleRequest]
  cases hregister : isRegister req with
  | true =>
      rw [if_pos rfl, handleRegister]
      cases hport : stoi (get req.body (lit "port")) <;> simp
  | false =>
      rw [if_neg Bool.false_ne_true]
      split
      · rw [handleDiscover]
        split <;> simp
      · simp

theorem profiles_handleRequest (s : State) (req : HttpMessage)
    (h : ∀ text, .registered text ∉ (handleRequest s req).2) : (handleRequest s req).1 = s := by
  rw [handleRequest] at h ⊢
  split
  · rename_i hregister
    rw [if_pos hregister, handleRegister] at h
    rw [handleRegister]
    split
    · rfl
    · rename_i port hport
      rw [hport] at h
      exact absurd (List.mem_singleton_self _) (h _)
  · split
    · rw [handleDiscover]
      split <;> rfl
    · rfl

end MobileCore.FunctionRepository
