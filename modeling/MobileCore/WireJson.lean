import MobileCore.CppText

namespace MobileCore.WireJson

open MobileCore.CppText

def str (s : Str) : Str := lit "\"" ++ s ++ lit "\""

def num (n : Int) : Str := intText n

/-- The members of an object, values verbatim and separated by commas. -/
def members : List (Str × Str) → Str
  | [] => []
  | [(key, value)] => lit "\"" ++ key ++ lit "\":" ++ value
  | (key, value) :: rest => lit "\"" ++ key ++ lit "\":" ++ value ++ lit "," ++ members rest

def obj (kv : List (Str × Str)) : Str := lit "\x7b" ++ members kv ++ lit "\x7d"

/-- What follows the first occurrence of the key: a quoted string, or a bare token. -/
def get (text key : Str) : Str :=
  let needle := lit "\"" ++ key ++ lit "\":"
  match find needle text with
  | none => []
  | some p =>
    match text.drop (p + needle.length) with
    | 34 :: value => value.takeWhile (· != 34)
    | value => value.takeWhile fun c => c != 44 && c != 125

def httpBuild (startLine body extraHeader : Str) : Str :=
  startLine ++ lit "\r\n" ++
    (if extraHeader.isEmpty then [] else extraHeader ++ lit "\r\n") ++
    lit "Content-Type: application/json\r\n" ++
    lit "Content-Length: " ++ natText body.length ++ lit "\r\n" ++
    lit "\r\n" ++ body

end MobileCore.WireJson
