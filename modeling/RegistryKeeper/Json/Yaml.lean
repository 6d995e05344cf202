import RegistryKeeper.Json.Printer

namespace RegistryKeeper.Json

def isIndicator (c : Char) : Bool :=
  c ∈ ['-', '?', ':', ',', '[', ']', '\x7b', '\x7d', '#', '&', '*', '!', '|', '>', '\'', '"', '%',
    '@', '\x60']

def isBreak (c : Char) : Bool := c = '\n'

def hasMark : List Char → Bool
  | [] => false
  | [c] => c = ':'
  | c :: d :: r => (c = ':' && d = ' ') || (c = ' ' && d = '#') || hasMark (d :: r)

def isWord (s : String) : Bool :=
  s ∈ ["", "~", "null", "Null", "NULL", "true", "True", "TRUE", "false", "False", "FALSE"]

def looksNumeric (cs : List Char) : Bool :=
  cs.any Char.isDigit
    && cs.all fun c => c.isDigit || c = '.' || c = '-' || c = '+' || c = 'e' || c = 'E' || c = '_'

def isPlain (s : String) : Bool :=
  let cs := s.toList
  !(isWord s || looksNumeric cs || hasMark cs || cs.head?.any (fun c => isIndicator c || c = ' ')
    || cs.getLast?.any (· = ' '))

def singleQuoted (s : String) : String :=
  "'" ++ String.ofList (s.toList.flatMap fun c => if c = '\'' then [c, c] else [c]) ++ "'"

def lineText (s : String) : String := if isPlain s then s else singleQuoted s

def onOneLine : Json → Option String
  | .arr [] => some "[]"
  | .arr (_ :: _) => none
  | .obj [] => some "{}"
  | .obj (_ :: _) => none
  | .str s => if s.toList.any isBreak then none else some (lineText s)
  | j => some j.text

def indented (lines : List String) : List String :=
  lines.map fun l => if l = "" then "" else "  " ++ l

def dashed : List String → List String
  | [] => []
  | l :: r => ("- " ++ l) :: indented r

mutual

def block : Json → List String
  | .arr l => itemLines l
  | .obj l => fieldLines l
  | .str s => "|-" :: s.splitOn "\n"
  | j => [j.text]

def itemLines : List Json → List String
  | [] => []
  | j :: r =>
      (match onOneLine j with
        | some t => ["- " ++ t]
        | none => dashed (block j)) ++ itemLines r

def fieldLines : List (String × Json) → List String
  | [] => []
  | (k, j) :: r =>
      (match onOneLine j with
        | some t => [k ++ ": " ++ t]
        | none =>
            match j with
            | .arr l => (k ++ ":") :: itemLines l
            | .obj l => (k ++ ":") :: indented (fieldLines l)
            | .str s => (k ++ ": |-") :: indented (s.splitOn "\n")
            | _ => []) ++ fieldLines r

end

def yaml (j : Json) : String := String.join (j.block.map (· ++ "\n"))

end RegistryKeeper.Json
