import RegistryKeeper.Json.Rounding
import RegistryKeeper.Text.Quoted

namespace RegistryKeeper.Json

def escapeChar (c : Char) : List Char :=
  if c = '"' then ['\\', '"']
  else if c = '\\' then ['\\', '\\']
  else if c = '\n' then ['\\', 'n']
  else if c = '\r' then ['\\', 'r']
  else if c = '\t' then ['\\', 't']
  else if c = '\x08' then ['\\', 'b']
  else if c = '\x0c' then ['\\', 'f']
  else if c.toNat < 32 then
    ['\\', 'u', '0', '0'] ++ (if c.toNat < 16 then ['0'] else []) ++ Text.hex c.toNat
  else [c]

def stringText (s : String) : List Char :=
  '"' :: s.toList.flatMap escapeChar ++ ['"']

mutual

def chars : Json → List Char
  | .null => ['n', 'u', 'l', 'l']
  | .bool true => ['t', 'r', 'u', 'e']
  | .bool false => ['f', 'a', 'l', 's', 'e']
  | .int n => (toString n).toList
  | .real d => d.text.toList
  | .str s => stringText s
  | .arr l => '[' :: itemChars l ++ [']']
  | .obj l => '\x7b' :: fieldChars l ++ ['\x7d']

def itemChars : List Json → List Char
  | [] => []
  | [v] => chars v
  | v :: r => chars v ++ ',' :: itemChars r

def fieldChars : List (String × Json) → List Char
  | [] => []
  | [(k, v)] => stringText k ++ ':' :: chars v
  | (k, v) :: r => stringText k ++ ':' :: chars v ++ ',' :: fieldChars r

end

def text (j : Json) : String := String.ofList j.chars

def size (j : Json) : Nat := j.text.utf8ByteSize

def keySize (k : String) : Nat := size (.str k) + 1

end RegistryKeeper.Json
