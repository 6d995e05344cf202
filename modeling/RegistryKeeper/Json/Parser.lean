import RegistryKeeper.Json.Rounding

namespace RegistryKeeper.Json

inductive SyntaxFault where
  | endInList
  | endInObject
  | endInString
  | endInValue
  | expectedColon
  | expectedListCommaOrEnd
  | expectedObjectCommaOrEnd
  | expectedWord
  | expectedValue
  | badEscape
  | badNumber
  | numberOutOfRange
  | controlCharacter
  | keyNotString
  | loneSurrogate
  | trailingComma
  | trailingCharacters
  | unfinishedSurrogate
  | tooDeep
  deriving DecidableEq, Repr

def SyntaxFault.message : SyntaxFault → String
  | .endInList => "EOF while parsing a list"
  | .endInObject => "EOF while parsing an object"
  | .endInString => "EOF while parsing a string"
  | .endInValue => "EOF while parsing a value"
  | .expectedColon => "expected `:`"
  | .expectedListCommaOrEnd => "expected `,` or `]`"
  | .expectedObjectCommaOrEnd => "expected `,` or `\x7d`"
  | .expectedWord => "expected ident"
  | .expectedValue => "expected value"
  | .badEscape => "invalid escape"
  | .badNumber => "invalid number"
  | .numberOutOfRange => "number out of range"
  | .controlCharacter => "control character (\\u0000-\\u001F) found while parsing a string"
  | .keyNotString => "key must be a string"
  | .loneSurrogate => "lone leading surrogate in hex escape"
  | .trailingComma => "trailing comma"
  | .trailingCharacters => "trailing characters"
  | .unfinishedSurrogate => "unexpected end of hex escape"
  | .tooDeep => "recursion limit exceeded"

structure SyntaxError where
  fault : SyntaxFault
  line : Nat
  column : Nat
  deriving DecidableEq, Repr

def SyntaxError.message (e : SyntaxError) : String :=
  e.fault.message ++ " at line " ++ toString e.line ++ " column " ++ toString e.column

structure Cursor where
  rest : List Char
  line : Nat
  column : Nat

abbrev Parser := StateT Cursor (Except SyntaxError)

namespace Parser

def peek : Parser (Option Char) := return (← get).rest.head?

def eat : Parser Unit :=
  modify fun c => match c.rest with
    | [] => c
    | '\n' :: r => ⟨r, c.line + 1, 0⟩
    | x :: r => ⟨r, c.line, c.column + x.utf8Size⟩

def failHere {α : Type} (f : SyntaxFault) : Parser α := do
  let c ← get
  throw ⟨f, c.line, c.column⟩

def failNext {α : Type} (f : SyntaxFault) : Parser α := do
  let c ← get
  throw <| match c.rest with
    | [] => ⟨f, c.line, c.column⟩
    | '\n' :: _ => ⟨f, c.line + 1, 0⟩
    | _ => ⟨f, c.line, c.column + 1⟩

def isSpace (c : Char) : Bool := c = ' ' || c = '\n' || c = '\t' || c = '\r'

def skipSpace : Parser (Option Char) := do
  let n := ((← get).rest.takeWhile isSpace).length
  for _ in List.range n do eat
  peek

def word (w : List Char) : Parser Unit := do
  for x in w do
    match ← peek with
    | none => failHere .endInValue
    | some y => if y = x then eat else failNext .expectedWord

def digits : Parser (List Char) := do
  let ds := (← get).rest.takeWhile Char.isDigit
  for _ in ds do eat
  return ds

def maxWord : Nat := Nat.pow 2 64 - 1

def extend (n : Nat) : List Char → Nat × Nat
  | [] => (n, 0)
  | d :: ds =>
      let m := 10 * n + (d.toNat - 48)
      if maxWord < m then (n, ds.length + 1) else extend m ds

def scaled (negative : Bool) (n : Nat) (e : Int) : Parser Json :=
  match Decimal.ofScientific? negative n e with
  | some d => return .real d
  | none => failHere .numberOutOfRange

def digitsTo31Bits (m : Nat) : List Char → Option Nat
  | [] => none
  | d :: ds =>
      let m := 10 * m + (d.toNat - 48)
      if Nat.pow 2 31 ≤ m then some 1 else (digitsTo31Bits m ds).map (· + 1)

/-- The power of ten after `e`. As soon as it passes 31 bits the number is out of range, unless it
is a zero or too small for any other. -/
def exponentPart (negative : Bool) (n : Nat) (e : Int) : Parser Json := do
  eat
  let below ← match ← peek with
    | some '+' => do eat; pure false
    | some '-' => do eat; pure true
    | _ => pure false
  match ← peek with
  | none => failHere .endInValue
  | some c =>
      if !c.isDigit then failNext .badNumber
      else
        match digitsTo31Bits 0 ((← get).rest.takeWhile Char.isDigit) with
        | some k =>
            if n ≠ 0 && !below then
              for _ in List.range k do eat
              failHere .numberOutOfRange
            else
              let _ ← digits
              return .real ⟨negative, 0, 0⟩
        | none =>
            let x : Nat := (← digits).foldl (fun m d => 10 * m + (d.toNat - 48)) 0
            scaled negative n (if below then e - x else e + x)

def pointPart (negative : Bool) (n dropped : Nat) : Parser Json := do
  eat
  let ds ← digits
  if ds.isEmpty then
    match ← peek with
    | some _ => failNext .badNumber
    | none => failNext .endInValue
  else
    let (m, left) := extend n ds
    let e : Int := (dropped : Int) - ((ds.length - left : Nat) : Int)
    match ← peek with
    | some 'e' | some 'E' => exponentPart negative m e
    | _ => scaled negative m e

def afterDigits (negative : Bool) (n dropped : Nat) : Parser Json := do
  match ← peek with
  | some '.' => pointPart negative n dropped
  | some 'e' | some 'E' => exponentPart negative n dropped
  | _ =>
      if dropped ≠ 0 then scaled negative n dropped
      else if !negative then return .int n
      else if n = 0 || Nat.pow 2 63 < n then scaled true n 0
      else return .int (-(n : Int))

def number (negative : Bool) : Parser Json := do
  match ← peek with
  | none => failHere .endInValue
  | some '0' =>
      eat
      match ← peek with
      | some c => if c.isDigit then failNext .badNumber else afterDigits negative 0 0
      | none => afterDigits negative 0 0
  | some c =>
      if c.isDigit then
        let ds ← digits
        let (n, dropped) := extend 0 ds
        afterDigits negative n dropped
      else failNext .badNumber

def hexDigit? (c : Char) : Option Nat :=
  if c.isDigit then some (c.toNat - 48)
  else if 'a' ≤ c && c ≤ 'f' then some (c.toNat - 87)
  else if 'A' ≤ c && c ≤ 'F' then some (c.toNat - 55)
  else none

def hexEscape : Parser Nat := do
  let four := (← get).rest.take 4
  let bytes : Nat := four.foldl (fun n c => n + c.utf8Size) 0
  if bytes < 4 then
    for _ in four do eat
    failHere .endInString
  match four.mapM hexDigit? with
  | some ds =>
      for _ in four do eat
      return ds.foldl (fun n d => 16 * n + d) 0
  | none =>
      let c ← get
      throw ⟨.badEscape, (skipBytes 4 c).line, (skipBytes 4 c).column⟩
where
  skipBytes : Nat → Cursor → Cursor
    | 0, c => c
    | n + 1, c => match c.rest with
        | [] => c
        | '\n' :: r => skipBytes n ⟨r, c.line + 1, 0⟩
        | x :: r =>
            if x.utf8Size ≤ n + 1 then
              skipBytes (n + 1 - x.utf8Size) ⟨r, c.line, c.column + x.utf8Size⟩
            else ⟨c.rest, c.line, c.column + (n + 1)⟩
  termination_by n => n
  decreasing_by
    · omega
    · have h := x.utf8Size_pos
      omega

def expectInString (x : Char) : Parser Unit := do
  match ← peek with
  | none => failHere .endInString
  | some y => if y = x then eat else failNext .unfinishedSurrogate

def unicodeEscape : Parser Char := do
  let n ← hexEscape
  if 0xDC00 ≤ n && n ≤ 0xDFFF then failHere .loneSurrogate
  else if 0xD800 ≤ n && n ≤ 0xDBFF then
    expectInString '\\'
    expectInString 'u'
    let m ← hexEscape
    if m < 0xDC00 || 0xDFFF < m then failHere .loneSurrogate
    else return Char.ofNat (0x10000 + (n - 0xD800) * 0x400 + (m - 0xDC00))
  else return Char.ofNat n

def escapeSequence : Parser Char := do
  match ← peek with
  | none => failHere .endInString
  | some 'u' =>
      eat
      unicodeEscape
  | some c =>
      match Table.lookup c escapes with
      | some x =>
          eat
          return x
      | none => failNext .badEscape
where
  escapes : List (Char × Char) :=
    [('"', '"'), ('\\', '\\'), ('/', '/'), ('b', '\x08'), ('f', '\x0c'), ('n', '\n'), ('r', '\r'),
      ('t', '\t')]

def stringTail : Nat → List Char → Parser String
  | 0, _ => failHere .endInString
  | fuel + 1, taken => do
      match ← peek with
      | none => failHere .endInString
      | some '"' =>
          eat
          return String.ofList taken.reverse
      | some '\\' =>
          eat
          let c ← escapeSequence
          stringTail fuel (c :: taken)
      | some c =>
          eat
          if c.toNat < 32 then failHere .controlCharacter
          else stringTail fuel (c :: taken)

def stringBody : Parser String := do
  stringTail ((← get).rest.length + 1) []

mutual

def value : Nat → Nat → Parser Json
  | 0, _ => failHere .endInValue
  | fuel + 1, room => do
      match ← skipSpace with
      | none => failNext .endInValue
      | some 'n' =>
          eat
          word ['u', 'l', 'l']
          return .null
      | some 't' =>
          eat
          word ['r', 'u', 'e']
          return .bool true
      | some 'f' =>
          eat
          word ['a', 'l', 's', 'e']
          return .bool false
      | some '-' =>
          eat
          number true
      | some '"' =>
          eat
          return .str (← stringBody)
      | some '[' =>
          match room with
          | 0 => failNext .tooDeep
          | room + 1 =>
              eat
              return .arr (← items fuel room true)
      | some '\x7b' =>
          match room with
          | 0 => failNext .tooDeep
          | room + 1 =>
              eat
              return .obj (← members fuel room true [])
      | some c => if c.isDigit then number false else failNext .expectedValue

def items : Nat → Nat → Bool → Parser (List Json)
  | 0, _, _ => failHere .endInList
  | fuel + 1, room, first => do
      match ← skipSpace with
      | none => failNext .endInList
      | some ']' =>
          eat
          return []
      | some ',' =>
          if first then element fuel room
          else
            eat
            match ← skipSpace with
            | some ']' => failNext .trailingComma
            | some _ => element fuel room
            | none => failNext .endInValue
      | some _ => if first then element fuel room else failNext .expectedListCommaOrEnd

def element : Nat → Nat → Parser (List Json)
  | 0, _ => failHere .endInList
  | fuel + 1, room => do
      let v ← value fuel room
      return v :: (← items fuel room false)

def members : Nat → Nat → Bool → List (String × Json) → Parser (List (String × Json))
  | 0, _, _, _ => failHere .endInObject
  | fuel + 1, room, first, taken => do
      match ← skipSpace with
      | none => failNext .endInObject
      | some '\x7d' =>
          eat
          return taken
      | some ',' =>
          if first then failNext .keyNotString
          else
            eat
            match ← skipSpace with
            | some '"' => member fuel room taken
            | some '\x7d' => failNext .trailingComma
            | some _ => failNext .keyNotString
            | none => failNext .endInValue
      | some '"' => if first then member fuel room taken else failNext .expectedObjectCommaOrEnd
      | some _ => failNext (if first then .keyNotString else .expectedObjectCommaOrEnd)

def member : Nat → Nat → List (String × Json) → Parser (List (String × Json))
  | 0, _, _ => failHere .endInObject
  | fuel + 1, room, taken => do
      eat
      let k ← stringBody
      match ← skipSpace with
      | some ':' =>
          eat
          let v ← value fuel room
          members fuel room false (put k v taken)
      | some _ => failNext .expectedColon
      | none => failNext .endInObject

end

end Parser

/-- At most 127 lists and objects are open at a time. -/
def parse (s : String) : Except SyntaxError Json := do
  let cs := s.toList
  let whole : Parser Json := do
    let v ← Parser.value (3 * cs.length + 3) 127
    match ← Parser.skipSpace with
    | some _ => Parser.failNext .trailingCharacters
    | none => return v
  return (← whole.run ⟨cs, 1, 0⟩).1

end RegistryKeeper.Json
