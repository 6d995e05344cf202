import RegistryKeeper.Text.Alphanumeric

/-!
Which texts are regular expressions. A text is read once from left to right: what matters of what
came before is how many groups are open, the names that groups have been given, and whether there
is something that a repetition can repeat. Counted repetitions are not among them, nor boundaries
of words, nor anything that looks ahead or behind.
-/

namespace RegistryKeeper.Pattern

inductive Escaped where
  | literal (c : Char)
  | charClass
  | assertion
  deriving DecidableEq, Repr

def hexDigit? (c : Char) : Option Nat :=
  if c.isDigit then some (c.toNat - 48)
  else if 'a' ≤ c ∧ c ≤ 'f' then some (c.toNat - 87)
  else if 'A' ≤ c ∧ c ≤ 'F' then some (c.toNat - 55)
  else none

def takeCodePoint (digits : Nat) (cs : List Char) : Option (Escaped × List Char) := do
  let ds ← (cs.take digits).mapM hexDigit?
  let n := ds.foldl (fun n d => 16 * n + d) 0
  if ds.length = digits ∧ n.isValidChar then
    return (.literal (Char.ofNat n), cs.drop digits)
  else none

def isCategory (c : Char) : Bool := "CLMNPSZ".contains c.toUpper

def standsForItself (c : Char) : Bool :=
  c.toNat < 128 && !c.isAlphanum && c ≠ '<' && c ≠ '>'

def takeEscaped : List Char → Option (Escaped × List Char)
  | [] => none
  | 'x' :: r => takeCodePoint 2 r
  | 'u' :: r => takeCodePoint 4 r
  | 'U' :: r => takeCodePoint 8 r
  | 'a' :: r => some (.literal '\x07', r)
  | 'f' :: r => some (.literal '\x0c', r)
  | 't' :: r => some (.literal '\t', r)
  | 'n' :: r => some (.literal '\n', r)
  | 'r' :: r => some (.literal '\r', r)
  | 'v' :: r => some (.literal '\x0b', r)
  | c :: r =>
      if c = 'A' || c = 'z' then some (.assertion, r)
      else if "dswDSW".contains c then some (.charClass, r)
      else if c = 'p' || c = 'P' then
        if r.head?.any isCategory then some (.charClass, r.drop 1) else none
      else if standsForItself c then some (.literal c, r)
      else none

def namedClasses : List String :=
  ["alnum", "alpha", "ascii", "blank", "cntrl", "digit", "graph", "lower", "print", "punct",
    "space", "upper", "word", "xdigit"]

def takeNamedClass : List Char → Option (List Char)
  | ':' :: r =>
      let r := if r.head? = some '^' then r.drop 1 else r
      let name := String.ofList (r.takeWhile (· ≠ ':'))
      match r.dropWhile (· ≠ ':') with
      | ':' :: ']' :: r => if name ∈ namedClasses then some r else none
      | _ => none
  | _ => none

def dropClassStart (cs : List Char) : List Char :=
  let cs := if cs.head? = some '^' then cs.drop 1 else cs
  match cs with
  | '-' :: _ => cs.dropWhile (· = '-')
  | ']' :: r => r
  | cs => cs

def takeClassItem : List Char → Option (Escaped × List Char)
  | [] => none
  | '\\' :: r => (takeEscaped r).filter fun e => e.1 ≠ .assertion
  | c :: r => some (.literal c, r)

def isRange : Escaped → Escaped → Bool
  | .literal a, .literal b => a ≤ b
  | _, _ => false

def takeClass (depth : Nat) : (fuel : Nat) → List Char → Option (List Char)
  | 0, _ | _, [] => none
  | fuel + 1, '[' :: r =>
      match takeNamedClass r with
      | some r => takeClass depth fuel r
      | none => takeClass (depth + 1) fuel (dropClassStart r)
  | fuel + 1, ']' :: r => if depth ≤ 1 then some r else takeClass (depth - 1) fuel r
  | fuel + 1, '&' :: '&' :: r | fuel + 1, '-' :: '-' :: r | fuel + 1, '~' :: '~' :: r =>
      takeClass depth fuel r
  | fuel + 1, cs => do
      let (first, r) ← takeClassItem cs
      match r with
      | '-' :: ']' :: _ | '-' :: '-' :: _ => takeClass depth fuel r
      | '-' :: r =>
          let (last, r) ← takeClassItem r
          if isRange first last then takeClass depth fuel r else none
      | r => takeClass depth fuel r

inductive Opened where
  | group (name : Option String)
  | flags
  deriving DecidableEq, Repr

def takeFlags (seen : List Char) (dangling : Bool) : List Char → Option (Opened × List Char)
  | [] => none
  | ':' :: r => if dangling then none else some (.group none, r)
  | ')' :: r => if dangling || seen.isEmpty then none else some (.flags, r)
  | c :: r =>
      if "imsUuRx-".contains c && c ∉ seen then takeFlags (c :: seen) (c = '-') r else none

def isNameStart (c : Char) : Bool := c = '_' || (Text.isAlphanumeric c && !c.isDigit)

def isNameRest (c : Char) : Bool :=
  c = '_' || c = '.' || c = '[' || c = ']' || Text.isAlphanumeric c

def takeName (cs : List Char) : Option (Opened × List Char) :=
  let name := cs.takeWhile (· ≠ '>')
  match cs.dropWhile (· ≠ '>') with
  | [] => none
  | _ :: r =>
      if name.head?.any isNameStart && name.all isNameRest then
        some (.group (some (String.ofList name)), r)
      else none

def takeOpened : List Char → Option (Opened × List Char)
  | '?' :: 'P' :: '<' :: r => takeName r
  | '?' :: '<' :: r => takeName r
  | '?' :: r => takeFlags [] false r
  | r => some (.group none, r)

def isRest (groups : Nat) (names : List String) (repeatable : Bool) :
    (fuel : Nat) → List Char → Bool
  | 0, _ => false
  | _, [] => groups = 0
  | fuel + 1, c :: r =>
      if c = '(' then
        match takeOpened r with
        | none => false
        | some (.flags, r) => isRest groups names false fuel r
        | some (.group none, r) => isRest (groups + 1) names false fuel r
        | some (.group (some name), r) =>
            !names.contains name && isRest (groups + 1) (name :: names) false fuel r
      else if c = ')' then groups ≠ 0 && isRest (groups - 1) names true fuel r
      else if c = '|' then isRest groups names false fuel r
      else if c = '?' || c = '*' || c = '+' then
        repeatable && isRest groups names true fuel (if r.head? = some '?' then r.drop 1 else r)
      else if c = '\x7b' then false
      else if c = '[' then
        match takeClass 1 (r.length + 1) (dropClassStart r) with
        | some r => isRest groups names true fuel r
        | none => false
      else if c = '\\' then
        match takeEscaped r with
        | some (_, r) => isRest groups names true fuel r
        | none => false
      else isRest groups names true fuel r

def isValid (cs : List Char) : Bool := isRest 0 [] false (cs.length + 1) cs

end RegistryKeeper.Pattern
