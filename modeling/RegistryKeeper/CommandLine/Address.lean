import RegistryKeeper.Text.Quoted

namespace RegistryKeeper

inductive IpAddress where
  | v4 (a b c d : UInt8)
  | v6 (groups : List UInt16)
  deriving DecidableEq, Repr, Inhabited

structure SocketAddress where
  ip : IpAddress
  port : UInt16
  scope : UInt32
  deriving DecidableEq, Repr, Inhabited

namespace IpAddress

def digitOf? (radix : Nat) (c : Char) : Option Nat :=
  let n :=
    if c.isDigit then some (c.toNat - 48)
    else if 'a' ≤ c ∧ c ≤ 'f' then some (c.toNat - 87)
    else if 'A' ≤ c ∧ c ≤ 'F' then some (c.toNat - 55)
    else none
  n.filter (· < radix)

def takeNumber (radix : Nat) (most : Option Nat) (leadingZeros : Bool) (limit : Nat)
    (cs : List Char) : Option (Nat × List Char) :=
  let isDigit (c : Char) : Bool := (digitOf? radix c).isSome
  let ds := cs.takeWhile isDigit
  let n := (ds.filterMap (digitOf? radix)).foldl (fun n d => radix * n + d) 0
  if ds.isEmpty || most.any (· < ds.length) then none
  else if !leadingZeros && ds.head? = some '0' && 1 < ds.length then none
  else if n < limit then some (n, cs.dropWhile isDigit)
  else none

def takeChar (c : Char) : List Char → Option (List Char)
  | [] => none
  | d :: r => if d = c then some r else none

def takeOctet (cs : List Char) : Option (UInt8 × List Char) := do
  let (n, r) ← takeNumber 10 (some 3) false 256 cs
  return (n.toUInt8, r)

def takeV4 (cs : List Char) : Option (UInt8 × UInt8 × UInt8 × UInt8 × List Char) := do
  let (a, r) ← takeOctet cs
  let (b, r) ← takeOctet (← takeChar '.' r)
  let (c, r) ← takeOctet (← takeChar '.' r)
  let (d, r) ← takeOctet (← takeChar '.' r)
  return (a, b, c, d, r)

def group (a b : UInt8) : UInt16 := a.toUInt16 * 256 + b.toUInt16

def takeSeparator (first : Bool) (cs : List Char) : Option (List Char) :=
  if first then some cs else takeChar ':' cs

def takeGroups : Nat → Bool → List Char → List UInt16 × Bool × List Char
  | 0, _, cs => ([], false, cs)
  | left + 1, first, cs =>
      match if 1 ≤ left then (takeSeparator first cs).bind takeV4 else none with
      | some (a, b, c, d, r) => ([group a b, group c d], true, r)
      | none =>
          match (takeSeparator first cs).bind (takeNumber 16 (some 4) true 65536) with
          | none => ([], false, cs)
          | some (g, r) =>
              let (gs, embedded, r) := takeGroups left false r
              (g.toUInt16 :: gs, embedded, r)

def takeV6 (cs : List Char) : Option (List UInt16 × List Char) :=
  let (head, embedded, r) := takeGroups 8 true cs
  if head.length = 8 then some (head, r)
  else if embedded then none
  else do
    let r ← takeChar ':' r
    let r ← takeChar ':' r
    let (tail, _, r) := takeGroups (7 - head.length) true r
    return (head ++ List.replicate (8 - head.length - tail.length) 0 ++ tail, r)

def dotted (l : List UInt8) : String := ".".intercalate (l.map fun n => toString n.toNat)

def hexText (n : UInt16) : String := String.ofList (Nat.toDigits 16 n.toNat)

def groupsText (l : List UInt16) : String := ":".intercalate (l.map hexText)

def zerosFrom (l : List UInt16) (start : Nat) : Nat :=
  ((l.drop start).takeWhile (· = 0)).length

def longestZeros (l : List UInt16) : Nat × Nat :=
  (List.range l.length).foldl (fun best start =>
    if best.2 < zerosFrom l start then (start, zerosFrom l start) else best) (0, 0)

def text : IpAddress → String
  | .v4 a b c d => dotted [a, b, c, d]
  | .v6 [0, 0, 0, 0, 0, 65535, g, h] =>
      "::ffff:" ++ dotted [(g / 256).toUInt8, g.toUInt8, (h / 256).toUInt8, h.toUInt8]
  | .v6 l =>
      let (start, length) := longestZeros l
      if 1 < length then
        groupsText (l.take start) ++ "::" ++ groupsText (l.drop (start + length))
      else groupsText l

end IpAddress

namespace SocketAddress
open IpAddress

def takePort (cs : List Char) : Option UInt16 := do
  let (n, r) ← takeNumber 10 none true 65536 (← takeChar ':' cs)
  if r.isEmpty then return n.toUInt16 else none

def takeScope (cs : List Char) : Option (UInt32 × List Char) := do
  let (n, r) ← takeNumber 10 none true (Nat.pow 2 32) (← takeChar '%' cs)
  return (n.toUInt32, r)

def ofV4? (cs : List Char) : Option SocketAddress := do
  let (a, b, c, d, r) ← takeV4 cs
  return ⟨.v4 a b c d, ← takePort r, 0⟩

def ofV6? (cs : List Char) : Option SocketAddress := do
  let (groups, r) ← takeV6 (← takeChar '[' cs)
  let (scope, r) := (takeScope r).getD (0, r)
  return ⟨.v6 groups, ← takePort (← takeChar ']' r), scope⟩

def ofText? (s : String) : Option SocketAddress := (ofV4? s.toList).or (ofV6? s.toList)

def text (a : SocketAddress) : String :=
  let port := ":" ++ toString a.port.toNat
  match a.ip with
  | .v4 .. => a.ip.text ++ port
  | .v6 _ =>
      let scope := if a.scope = 0 then "" else "%" ++ toString a.scope.toNat
      "[" ++ a.ip.text ++ scope ++ "]" ++ port

end SocketAddress

end RegistryKeeper
