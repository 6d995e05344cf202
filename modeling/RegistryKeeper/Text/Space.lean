namespace RegistryKeeper.Text

def isSpace (c : Char) : Bool :=
  let n := c.toNat
  (9 ≤ n && n ≤ 13) || n = 32 || n = 0x85 || n = 0xa0 || n = 0x1680
    || (0x2000 ≤ n && n ≤ 0x200a) || n = 0x2028 || n = 0x2029 || n = 0x202f || n = 0x205f
    || n = 0x3000

def dropSpace (cs : List Char) : List Char := cs.dropWhile isSpace

def trimmed (cs : List Char) : List Char := (dropSpace (dropSpace cs).reverse).reverse

end RegistryKeeper.Text
