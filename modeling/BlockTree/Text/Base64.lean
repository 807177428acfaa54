/-! Bytes written to the base 64: four characters for three bytes, filled up with equals signs. -/
namespace BlockTree.Text.Base64

def alphabet : List Char :=
  "ABCDEFGHIJKLMNOPQRSTUVWXYZabcdefghijklmnopqrstuvwxyz0123456789+/".toList

def sextet? (c : Char) : Option Nat := alphabet.idxOf? c

/-- Decodes from a position in a group of four, with the bits `left` over from the character before
and `fill` signs of filling behind it. Characters without a value are passed over, and a filled
group is the last one; a group must not be left open. -/
def decodeFrom (position left fill : Nat) : List Char → Option (List UInt8)
  | [] => if position = 0 then some [] else none
  | c :: cs =>
    if c = '=' then
      if position < 2 then decodeFrom position left fill cs
      else if 4 ≤ position + fill + 1 then some []
      else decodeFrom position left (fill + 1) cs
    else match sextet? c with
      | none => decodeFrom position left fill cs
      | some n =>
        if position = 0 then decodeFrom 1 n 0 cs
        else
          let unit := Nat.pow 4 (3 - position)
          (decodeFrom ((position + 1) % 4) (n % unit) 0 cs).map
            ((left * (64 / unit) + n / unit).toUInt8 :: ·)

def decode? (cs : List Char) : Option (List UInt8) := decodeFrom 0 0 0 cs

def char (n : Nat) : Char := alphabet.getD n '='

def group (n count : Nat) : List Char :=
  [char (n / Nat.pow 64 3), char (n / Nat.pow 64 2 % 64),
    if count < 2 then '=' else char (n / 64 % 64), if count < 3 then '=' else char (n % 64)]

def encode : List UInt8 → List Char
  | a :: b :: c :: bs => group ((a.toNat * 256 + b.toNat) * 256 + c.toNat) 3 ++ encode bs
  | [a, b] => group ((a.toNat * 256 + b.toNat) * 256) 2
  | [a] => group (a.toNat * 65536) 1
  | [] => []

def encodeLines (fuel : Nat) (bs : List UInt8) : List Char :=
  match fuel, bs with
  | fuel + 1, b :: bs => encode ((b :: bs).take 57) ++ '\n' :: encodeLines fuel ((b :: bs).drop 57)
  | _, _ => []

end BlockTree.Text.Base64
