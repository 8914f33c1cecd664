import LogRelay.Text.Basic

/-!
# Base64

Octets written as letters, six bits each.  Code points outside the alphabet do not matter, and
padding ends the data where it completes a group of four.
-/

namespace LogRelay.Base64

/-- The six bits a code point stands for. -/
def sextet? (c : CodePoint) : Option Nat :=
  let n := c.val
  if 65 ≤ n ∧ n ≤ 90 then some (n - 65)
  else if 97 ≤ n ∧ n ≤ 122 then some (n - 71)
  else if 48 ≤ n ∧ n ≤ 57 then some (n + 4)
  else if n = 43 then some 62
  else if n = 47 then some 63
  else none

/-- Reads on: `place` counts the letters of the group so far, `bits` are those left of them,
`padding` counts the pads since the last letter, and `octets` holds what has been read in
reverse. -/
def decodeFrom (place bits padding : Nat) (octets : Bytes) : Text → Option Bytes
  | [] => if place = 0 then some octets.reverse else none
  | c :: rest =>
    if c = '=' then
      if 2 ≤ place ∧ 4 ≤ place + padding + 1 then some octets.reverse
      else decodeFrom place bits (if 2 ≤ place then padding + 1 else padding) octets rest
    else
      match sextet? c with
      | none => decodeFrom place bits padding octets rest
      | some s =>
        match place with
        | 0 => decodeFrom 1 s 0 octets rest
        | 1 => decodeFrom 2 (s % 16) 0 ((4 * bits + s / 16).toUInt8 :: octets) rest
        | 2 => decodeFrom 3 (s % 4) 0 ((16 * bits + s / 4).toUInt8 :: octets) rest
        | _ => decodeFrom 0 0 0 ((64 * bits + s).toUInt8 :: octets) rest

/-- The octets a text stands for. -/
def decode (t : Text) : Option Bytes := decodeFrom 0 0 0 [] t

end LogRelay.Base64
