/-
  This file defines the numbers of scripts: binary
  floating-point numbers of 64 bits, given by their bits,
  and rounding to them.

  Key definitions include:
    * `Binary64`
    * `Binary64.roundDiv`
    * `Binary64.ofRatio`
    * `Binary64.ofDecimal`
    * `Binary64.ofDigits`
-/

namespace ComponentLoader

------------------------------------------------------------
-- Bits
------------------------------------------------------------

/- A number by its sign, exponent and fraction bits. -/
structure Binary64 where
  bits : UInt64
  deriving DecidableEq, Inhabited

namespace Binary64

/- Positive infinity. -/
def infinity : Binary64 :=
  { bits := 0x7ff0000000000000 }

/- The least exponent of the last place. -/
def leastExponent : Int :=
  -1074

/- The greatest exponent of the last place. -/
def greatestExponent : Int :=
  971

/- The least significand of 53 bits. -/
def leastNormal : Nat :=
  0x10000000000000

------------------------------------------------------------
-- Rounding
------------------------------------------------------------

/- The quotient rounded to nearest, a half to even. -/
def roundDiv
    (num den : Nat) : Nat :=
  let q := num / den
  let twice := 2 * (num % den)
  if twice < den then q
  else if twice = den then q + q % 2
  else q + 1

/- A quotient by a power of two, rounded. -/
def roundScaled
    (num den : Nat)
    (exponent : Int) : Nat :=
  if 0 ≤ exponent then
    roundDiv num (den * Nat.pow 2 exponent.toNat)
  else
    roundDiv (num * Nat.pow 2 (-exponent).toNat) den

/- The greatest power of two not above a quotient. -/
def floorLog2
    (num den : Nat) : Int :=
  let guess : Int := num.log2 - den.log2
  let fits :=
    if 0 ≤ guess then
      decide (den * Nat.pow 2 guess.toNat ≤ num)
    else
      decide (den ≤ num * Nat.pow 2 (-guess).toNat)
  if fits then guess else guess - 1

/- The number of a significand and an exponent. -/
def pack
    (significand : Nat)
    (exponent : Int) : Binary64 :=
  if greatestExponent < exponent then
    infinity
  else if significand < leastNormal then
    { bits := UInt64.ofNat significand }
  else
    { bits := UInt64.ofNat
        ((exponent - leastExponent + 1).toNat * leastNormal +
          (significand - leastNormal)) }

/- The number nearest to a quotient, a half to even. -/
def ofRatio
    (num den : Nat) : Binary64 :=
  if num = 0 then
    { bits := 0 }
  else
    let exponent :=
      max (floorLog2 num den - 52) leastExponent
    let significand := roundScaled num den exponent
    if significand = 2 * leastNormal then
      pack leastNormal (exponent + 1)
    else
      pack significand exponent

------------------------------------------------------------
-- Written Numbers
------------------------------------------------------------

/-
  The number nearest to a decimal.  Decimals far beyond
  the greatest or far below the least number are settled
  without computing their power of ten.
-/
def ofDecimal
    (digits : Nat)
    (exponent : Int) : Binary64 :=
  let size : Int := (Nat.toDigits 10 digits).length
  if digits = 0 then { bits := 0 }
  else if 400 < exponent + size then infinity
  else if exponent + size < -400 then { bits := 0 }
  else if 0 ≤ exponent then
    ofRatio (digits * Nat.pow 10 exponent.toNat) 1
  else
    ofRatio digits (Nat.pow 10 (-exponent).toNat)

/- A whole number rounded to 53 significant bits. -/
def roundWhole
    (n : Nat) : Nat :=
  if n < 2 * leastNormal then
    n
  else
    let shift := n.log2 - 52
    roundDiv n (Nat.pow 2 shift) * Nat.pow 2 shift

/-
  The number of digits in a base other than ten, rounded
  after every digit.
-/
def ofDigits
    (base : Nat)
    (digits : List Nat) : Binary64 :=
  ofRatio
    (digits.foldl
      (fun n d => roundWhole (n * base + d)) 0) 1

end Binary64
end ComponentLoader
