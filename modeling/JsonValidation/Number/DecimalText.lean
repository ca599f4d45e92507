import JsonValidation.Number.Shortest

/-!
# Decimal texts of doubles

A double is written with its shortest digits. The place of its leading digit decides between the two
layouts: near the point it is written out in full and always with a fraction, far from it with an
exponent, which always carries its sign.

* `DecimalLayout.write`: digits in the layout that their place asks for;
* `Binary64.text`: the decimal text of a double.
-/

namespace JsonValidation

/-- Which decimals are written out in full: those whose leading digit stands for a power of ten
between `10 ^ least` and `10 ^ greatest`. -/
structure DecimalLayout where
  least : Int
  greatest : Int

namespace DecimalLayout

/-- The layout of JSON text. -/
def json : DecimalLayout := ⟨-5, 15⟩

/-- Writes digits out in full, the first of which stands for `10 ^ exponent`. -/
def full (digits : List Char) (exponent : Int) : List Char :=
  if exponent < 0 then
    '0' :: '.' :: (List.replicate ((-exponent).toNat - 1) '0' ++ digits)
  else
    let whole := exponent.toNat + 1
    let fraction := digits.drop whole
    (digits.take whole).rightpad whole '0' ++ '.' :: (if fraction.isEmpty then ['0'] else fraction)

/-- Writes digits with one of them before the point, and an exponent. -/
def scientific (digits : List Char) (exponent : Int) : List Char :=
  let fraction := digits.drop 1
  digits.take 1 ++ (if fraction.isEmpty then [] else '.' :: fraction) ++
    'e' :: (if exponent < 0 then '-' else '+') :: Nat.toDigits 10 exponent.natAbs

/-- Writes digits, the first of which stands for `10 ^ exponent`. -/
def write (layout : DecimalLayout) (digits : List Char) (exponent : Int) : List Char :=
  if layout.least ≤ exponent && exponent ≤ layout.greatest then full digits exponent
  else scientific digits exponent

end DecimalLayout

namespace Binary64

/-- Digits without the zeros at their end. -/
def dropTrailingZeros (digits : List Char) : List Char :=
  (digits.reverse.dropWhile (· == '0')).reverse

/-- The decimal text of the magnitude at a rank. -/
def magnitudeText (rank : Nat) : List Char :=
  if rank = 0 then ['0', '.', '0']
  else
    let decimal := shortest rank
    let digits := Nat.toDigits 10 decimal.digits
    DecimalLayout.json.write (dropTrailingZeros digits) (decimal.exponent + digits.length - 1)

/-- The decimal text of a double. -/
def text (x : Binary64) : String :=
  String.ofList (if x.negative then '-' :: magnitudeText x.rank else magnitudeText x.rank)

end Binary64

end JsonValidation
