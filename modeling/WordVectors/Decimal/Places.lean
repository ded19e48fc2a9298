import WordVectors.Decimal.Notation

/-!
# A given number of places

Scores, previews and formatted messages show a number with a given number of digits, rounded from
its exact value, a tie going to the even neighbour.

## Main definitions

* `Decimal.fixed`: a quotient with a given number of places after the point
* `Decimal.rounded`: a quotient with a given number of digits in all
* `Binary64.fixedText`: a number with a given number of places
-/

namespace WordVectors

namespace Decimal

/-- The quotient `num / den` with `places` digits after the point, and no point if there are
none. -/
def fixed (places num den : Nat) : List Char :=
  let ds := padded (places + 1) (roundHalfEven (num * power places) den)
  let whole := ds.length - places
  ds.take whole ++ (if places = 0 then [] else '.' :: ds.drop whole)

/-- The quotient `num / den` rounded to `count` digits: the digits and the exponent of the
first. -/
def rounded (count num den : Nat) : List Char × Int :=
  if num = 0 then (List.replicate count '0', 0)
  else
    let k := leadExponent num den
    let (n, d) := scaled num den (k - count + 1)
    let ds := Text.digits (roundHalfEven n d)
    (ds.take count, k + (ds.length - count : Nat))

end Decimal

/-- A number with `places` digits after the point. -/
def Binary64.fixedText (places : Nat) (x : Binary64) : List Char :=
  match x.datum with
  | .nan => ['n', 'a', 'n']
  | .infinite negative => (if negative then ['-'] else []) ++ ['i', 'n', 'f']
  | .finite negative units =>
    (if negative then ['-'] else []) ++ Decimal.fixed places units format.one

end WordVectors
