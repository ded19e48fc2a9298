import WordVectors.Decimal.Places
import WordVectors.Report.Display

/-!
# Message templates

A message may be given as a template, in which each directive, introduced by `%`, takes the next
argument and says how to show it: flags, a least width, a precision and a conversion. Two signs
`%` in a row stand for one.

## Main definitions

* `Template.Directive`: a directive as written
* `Template.readDirective`: the directive at the front of a text
* `Template.convert`: the text of an argument under a directive
* `Template.fill`: a template with its arguments filled in
-/

namespace WordVectors

/-- Why a template cannot be filled in. -/
inductive TemplateError where
  /-- A directive names its argument, but the arguments have no names. -/
  | named
  | tooFew
  | tooMany
  | incomplete
  /-- A width or precision taken from the arguments is no integer. -/
  | starKind
  | widthRange
  | precisionRange
  /-- A width in digits is out of range. -/
  | widthDigits
  /-- A precision in digits is out of range. -/
  | precisionDigits
  /-- There is no such conversion. -/
  | conversion (c : Char) (index : Nat)
  /-- An argument of that kind has no decimal integer. -/
  | decimalKind (c : Char) (kind : String)
  /-- An argument of that kind has no integer in another base. -/
  | integerKind (c : Char) (kind : String)
  /-- An argument of that kind is no number. -/
  | realKind (kind : String)
  /-- An argument is neither a character nor a code point. -/
  | characterKind
  | characterRange
  /-- What is not a number has no integer. -/
  | nanInteger
  /-- An infinity has no integer. -/
  | infiniteInteger
  /-- An integer is nearest to an infinity. -/
  | tooLarge
  /-- The precision of an integer leaves no room for its sign and mark. -/
  | precisionSize
  /-- There is no memory for a text of the least width. -/
  | memory
deriving DecidableEq, Repr

namespace TemplateError

/-- The wording of a template error. -/
def message : TemplateError → String
  | named => "format requires a mapping"
  | tooFew => "not enough arguments for format string"
  | tooMany => "not all arguments converted during string formatting"
  | incomplete => "incomplete format"
  | starKind => "* wants int"
  | widthRange => "Python int too large to convert to C ssize_t"
  | precisionRange => "Python int too large to convert to C int"
  | widthDigits => "width too big"
  | precisionDigits => "precision too big"
  | conversion c index =>
    let shown := if 31 ≤ c.toNat ∧ c.toNat < 127 then c else '?'
    let code := String.ofList (Nat.toDigits 16 c.toNat)
    s!"unsupported format character '{shown}' (0x{code}) at index {index}"
  | decimalKind c kind => s!"%{c} format: a real number is required, not {kind}"
  | integerKind c kind => s!"%{c} format: an integer is required, not {kind}"
  | realKind kind => s!"must be real number, not {kind}"
  | characterKind => "%c requires int or char"
  | characterRange => "%c arg not in range(0x110000)"
  | nanInteger => "cannot convert float NaN to integer"
  | infiniteInteger => "cannot convert float infinity to integer"
  | tooLarge => "int too large to convert to float"
  | precisionSize => "precision too large"
  | memory => ""

end TemplateError

namespace Template

open Text

/-! ## Directives -/

/-- The flags of a directive. -/
structure Flags where
  /-- Fill on the right. -/
  left : Bool
  /-- Show the sign of a positive number. -/
  plus : Bool
  /-- Leave a blank for the sign of a positive number. -/
  blank : Bool
  /-- Use the alternate form. -/
  alternate : Bool
  /-- Fill with zeros. -/
  zero : Bool

/-- A directive without flags. -/
def Flags.none : Flags := ⟨false, false, false, false, false⟩

/-- The flags at the front of a text. -/
def takeFlags (flags : Flags) : List Char → Flags × List Char
  | '-' :: cs => takeFlags { flags with left := true } cs
  | '+' :: cs => takeFlags { flags with plus := true } cs
  | ' ' :: cs => takeFlags { flags with blank := true } cs
  | '#' :: cs => takeFlags { flags with alternate := true } cs
  | '0' :: cs => takeFlags { flags with zero := true } cs
  | cs => (flags, cs)

/-- **A directive**, up to its conversion. -/
structure Directive where
  flags : Flags
  /-- The least width. -/
  width : Nat
  /-- The precision, if one is given. -/
  precision : Option Nat

/-- What is left of a template and of its arguments. -/
abbrev Rest := List Char × List Value

/-- A number below `limit` written in digits, or taken from the arguments in place of a star. -/
def takeSize (limit : Nat) (starRange digitRange : TemplateError) (cs : List Char)
    (args : List Value) : Except TemplateError (Int × Rest) :=
  match cs with
  | '*' :: cs =>
    match args with
    | [] => .error .tooFew
    | .int n :: args =>
      if n < -(limit : Int) ∨ (limit : Int) ≤ n then .error starRange else .ok (n, cs, args)
    | .bool b :: args => .ok ((b.toNat : Int), cs, args)
    | _ :: _ => .error .starKind
  | cs =>
    let n := ofDigits (cs.takeWhile isDigit)
    if limit ≤ n then .error digitRange else .ok ((n : Int), cs.dropWhile isDigit, args)

/-- A width is below this. -/
def widthLimit : Nat := 0x8000000000000000

/-- A precision is below this. -/
def precisionLimit : Nat := 0x80000000

/-- A text has fewer characters than this. -/
def textLimit : Nat := 0x200000000

/-- The width at the front of a text. -/
def takeWidth : List Char → List Value → Except TemplateError (Int × Rest) :=
  takeSize widthLimit .widthRange .widthDigits

/-- The precision at the front of a text. -/
def takePrecision : List Char → List Value → Except TemplateError (Int × Rest) :=
  takeSize precisionLimit .precisionRange .precisionDigits

/-- The least width that a number asks for. A negative one asks for its opposite, and the least of
all, which has no opposite within the limit, for nothing. -/
def leastWidth (n : Int) : Nat :=
  if n.natAbs < widthLimit then n.natAbs else 0

/-- The directive at the front of a text, and what is left. -/
def readDirective (cs : List Char) (args : List Value) :
    Except TemplateError (Directive × Rest) := do
  if cs.head? = some '(' then .error .named
  else
    let (flags, cs) := takeFlags .none cs
    let (width, cs, args) ← takeWidth cs args
    let flags := if width < 0 then { flags with left := true } else flags
    let (precision, cs, args) ← match cs with
      | '.' :: cs => do
        let (n, cs, args) ← takePrecision cs args
        .ok (some n.toNat, cs, args)
      | cs => .ok (none, cs, args)
    let cs := match cs with
      | 'h' :: cs => cs
      | 'l' :: cs => cs
      | 'L' :: cs => cs
      | cs => cs
    .ok (⟨flags, leastWidth width, precision⟩, cs, args)

/-! ## Conversions -/

/-- The digits of `n` in base eight, most significant first. -/
def octal (n : Nat) : List Char := Nat.toDigits 8 n

/-- A shown argument before it is filled to its width: a number has a sign of its own, and may
have a mark of its base that stands before the zeros it is filled with. -/
structure Shown where
  /-- The sign in front. -/
  sign : List Char
  mark : List Char
  body : List Char
  /-- Whether it may be filled with zeros. -/
  isNumber : Bool

/-- A text as an argument shown without sign. -/
def Shown.ofText (cs : List Char) : Shown := ⟨[], [], cs, false⟩

/-- The sign of a number under the flags. -/
def signOf (flags : Flags) (negative : Bool) : List Char :=
  if negative then ['-'] else if flags.plus then ['+'] else if flags.blank then [' '] else []

/-- A shown argument filled to the width of its directive. -/
def pad (d : Directive) (s : Shown) : List Char :=
  let length := s.sign.length + s.mark.length + s.body.length
  let missing := d.width - length
  if d.flags.left then s.sign ++ s.mark ++ s.body ++ List.replicate missing ' '
  else if s.isNumber && d.flags.zero then
    s.sign ++ s.mark ++ List.replicate missing '0' ++ s.body
  else List.replicate missing ' ' ++ s.sign ++ s.mark ++ s.body

/-- The integer of an argument for a decimal conversion: a decimal number loses its fraction. -/
def integerOf (c : Char) : Value → Except TemplateError Int
  | .int n => .ok n
  | .bool b => .ok b.toNat
  | .real x =>
    match x.datum with
    | .nan => .error .nanInteger
    | .infinite _ => .error .infiniteInteger
    | .finite negative units =>
      let n := units / Binary64.format.one
      .ok (if negative then -(n : Int) else n)
  | value => .error (.decimalKind c value.kindName)

/-- The integer of an argument for a conversion to another base. -/
def exactIntegerOf (c : Char) : Value → Except TemplateError Int
  | .int n => .ok n
  | .bool b => .ok b.toNat
  | value => .error (.integerKind c value.kindName)

/-- The number of an argument. -/
def realOf : Value → Except TemplateError Binary64
  | .int n => match Binary64.ofInt? n with
    | some x => .ok x
    | none => .error .tooLarge
  | .bool b => .ok (.ofRatio false b.toNat 1)
  | .real x => .ok x
  | value => .error (.realKind value.kindName)

/-- An integer with at least as many digits as the precision asks for. -/
def showInteger (d : Directive) (mark digits : List Char) (negative : Bool) :
    Except TemplateError Shown :=
  let precision := d.precision.getD 0
  if precisionLimit < precision + 4 then .error .precisionSize
  else .ok {
    sign := signOf d.flags negative
    mark := if d.flags.alternate then mark else []
    body := List.replicate (precision - digits.length) '0' ++ digits
    isNumber := true }

/-- A fraction without the zeros at its end, and without the point if nothing follows it. -/
def dropZeros (cs : List Char) : List Char :=
  if cs.contains '.' then
    let kept := (cs.reverse.dropWhile (· == '0')).reverse
    if kept.getLast? = some '.' then kept.dropLast else kept
  else cs

/-- No number has more digits after the point than this, and none has more digits in all between
the zeros in front and those at the end. -/
def maxPlaces : Nat := Binary64.format.unitShift

/-- The zeros of `places` digits after those that a number may have. -/
def furtherZeros (places : Nat) : List Char := List.replicate (places - maxPlaces) '0'

/-- A quotient with a given number of digits after the point, or with an exponent; the alternate
form keeps a point that nothing follows. -/
def fixedDigits (alternate : Bool) (places num den : Nat) : List Char :=
  Decimal.fixed (min places maxPlaces) num den ++ furtherZeros places ++
    if alternate && places = 0 then ['.'] else []

/-- A quotient with one digit before the point and `places` after it, and an exponent. -/
def exponentDigits (alternate : Bool) (places num den : Nat) : List Char × List Char :=
  let (ds, exponent) := Decimal.rounded (min places maxPlaces + 1) num den
  let point := if places = 0 then (if alternate then ['.'] else [])
    else '.' :: ds.drop 1 ++ furtherZeros places
  (ds.take 1 ++ point,
    'e' :: (if exponent < 0 then '-' else '+') :: Decimal.padded 2 exponent.natAbs)

/-- A quotient with `count` digits in all, positionally if its exponent is small. Only the
alternate form shows the zeros at its end. -/
def generalDigits (alternate : Bool) (count num den : Nat) : List Char :=
  let count := max 1 (if alternate then count else min count maxPlaces)
  let (_, exponent) := Decimal.rounded (min count maxPlaces) num den
  if -4 ≤ exponent ∧ exponent < count then
    let cs := fixedDigits alternate ((count : Int) - 1 - exponent).toNat num den
    if alternate then cs else dropZeros cs
  else
    let (mantissa, suffix) := exponentDigits alternate (count - 1) num den
    (if alternate then mantissa else dropZeros mantissa) ++ suffix

/-- The digits after the point in a number with an exponent. With the one before it the greatest
precision is past the limit, and so asks for none. -/
def exponentPlaces (precision : Nat) : Nat :=
  if precision + 1 < precisionLimit then precision else 0

/-- A number under one of the conversions `e`, `f` and `g`. -/
def showReal (d : Directive) (kind : Char) (x : Binary64) : Shown :=
  let precision := d.precision.getD 6
  let alternate := d.flags.alternate
  match x.datum with
  | .nan => ⟨signOf d.flags false, [], ['n', 'a', 'n'], true⟩
  | .infinite negative => ⟨signOf d.flags negative, [], ['i', 'n', 'f'], true⟩
  | .finite negative units =>
    let den := Binary64.format.one
    let body := match kind with
      | 'e' =>
        let (mantissa, suffix) := exponentDigits alternate (exponentPlaces precision) units den
        mantissa ++ suffix
      | 'f' => fixedDigits alternate precision units den
      | _ => generalDigits alternate precision units den
    ⟨signOf d.flags negative, [], body, true⟩

/-- A letter of ASCII in upper case. -/
def upper (c : Char) : Char :=
  if 'a' ≤ c ∧ c ≤ 'z' then Char.ofNat (c.toNat - 32) else c

/-- A shown argument in upper case. -/
def Shown.upper (s : Shown) : Shown :=
  { s with mark := s.mark.map Template.upper, body := s.body.map Template.upper }

/-- A character or the character of a code point. -/
def characterOf : Value → Except TemplateError Char
  | .text s => match s.toList with
    | [c] => .ok c
    | _ => .error .characterKind
  | .int n =>
    if n < 0 ∨ 0x110000 ≤ n then .error .characterRange
    else .ok (Char.ofNat n.toNat)
  | .bool b => .ok (Char.ofNat b.toNat)
  | _ => .error .characterKind

/-- The text cut to the precision of a directive. -/
def cutText (d : Directive) (cs : List Char) : Shown :=
  .ofText (match d.precision with
    | some n => cs.take n
    | none => cs)

/-- **The text of an argument** under the conversion `c`, which stands before `rest` in a template
of `length` characters. -/
def convert (d : Directive) (c : Char) (length : Nat) (rest : List Char) (value : Value) :
    Except TemplateError (List Char) := do
  let shown ← match c with
    | 's' => .ok (cutText d value.plain)
    | 'r' => .ok (cutText d value.display)
    | 'a' => .ok (cutText d value.displayAscii)
    | 'd' | 'i' | 'u' => do
      let n ← integerOf c value
      showInteger d [] (digits n.natAbs) (n < 0)
    | 'o' => do
      let n ← exactIntegerOf c value
      showInteger d ['0', 'o'] (octal n.natAbs) (n < 0)
    | 'x' => do
      let n ← exactIntegerOf c value
      showInteger d ['0', 'x'] (Nat.toDigits 16 n.natAbs) (n < 0)
    | 'X' => do
      let n ← exactIntegerOf c value
      let shown ← showInteger d ['0', 'x'] (Nat.toDigits 16 n.natAbs) (n < 0)
      .ok shown.upper
    | 'e' | 'f' | 'g' => do
      let x ← realOf value
      .ok (showReal d c x)
    | 'E' => do
      let x ← realOf value
      .ok (showReal d 'e' x).upper
    | 'F' => do
      let x ← realOf value
      .ok (showReal d 'f' x).upper
    | 'G' => do
      let x ← realOf value
      .ok (showReal d 'g' x).upper
    | 'c' => do
      let c ← characterOf value
      .ok (.ofText [c])
    | _ => .error (.conversion c (length - rest.length - 1))
  if textLimit ≤ d.width then .error .memory else .ok (pad d shown)

/-! ## Templates -/

/-- A template of `length` characters with its arguments filled in, from the point where `cs` and
`args` are left. Each round takes at least one character, so `fuel` above the length of `cs`
suffices. -/
def fillFrom (length : Nat) : (fuel : Nat) → List Char → List Value →
    Except TemplateError (List Char)
  | 0, _, _ => .ok []
  | _ + 1, [], args => if args.isEmpty then .ok [] else .error .tooMany
  | fuel + 1, '%' :: '%' :: cs, args => do
    let rest ← fillFrom length fuel cs args
    .ok ('%' :: rest)
  | fuel + 1, '%' :: cs, args => do
    let (d, cs, args) ← readDirective cs args
    match cs with
    | [] => .error .incomplete
    | c :: cs =>
      match args with
      | [] => .error .tooFew
      | value :: args => do
        let shown ← convert d c length cs value
        let rest ← fillFrom length fuel cs args
        .ok (shown ++ rest)
  | fuel + 1, c :: cs, args => do
    let rest ← fillFrom length fuel cs args
    .ok (c :: rest)

/-- **A template with its arguments filled in**, all of which have to be used. -/
def fill (template : String) (args : List Value) : Except TemplateError String :=
  let cs := template.toList
  (fillFrom cs.length (cs.length + 1) cs args).map String.ofList

end Template

end WordVectors
