/-!
# The shortest text of a quotient

The quotient of two positive integers is rounded to the nearest floating-point number of 53 binary
digits, ties to even, and written with the fewest decimal digits that are rounded to the same
number. Of two candidates of that length the nearer one is taken.

All of this is exact arithmetic on natural numbers.
-/

namespace CodeAtlas.Text.Shortest

/-- A positive binary number `significand * 2 ^ exponent` of 53 digits. -/
structure Binary where
  significand : Nat
  exponent : Int
  deriving DecidableEq, Repr

/-- A quotient of natural numbers times a power of two, as a quotient. -/
def scaleTwo (num den : Nat) (exponent : Int) : Nat × Nat :=
  match exponent with
  | .ofNat e => (num * Nat.pow 2 e, den)
  | .negSucc e => (num, den * Nat.pow 2 (e + 1))

/-- A quotient of natural numbers times a power of ten, as a quotient. -/
def scaleTen (num den : Nat) (exponent : Int) : Nat × Nat :=
  match exponent with
  | .ofNat e => (num * Nat.pow 10 e, den)
  | .negSucc e => (num, den * Nat.pow 10 (e + 1))

/-- The quotient rounded to an integer, a half to the even neighbour. -/
def roundHalfEven (num den : Nat) : Nat :=
  let q := num / den
  let r := 2 * (num % den)
  if r < den then q else if den < r then q + 1 else if q % 2 = 0 then q else q + 1

/-- The binary number nearest to a quotient of positive numbers. -/
def nearest (num den : Nat) : Binary :=
  let estimate : Int := (num.log2 : Int) - (den.log2 : Int) - 52
  let (a, b) := scaleTwo num den (-estimate)
  let e := if a / b < Nat.pow 2 52 then estimate - 1 else estimate
  let (a, b) := scaleTwo num den (-e)
  let m := roundHalfEven a b
  if m = Nat.pow 2 53 then ⟨Nat.pow 2 52, e + 1⟩ else ⟨m, e⟩

/-- Whether a quotient is rounded to the binary number. -/
def roundsTo (x : Binary) (num den : Nat) : Bool :=
  let closed := x.significand % 2 = 0
  let low := if x.significand = Nat.pow 2 52 then 4 * x.significand - 1 else 4 * x.significand - 2
  let high := 4 * x.significand + 2
  let (a, b) := scaleTwo num den (2 - x.exponent)
  (low * b < a || (closed && low * b = a)) && (a < high * b || (closed && a = high * b))

/-- Looks for a decimal number of the binary one, with a multiple of `10 ^ place`, on finer and
finer grids. -/
def search (x : Binary) : Nat → Int → Nat × Int
  | 0, place => (0, place)
  | fuel + 1, place =>
    let (num, den) := scaleTwo x.significand 1 x.exponent
    let (a, b) := scaleTen num den (-place)
    let below := a / b
    let hit (d : Nat) : Bool :=
      let (p, q) := scaleTen d 1 place
      roundsTo x p q
    let nearFirst := 2 * (a % b) ≤ b
    let (first, second) := if nearFirst then (below, below + 1) else (below + 1, below)
    if hit first then (first, place)
    else if hit second then (second, place)
    else search x fuel (place - 1)

/-- The decimal digits and the power of ten that write the quotient of two positive numbers. -/
def digits (num den : Nat) : List Char × Int :=
  let x := nearest num den
  let (whole, part) := scaleTwo x.significand 1 x.exponent
  let top : Int := (Nat.toDigits 10 (whole / part)).length
  let (d, place) := search x 400 top
  (Nat.toDigits 10 d, place)

/-- The text of the quotient: with a decimal point where the point falls near the digits, with an
exponent elsewhere. A quotient of zero, or by zero, is zero. -/
def render (num den : Nat) : List Char :=
  if num = 0 ∨ den = 0 then ['0', '.', '0']
  else
    let (ds, place) := digits num den
    let point : Int := ds.length + place
    if 0 ≤ place ∧ point ≤ 16 then ds ++ List.replicate place.toNat '0' ++ ['.', '0']
    else if 0 < point ∧ point ≤ 16 then ds.take point.toNat ++ '.' :: ds.drop point.toNat
    else if -5 < point ∧ point ≤ 0 then '0' :: '.' :: (List.replicate (-point).toNat '0' ++ ds)
    else
      let mantissa :=
        match ds with
        | d :: e :: rest => d :: '.' :: e :: rest
        | ds => ds
      mantissa ++ 'e' :: (toString (point - 1)).toList

/-- A third has sixteen digits, and a whole number keeps its point. -/
example : render 1 3 = "0.3333333333333333".toList ∧ render 6 2 = "3.0".toList ∧
    render 1 100000 = "0.00001".toList ∧ render 7 10 = "0.7".toList := by decide +kernel

end CodeAtlas.Text.Shortest
