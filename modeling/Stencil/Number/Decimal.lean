/-!
# `Stencil/Number/Decimal.lean` — the text of a float

A float is written with the **fewest decimal digits that read back to it**, positionally at every
size: no exponent, no point when there is no fraction, and a sign kept on zero. Of the decimals
of that length which read back, the one nearest to the float is taken, and an exact tie goes to
the larger one.

A finite float stands for an interval of reals, the ones that round to it. `Span` holds that
interval with the float itself in the middle, all three as naturals over one denominator, so that
every question below is a comparison of naturals and nothing is rounded twice. The interval is
lopsided at a power of two, where the float below is half as far away as the float above, and its
ends belong to it exactly when the significand is even.

The search tries the grids of one digit, of two, and so on up to seventeen. **On each grid only
the two neighbours of the float need testing**: if any grid point lies in the interval, one of
those two does, because the interval contains the float. Seventeen digits always suffice for this
format; should a search ever come back empty-handed, the exact decimal value is written, which is
longer but never wrong.
-/

set_option autoImplicit false

namespace Stencil

/-- The decimal `digits * 10 ^ exponent`. -/
structure Decimal where
  digits : Nat
  exponent : Int
deriving DecidableEq, Repr

namespace Decimal

/-! ## The interval of a float -/

/-- A positive float as `value / unit`, with the interval of reals that round to it. -/
structure Span where
  value : Nat
  lower : Nat
  upper : Nat
  unit : Nat
  /-- Whether the two ends round to the float as well. -/
  closed : Bool
deriving DecidableEq, Repr

/-- The interval of the float `m * 2 ^ e`. Everything is counted in quarters of `2 ^ e`: the upper
end lies two quarters up, the lower end two quarters down, or one when `m` is the least significand
of its exponent and the spacing below is halved. -/
def Span.ofFloat (m : Nat) (e : Int) : Span :=
  let scale := Nat.pow 2 e.toNat
  let below := if m = Nat.pow 2 52 ∧ -1074 < e then 1 else 2
  { value := 4 * m * scale
    lower := (4 * m - below) * scale
    upper := (4 * m + 2) * scale
    unit := 4 * Nat.pow 2 (-e).toNat
    closed := m % 2 = 0 }

/-- Whether `d` lies in the interval, by cross-multiplication. -/
def Span.contains (s : Span) (d : Decimal) : Bool :=
  let here := d.digits * Nat.pow 10 d.exponent.toNat * s.unit
  let low := s.lower * Nat.pow 10 (-d.exponent).toNat
  let high := s.upper * Nat.pow 10 (-d.exponent).toNat
  if s.closed then low ≤ here ∧ here ≤ high else low < here ∧ here < high

/-! ## The shortest decimal in it -/

def digitCount (n : Nat) : Nat := (Nat.toDigits 10 n).length

/-- The least `k` with `value / unit < 10 ^ k`. -/
def Span.magnitude (s : Span) : Int :=
  if s.unit ≤ s.value then digitCount (s.value / s.unit)
  else 1 - (digitCount ((s.unit - 1) / s.value) : Int)

/-- The point of the grid `10 ^ g` that is nearest to the float among those in its interval; halfway
between two of them, the upper one. -/
def Span.onGrid? (s : Span) (g : Int) : Option Decimal :=
  let num := s.value * Nat.pow 10 (-g).toNat
  let den := s.unit * Nat.pow 10 g.toNat
  let floor := num / den
  let down : Decimal := ⟨floor, g⟩
  let up : Decimal := ⟨floor + 1, g⟩
  match s.contains down, s.contains up with
  | true, true => some (if 2 * num < (2 * floor + 1) * den then down else up)
  | true, false => some down
  | false, true => some up
  | false, false => none

/-- The shortest decimal that rounds to the float `m * 2 ^ e`. -/
def shortest (m : Nat) (e : Int) : Decimal :=
  let s := Span.ofFloat m e
  let found := (List.range 17).findSome? fun n => s.onGrid? (s.magnitude - (n + 1 : Nat))
  found.getD ⟨m * Nat.pow 2 e.toNat * Nat.pow 5 (-e).toNat, min e 0⟩

/-! ## Its layout -/

/-- The digits of the fraction `n / 10 ^ places`, without zeros at the end. -/
def fractionDigits (n places : Nat) : List Char :=
  let digits := Nat.toDigits 10 n
  (List.replicate (places - digits.length) '0' ++ digits).reverse.dropWhile (· == '0') |>.reverse

def layout (d : Decimal) : String :=
  let scaled := d.digits * Nat.pow 10 d.exponent.toNat
  let places := (-d.exponent).toNat
  let whole := toString (scaled / Nat.pow 10 places)
  match fractionDigits (scaled % Nat.pow 10 places) places with
  | [] => whole
  | digits => whole ++ "." ++ String.ofList digits

def signed (sign : Float.Model.UnpackedFloat.Sign) (text : String) : String :=
  match sign with
  | .positive => text
  | .negative => "-" ++ text

def ofFloat (x : Float) : String :=
  match x.toModel.unpack with
  | .notANumber => "NaN"
  | .infinity sign => signed sign "inf"
  | .zero sign => signed sign "0"
  | .finite sign m e _ => signed sign (shortest m e).layout

end Decimal

end Stencil
