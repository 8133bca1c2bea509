import Stencil.Number.Binary64
import Stencil.Value.Sequence

/-!
# `Stencil/Value/Order.lean` — two numbers, and which comes first

Integers and floats are one kind of value to a template, "numbers", and two types underneath.
`Numbers.of?` is the place where the two types meet: **two integers stay integers, and as soon as
one of the two is a float the other becomes one.** Arithmetic and ordering both go through it, so
they cannot disagree about which values are numbers or about what they are converted to.

The ordering is partial: numbers compare with numbers, unless one is NaN, and strings with strings,
by code point. Nothing else compares.
-/

set_option autoImplicit false

namespace Stencil

inductive Numbers where
  | ints (l r : Int64)
  | floats (l r : Float)

/-- The two values as numbers of one type, if numbers they are. -/
def Numbers.of? : Value → Value → Option Numbers
  | .int l, .int r => some (.ints l r)
  | .float l, .float r => some (.floats l r)
  | .int l, .float r => some (.floats (Binary64.ofInt64 l) r)
  | .float l, .int r => some (.floats l (Binary64.ofInt64 r))
  | _, _ => none

/-- The ordering of two numbers; NaN has no place in it. -/
def Numbers.compare? : Numbers → Option Ordering
  | .ints l r => some (compare l.toInt r.toInt)
  | .floats l r => Binary64.compare? l r

def Value.compare? (l r : Value) : Option Ordering :=
  match l, r with
  | .string s, .string t => some (compare s t)
  | _, _ => (Numbers.of? l r).bind Numbers.compare?

end Stencil
