import Stencil.Number.Decimal
import Stencil.Value.Sequence

/-!
# `Stencil/Value/Text.lean` — how a value is written

One function writes a value into the output of a template and into an error message. A list is
`[a, b]` and a map is `{'k': v}`, nested to any depth.

**A string or an empty value is written differently inside another value than on its own.** On its
own a string is its characters and the empty value is nothing at all, which is what a template
that outputs them wants; inside a list or a map the string stands between quotes and the empty
value is `none`, so that the elements can be told apart. The quotes are for reading only: nothing
between them is escaped.
-/

set_option autoImplicit false

namespace Stencil

mutual

/-- The text of a value, on its own or as part of another one. -/
def Value.write (nested : Bool) : Value → String
  | .empty => if nested then "none" else ""
  | .bool b => if b then "true" else "false"
  | .int n => toString n.toInt
  | .float x => Decimal.ofFloat x
  | .string s => if nested then "'" ++ s ++ "'" else s
  | .list elements => "[" ++ ", ".intercalate elements.texts ++ "]"
  | .map fields => "\x7b" ++ ", ".intercalate fields.texts ++ "\x7d"
termination_by structural v => v

def Sequence.texts : Sequence → List String
  | .items ⟨xs⟩ => Value.writeAll xs
  | .range r => r.toList.map fun n => toString n.toInt
termination_by structural s => s

def Value.writeAll : List Value → List String
  | [] => []
  | v :: rest => v.write true :: Value.writeAll rest
termination_by structural vs => vs

def Fields.texts : {lo : Option String} → Fields lo → List String
  | _, .nil => []
  | _, .cons key _ value rest => ("'" ++ key ++ "': " ++ value.write true) :: rest.texts
termination_by structural _ fields => fields

end

def Value.text (v : Value) : String := v.write false

end Stencil
