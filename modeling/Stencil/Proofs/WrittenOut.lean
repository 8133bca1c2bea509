import Stencil.Expr.Basic

/-!
# `Stencil/Proofs/WrittenOut.lean` — values with their ranges written out

A list value may be kept as a range, and whether it is should be nobody's business. The form in
which it cannot be is the one where every range, at any depth of lists and maps, has been *written
out* as the list of its elements. Then two values that differ in nothing else are two values with
one written out form, and that nothing tells them apart is shown in halves:

> **every question has the same answer for a value and for the value written out**, or, where the
> answer is a value again, the answer written out.

The questions are those of `Stencil/Value/` and of `Stencil/Expr/`, down to the evaluation of an
expression under a lookup of names and to the operands of its errors.

Equality is the one that looks at how its operands are kept. That it compares them as lists all the
same is `Sequence.equals_eq`.
-/

set_option autoImplicit false

namespace Stencil

/-! ## Values -/

mutual

/-- The value with the elements of every range in it listed. -/
def Value.writtenOut : Value → Value
  | .list elements => .list elements.writtenOut
  | .map fields => .map fields.writtenOut
  | v => v
termination_by structural v => v

def Sequence.writtenOut : Sequence → Sequence
  | .items ⟨xs⟩ => .ofList (Value.writeOutAll xs)
  | .range r => .ofList (r.toList.map .int)
termination_by structural s => s

def Value.writeOutAll : List Value → List Value
  | [] => []
  | v :: rest => v.writtenOut :: Value.writeOutAll rest
termination_by structural vs => vs

def Fields.writtenOut : {lo : Option String} → Fields lo → Fields lo
  | _, .nil => .nil
  | _, .cons key above value rest => .cons key above value.writtenOut rest.writtenOut
termination_by structural _ fields => fields

end

example : (Value.ofList [.list (.range ⟨5, 0, -2⟩), .empty]).writtenOut =
    .ofList [.ofList [.int 5, .int 3, .int 1], .empty] := rfl

theorem Value.writeOutAll_eq (vs : List Value) :
    Value.writeOutAll vs = vs.map Value.writtenOut := by
  induction vs with
  | nil => rfl
  | cons v rest ih => rw [Value.writeOutAll, ih, List.map_cons]

/-! ## Lists -/

namespace Sequence

/-- Integers are not lists, so nothing in them is written out. -/
theorem toList_writtenOut : ∀ s : Sequence, s.writtenOut.toList = s.toList.map Value.writtenOut
  | .items ⟨xs⟩ => Value.writeOutAll_eq xs
  | .range r => by
    simp only [writtenOut, toList, List.map_map]
    rfl

theorem writtenOut_eq (s : Sequence) : s.writtenOut = .ofList (s.toList.map Value.writtenOut) := by
  rw [← toList_writtenOut]
  cases s <;> rfl

theorem size_writtenOut (s : Sequence) : s.writtenOut.size = s.size := by
  rw [← length_toList, toList_writtenOut, List.length_map, length_toList]

theorem get?_writtenOut (s : Sequence) (i : Nat) :
    s.writtenOut.get? i = (s.get? i).map Value.writtenOut := by
  rw [← getElem?_toList, toList_writtenOut, List.getElem?_map, getElem?_toList]

theorem append_writtenOut (s t : Sequence) :
    s.writtenOut.append t.writtenOut = (s.append t).writtenOut := by
  rw [writtenOut_eq (s.append t), append, toList_writtenOut, toList_writtenOut, ← List.map_append]
  rfl

end Sequence

/-! ## Maps -/

namespace Fields

theorem toList_writtenOut : ∀ {lo : Option String} (fields : Fields lo),
    fields.writtenOut.toList = fields.toList.map (Prod.map id Value.writtenOut)
  | _, .nil => rfl
  | _, .cons key above value rest => by
    simp only [writtenOut, toList, toList_writtenOut rest, List.map_cons]
    rfl

theorem get?_writtenOut {lo : Option String} (fields : Fields lo) (key : String) :
    fields.writtenOut.get? key = (fields.get? key).map Value.writtenOut := by
  rw [get?, toList_writtenOut]
  exact lookup_map_values Value.writtenOut fields.toList key

theorem size_writtenOut {lo : Option String} (fields : Fields lo) :
    fields.writtenOut.size = fields.size := by
  rw [size, toList_writtenOut, List.length_map, size]

theorem keys_writtenOut {lo : Option String} (fields : Fields lo) :
    fields.writtenOut.keys = fields.keys := by
  rw [keys, toList_writtenOut, List.map_map]
  rfl

theorem insert_writtenOut (key : String) (value : Value) :
    ∀ {lo : Option String} (above : ∀ l ∈ lo, l < key) (fields : Fields lo),
      insert key value.writtenOut above fields.writtenOut = (insert key value above fields).writtenOut
  | _, _, .nil => rfl
  | _, above, .cons key' above' value' rest => by
    by_cases before : key < key'
    · simp only [writtenOut, insert, dif_pos before]
    · by_cases after : key' < key
      · simp only [writtenOut, insert, dif_neg before, dif_pos after, insert_writtenOut]
      · simp only [writtenOut, insert, dif_neg before, dif_neg after]

theorem ofList_writtenOut (entries : List (String × Value)) :
    ofList (entries.map (Prod.map id Value.writtenOut)) = (ofList entries).writtenOut := by
  have inserted (fields : Fields none) :
      (entries.map (Prod.map id Value.writtenOut)).foldl
          (fun fields entry => insert entry.1 entry.2 (by simp) fields) fields.writtenOut =
        (entries.foldl (fun fields entry => insert entry.1 entry.2 (by simp) fields)
          fields).writtenOut := by
    induction entries generalizing fields with
    | nil => rfl
    | cons entry rest ih =>
      simp only [List.map_cons, List.foldl_cons, Prod.map]
      rw [id, insert_writtenOut]
      exact ih _
  exact inserted .nil

end Fields

/-! ## What a template can ask of a value -/

mutual

theorem Value.write_writtenOut (nested : Bool) :
    ∀ v : Value, v.writtenOut.write nested = v.write nested
  | .list elements => by
    rw [Value.writtenOut, Value.write, Value.write, Sequence.texts_writtenOut elements]
  | .map fields => by
    rw [Value.writtenOut, Value.write, Value.write, Fields.texts_writtenOut fields]
  | .empty | .bool _ | .int _ | .float _ | .string _ => rfl
termination_by structural v => v

theorem Sequence.texts_writtenOut : ∀ s : Sequence, s.writtenOut.texts = s.texts
  | .items ⟨xs⟩ => Value.writeAll_writtenOut xs
  | .range r => by
    have listed (ns : List Int64) :
        Value.writeAll (ns.map .int) = ns.map fun n => toString n.toInt := by
      induction ns with
      | nil => rfl
      | cons n ns ih =>
        rw [List.map_cons, List.map_cons, Value.writeAll, ih]
        rfl
    exact listed r.toList
termination_by structural s => s

theorem Value.writeAll_writtenOut :
    ∀ vs : List Value, Value.writeAll (Value.writeOutAll vs) = Value.writeAll vs
  | [] => rfl
  | v :: rest => by
    rw [Value.writeOutAll, Value.writeAll, Value.writeAll, Value.write_writtenOut true v,
      Value.writeAll_writtenOut rest]
termination_by structural vs => vs

theorem Fields.texts_writtenOut :
    ∀ {lo : Option String} (fields : Fields lo), fields.writtenOut.texts = fields.texts
  | _, .nil => rfl
  | _, .cons key above value rest => by
    rw [Fields.writtenOut, Fields.texts, Fields.texts, Value.write_writtenOut true value,
      Fields.texts_writtenOut rest]
termination_by structural _ fields => fields

end

namespace Value

theorem text_writtenOut (v : Value) : v.writtenOut.text = v.text := write_writtenOut false v

theorem isTruthy_writtenOut (v : Value) : v.writtenOut.isTruthy = v.isTruthy := by
  cases v with
  | list elements => simp only [writtenOut, isTruthy, Sequence.size_writtenOut]
  | map fields => simp only [writtenOut, isTruthy, Fields.size_writtenOut]
  | _ => rfl

theorem field_writtenOut (v : Value) (name : String) :
    v.writtenOut.field name = (v.field name).writtenOut := by
  cases v with
  | map fields =>
    simp only [writtenOut, field, Fields.get?_writtenOut]
    cases fields.get? name <;> rfl
  | _ => rfl

theorem hasField_writtenOut (v : Value) (name : String) :
    v.writtenOut.hasField name = v.hasField name := by
  cases v with
  | map fields => simp only [writtenOut, hasField, Fields.get?_writtenOut, Option.isSome_map]
  | _ => rfl

/-- Strings are not lists either, and so what a map or a string is iterated over stays as it is. -/
theorem toSequence?_writtenOut (v : Value) :
    v.writtenOut.toSequence? = v.toSequence?.map Sequence.writtenOut := by
  have strings {α : Type} (f : α → String) (xs : List α) :
      (Sequence.ofList (xs.map fun x => .string (f x))).writtenOut =
        .ofList (xs.map fun x => .string (f x)) := by
    rw [Sequence.writtenOut_eq]
    simp only [Sequence.ofList, Sequence.toList, List.map_map]
    rfl
  cases v with
  | map fields =>
    simp only [writtenOut, toSequence?, Fields.keys_writtenOut, Option.map_some]
    exact congrArg some (strings id fields.keys).symm
  | string s =>
    simp only [writtenOut, toSequence?, Option.map_some]
    exact congrArg some (strings String.singleton s.toList).symm
  | _ => rfl

end Value

/-! ## Equality -/

theorem Value.int_equals_writtenOut (n : Int64) (v : Value) :
    (Value.int n).equals v.writtenOut = (Value.int n).equals v := by
  cases v <;> rfl

theorem Value.allEqual_ints_writtenOut (ns : List Int64) (vs : List Value) :
    Value.allEqual (ns.map .int) (vs.map Value.writtenOut) = Value.allEqual (ns.map .int) vs := by
  induction ns generalizing vs with
  | nil => cases vs <;> rfl
  | cons n ns ih =>
    cases vs with
    | nil => rfl
    | cons v vs =>
      simp only [List.map_cons, Value.allEqual, Value.int_equals_writtenOut, ih]

mutual

theorem Value.equals_writtenOut : ∀ v w : Value, v.writtenOut.equals w.writtenOut = v.equals w
  | .list s, w => by
    cases w with
    | list t => exact Sequence.equals_writtenOut s t
    | _ => rfl
  | .map fields, w => by
    cases w with
    | map fields' => exact Fields.equals_writtenOut fields fields'
    | _ => rfl
  | .empty, w | .bool _, w | .int _, w | .float _, w | .string _, w => by
    cases w <;> rfl
termination_by structural v => v

theorem Sequence.equals_writtenOut :
    ∀ s t : Sequence, s.writtenOut.equals t.writtenOut = s.equals t
  | .items ⟨xs⟩, t => by
    rw [Sequence.equals_eq, Sequence.equals_eq, Sequence.toList_writtenOut t]
    exact Value.allEqual_writtenOut xs t.toList
  | .range r, t => by
    rw [Sequence.equals_eq, Sequence.equals_eq, Sequence.toList_writtenOut t]
    exact Value.allEqual_ints_writtenOut r.toList t.toList
termination_by structural s => s

theorem Value.allEqual_writtenOut : ∀ vs ws : List Value,
    Value.allEqual (Value.writeOutAll vs) (ws.map Value.writtenOut) = Value.allEqual vs ws
  | [], ws => by
    cases ws <;> rfl
  | v :: vs, ws => by
    cases ws with
    | nil => rfl
    | cons w ws =>
      rw [Value.writeOutAll, List.map_cons, Value.allEqual, Value.allEqual,
        Value.equals_writtenOut v w, Value.allEqual_writtenOut vs ws]
termination_by structural vs => vs

theorem Fields.equals_writtenOut : ∀ {lo lo' : Option String} (fields : Fields lo)
    (fields' : Fields lo'), fields.writtenOut.equals fields'.writtenOut = fields.equals fields'
  | _, _, .nil, fields' => by
    cases fields' <;> rfl
  | _, _, .cons key above value rest, fields' => by
    cases fields' with
    | nil => rfl
    | cons key' above' value' rest' =>
      rw [Fields.writtenOut, Fields.writtenOut, Fields.equals, Fields.equals,
        Value.equals_writtenOut value value', Fields.equals_writtenOut rest rest']
termination_by structural _ _ fields => fields

end

/-! ## Operators -/

namespace EvalError

/-- The error with its operands written out. -/
def writtenOut : EvalError → EvalError
  | notNumber v => notNumber v.writtenOut
  | notNumbers l r => notNumbers l.writtenOut r.writtenOut
  | notAddable l r => notAddable l.writtenOut r.writtenOut
  | notComparable l r => notComparable l.writtenOut r.writtenOut
  | zeroDivisor v => zeroDivisor v.writtenOut

theorem code_writtenOut (e : EvalError) : e.writtenOut.code = e.code := by
  cases e <;> rfl

theorem message_writtenOut (e : EvalError) : e.writtenOut.message = e.message := by
  unfold message
  cases e <;> simp only [writtenOut, pair, Value.text_writtenOut]

end EvalError

/-- What an evaluation comes to, with the values in it written out. -/
def writeOut {α β : Type} (result : α → β) (x : Except EvalError α) : Except EvalError β :=
  (x.map result).mapError EvalError.writtenOut

theorem writeOut_bind {α β γ δ : Type} {p : α → β} {q : γ → δ} {x : Except EvalError α}
    {y : Except EvalError β} {f : α → Except EvalError γ} {g : β → Except EvalError δ}
    (h : y = writeOut p x) (k : ∀ a, g (p a) = writeOut q (f a)) :
    (y >>= g) = writeOut q (x >>= f) := by
  subst h
  cases x with
  | ok a => exact k a
  | error e => rfl

theorem Numbers.of?_writtenOut (l r : Value) :
    Numbers.of? l.writtenOut r.writtenOut = Numbers.of? l r := by
  cases l <;> cases r <;> rfl

namespace Value

theorem arithmetic_writtenOut (onInts : Int64 → Int64 → Int64) (onFloats : Float → Float → Float)
    (l r : Value) :
    arithmetic onInts onFloats l.writtenOut r.writtenOut =
      writeOut writtenOut (arithmetic onInts onFloats l r) := by
  unfold arithmetic
  rw [Numbers.of?_writtenOut]
  cases Numbers.of? l r with
  | none => rfl
  | some numbers => cases numbers <;> rfl

/-- Of two lists the sum is a list, and of no other values does it contain one. -/
theorem add_writtenOut (l r : Value) :
    l.writtenOut.add r.writtenOut = writeOut writtenOut (l.add r) := by
  cases l with
  | list s =>
    cases r with
    | list t => exact congrArg (Except.ok ∘ Value.list) (s.append_writtenOut t)
    | _ => rfl
  | _ => cases r <;> rfl

theorem remainder_writtenOut (l r : Value) :
    l.writtenOut.remainder r.writtenOut = writeOut writtenOut (l.remainder r) := by
  have numbers := arithmetic_writtenOut (· % ·) Binary64.remainder l r
  cases l with
  | int m =>
    cases r with
    | int n =>
      -- The divisor decides which of the two equations of `remainder` applies.
      by_cases zero : n = 0
      · subst zero
        rfl
      · have divides : (Value.int m).remainder (.int n) = .ok (.int (m % n)) := by
          unfold remainder
          split
          · rename_i same
            exact absurd (Value.int.inj same) zero
          · rfl
        exact divides.trans (congrArg (writeOut writtenOut) divides.symm)
    | _ => exact numbers
  | _ => cases r <;> exact numbers

theorem compare?_writtenOut (l r : Value) :
    l.writtenOut.compare? r.writtenOut = l.compare? r := by
  cases l <;> cases r <;> rfl

theorem ordered_writtenOut (test : Ordering → Bool) (l r : Value) :
    ordered test l.writtenOut r.writtenOut = writeOut writtenOut (ordered test l r) := by
  unfold ordered
  rw [compare?_writtenOut]
  cases l.compare? r <;> rfl

theorem negate_writtenOut (v : Value) : v.writtenOut.negate = writeOut writtenOut v.negate := by
  cases v <;> rfl

end Value

theorem BinaryOp.apply_writtenOut (op : BinaryOp) (l r : Value) :
    op.apply l.writtenOut r.writtenOut = writeOut Value.writtenOut (op.apply l r) := by
  cases op with
  | add => exact Value.add_writtenOut l r
  | subtract | multiply => exact Value.arithmetic_writtenOut _ _ l r
  | remainder => exact Value.remainder_writtenOut l r
  | equal => exact congrArg (Except.ok ∘ Value.bool) (Value.equals_writtenOut l r)
  | notEqual => exact congrArg (Except.ok ∘ Value.bool ∘ Bool.not) (Value.equals_writtenOut l r)
  | less | lessEqual | greater | greaterEqual => exact Value.ordered_writtenOut _ l r

/-! ## Expressions -/

namespace Expr

mutual

/-- The expression with its constants written out. -/
def writtenOut : Expr → Expr
  | .const value => .const value.writtenOut
  | .var name => .var name
  | .field object name => .field object.writtenOut name
  | .not operand => .not operand.writtenOut
  | .negate operand => .negate operand.writtenOut
  | .binary op l r => .binary op l.writtenOut r.writtenOut
  | .and l r => .and l.writtenOut r.writtenOut
  | .or l r => .or l.writtenOut r.writtenOut
  | .list items => .list (writeOutAll items)
  | .isDefined subject => .isDefined subject.writtenOut
termination_by structural e => e

def writeOutAll : List Expr → List Expr
  | [] => []
  | e :: rest => e.writtenOut :: writeOutAll rest
termination_by structural es => es

end

variable (find? : String → Option Value)

mutual

theorem eval_writtenOut : ∀ e : Expr,
    e.writtenOut.eval (fun name => (find? name).map Value.writtenOut) =
      writeOut Value.writtenOut (e.eval find?)
  | .const _ => rfl
  | .var name => by
    simp only [writtenOut, eval]
    cases find? name <;> rfl
  | .field object name =>
    writeOut_bind (eval_writtenOut object) fun v =>
      congrArg Except.ok (v.field_writtenOut name)
  | .not operand =>
    writeOut_bind (eval_writtenOut operand) fun v =>
      congrArg (Except.ok ∘ Value.bool ∘ Bool.not) v.isTruthy_writtenOut
  | .negate operand => writeOut_bind (eval_writtenOut operand) Value.negate_writtenOut
  | .binary op l r =>
    writeOut_bind (eval_writtenOut l) fun v =>
      writeOut_bind (eval_writtenOut r) fun w => op.apply_writtenOut v w
  | .and l r => by
    refine writeOut_bind (eval_writtenOut l) fun v => ?_
    rw [Value.isTruthy_writtenOut]
    cases v.isTruthy with
    | true => exact eval_writtenOut r
    | false => rfl
  | .or l r => by
    refine writeOut_bind (eval_writtenOut l) fun v => ?_
    rw [Value.isTruthy_writtenOut]
    cases v.isTruthy with
    | true => rfl
    | false => exact eval_writtenOut r
  | .list items => by
    refine writeOut_bind (evalAll_writtenOut items) fun vs => ?_
    rw [← Value.writeOutAll_eq]
    rfl
  | .isDefined subject => writeOut_bind (isBound_writtenOut subject) fun _ => rfl
termination_by structural e => e

theorem isBound_writtenOut : ∀ e : Expr,
    e.writtenOut.isBound (fun name => (find? name).map Value.writtenOut) =
      writeOut id (e.isBound find?)
  | .var name => congrArg Except.ok Option.isSome_map
  | .field object name => by
    refine writeOut_bind (isBound_writtenOut object) fun bound => ?_
    cases bound with
    | true =>
      exact writeOut_bind (eval_writtenOut object) fun v =>
        congrArg Except.ok (v.hasField_writtenOut name)
    | false => rfl
  | .const _ | .not _ | .negate _ | .binary _ _ _ | .and _ _ | .or _ _ | .list _
  | .isDefined _ => rfl
termination_by structural e => e

theorem evalAll_writtenOut : ∀ es : List Expr,
    evalAll (fun name => (find? name).map Value.writtenOut) (writeOutAll es) =
      writeOut (List.map Value.writtenOut) (evalAll find? es)
  | [] => rfl
  | e :: rest =>
    writeOut_bind (eval_writtenOut e) fun _ =>
      writeOut_bind (evalAll_writtenOut rest) fun _ => rfl
termination_by structural es => es

end

end Expr

end Stencil
