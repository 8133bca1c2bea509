import Stencil.Proofs.Simulation
import Stencil.Proofs.Translation
import Stencil.Proofs.WrittenOut

/-!
# `Stencil/Proofs/LazyRanges.lean` — a range is the list it stands for

A range is there to be cheap, and it must not be there to be seen:

> **programs that are alike but for what is kept as a range do the same.**

Two values, templates or scopes are *alike* when they are one and the same with all the ranges in
them written out (`Stencil/Proofs/WrittenOut.lean`), so that any of the ranges of the one, wherever
they are, may be lists in the other, and the other way around. To write everything out is one of the
translations of `Stencil/Proofs/Translation.lean`: both of two programs that are alike are
translated to the same program, and their runs to its run. From there it is a matter of reading off
what the translation leaves as it is, which is everything that anybody gets to see: the text, the
remarks, the kind and the message of an error.

What differs at the end is what an error is about. Its operands are values of the one program or of
the other, and no more than alike.
-/

set_option autoImplicit false

namespace Stencil

open Stencil.Action

/-! ## Statements -/

mutual

/-- The statement with the constants in it written out. -/
def Statement.writtenOut : Statement → Statement
  | .text s => .text s
  | .output value => .output value.writtenOut
  | .loop vars source filter body otherwise =>
    .loop vars source.writtenOut (filter.map Expr.writtenOut) (writeOutAll body)
      (writeOutAll otherwise)
  | .cond guard body branches =>
    .cond guard.writtenOut (writeOutAll body) (writeOutFirst branches)
  | .assign targets value => .assign targets (value.map Expr.writtenOut)
  | .block name body => .block name (writeOutAll body)
  | .slot name inherits body => .slot name inherits (writeOutAll body)
  | .extend target isPath overrides => .extend target isPath (writeOutOverrides overrides)
  | .super => .super
termination_by structural statement => statement

def writeOutAll : List Statement → List Statement
  | [] => []
  | statement :: rest => statement.writtenOut :: writeOutAll rest
termination_by structural body => body

def writeOutFirst : List Branch → List Branch
  | [] => []
  | ⟨guard, body⟩ :: rest => ⟨guard.map Expr.writtenOut, writeOutAll body⟩ :: writeOutFirst rest
termination_by structural branches => branches

def writeOutOverrides : List (String × List Statement) → List (String × List Statement)
  | [] => []
  | (name, body) :: rest => (name, writeOutAll body) :: writeOutOverrides rest
termination_by structural overrides => overrides

end

/-! ## The translation -/

theorem position_writtenOut (items : Sequence) (i : Nat) :
    items.writtenOut.position i = (items.position i).writtenOut := by
  have entry (name : String) (neighbour : Option Value) :
      ((neighbour.map Value.writtenOut).map ((name, ·))).toList =
        ((neighbour.map ((name, ·))).toList).map (Prod.map id Value.writtenOut) := by
    cases neighbour <;> rfl
  have written (entries : List (String × Value)) :
      Value.map (.ofList (entries.map (Prod.map id Value.writtenOut))) =
        (Value.map (.ofList entries)).writtenOut :=
    congrArg Value.map (Fields.ofList_writtenOut entries)
  unfold Sequence.position
  -- At the first position there is no neighbour before to be looked up.
  cases i with
  | zero =>
    simp only [Sequence.size_writtenOut, Sequence.get?_writtenOut, ← written, List.map_append,
      entry]
    rfl
  | succ j =>
    simp only [Sequence.size_writtenOut, Sequence.get?_writtenOut, ← written, List.map_append,
      entry]
    rfl

/-- Values are written out wherever they are, and all remarks are still made. -/
def writingOut : Translation where
  value := Value.writtenOut
  sequence := Sequence.writtenOut
  expr := Expr.writtenOut
  error := EvalError.writtenOut
  body := writeOutAll
  keeps _ := true
  others _ _ := rfl
  text := Value.text_writtenOut
  isTruthy := Value.isTruthy_writtenOut
  field := Value.field_writtenOut
  elements := Value.toSequence?_writtenOut
  size := Sequence.size_writtenOut
  get? := Sequence.get?_writtenOut
  position := position_writtenOut
  ofItems xs := by
    rw [Sequence.writtenOut_eq, Sequence.ofList, ← Array.toList_map]
    rfl
  eval e find? := Expr.eval_writtenOut find? e

theorem writeOutOverrides_eq (overrides : Registry) :
    writeOutOverrides overrides = writingOut.registry overrides := by
  induction overrides with
  | nil => rfl
  | cons entry rest ih =>
    rw [writeOutOverrides, ih]
    rfl

section Statements

open Translation

variable {jump jump' : Jump}

mutual

theorem renderWith_writtenOut (follows : writingOut.Follows jump jump') :
    ∀ statement : Statement, writingOut.Commutes id (statement.renderWith jump)
      (statement.writtenOut.renderWith jump')
  | .text s => text_commutes s
  | .output value => output_commutes value
  | .loop vars source filter body otherwise =>
    loop_commutes vars source filter (renderAllWith_writtenOut follows body)
      (renderAllWith_writtenOut follows otherwise)
  | .cond guard body branches =>
    cond_commutes guard (renderAllWith_writtenOut follows body)
      (renderFirstWith_writtenOut follows branches)
  | .assign targets value => assign_commutes targets value
  | .block name body => block_commutes rfl (renderAllWith_writtenOut follows body)
  | .slot name inherits default => slot_commutes follows name inherits default
  | .extend target isPath overrides => by
    rw [Statement.writtenOut, writeOutOverrides_eq]
    exact extend_commutes follows target isPath overrides
  | .super => super_commutes follows
termination_by structural statement => statement

theorem renderAllWith_writtenOut (follows : writingOut.Follows jump jump') :
    ∀ body : List Statement, writingOut.Commutes id (renderAllWith jump body)
      (renderAllWith jump' (writeOutAll body))
  | [] => .pure Flow.proceed
  | statement :: rest =>
    cons_commutes (renderWith_writtenOut follows statement) (renderAllWith_writtenOut follows rest)
termination_by structural body => body

theorem renderFirstWith_writtenOut (follows : writingOut.Follows jump jump') :
    ∀ branches : List Branch, writingOut.Commutes id (renderFirstWith jump branches)
      (renderFirstWith jump' (writeOutFirst branches))
  | [] => .pure Flow.proceed
  | ⟨none, body⟩ :: _ => renderAllWith_writtenOut follows body
  | ⟨some guard, body⟩ :: rest =>
    branch_commutes guard (renderAllWith_writtenOut follows body)
      (renderFirstWith_writtenOut follows rest)
termination_by structural branches => branches

end

end Statements

theorem writingOut_faithful : writingOut.Faithful := fun _ _ follows =>
  renderAllWith_writtenOut follows

/-! ## Being alike -/

/-- The same value, but for what is kept as a range. -/
def Value.Alike (v w : Value) : Prop := v.writtenOut = w.writtenOut

def Expr.Alike (e f : Expr) : Prop := e.writtenOut = f.writtenOut

def Template.Alike (template template' : Template) : Prop :=
  writingOut.template template = writingOut.template template'

def Library.Alike (library library' : Library) : Prop :=
  writingOut.library library = writingOut.library library'

def Scope.Alike (scope scope' : Scope) : Prop := writingOut.scope scope = writingOut.scope scope'

/-- As many elements, and at each position alike ones with alike neighbours. -/
structure Sequence.Alike (s t : Sequence) : Prop where
  size : s.size = t.size
  get? : ∀ i, (s.get? i).Rel Value.Alike (t.get? i)
  position : ∀ i, (s.position i).Alike (t.position i)

/-- Errors of one kind and with one text, about values that are alike. -/
structure EvalError.Alike (e f : EvalError) : Prop where
  code : e.code = f.code
  message : e.message = f.message
  operands : e.writtenOut = f.writtenOut

/-- Alike values, or alike errors. -/
inductive ResultsAlike : Except EvalError Value → Except EvalError Value → Prop
  | ok {v w : Value} (alike : v.Alike w) : ResultsAlike (.ok v) (.ok w)
  | error {e f : EvalError} (alike : e.Alike f) : ResultsAlike (.error e) (.error f)

/-- Whatever is asked about the one value, the answer is the same for the other, also where they
are asked about together with a third value or with one that is like it. -/
structure Value.Indistinguishable (v w : Value) : Prop where
  text : v.text = w.text
  isTruthy : v.isTruthy = w.isTruthy
  hasField : ∀ name, v.hasField name = w.hasField name
  field : ∀ name, (v.field name).Alike (w.field name)
  elements : v.toSequence?.Rel Sequence.Alike w.toSequence?
  equals : ∀ u u' : Value, u.Alike u' → v.equals u = w.equals u' ∧ u.equals v = u'.equals w
  negate : ResultsAlike v.negate w.negate
  apply : ∀ (op : BinaryOp) (u u' : Value), u.Alike u' →
    ResultsAlike (op.apply v u) (op.apply w u') ∧ ResultsAlike (op.apply u v) (op.apply u' w)

theorem EvalError.Alike.of_writtenOut {e f : EvalError} (same : e.writtenOut = f.writtenOut) :
    e.Alike f where
  code := by rw [← code_writtenOut e, same, code_writtenOut]
  message := by rw [← message_writtenOut e, same, message_writtenOut]
  operands := same

theorem ResultsAlike.of_writeOut {x y : Except EvalError Value}
    (same : writeOut Value.writtenOut x = writeOut Value.writtenOut y) : ResultsAlike x y := by
  cases x with
  | ok v =>
    cases y with
    | ok w => exact .ok (Except.ok.inj same)
    | error f => cases same
  | error e =>
    cases y with
    | ok w => cases same
    | error f => exact .error (.of_writtenOut (Except.error.inj same))

theorem Option.rel_of_map {α β : Type} {R : α → α → Prop} {f : α → β} {x y : Option α}
    (same : x.map f = y.map f) (alike : ∀ a b, f a = f b → R a b) : x.Rel R y := by
  cases x with
  | none =>
    cases y with
    | none => exact .none
    | some b => cases same
  | some a =>
    cases y with
    | none => cases same
    | some b => exact .some (alike a b (Option.some.inj same))

theorem Sequence.Alike.of_writtenOut {s t : Sequence} (same : s.writtenOut = t.writtenOut) :
    s.Alike t where
  size := by rw [← size_writtenOut s, same, size_writtenOut]
  get? i := by
    refine Option.rel_of_map ?_ fun _ _ alike => alike
    rw [← get?_writtenOut, same, get?_writtenOut]
  position i := by
    unfold Value.Alike
    rw [← position_writtenOut, same, position_writtenOut]

theorem Expr.Alike.eval {e f : Expr} (alike : e.Alike f) {find? find?' : String → Option Value}
    (bound : ∀ name, (find? name).Rel Value.Alike (find?' name)) :
    ResultsAlike (e.eval find?) (f.eval find?') := by
  have lookup : (fun name => (find? name).map Value.writtenOut) =
      fun name => (find?' name).map Value.writtenOut := by
    funext name
    have related := bound name
    generalize find? name = x, find?' name = y at related
    cases related with
    | none => rfl
    | some same => exact congrArg some same
  apply ResultsAlike.of_writeOut
  rw [← eval_writtenOut find? e, alike, lookup, eval_writtenOut]

namespace Value.Alike

variable {v w u u' : Value}

theorem apply (alike : v.Alike w) (alike' : u.Alike u') (op : BinaryOp) :
    ResultsAlike (op.apply v u) (op.apply w u') := by
  apply ResultsAlike.of_writeOut
  rw [← op.apply_writtenOut v u, alike, alike', op.apply_writtenOut]

theorem equals (alike : v.Alike w) (alike' : u.Alike u') : v.equals u = w.equals u' := by
  rw [← equals_writtenOut v u, alike, alike', equals_writtenOut]

theorem indistinguishable (alike : v.Alike w) : v.Indistinguishable w where
  text := by rw [← text_writtenOut v, alike, text_writtenOut]
  isTruthy := by rw [← isTruthy_writtenOut v, alike, isTruthy_writtenOut]
  hasField name := by rw [← hasField_writtenOut v, alike, hasField_writtenOut]
  field name := by
    unfold Value.Alike
    rw [← field_writtenOut v, alike, field_writtenOut]
  elements := by
    refine Option.rel_of_map ?_ fun _ _ same => .of_writtenOut same
    rw [← toSequence?_writtenOut v, alike, toSequence?_writtenOut]
  equals _ _ alike' := ⟨alike.equals alike', alike'.equals alike⟩
  negate := by
    apply ResultsAlike.of_writeOut
    rw [← negate_writtenOut v, alike, negate_writtenOut]
  apply op _ _ alike' := ⟨alike.apply alike' op, alike'.apply alike op⟩

end Value.Alike

/-! ## A range and its list -/

/-- The elements of a range as a list value. -/
def Range.asList (r : Range) : Value := .ofList (r.toList.map .int)

theorem Range.alike_asList (r : Range) : (Value.list (.range r)).Alike r.asList := by
  have once := Sequence.writtenOut_eq (.range r)
  have again := Sequence.writtenOut_eq (.ofList (r.toList.map .int))
  exact congrArg Value.list (once.trans again.symm)

theorem Range.equals_asList (r : Range) :
    (Value.list (.range r)).equals r.asList = true ∧
      r.asList.equals (.list (.range r)) = true := by
  have itself : Value.allEqual (r.toList.map .int) (r.toList.map .int) = true := by
    rw [Value.allEqual_ints]
    exact BEq.rfl
  have listed : (Sequence.ofList (r.toList.map .int)).toList = r.toList.map .int := rfl
  constructor
  · exact (Sequence.equals_eq (.range r) (.ofList _)).trans itself
  · exact (Sequence.equals_eq (.ofList _) (.range r)).trans itself

/-! ## Runs -/

/-- Errors of one kind and with one text, about values that are alike. -/
structure RenderError.Alike (e f : RenderError) : Prop where
  code : e.code = f.code
  message : e.message = f.message
  same : writingOut.failure e = writingOut.failure f

/-- The same has been written and remarked on, and the ends are alike. -/
inductive Outcome.Alike : Outcome Unit → Outcome Unit → Prop
  | done {s t : Session} (same : SameWriting s t) : Alike (.done () s) (.done () t)
  | failed {e f : RenderError} {s t : Session} (alike : e.Alike f) (same : SameWriting s t) :
    Alike (.failed e s) (.failed f t)
  | exhausted : Alike .exhausted .exhausted

theorem RenderError.Alike.of_failure {e f : RenderError}
    (same : writingOut.failure e = writingOut.failure f) : e.Alike f where
  code := by
    have code (e : RenderError) : (writingOut.failure e).code = e.code := by
      cases e with
      | evaluation error => exact error.code_writtenOut
      | _ => rfl
    rw [← code e, same, code]
  message := by
    have message (e : RenderError) : (writingOut.failure e).message = e.message := by
      cases e with
      | evaluation error => exact error.message_writtenOut
      | _ => rfl
    rw [← message e, same, message]
  same := same

theorem SameWriting.of_session {s t : Session} (same : writingOut.session s = writingOut.session t) :
    SameWriting s t := by
  have log (s : Session) : (writingOut.session s).log = s.log :=
    Array.filter_eq_self.2 fun _ _ => rfl
  have output (s : Session) : (writingOut.session s).output = s.output := rfl
  exact ⟨by rw [← output t, ← same, output], by rw [← log t, ← same, log]⟩

theorem Outcome.Alike.of_outcome {o o' : Outcome Unit}
    (same : writingOut.outcome id o = writingOut.outcome id o') : o.Alike o' := by
  cases o with
  | done _ s =>
    cases o' with
    | done _ t => exact .done (.of_session (Outcome.done.inj same).right)
    | failed f t => cases same
    | exhausted => cases same
  | failed e s =>
    cases o' with
    | done _ t => cases same
    | failed f t =>
      obtain ⟨error, session⟩ := Outcome.failed.inj same
      exact .failed (.of_failure error) (.of_session session)
    | exhausted => cases same
  | exhausted =>
    cases o' with
    | done _ t => cases same
    | failed f t => cases same
    | exhausted => exact .exhausted

theorem run_alike {main main' : Template} {library library' : Library} {globals globals' : Scope}
    (hmain : main.Alike main') (hlibrary : library.Alike library')
    (hglobals : globals.Alike globals') (settings : Settings) (bound : Nat) :
    (main.run bound library globals settings).Alike
      (main'.run bound library' globals' settings) := by
  apply Outcome.Alike.of_outcome
  rw [← Translation.run_eq writingOut_faithful main, hmain, hlibrary, hglobals,
    Translation.run_eq writingOut_faithful main']

/-- **A range is the list it stands for.** The two are alike and equal to each other, whatever their
length. Values that are alike cannot be told apart by any question that is asked of a value, nor by
an expression they are in. And neither can programs be: with templates, a library and globals that
are alike, the same text is written with the same remarks, and where one run fails so does the
other, with an error of the same kind and the same message. -/
theorem ranges_are_lists :
    (∀ r : Range, (Value.list (.range r)).Alike r.asList ∧
      (Value.list (.range r)).equals r.asList = true ∧
      r.asList.equals (.list (.range r)) = true) ∧
    (∀ v w : Value, v.Alike w → v.Indistinguishable w) ∧
    (∀ (e f : Expr) (find? find?' : String → Option Value), e.Alike f →
      (∀ name, (find? name).Rel Value.Alike (find?' name)) →
      ResultsAlike (e.eval find?) (f.eval find?')) ∧
    (∀ (main main' : Template) (library library' : Library) (globals globals' : Scope)
      (settings : Settings) (bound : Nat), main.Alike main' → library.Alike library' →
      globals.Alike globals' →
      (main.run bound library globals settings).Alike
        (main'.run bound library' globals' settings)) := by
  refine ⟨fun r => ⟨r.alike_asList, r.equals_asList⟩, ?_, ?_, ?_⟩
  · intro v w alike
    exact alike.indistinguishable
  · intro e f find? find?' alike bound
    exact alike.eval bound
  · intro main main' library library' globals globals' settings bound hmain hlibrary hglobals
    exact run_alike hmain hlibrary hglobals settings bound

/-- Of two ranges one is a list in the second program, the constant that is iterated over, and one
in its globals, inside a map, from which the template then tries to subtract. -/
theorem ranges_are_lists_in_failing_run :
    let range (n : Int64) : Value := .list (.range ⟨0, n, 1⟩)
    let page (numbers : Value) : Template :=
      ⟨"page", [.loop ["n"] (.const numbers) none [.output (.var "n"), .text " "] [],
        .output (.binary .subtract (.field (.var "m") "r") (.const (.int 1)))]⟩
    let globals (v : Value) : Scope := .ofList [("m", .map (.ofList [("r", v)]))]
    (page (range 3)).Alike (page (.ofList [.int 0, .int 1, .int 2])) ∧
      (globals (range 2)).Alike (globals (.ofList [.int 0, .int 1])) ∧
      ∃ e f s t, (page (range 3)).run 1 .empty (globals (range 2)) {} = .failed e s ∧
        (page (.ofList [.int 0, .int 1, .int 2])).run 1 .empty (globals (.ofList [.int 0, .int 1])) {} =
          .failed f t ∧
        s.output = "0 1 2 " ∧ e.message = "Non-Numbers \x7bBinary\x7d: [[0, 1] , 1]" ∧
        e.Alike f ∧ SameWriting s t := by
  intro range page globals
  have samePage : (page (range 3)).Alike (page (.ofList [.int 0, .int 1, .int 2])) := by
    exact rfl
  have sameGlobals : (globals (range 2)).Alike (globals (.ofList [.int 0, .int 1])) := by
    exact rfl
  have written : ((page (range 3)).run 1 .empty (globals (range 2)) {}).session?.map (·.output) =
      some "0 1 2 " := by
    decide +kernel
  have failed : ((page (range 3)).run 1 .empty (globals (range 2)) {}).error?.map (·.message) =
      some "Non-Numbers \x7bBinary\x7d: [[0, 1] , 1]" := by
    decide +kernel
  have alike := ranges_are_lists.2.2.2 _ _ .empty .empty _ _ {} 1 samePage rfl sameGlobals
  refine ⟨samePage, sameGlobals, ?_⟩
  generalize (page (range 3)).run 1 .empty (globals (range 2)) {} = o at written failed alike ⊢
  generalize (page (.ofList [.int 0, .int 1, .int 2])).run 1 .empty
    (globals (.ofList [.int 0, .int 1])) {} = o' at alike ⊢
  cases alike with
  | done same => cases failed
  | failed alike same =>
    exact ⟨_, _, _, _, rfl, rfl, Option.some.inj written, Option.some.inj failed, alike, same⟩
  | exhausted => cases written

end Stencil
