import Stencil.Proofs.History

/-!
# `Stencil/Proofs/Translation.lean` — the same render, written differently

Some changes to a program can be made everywhere at once: in the templates, in the globals, and so
in all that a context holds while it renders. A *translation* is such a change. It says what becomes
of values, expressions and bodies, and it commutes with the few questions that a render asks of them
(the laws of `Translation`). Then

> **to translate and render is to render and translate**,

session by session and jump by jump (`Commutes`). Both ways around there is an equation, so no
relation between two sessions has to be kept up: the second session *is* the first one translated,
with every scope, registry and level in it.

What is left to a translation is to go through the statements once and say that they commute
(`Faithful`). For statements that stay what they are, with other parts in them, there is a lemma each
in this file. A translation may also silence the remarks on plain blocks, which is what lets these
blocks be translated away.
-/

set_option autoImplicit false

namespace Stencil

open Stencil.Action

def Notice.isPlainBlock : Notice → Bool
  | .plainBlock _ => true
  | _ => false

/-! ## Translations -/

/-- What becomes of values, expressions and bodies, so that a render cannot tell the difference by
anything it asks. -/
structure Translation where
  value : Value → Value
  sequence : Sequence → Sequence
  expr : Expr → Expr
  error : EvalError → EvalError
  body : Body → Body
  /-- The remarks that are still made. -/
  keeps : Notice → Bool
  others : ∀ notice, notice.isPlainBlock = false → keeps notice = true
  text : ∀ v, (value v).text = v.text
  isTruthy : ∀ v, (value v).isTruthy = v.isTruthy
  field : ∀ v name, (value v).field name = value (v.field name)
  elements : ∀ v, (value v).toSequence? = v.toSequence?.map sequence
  size : ∀ items, (sequence items).size = items.size
  get? : ∀ items i, (sequence items).get? i = (items.get? i).map value
  position : ∀ items i, (sequence items).position i = value (items.position i)
  ofItems : ∀ xs, sequence (.items xs) = .items (xs.map value)
  eval : ∀ e find?, (expr e).eval (fun name => (find? name).map value) =
    ((Expr.eval find? e).map value).mapError error

namespace Translation

variable (T : Translation)

/-! ### What a render holds -/

def scope (scope : Scope) : Scope := ⟨scope.bindings.map (Prod.map id T.value)⟩

def scopes (scopes : Scopes) : Scopes := ⟨T.scope scopes.inner, scopes.outer.map T.scope⟩

def template (template : Template) : Template := { template with body := T.body template.body }

def library (library : Library) : Library := library.map T.template

def registry (registry : Registry) : Registry := registry.map (Prod.map id T.body)

def context (c : Context) : Context where
  globals := T.scope c.globals
  scopes := T.scopes c.scopes
  library := T.library c.library
  settings := c.settings
  dispatch := c.dispatch.map T.registry
  supers := c.supers.map T.body
  active := c.active

def session (s : Session) : Session where
  context := T.context s.context
  output := s.output
  log := s.log.filter (T.keeps ·.notice)

/-- An error that is about a value is about the translated one. -/
def failure : RenderError → RenderError
  | .evaluation error => .evaluation (T.error error)
  | .cycle chain => .cycle chain
  | .tooDeep depth limit => .tooDeep depth limit

def outcome {α β : Type} (result : α → β) : Outcome α → Outcome β
  | .done a s => .done (result a) (T.session s)
  | .failed e s => .failed (T.failure e) (T.session s)
  | .exhausted => .exhausted

/-! ### Looking things up -/

theorem get?_scope (scope : Scope) (name : String) :
    (T.scope scope).get? name = (scope.get? name).map T.value :=
  lookup_map_values T.value scope.bindings name

theorem replace_map (name : String) (v : Value) (bindings : List (String × Value)) :
    Scope.replace name (T.value v) (bindings.map (Prod.map id T.value)) =
      (Scope.replace name v bindings).map (Prod.map id T.value) := by
  induction bindings with
  | nil => rfl
  | cons binding rest ih =>
    obtain ⟨key, old⟩ := binding
    simp only [List.map_cons, Scope.replace, Prod.map, id]
    split
    · rfl
    · rw [List.map_cons, ← ih]
      rfl

theorem insert_scope (scope : Scope) (name : String) (v : Value) :
    (T.scope scope).insert name (T.value v) = T.scope (scope.insert name v) :=
  congrArg Scope.mk (T.replace_map name v scope.bindings)

theorem fields_scope (names : List String) (v : Value) (scope : Scope) :
    names.foldl (fun scope name => scope.insert name ((T.value v).field name)) (T.scope scope) =
      T.scope (names.foldl (fun scope name => scope.insert name (v.field name)) scope) := by
  induction names generalizing scope with
  | nil => rfl
  | cons name rest ih =>
    simp only [List.foldl_cons]
    rw [T.field, insert_scope, ih]

theorem assign_scope (scope : Scope) (names : List String) (v : Value) :
    (T.scope scope).assign names (T.value v) = T.scope (scope.assign names v) := by
  unfold Scope.assign
  split
  · exact T.insert_scope scope _ v
  · exact T.fields_scope _ v scope

theorem find?_context (c : Context) (name : String) :
    (T.context c).find? name = (c.find? name).map T.value := by
  have inScopes : (T.scopes c.scopes).find? name = (c.scopes.find? name).map T.value := by
    simp only [Scopes.find?, scopes, ← List.map_cons]
    generalize c.scopes.inner :: c.scopes.outer = chain
    induction chain with
    | nil => rfl
    | cons scope rest ih =>
      simp only [List.map_cons, List.findSome?_cons]
      rw [T.get?_scope]
      cases scope.get? name with
      | none => exact ih
      | some v => rfl
  simp only [Context.find?, context]
  rw [inScopes, T.get?_scope, Option.map_or]

theorem find?_registry (registry : Registry) (name : String) :
    Registry.find? (T.registry registry) name = (registry.find? name).map T.body := by
  unfold Registry.find? Translation.registry
  rw [← List.map_reverse]
  exact lookup_map_values T.body registry.reverse name

theorem find?_library (library : Library) (name : String) :
    (T.library library).find? name = (library.find? name).map T.template :=
  library.find?_map T.template name

theorem overrides_context (c : Context) (name : String) :
    (T.context c).overrides name = (c.overrides name).map T.body := by
  have found : (Registry.find? · name) ∘ T.registry =
      fun registry => (Registry.find? registry name).map T.body :=
    funext fun registry => T.find?_registry registry name
  simp only [Context.overrides, context, List.filterMap_map, List.map_filterMap, found]

theorem enterTemplate_context (c : Context) (name : String) :
    (T.context c).enterTemplate name = (c.enterTemplate name).map T.context := by
  cases he : c.enterTemplate name with
  | error e =>
    have refused := Context.enterTemplate_eq_error_iff.1 he
    exact Context.enterTemplate_eq_error_iff.2 refused
  | ok entered =>
    obtain ⟨new, room, rfl⟩ := Context.enterTemplate_eq_ok_iff.1 he
    exact Context.enterTemplate_eq_ok_iff.2 ⟨new, room, rfl⟩

/-- No template is refused because of a value. -/
theorem failure_of_refused {c : Context} {name : String} {e : RenderError}
    (he : c.enterTemplate name = .error e) : T.failure e = e := by
  rcases Context.enterTemplate_eq_error_iff.1 he with ⟨-, rfl⟩ | ⟨-, -, rfl⟩ <;> rfl

/-! ## Actions that commute with a translation -/

/-- The second action does to the translated session what the first does to the session, and comes
to the translated result. -/
def Commutes {α β : Type} (result : α → β) (x : Action α) (y : Action β) : Prop :=
  ∀ s, y (T.session s) = T.outcome result (x s)

namespace Commutes

variable {T} {α β γ δ : Type} {r : α → β} {q : γ → δ} {x : Action α} {y : Action β}

theorem pure (a : α) : T.Commutes r (Pure.pure a) (Pure.pure (r a)) := fun _ => rfl

theorem bind {f : α → Action γ} {g : β → Action δ} (h : T.Commutes r x y)
    (k : ∀ a, T.Commutes q (f a) (g (r a))) : T.Commutes q (x >>= f) (y >>= g) := by
  intro s
  simp only [Bind.bind, h s]
  cases x s with
  | done a t => exact k a t
  | failed e t => rfl
  | exhausted => rfl

theorem giveUp : T.Commutes r Action.giveUp Action.giveUp := fun _ => rfl

theorem context : T.Commutes T.context Action.context Action.context := fun _ => rfl

theorem write (text : String) : T.Commutes id (Action.write text) (Action.write text) :=
  fun _ => rfl

theorem notify {notice : Notice} (kept : T.keeps notice = true) :
    T.Commutes id (Action.notify notice) (Action.notify notice) := by
  intro s
  have log : (s.log.push ⟨notice, s.context.active⟩).filter (T.keeps ·.notice) =
      (s.log.filter (T.keeps ·.notice)).push ⟨notice, s.context.active⟩ := by
    simp [kept]
  simp only [Action.notify, outcome, session, log]
  rfl

/-- A remark that is silenced. -/
theorem silence {notice : Notice} (silent : T.keeps notice = false) :
    T.Commutes id (Action.notify notice) (Pure.pure ()) := by
  intro s
  have log : (s.log.push ⟨notice, s.context.active⟩).filter (T.keeps ·.notice) =
      s.log.filter (T.keeps ·.notice) := by
    simp [silent]
  simp only [Action.notify, outcome, session, log]
  rfl

theorem evaluate (e : Expr) :
    T.Commutes T.value (Action.evaluate e) (Action.evaluate (T.expr e)) := by
  intro s
  have lookup : (T.session s).context.find? = fun name => (s.context.find? name).map T.value :=
    funext (T.find?_context s.context)
  unfold Action.evaluate
  rw [lookup, T.eval]
  cases e.eval s.context.find? <;> rfl

theorem assign (names : List String) (v : Value) :
    T.Commutes id (Action.assign names v) (Action.assign names (T.value v)) := by
  intro s
  have scope := T.assign_scope s.context.scopes.inner names v
  simp only [Action.assign, Action.modify, Context.assign, Scopes.modify, session,
    Translation.context, scopes, scope]
  rfl

theorem bracket {enter enter' : Context → Context} {leave leave' : Context → Context → Context}
    (into : ∀ c, enter' (T.context c) = T.context (enter c))
    (out : ∀ c d, leave' (T.context c) (T.context d) = T.context (leave c d))
    (h : T.Commutes r x y) :
    T.Commutes r (Action.bracket enter leave x) (Action.bracket enter' leave' y) := by
  intro s
  have inside := h { s with context := enter s.context }
  have start : ({ T.session s with context := enter' (T.session s).context } : Session) =
      T.session { s with context := enter s.context } := by
    simp only [session, into]
  unfold Action.bracket
  rw [start, inside]
  cases x { s with context := enter s.context } with
  | done a t => simp only [outcome, session, out]
  | failed e t => simp only [outcome, session, out]
  | exhausted => rfl

theorem exitScope_context (c : Context) : (T.context c).exitScope = T.context c.exitScope := by
  obtain ⟨globals, ⟨inner, outer⟩, library, settings, dispatch, supers, active⟩ := c
  cases outer <;> rfl

theorem inScope (h : T.Commutes r x y) : T.Commutes r (Action.inScope x) (Action.inScope y) :=
  bracket (fun _ => rfl) (fun _ => exitScope_context) h

theorem isolated (h : T.Commutes r x y) : T.Commutes r (Action.isolated x) (Action.isolated y) :=
  bracket (fun _ => rfl) (fun _ _ => rfl) h

theorem withSupers (levels : List Body) (h : T.Commutes r x y) :
    T.Commutes r (Action.withSupers levels x) (Action.withSupers (levels.map T.body) y) :=
  bracket (fun _ => rfl) (fun _ _ => rfl) h

theorem withRegistry (registry : Registry) (h : T.Commutes r x y) :
    T.Commutes r (Action.withRegistry registry x) (Action.withRegistry (T.registry registry) y) := by
  refine bracket (fun c => ?_) (fun _ _ => rfl) h
  simp only [Context.addRegistry, Translation.context, List.map_append, List.map_cons, List.map_nil]

theorem inTemplate (name : String) (h : T.Commutes r x y) :
    T.Commutes r (Action.inTemplate name x) (Action.inTemplate name y) := by
  intro s
  have entering := T.enterTemplate_context s.context name
  simp only [Action.inTemplate]
  cases he : s.context.enterTemplate name with
  | error e =>
    have refused : (T.session s).context.enterTemplate name = .error e := by
      rw [he] at entering
      exact entering
    rw [refused]
    simp only [outcome, T.failure_of_refused he]
  | ok entered =>
    have admitted : (T.session s).context.enterTemplate name = .ok (T.context entered) := by
      rw [he] at entering
      exact entering
    have left (c : Context) :
        (T.context c).exitScope.exitTemplate = T.context c.exitScope.exitTemplate := by
      rw [exitScope_context]
      rfl
    have inside : T.Commutes r
        (Action.bracket (fun _ => entered.enterScope) (fun _ c => c.exitScope.exitTemplate) x)
        (Action.bracket (fun _ => (T.context entered).enterScope)
          (fun _ c => c.exitScope.exitTemplate) y) :=
      bracket (fun _ => rfl) (fun _ => left) h
    rw [admitted]
    exact inside s

/-! ### Loops -/

theorem keepRest (vars : List String) (filter : Expr) (items : Sequence) (kept : Array Value)
    (remaining : Nat) :
    T.Commutes (Array.map T.value) (Action.keepRest vars filter items kept remaining)
      (Action.keepRest vars (T.expr filter) (T.sequence items) (kept.map T.value) remaining) := by
  induction remaining generalizing kept with
  | zero => exact .pure kept
  | succ remaining ih =>
    simp only [Action.keepRest]
    rw [T.size, T.get?]
    cases items.get? (items.size - (remaining + 1)) with
    | none => exact .pure kept
    | some item =>
      refine .bind (assign vars item) fun _ => .bind (evaluate filter) fun verdict => ?_
      rw [T.isTruthy]
      cases verdict.isTruthy with
      | true => simpa only [Array.map_push, if_true] using ih (kept.push item)
      | false => simpa only [Bool.false_eq_true, if_false] using ih kept

theorem filtered (vars : List String) (filter : Option Expr) (items : Sequence) :
    T.Commutes T.sequence (Action.filtered vars filter items)
      (Action.filtered vars (filter.map T.expr) (T.sequence items)) := by
  cases filter with
  | none => exact .pure items
  | some filter =>
    have all := keepRest (T := T) vars filter items #[] items.size
    rw [Array.map_empty] at all
    simp only [Action.filtered, Option.map_some]
    rw [T.size]
    refine inScope (all.bind fun kept => ?_)
    rw [← T.ofItems]
    exact .pure _

theorem repeatRest (vars : List String) (items : Sequence) {body body' : Action Flow}
    (h : T.Commutes id body body') (remaining : Nat) :
    T.Commutes id (Action.repeatRest vars items body remaining)
      (Action.repeatRest vars (T.sequence items) body' remaining) := by
  induction remaining with
  | zero => exact .pure Flow.proceed
  | succ remaining ih =>
    simp only [Action.repeatRest]
    rw [T.size, T.get?]
    cases items.get? (items.size - (remaining + 1)) with
    | none => exact .pure Flow.proceed
    | some item =>
      simp only [Option.map_some, T.position]
      refine .bind (assign _ _) fun _ => .bind (assign vars item) fun _ => .bind h fun flow => ?_
      cases flow with
      | proceed => exact ih
      | delegated => exact .pure Flow.delegated

end Commutes

/-! ## Statements with other parts -/

/-- What is done at jumps to translated bodies is what is done at jumps to the bodies. -/
def Follows (jump jump' : Jump) : Prop :=
  ∀ body, T.Commutes id (jump body) (jump' (T.body body))

section Statements

variable {T} {jump jump' : Jump}

theorem text_commutes (s : String) :
    T.Commutes id ((Statement.text s).renderWith jump) ((Statement.text s).renderWith jump') :=
  .bind (.write s) fun _ => .pure Flow.proceed

theorem output_commutes (e : Expr) :
    T.Commutes id ((Statement.output e).renderWith jump)
      ((Statement.output (T.expr e)).renderWith jump') := by
  refine .bind (.evaluate e) fun v => ?_
  rw [T.text]
  exact .bind (.write v.text) fun _ => .pure Flow.proceed

theorem loop_commutes (vars : List String) (source : Expr) (filter : Option Expr)
    {body body' otherwise otherwise' : Body}
    (hbody : T.Commutes id (renderAllWith jump body) (renderAllWith jump' body'))
    (hotherwise : T.Commutes id (renderAllWith jump otherwise) (renderAllWith jump' otherwise')) :
    T.Commutes id ((Statement.loop vars source filter body otherwise).renderWith jump)
      ((Statement.loop vars (T.expr source) (filter.map T.expr) body' otherwise').renderWith
        jump') := by
  simp only [Statement.renderWith]
  refine .bind (.evaluate source) fun value => ?_
  rw [T.elements, T.text]
  cases value.toSequence? with
  | none => exact .bind (.notify (T.others _ rfl)) fun _ => .pure Flow.proceed
  | some items =>
    have passes : T.Commutes id
        (Action.inScope do
          let items ← Action.filtered vars filter items
          return (← Action.forEach vars items (renderAllWith jump body), items.size))
        (Action.inScope do
          let items ← Action.filtered vars (filter.map T.expr) (T.sequence items)
          return (← Action.forEach vars items (renderAllWith jump' body'), items.size)) := by
      refine .inScope (.bind (.filtered vars filter items) fun kept => ?_)
      unfold Action.forEach
      rw [T.size]
      exact .bind (.repeatRest vars kept hbody kept.size) fun flow => .pure (flow, kept.size)
    refine passes.bind ?_
    rintro ⟨flow, count⟩
    cases flow with
    | proceed =>
      by_cases none : count = 0
      · simpa only [id, none, if_true] using hotherwise
      · simp only [id, none, if_false]
        exact .pure Flow.proceed
    | delegated => exact .pure Flow.delegated

theorem cond_commutes (guard : Expr) {body body' : Body} {branches branches' : List Branch}
    (hbody : T.Commutes id (renderAllWith jump body) (renderAllWith jump' body'))
    (hbranches : T.Commutes id (renderFirstWith jump branches) (renderFirstWith jump' branches')) :
    T.Commutes id ((Statement.cond guard body branches).renderWith jump)
      ((Statement.cond (T.expr guard) body' branches').renderWith jump') := by
  simp only [Statement.renderWith]
  refine .bind (.evaluate guard) fun value => ?_
  rw [T.isTruthy]
  cases value.isTruthy with
  | true => exact hbody
  | false => exact hbranches

theorem branch_commutes (guard : Expr) {body body' : Body} {branches branches' : List Branch}
    (hbody : T.Commutes id (renderAllWith jump body) (renderAllWith jump' body'))
    (hbranches : T.Commutes id (renderFirstWith jump branches) (renderFirstWith jump' branches')) :
    T.Commutes id (renderFirstWith jump (⟨some guard, body⟩ :: branches))
      (renderFirstWith jump' (⟨some (T.expr guard), body'⟩ :: branches')) := by
  simp only [renderFirstWith]
  refine .bind (.evaluate guard) fun value => ?_
  rw [T.isTruthy]
  cases value.isTruthy with
  | true => exact hbody
  | false => exact hbranches

theorem assign_commutes (targets : List String) (value : Option Expr) :
    T.Commutes id ((Statement.assign targets value).renderWith jump)
      ((Statement.assign targets (value.map T.expr)).renderWith jump') := by
  cases value with
  | none => exact .pure Flow.proceed
  | some e =>
    exact .bind (.evaluate e) fun v => .bind (.assign targets v) fun _ => .pure Flow.proceed

theorem block_commutes {name : String} (kept : T.keeps (.plainBlock name) = true)
    {body body' : Body}
    (hbody : T.Commutes id (renderAllWith jump body) (renderAllWith jump' body')) :
    T.Commutes id ((Statement.block name body).renderWith jump)
      ((Statement.block name body').renderWith jump') :=
  .bind (.notify kept) fun _ => hbody

theorem cons_commutes {statement statement' : Statement} {rest rest' : Body}
    (hfirst : T.Commutes id (statement.renderWith jump) (statement'.renderWith jump'))
    (hrest : T.Commutes id (renderAllWith jump rest) (renderAllWith jump' rest')) :
    T.Commutes id (renderAllWith jump (statement :: rest))
      (renderAllWith jump' (statement' :: rest')) := by
  simp only [renderAllWith]
  refine hfirst.bind fun flow => ?_
  cases flow with
  | proceed => exact hrest
  | delegated => exact .pure Flow.delegated

section Jumps

variable (follows : T.Follows jump jump')
include follows

theorem renderLevels_commutes (levels : List Body) :
    T.Commutes id (renderLevels jump levels) (renderLevels jump' (levels.map T.body)) := by
  cases levels with
  | nil => exact .pure Flow.proceed
  | cons level below => exact .withSupers below (follows level)

theorem renderSlot_commutes (name : String) (default : Body) :
    T.Commutes id (renderSlot jump name default) (renderSlot jump' name (T.body default)) := by
  have dispatch : T.Commutes (List.map T.body) (dispatchBlock name) (dispatchBlock name) := by
    refine .bind .context fun c => ?_
    simp only [T.overrides_context, List.length_map]
    exact .bind (.notify (T.others _ rfl)) fun _ => .pure _
  rw [renderSlot_eq_renderLevels, renderSlot_eq_renderLevels]
  refine .inScope (dispatch.bind fun overrides => ?_)
  have levels := renderLevels_commutes follows (overrides ++ [default])
  rwa [List.map_append] at levels

theorem slot_commutes (name : String) (inherits : Bool) (default : Body) :
    T.Commutes id ((Statement.slot name inherits default).renderWith jump)
      ((Statement.slot name inherits (T.body default)).renderWith jump') := by
  simp only [Statement.renderWith]
  refine .bind .context fun c => ?_
  have dispatched : (T.context c).dispatch.isEmpty = c.dispatch.isEmpty := List.isEmpty_map
  rw [dispatched]
  cases c.dispatch.isEmpty with
  | true => exact .bind (.notify (T.others _ rfl)) fun _ => .pure Flow.proceed
  | false =>
    cases inherits with
    | true => exact renderSlot_commutes follows name default
    | false => exact .isolated (renderSlot_commutes follows name default)

theorem renderTemplate_commutes (template : Template) :
    T.Commutes id (renderTemplate jump template) (renderTemplate jump' (T.template template)) :=
  .inTemplate template.name ((follows template.body).bind fun _ => .pure ())

theorem extend_commutes (target : String) (isPath : Bool) (overrides : Registry) :
    T.Commutes id ((Statement.extend target isPath overrides).renderWith jump)
      ((Statement.extend target isPath (T.registry overrides)).renderWith jump') := by
  simp only [Statement.renderWith]
  cases isPath with
  | false => exact .bind (.notify (T.others _ rfl)) fun _ => .pure Flow.proceed
  | true =>
    refine .bind .context fun c => ?_
    have lookup : (T.context c).library.find? target = (c.library.find? target).map T.template :=
      T.find?_library c.library target
    rw [lookup]
    cases c.library.find? target with
    | none => exact .bind (.notify (T.others _ rfl)) fun _ => .pure Flow.delegated
    | some template =>
      have extended : T.Commutes id (renderExtended jump template overrides)
          (renderExtended jump' (T.template template) (T.registry overrides)) :=
        .withRegistry overrides (renderTemplate_commutes follows template)
      exact extended.bind fun _ => .pure Flow.delegated

theorem super_commutes :
    T.Commutes id (Statement.super.renderWith jump) (Statement.super.renderWith jump') := by
  simp only [Statement.renderWith]
  refine .bind .context fun c => ?_
  simp only [Translation.context]
  cases c.supers with
  | nil => exact .bind (.notify (T.others _ rfl)) fun _ => .pure Flow.proceed
  | cons level below => exact renderLevels_commutes follows (level :: below)

end Jumps

end Statements

/-! ## Runs -/

/-- Whatever is done at jumps, bodies and their translations do the same if what they jump to
does. -/
def Faithful : Prop :=
  ∀ jump jump' : Jump, T.Follows jump jump' →
    ∀ body, T.Commutes id (renderAllWith jump body) (renderAllWith jump' (T.body body))

variable {T} (faithful : T.Faithful)
include faithful

theorem jumpWithin_commutes (bound : Nat) (body : Body) :
    T.Commutes id (jumpWithin bound body) (jumpWithin bound (T.body body)) := by
  induction bound generalizing body with
  | zero => exact .giveUp
  | succ bound ih => exact faithful _ _ ih body

/-- To translate all there is and to render it is to render it and to translate the outcome. -/
theorem run_eq (main : Template) (library : Library) (globals : Scope) (settings : Settings)
    (bound : Nat) :
    (T.template main).run bound (T.library library) (T.scope globals) settings =
      T.outcome id (main.run bound library globals settings) :=
  renderTemplate_commutes (jumpWithin_commutes faithful bound) main
    (.start (.start library globals settings))

end Translation

end Stencil
