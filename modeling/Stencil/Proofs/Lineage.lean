import Stencil.Proofs.History

/-!
# `Stencil/Proofs/Lineage.lean` — templates that do nothing but extend one another

The simplest templates there are with anything of inheritance in them are text and then an `extend`,
or text only. What comes of such a template can be said without rendering it:
follow the targets from one template to the next, until there is no target, or none that is to be
found, or one that leads back. The templates on the way are the **lineage** of the first.

> A run writes the text of its lineage, as far as the limit allows, and it ends as the lineage does:
> well, or with a cycle, or too deep if the lineage is longer than the limit.

A lineage that closes a cycle just where the limit is reached is a cycle and not too deep, as a
template that is under way already is recognised before the limit is looked at. And in a library
that always finds another template a lineage need not have an end. Of such a one as much is listed
as one likes, and what matters is that it is longer than the limit.
-/

set_option autoImplicit false

namespace Stencil

open Stencil.Action

/-! ## Text and a link -/

/-- The body is text, and then nothing or an `extend` that goes to another template. What stands
after the `extend` does not matter. -/
inductive IsLink : Body → Prop
  | nil : IsLink []
  | text (s : String) {rest : Body} (h : IsLink rest) : IsLink (.text s :: rest)
  | extend (target : String) (overrides : Registry) (rest : Body) :
    IsLink (.extend target true overrides :: rest)

/-- The text that a body starts with. -/
def leadingText : Body → String
  | .text s :: rest => s ++ leadingText rest
  | _ => ""

/-- Where the `extend` goes that follows the text at the start of a body. -/
def successor? : Body → Option String
  | .text _ :: rest => successor? rest
  | .extend target true _ :: _ => some target
  | _ => none

/-- How a lineage ends. -/
inductive Ending where
  /-- With a template that extends none. -/
  | original
  /-- With a target that cannot be found. -/
  | missing (target : String)
  /-- With a template that is in the lineage already. -/
  | repeated (name : String)
  /-- Not with the last template listed. -/
  | further

/-- The lineage of a template, from itself on, and its end, where `entered` have come before it. -/
inductive Lineage (library : Library) : List String → Template → List Template → Ending → Prop
  | original {entered : List String} {m : Template} (last : successor? m.body = none) :
    Lineage library entered m [m] .original
  | missing {entered : List String} {m : Template} {target : String}
    (goes : successor? m.body = some target) (lost : library.find? target = none) :
    Lineage library entered m [m] (.missing target)
  | repeated {entered : List String} {m next : Template} {target : String}
    (goes : successor? m.body = some target) (found : library.find? target = some next)
    (known : next.name ∈ entered ++ [m.name]) :
    Lineage library entered m [m] (.repeated next.name)
  | further {entered : List String} {m next : Template} {target : String}
    (goes : successor? m.body = some target) (found : library.find? target = some next)
    (new : next.name ∉ entered ++ [m.name]) : Lineage library entered m [m] .further
  | step {entered : List String} {m next : Template} {target : String} {rest : List Template}
    {ending : Ending} (goes : successor? m.body = some target)
    (found : library.find? target = some next) (new : next.name ∉ entered ++ [m.name])
    (onward : Lineage library (entered ++ [m.name]) next rest ending) :
    Lineage library entered m (m :: rest) ending

/-- The names in a lineage. -/
def namesOf (stations : List Template) : List String := stations.map (·.name)

/-- What is written in a lineage. -/
def textOf (stations : List Template) : String :=
  String.join (stations.map fun station => leadingText station.body)

theorem textOf_nil : textOf [] = "" := rfl

theorem textOf_cons (m : Template) (rest : List Template) :
    textOf (m :: rest) = leadingText m.body ++ textOf rest := by
  simp [textOf]

namespace Lineage

variable {library : Library} {entered : List String} {m : Template} {stations : List Template}
  {ending : Ending}

/-- Either the lineage ends with the template, or a new one comes next. -/
theorem ends_or_goes_on (library : Library) (entered : List String) (m : Template) :
    (∃ ending, Lineage library entered m [m] ending ∧ ending ≠ .further) ∨
      ∃ target next, successor? m.body = some target ∧ library.find? target = some next ∧
        next.name ∉ entered ++ [m.name] := by
  cases goes : successor? m.body with
  | none => exact .inl ⟨_, .original goes, nofun⟩
  | some target =>
    cases found : library.find? target with
    | none => exact .inl ⟨_, .missing goes found, nofun⟩
    | some next =>
      by_cases known : next.name ∈ entered ++ [m.name]
      · exact .inl ⟨_, .repeated goes found known, nofun⟩
      · exact .inr ⟨target, next, rfl, found, known⟩

/-- A lineage goes on through new names only, so it has an end when only so many are left. -/
theorem exists_of_names (left entered : List String) (m : Template)
    (all : ∀ target next, library.find? target = some next → next.name ∉ entered ++ [m.name] →
      next.name ∈ left) :
    ∃ stations ending, Lineage library entered m stations ending ∧ ending ≠ .further := by
  rcases ends_or_goes_on library entered m with
    ⟨ending, here, ends⟩ | ⟨target, next, goes, found, new⟩
  · exact ⟨[m], ending, here, ends⟩
  · have mem := all target next found new
    have others : ∀ target' next', library.find? target' = some next' →
        next'.name ∉ entered ++ [m.name] ++ [next.name] → next'.name ∈ left.erase next.name := by
      intro target' next' found' unknown
      rw [List.mem_append, List.mem_singleton, not_or] at unknown
      exact (List.mem_erase_of_ne unknown.2).2 (all target' next' found' unknown.1)
    obtain ⟨rest, ending, onward, ends⟩ :=
      exists_of_names (left.erase next.name) (entered ++ [m.name]) next others
    exact ⟨m :: rest, ending, .step goes found new onward, ends⟩
termination_by left.length
decreasing_by
  have := List.length_pos_of_mem mem
  rw [List.length_erase_of_mem mem]
  omega

/-- A lineage has an end or can be followed as far as one likes. -/
theorem exists_of_length (library : Library) (length : Nat) (entered : List String)
    (m : Template) : ∃ stations ending, Lineage library entered m stations ending ∧
      (ending = .further → length < stations.length) := by
  induction length generalizing entered m with
  | zero =>
    rcases ends_or_goes_on library entered m with
      ⟨ending, here, ends⟩ | ⟨target, next, goes, found, new⟩
    · exact ⟨[m], ending, here, fun on => absurd on ends⟩
    · exact ⟨[m], .further, .further goes found new, fun _ => Nat.zero_lt_one⟩
  | succ length ih =>
    rcases ends_or_goes_on library entered m with
      ⟨ending, here, ends⟩ | ⟨target, next, goes, found, new⟩
    · exact ⟨[m], ending, here, fun on => absurd on ends⟩
    · obtain ⟨rest, ending, onward, long⟩ := ih (entered ++ [m.name]) next
      exact ⟨m :: rest, ending, .step goes found new onward, fun on => Nat.succ_lt_succ (long on)⟩

/-- No name is in a lineage twice. -/
theorem nodup (h : Lineage library entered m stations ending) (distinct : entered.Nodup)
    (new : m.name ∉ entered) : (entered ++ namesOf stations).Nodup := by
  have one {entered : List String} {m : Template} (distinct : entered.Nodup)
      (new : m.name ∉ entered) : (entered ++ [m.name]).Nodup := by
    grind [List.nodup_append]
  induction h with
  | original last => exact one distinct new
  | missing goes lost => exact one distinct new
  | repeated goes found known => exact one distinct new
  | further goes found unknown => exact one distinct new
  | step goes found unknown onward ih =>
    have rest := ih (one distinct new) unknown
    rwa [List.append_assoc] at rest

end Lineage

/-! ## Errors and text -/

/-- The render ends at this error, or well if there is none, and this has been written then. -/
structure Outcome.Leaves {α : Type} (o : Outcome α) (error? : Option RenderError) (text : String) :
    Prop where
  error : o.error? = error?
  output : o.session?.map (·.output) = some text

namespace Outcome.Leaves

variable {α β : Type} {error? : Option RenderError} {text : String}

theorem mapSession {o : Outcome α} {f : Session → Session} (h : o.Leaves error? text)
    (same : ∀ s, (f s).output = s.output) : (o.mapSession f).Leaves error? text := by
  obtain ⟨error, output⟩ := h
  cases o with
  | done a t => exact ⟨error, by rw [← output]; exact congrArg some (same t)⟩
  | failed e t => exact ⟨error, by rw [← output]; exact congrArg some (same t)⟩
  | exhausted => cases output

/-- What comes after and only gives a result changes nothing. -/
theorem bind_pure {x : Action α} {f : α → β} {s : Session} (h : (x s).Leaves error? text) :
    ((x >>= fun a => Pure.pure (f a)) s).Leaves error? text := by
  obtain ⟨error, output⟩ := h
  cases hx : x s with
  | done a t =>
    rw [hx] at error output
    rw [bind_done hx]
    exact ⟨error, output⟩
  | failed e t =>
    rw [hx] at error output
    rw [bind_failed hx]
    exact ⟨error, output⟩
  | exhausted => rw [hx] at output; cases output

theorem done {o : Outcome Unit} (h : o.Leaves none text) :
    ∃ t, o = .done () t ∧ t.output = text := by
  obtain ⟨error, output⟩ := h
  cases o with
  | done a t => exact ⟨t, rfl, Option.some.inj output⟩
  | failed e t => cases error
  | exhausted => cases output

theorem failed {o : Outcome Unit} {e : RenderError} (h : o.Leaves (some e) text) :
    ∃ t, o = .failed e t ∧ t.output = text := by
  obtain ⟨error, output⟩ := h
  cases o with
  | done a t => cases error
  | failed e' t =>
    cases error
    exact ⟨t, rfl, Option.some.inj output⟩
  | exhausted => cases output

end Outcome.Leaves

/-! ## Rendering one template of a lineage -/

/-- The session after this was written. -/
def Session.writing (s : Session) (text : String) : Session := { s with output := s.output ++ text }

/-- The session at the target of an `extend` that comes after this text. -/
def Session.extending (s : Session) (text : String) (overrides : Registry) : Session :=
  { s.writing text with context := s.context.addRegistry overrides }

theorem Session.writing_writing (s : Session) (text text' : String) :
    (s.writing text).writing text' = s.writing (text ++ text') := by
  simp only [writing, String.append_assoc]

namespace IsLink

variable {body : Body} {jump : Jump}

theorem render_last (h : IsLink body) (last : successor? body = none) (s : Session) :
    renderAllWith jump body s = .done .proceed (s.writing (leadingText body)) := by
  induction h generalizing s with
  | nil => simp [leadingText, Session.writing, renderAllWith, Pure.pure]
  | text text h ih =>
    have rest := ih last (s.writing text)
    rw [Session.writing_writing] at rest
    exact rest
  | extend target overrides rest => cases last

/-- Text, and then the target is followed or is missing. -/
theorem render_successor (jump : Jump) (h : IsLink body) {target : String}
    (goes : successor? body = some target) (s : Session) :
    ∃ overrides, renderAllWith jump body s =
      (do
        match s.context.library.find? target with
        | none => notify (.missingTemplate target)
        | some template => renderExtended jump template overrides
        return Flow.delegated : Action Flow) (s.writing (leadingText body)) := by
  induction h generalizing s with
  | nil => cases goes
  | text text h ih =>
    obtain ⟨overrides, rest⟩ := ih goes (s.writing text)
    rw [Session.writing_writing] at rest
    exact ⟨overrides, rest⟩
  | extend target' overrides rest =>
    cases goes
    refine ⟨overrides, ?_⟩
    have nothing : s.writing (leadingText (.extend target true overrides :: rest)) = s := by
      simp [Session.writing, leadingText]
    rw [nothing]
    simp only [renderAllWith, Statement.renderWith, if_true, bind_assoc]
    rw [context_bind]
    -- Either way the flow is `delegated`, and the rest of the body is left out.
    cases s.context.library.find? target <;> simp only [bind_assoc, pure_bind]

theorem leaves_missing (h : IsLink body) {target : String} (goes : successor? body = some target)
    {s : Session} (lost : s.context.library.find? target = none) :
    (renderAllWith jump body s).Leaves none (s.output ++ leadingText body) := by
  obtain ⟨overrides, rendered⟩ := h.render_successor jump goes s
  rw [rendered, lost]
  exact ⟨rfl, rfl⟩

theorem leaves_found (h : IsLink body) {target : String} (goes : successor? body = some target)
    {s : Session} {next : Template} (found : s.context.library.find? target = some next)
    {error? : Option RenderError} {text : String}
    (inside : ∀ overrides, (renderTemplate jump next
      (s.extending (leadingText body) overrides)).Leaves error? text) :
    (renderAllWith jump body s).Leaves error? text := by
  obtain ⟨overrides, rendered⟩ := h.render_successor jump goes s
  rw [rendered, found]
  have extended : (renderExtended jump next overrides (s.writing (leadingText body))).Leaves
      error? text := by
    rw [renderExtended_eq]
    exact (inside overrides).mapSession fun _ => rfl
  exact extended.bind_pure

end IsLink

section Rendering

variable {jump : Jump} {m : Template} {s : Session}

theorem renderTemplate_leaves {error? : Option RenderError} {text : String}
    (new : m.name ∉ s.context.active)
    (room : s.context.active.length < s.context.settings.maxDepth)
    (body : (jump m.body (s.inside m.name)).Leaves error? text) :
    (renderTemplate jump m s).Leaves error? text := by
  rw [renderTemplate_of_room new room]
  exact body.bind_pure.mapSession fun _ => rfl

theorem renderTemplate_refused {e : RenderError} (he : s.context.enterTemplate m.name = .error e) :
    (renderTemplate jump m s).Leaves (some e) s.output := by
  rw [renderTemplate_of_error he]
  exact ⟨rfl, rfl⟩

end Rendering

/-! ## Lineages -/

/-- The error of a run whose lineage has these names and this end, under a limit. -/
def Ending.error? (limit : Nat) (names : List String) (ending : Ending) : Option RenderError :=
  if limit < names.length then some (.tooDeep (limit + 1) limit)
  else
    match ending with
    | .original | .missing _ | .further => none
    | .repeated name => some (.cycle (names ++ [name]))

theorem Ending.error?_of_lt {limit : Nat} {names : List String} (lt : limit < names.length)
    (ending : Ending) : ending.error? limit names = some (.tooDeep (limit + 1) limit) :=
  if_pos lt

theorem Ending.error?_of_le {limit : Nat} {names : List String} (le : names.length ≤ limit)
    (ending : Ending) : ending.error? limit names =
      match ending with
      | .original | .missing _ | .further => none
      | .repeated name => some (.cycle (names ++ [name])) :=
  if_neg (Nat.not_lt.2 le)

section Stations

variable {library : Library} {m : Template} {ending : Ending}

/-- The first template of a lineage: it is rendered if there is room for it, and otherwise the
lineage is too long. -/
theorem renderTemplate_station {rest : List Template} {bound : Nat} {s : Session} {limit : Nat}
    (hd : s.context.settings.maxDepth = limit) (enough : (m :: rest).length ≤ bound)
    (new : m.name ∉ s.context.active) (within : s.context.active.length ≤ limit)
    (body : ∀ bound, rest.length ≤ bound → s.context.active.length < limit →
      (renderAllWith (jumpWithin bound) m.body (s.inside m.name)).Leaves
        (ending.error? limit (s.context.active ++ namesOf (m :: rest)))
        (s.output ++ leadingText m.body ++
          textOf (rest.take (limit - (s.context.active.length + 1))))) :
    (renderTemplate (jumpWithin bound) m s).Leaves
      (ending.error? limit (s.context.active ++ namesOf (m :: rest)))
      (s.output ++ textOf ((m :: rest).take (limit - s.context.active.length))) := by
  rcases Nat.lt_or_eq_of_le within with room | full
  · cases bound with
    | zero => exact absurd enough (Nat.not_succ_le_zero _)
    | succ bound =>
      have text := body bound (Nat.le_of_succ_le_succ enough) room
      rw [String.append_assoc, ← textOf_cons, ← List.take_succ_cons] at text
      have fits : limit - s.context.active.length = limit - (s.context.active.length + 1) + 1 := by
        omega
      rw [fits]
      exact renderTemplate_leaves new (by rw [hd]; exact room) text
  · have long : limit < (s.context.active ++ namesOf (m :: rest)).length := by
      simp only [namesOf, List.map_cons, List.length_append, List.length_cons]
      omega
    have refused := Context.enterTemplate_eq_error_iff.2
      (.inr ⟨new, by rw [hd]; exact Nat.le_of_eq full.symm, rfl⟩)
    have ends : (renderTemplate (jumpWithin bound) m s).Leaves _ _ := renderTemplate_refused refused
    rw [full, hd] at ends
    rwa [Ending.error?_of_lt long, full, Nat.sub_self, List.take_zero, textOf_nil,
      String.append_empty]

/-- A template is rendered as its lineage says, from any context where it is new, if enough of the
lineage is listed. -/
theorem Lineage.renders {entered : List String} {stations : List Template}
    (h : Lineage library entered m stations ending)
    (links : ∀ target template, library.find? target = some template → IsLink template.body)
    (link : IsLink m.body) (new : m.name ∉ entered) {bound : Nat} (enough : stations.length ≤ bound)
    {limit : Nat} (within : entered.length ≤ limit)
    (long : ending = .further → limit < entered.length + stations.length) {s : Session}
    (hl : s.context.library = library) (ha : s.context.active = entered)
    (hd : s.context.settings.maxDepth = limit) :
    (renderTemplate (jumpWithin bound) m s).Leaves
      (ending.error? limit (entered ++ namesOf stations))
      (s.output ++ textOf (stations.take (limit - entered.length))) := by
  induction h generalizing bound s with
  | @original entered m last =>
    subst ha
    refine renderTemplate_station hd enough new within fun bound _ room => ?_
    have fits : (s.context.active ++ namesOf [m]).length ≤ limit := by simp [namesOf]; omega
    rw [Ending.error?_of_le fits, List.take_nil, textOf_nil, String.append_empty,
      link.render_last last]
    exact ⟨rfl, rfl⟩
  | @missing entered m target goes lost =>
    subst ha hl
    refine renderTemplate_station hd enough new within fun bound _ room => ?_
    have fits : (s.context.active ++ namesOf [m]).length ≤ limit := by simp [namesOf]; omega
    rw [Ending.error?_of_le fits, List.take_nil, textOf_nil, String.append_empty]
    exact link.leaves_missing (s := s.inside m.name) goes lost
  | @repeated entered m next target goes found known =>
    subst ha hl
    refine renderTemplate_station hd enough new within fun bound _ room => ?_
    have fits : (s.context.active ++ namesOf [m]).length ≤ limit := by simp [namesOf]; omega
    rw [Ending.error?_of_le fits, List.take_nil, textOf_nil, String.append_empty]
    refine link.leaves_found (s := s.inside m.name) goes found fun overrides => ?_
    -- The limit plays no part here, even where it is reached.
    refine renderTemplate_refused (s := (s.inside m.name).extending _ overrides) ?_
    exact Context.enterTemplate_eq_error_iff.2 (.inl ⟨known, rfl⟩)
  | @further entered m next target goes found unknown =>
    subst ha
    refine renderTemplate_station hd enough new within fun bound _ room => ?_
    -- What is listed is longer than the limit, so for the last template there is no room.
    exact absurd (long rfl) (Nat.not_lt.2 room)
  | @step entered m next target rest ending goes found unknown onward ih =>
    subst ha hl
    refine renderTemplate_station hd enough new within fun bound enough room => ?_
    refine link.leaves_found (s := s.inside m.name) goes found fun overrides => ?_
    have more : (s.context.active ++ [m.name]).length ≤ limit := by
      rw [List.length_append, List.length_singleton]
      exact room
    have longer : ending = .further →
        limit < (s.context.active ++ [m.name]).length + rest.length := by
      intro on
      have := long on
      simp only [List.length_append, List.length_cons, List.length_nil] at this ⊢
      omega
    have onward := ih (links target next found) unknown enough more longer
      (s := (s.inside m.name).extending (leadingText m.body) overrides) rfl rfl hd
    rw [List.length_append, List.length_singleton, List.append_assoc] at onward
    exact onward

end Stations

/-- **A run of templates that are text and a link does what their lineage says.** There is a lineage
with an end if the templates have only so many names, and in any library one with an end or one that
is longer than the limit. No name is in it twice. If it is within the limit, all its text is
written, and the run is done or, where the lineage leads back to a template, fails with the cycle.
If it is too long, as much is written as the limit allows, and the run fails for that. -/
theorem run_follows_lineage (main : Template) (library : Library) (globals : Scope) (limit : Nat)
    (link : IsLink main.body)
    (links : ∀ target template, library.find? target = some template → IsLink template.body) :
    (∃ stations ending, Lineage library [] main stations ending ∧
      (ending = .further → limit < stations.length)) ∧
    (∀ names : List String,
      (∀ target template, library.find? target = some template → template.name ∈ names) →
        ∃ stations ending, Lineage library [] main stations ending ∧ ending ≠ .further) ∧
    ∀ stations ending, Lineage library [] main stations ending →
      (ending = .further → limit < stations.length) →
      (namesOf stations).Nodup ∧
      ∀ bound, stations.length ≤ bound →
        let o := main.run bound library globals ⟨limit⟩
        (stations.length ≤ limit →
          match ending with
          | .original | .missing _ => ∃ t, o = .done () t ∧ t.output = textOf stations
          | .repeated name => ∃ t, o = .failed (.cycle (namesOf stations ++ [name])) t ∧
              t.output = textOf stations
          | .further => False) ∧
        (limit < stations.length →
          ∃ t, o = .failed (.tooDeep (limit + 1) limit) t ∧
            t.output = textOf (stations.take limit)) := by
  refine ⟨Lineage.exists_of_length library limit [] main, fun names named => ?_, ?_⟩
  · exact Lineage.exists_of_names names [] main fun target next found _ => named target next found
  intro stations ending lineage long
  have distinct := lineage.nodup List.nodup_nil List.not_mem_nil
  refine ⟨distinct, fun bound enough => ?_⟩
  have ends := lineage.renders links link List.not_mem_nil enough (Nat.zero_le limit)
    (fun on => by rw [List.length_nil, Nat.zero_add]; exact long on)
    (s := .start (.start library globals ⟨limit⟩)) rfl rfl rfl
  have names : (namesOf stations).length = stations.length := List.length_map _
  simp only [List.nil_append, List.length_nil, Nat.sub_zero, Session.start,
    String.empty_append] at ends
  constructor
  · intro short
    rw [Ending.error?_of_le (by rw [names]; exact short), List.take_of_length_le short] at ends
    cases ending with
    | original => exact ends.done
    | missing target => exact ends.done
    | repeated name => exact ends.failed
    | further => exact absurd (long rfl) (Nat.not_lt.2 short)
  · intro long
    rw [Ending.error?_of_lt (by rw [names]; exact long)] at ends
    exact ends.failed

/-- A lineage that closes a cycle just where the limit is reached. -/
theorem run_follows_lineage_round :
    let main : Template := ⟨"a", [.text "1", .extend "b" true [], .text "no"]⟩
    let b : Template := ⟨"b", [.text "2", .extend "c" true [("main", [.text "no"])]]⟩
    let c : Template := ⟨"c", [.text "3", .text "4", .extend "b" true []]⟩
    let library : Library := .ofList [b, c]
    IsLink main.body ∧
      (∀ target template, library.find? target = some template → IsLink template.body) ∧
      Lineage library [] main [main, b, c] (.repeated "b") ∧
      ∃ t, main.run 3 library .empty ⟨3⟩ = .failed (.cycle ["a", "b", "c", "b"]) t ∧
        t.output = "1234" := by
  intro main b c library
  have link : IsLink main.body := .text _ (.extend _ _ _)
  have links : ∀ target template, library.find? target = some template →
      IsLink template.body := by
    intro target template found
    have mem : template ∈ [b, c] := (Library.mem_of_find?_ofList found).1
    simp only [List.mem_cons, List.not_mem_nil, or_false] at mem
    rcases mem with rfl | rfl
    · exact .text _ (.extend _ _ _)
    · exact .text _ (.text _ (.extend _ _ _))
  have foundB : library.find? "b" = some b := rfl
  have foundC : library.find? "c" = some c := rfl
  have lineage : Lineage library [] main [main, b, c] (.repeated "b") :=
    .step rfl foundB (by decide) (.step rfl foundC (by decide) (.repeated rfl foundB (by decide)))
  obtain ⟨-, -, lineages⟩ := run_follows_lineage main library .empty 3 link links
  obtain ⟨-, runs⟩ := lineages _ _ lineage nofun
  exact ⟨link, links, lineage, (runs 3 (by decide)).1 (by decide)⟩

end Stencil
