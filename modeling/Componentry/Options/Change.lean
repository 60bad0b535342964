import Componentry.Options.Basic

/-!
# Late edits

The options of a class may be edited after they were merged. Comparing them with the copy that
was kept when they were merged gives the parts that were edited, and these are carried over when
the options have to be merged again.

- `Options.changesSince`: the edited parts, if any.
- `Options.carry`: laying edited parts over options.
-/

namespace Componentry

open Json (Value)

/-- `live` where it is not the same as `kept`, and whether that is so. -/
def changedIf {α : Type} (same : Bool) (live : Option α) : Option α × Bool :=
  if same then (none, false) else (live, true)

/-- Whether two optional values agree. -/
def sameOptional {α : Type} (eq : α → α → Bool) (a b : Option α) : Bool :=
  match a, b with
  | some a, some b => eq a b
  | none, none => true
  | _, _ => false

/-- Data of one kind held by one object. -/
def sameSource (a b : Option (Placed DataSource)) : Bool :=
  sameOptional (fun a b => a.value.isRecord == b.value.isRecord && a.same b) a b

/-- Extra options that are new or have a new value. -/
def changedExtra (live kept : Dict Value) : Dict Value :=
  live.filter fun e =>
    match Dict.get? kept e.1 with
    | some v => !(e.2.same v)
    | none => true

/-- The parts of `live` that are not those of `kept`; `none` if all are. A part that was taken
away counts as a change but leaves nothing to carry. -/
def Options.changesSince (live kept : Options) : Option Options :=
  let l := live.fields
  let k := kept.fields
  let (name, c1) := changedIf (l.name == k.name) l.name
  let (data, c2) := changedIf (sameSource l.data k.data) l.data
  let (props, c3) := changedIf (Placed.sameOption l.props k.props) l.props
  let (computed, c4) := changedIf (Placed.sameOption l.computed k.computed) l.computed
  let (methods, c5) := changedIf (Placed.sameOption l.methods k.methods) l.methods
  let (watch, c6) := changedIf (Placed.sameOption l.watch k.watch) l.watch
  let (inject, c7) := changedIf (Placed.sameOption l.inject k.inject) l.inject
  let (provide, c8) := changedIf (sameSource l.provide k.provide) l.provide
  let (hooks, c9) := changedIf (Placed.sameOption l.hooks k.hooks) l.hooks
  let (errorCaptured, c10) :=
    changedIf (Placed.sameOption l.errorCaptured k.errorCaptured) l.errorCaptured
  let (directives, c11) := changedIf (Placed.sameOption l.directives k.directives) l.directives
  let (filters, c12) := changedIf (Placed.sameOption l.filters k.filters) l.filters
  let (template, c13) :=
    changedIf (sameOptional TemplateSource.same l.template k.template) l.template
  let (render, c14) := changedIf (Placed.sameOption l.render k.render) l.render
  let (staticRenderFns, c15) :=
    changedIf (Placed.sameOption l.staticRenderFns k.staticRenderFns) l.staticRenderFns
  let (el, c16) := changedIf (l.el == k.el) l.el
  let (delimiters, c17) := changedIf (l.delimiters == k.delimiters) l.delimiters
  let (comments, c18) := changedIf (l.comments == k.comments) l.comments
  let (isAbstract, c19) := changedIf (l.isAbstract == k.isAbstract) l.isAbstract
  let extra := changedExtra l.extra k.extra
  let (components, c20) :=
    changedIf (Placed.sameOption live.components kept.components) live.components
  let (mixins, c21) := changedIf (Placed.sameOption live.mixins kept.mixins) live.mixins
  let (base, c22) := changedIf (Placed.sameOption live.base kept.base) live.base
  if [c1, c2, c3, c4, c5, c6, c7, c8, c9, c10, c11, c12, c13, c14, c15, c16, c17, c18, c19, c20,
      c21, c22, !extra.isEmpty].any id then
    some {
      fields := {
        name, data, props, computed, methods, watch, inject, provide, hooks, errorCaptured,
        directives, filters, template, render, staticRenderFns, el, delimiters, comments,
        isAbstract, extra }
      components, mixins, base }
  else none

/-- `o` with every part that `changes` has. -/
def Options.carry (o changes : Options) : Options :=
  let f := o.fields
  let c := changes.fields
  { o with
    fields := {
      name := c.name <|> f.name
      data := c.data <|> f.data
      props := c.props <|> f.props
      computed := c.computed <|> f.computed
      methods := c.methods <|> f.methods
      watch := c.watch <|> f.watch
      inject := c.inject <|> f.inject
      provide := c.provide <|> f.provide
      hooks := c.hooks <|> f.hooks
      errorCaptured := c.errorCaptured <|> f.errorCaptured
      directives := c.directives <|> f.directives
      filters := c.filters <|> f.filters
      template := c.template <|> f.template
      render := c.render <|> f.render
      staticRenderFns := c.staticRenderFns <|> f.staticRenderFns
      el := c.el <|> f.el
      delimiters := c.delimiters <|> f.delimiters
      comments := c.comments <|> f.comments
      isAbstract := c.isAbstract <|> f.isAbstract
      extra := Dict.overlay f.extra c.extra }
    components := changes.components <|> o.components
    mixins := changes.mixins <|> o.mixins
    base := changes.base <|> o.base }

end Componentry
