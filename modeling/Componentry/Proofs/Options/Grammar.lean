import Componentry.Options.OfJson

/-!
# The grammar of definitions in JSON

Which values are definitions, told apart from how they are read. A form says what the outside of a
value must be and gives forms to what is inside. A value fits if its outside does and all inside
fits, to any depth; and what is wrong with a value that does not fit is the first thing wrong,
what comes first in the value before what comes later, and what is inside before what comes behind.

- `Form`, `Form.parts?`: the forms, and what is inside a value of a form.
- `formOf`: the forms of the keys of a definition.
- `Fits`, `FirstOffence`: a value **fits**, or there is a **first offence**, and not both.
- `Judged`: a reader accepts what fits and refuses the rest with the first offence.
- `judged_ofJson?`: **definitions** are read so, with all that is nested in them.
-/

namespace Componentry

open Json (Value Record)

/-! ## Forms -/

/-- What a value is required to be. -/
inductive Form where
  | definition
  | anything
  | text (option expected : String)
  | flag (option : String)
  | record (option : String)
  | pair (option : String)
  | props
  | prop
  | inject
  | injection
  | watch
  | watchers
  | mixins
  | components

/-- The keys of a definition that have a meaning, with the forms of their values. -/
def keyForms : List (String × Form) :=
  [("name", .text "name" "a string"), ("props", .props), ("data", .record "data"),
    ("provide", .record "provide"), ("inject", .inject), ("watch", .watch),
    ("template", .anything), ("el", .text "el" "a selector string"),
    ("delimiters", .pair "delimiters"), ("comments", .flag "comments"),
    ("abstract", .flag "abstract"), ("mixins", .mixins), ("extends", .definition),
    ("components", .components)]

/-- The form of the value of a key. -/
def formOf (key : String) : Form := (keyForms.lookup key).getD .anything

/-- Whether a value stands for a type of props: its name, plain or as the only field of an object. -/
def isTypeName : Value → Bool
  | .str s => PropType.all.any (·.name == s)
  | .obj [(s, .null)] => PropType.all.any (·.name == s)
  | _ => false

/-- Whether the details of a prop are in order. -/
def describesProp (details : Record) : Bool :=
  (match Dict.get? details "types" with
    | none => true
    | some (.arr items) => items.all isTypeName
    | some _ => false) &&
  match Dict.get? details "required" with
    | none => true
    | some (.bool _) => true
    | some _ => false

namespace Form

/-- The option that is said to be wrong, and what is expected of it. -/
def asks : Form → String × String
  | definition => ("<definition>", "an object")
  | anything => ("", "anything")
  | text option expected => (option, expected)
  | flag option => (option, "a boolean")
  | record option => (option, "an object")
  | pair option => (option, "a pair of strings")
  | props => ("props", "an array or object")
  | prop => ("props", "a prop descriptor")
  | inject => ("inject", "an array or object")
  | injection => ("inject", "a string or object")
  | watch => ("watch", "an object")
  | watchers => ("watch", "a method name or list")
  | mixins => ("mixins", "an array")
  | components => ("components", "an object")

/-- The parts of a value, each with the form that it must have, if the outside of the value is right.
They are in the order of the value, for an object that of its keys. -/
def parts? : Form → Value → Option (List (Form × Value))
  | definition, v => v.obj?.map fun fields => fields.map fun e => (formOf e.1, e.2)
  | anything, _ => some []
  | text _ _, v => v.str?.map fun _ => []
  | flag _, v => v.bool?.map fun _ => []
  | record _, v => v.obj?.map fun _ => []
  | pair _, v =>
    match v with
    | .arr [.str _, .str _] => some []
    | _ => none
  | props, v =>
    match v with
    | .arr items => some (items.map fun v => (text "props" "an array of strings", v))
    | .obj entries => some (entries.map fun e => (prop, e.2))
    | _ => none
  | prop, v =>
    match v with
    | .null => some []
    | .str _ => some []
    | .obj details => if describesProp details then some [] else none
    | _ => none
  | inject, v =>
    match v with
    | .arr items => some (items.map fun v => (text "inject" "an array of strings", v))
    | .obj entries => some (entries.map fun e => (injection, e.2))
    | _ => none
  | injection, v =>
    match v with
    | .str _ => some []
    | .obj _ => some []
    | _ => none
  | watch, v => v.obj?.map fun entries => entries.map fun e => (watchers, e.2)
  | watchers, v =>
    match v with
    | .str _ => some []
    | .arr items => some (items.map fun v => (text "watch" "a method name", v))
    | _ => none
  | mixins, v => v.arr?.map fun items => items.map fun v => (definition, v)
  | components, v => v.obj?.map fun entries => entries.map fun e => (definition, e.2)

/-- What is said of a value whose outside is wrong. -/
def refusal (form : Form) (v : Value) : Error := .invalid form.asks.1 form.asks.2 v

end Form

/-- **A value fits a form**: its outside is right, and all its parts fit. -/
inductive Fits : Form → Value → Prop
  | mk {form : Form} {v : Value} {parts : List (Form × Value)} (houtside : form.parts? v = some parts)
      (hparts : ∀ p ∈ parts, Fits p.1 p.2) : Fits form v

/-- **The first offence** of a value against a form: its outside is wrong, or else there is one in
a part, and the parts before that one fit. -/
inductive FirstOffence : Form → Value → Error → Prop
  | outside {form : Form} {v : Value} (houtside : form.parts? v = none) :
      FirstOffence form v (form.refusal v)
  | inside {form : Form} {v : Value} {before after : List (Form × Value)} {p : Form × Value}
      {e : Error} (houtside : form.parts? v = some (before ++ p :: after))
      (hbefore : ∀ q ∈ before, Fits q.1 q.2) (hpart : FirstOffence p.1 p.2 e) :
      FirstOffence form v e

variable {form : Form} {v : Value} {e e' : Error} {parts : List (Form × Value)}

theorem Fits.of_leaf (h : form.parts? v = some []) : Fits form v := .mk h nofun

/-- What fits has no offence. -/
theorem Fits.not_firstOffence (h : Fits form v) (e : Error) : ¬ FirstOffence form v e := by
  induction h generalizing e with
  | @mk form v parts houtside hparts ih =>
    intro hoffence
    cases hoffence with
    | outside hwrong =>
      rw [houtside] at hwrong
      cases hwrong
    | @inside _ _ before after p _ hright hbefore hpart =>
      rw [houtside] at hright
      cases hright
      exact ih p (List.mem_append_right _ List.mem_cons_self) e hpart

/-- There is only one first offence. -/
theorem FirstOffence.unique (h : FirstOffence form v e) (h' : FirstOffence form v e') : e = e' := by
  induction h with
  | outside houtside =>
    cases h' with
    | outside _ => rfl
    | inside hright _ _ =>
      rw [houtside] at hright
      cases hright
  | @inside form v before after p e houtside hbefore hpart ih =>
    cases h' with
    | outside hwrong =>
      rw [houtside] at hwrong
      cases hwrong
    | @inside _ _ before' after' p' _ hright hbefore' hpart' =>
      rw [houtside, Option.some.injEq, List.append_eq_append_iff] at hright
      -- of two parts with an offence the first one is not among those that fit
      rcases hright with ⟨gap, rfl, hrest⟩ | ⟨gap, rfl, hrest⟩
      · cases gap with
        | nil =>
          cases hrest
          exact ih hpart'
        | cons q gap =>
          cases hrest
          exact absurd hpart ((hbefore' p (by simp)).not_firstOffence e)
      · cases gap with
        | nil =>
          cases hrest
          exact ih hpart'
        | cons q gap =>
          cases hrest
          exact absurd hpart' ((hbefore p' (by simp)).not_firstOffence _)

/-! ## Readers -/

section

variable {α β γ : Type} {x : Except Error α}

/-- What a reader makes of a value says whether the value fits. -/
def Judged (form : Form) (v : Value) : Except Error α → Prop
  | .ok _ => Fits form v
  | .error e => FirstOffence form v e

/-- What a reader makes of parts in a row says whether all of them fit, and else what is wrong with
the first one that does not. -/
def JudgedAll (parts : List (Form × Value)) : Except Error α → Prop
  | .ok _ => ∀ p ∈ parts, Fits p.1 p.2
  | .error e => ∃ before p after, parts = before ++ p :: after ∧
      (∀ q ∈ before, Fits q.1 q.2) ∧ FirstOffence p.1 p.2 e

theorem Judged.then_return (h : Judged form v x) (f : α → β) :
    Judged form v (do return f (← x)) := by
  cases x <;> exact h

/-- A reader that sees to the parts of a value sees to the value. -/
theorem JudgedAll.judged (h : JudgedAll parts x) (houtside : form.parts? v = some parts) :
    Judged form v x := by
  cases x with
  | ok a => exact .mk houtside h
  | error e =>
    obtain ⟨before, p, after, rfl, hbefore, hpart⟩ := h
    exact .inside houtside hbefore hpart

theorem judgedAll_nil (a : α) : JudgedAll [] (.ok a : Except Error α) := nofun

/-- Behind a part that fits. -/
theorem JudgedAll.cons {p : Form × Value} (h : JudgedAll parts x) (hp : Fits p.1 p.2) :
    JudgedAll (p :: parts) x := by
  cases x with
  | ok a => exact List.forall_mem_cons.mpr ⟨hp, h⟩
  | error e =>
    obtain ⟨before, q, after, rfl, hbefore, hpart⟩ := h
    exact ⟨p :: before, q, after, rfl, List.forall_mem_cons.mpr ⟨hp, hbefore⟩, hpart⟩

/-- **One part more**: it is read first, and what comes behind only if it fits. -/
theorem judgedAll_cons {y : Except Error β} (h : Judged form v x)
    (herror : ∀ e, x = .error e → y = .error e) (hok : ∀ a, x = .ok a → JudgedAll parts y) :
    JudgedAll ((form, v) :: parts) y := by
  cases hx : x with
  | ok a =>
    rw [hx] at h
    exact (hok a hx).cons h
  | error e =>
    rw [hx] at h
    rw [herror e hx]
    exact ⟨[], (form, v), parts, rfl, nofun, h⟩

theorem JudgedAll.map (h : JudgedAll parts x) (f : α → β) : JudgedAll parts (x.map f) := by
  cases x <;> exact h

theorem JudgedAll.then_return (h : JudgedAll parts x) (f : α → β) :
    JudgedAll parts (do return f (← x)) := by
  cases x <;> exact h

/-- Entries that are read one by one. -/
theorem judgedAll_mapM {part : γ → Form × Value} {f : γ → Except Error α}
    (h : ∀ c, Judged (part c).1 (part c).2 (f c)) (cs : List γ) :
    JudgedAll (cs.map part) (cs.mapM f) := by
  induction cs with
  | nil => exact judgedAll_nil []
  | cons c cs ih =>
    rw [List.map_cons, List.mapM_cons]
    refine judgedAll_cons (h c) (fun e he => ?_) fun a ha => ?_
    · rw [he]
      rfl
    · rw [ha]
      exact ih.then_return (a :: ·)

end

/-! ### Values without definitions in them -/

theorem judged_textOf (option expected : String) (v : Value) :
    Judged (.text option expected) v (textOf option expected v) := by
  cases v with
  | str s => exact .of_leaf rfl
  | _ => exact .outside rfl

theorem judged_flagOf (option : String) (v : Value) : Judged (.flag option) v (flagOf option v) := by
  cases v with
  | bool b => exact .of_leaf rfl
  | _ => exact .outside rfl

theorem judged_recordOf (option : String) (v : Value) :
    Judged (.record option) v (recordOf option v) := by
  cases v with
  | obj fields => exact .of_leaf rfl
  | _ => exact .outside rfl

theorem judged_pairOf (option : String) (v : Value) : Judged (.pair option) v (pairOf option v) := by
  by_cases hpair : ∃ a b, v = .arr [.str a, .str b]
  · obtain ⟨a, b, rfl⟩ := hpair
    exact .of_leaf rfl
  · have hno : ∀ a b, v = .arr [.str a, .str b] → False := fun a b h => hpair ⟨a, b, h⟩
    rw [pairOf.eq_2 option v hno]
    refine .outside ?_
    rw [Form.parts?]
    exact hno

theorem judgedAll_textsOf (option expected : String) (items : List Value) :
    JudgedAll (items.map fun v => (.text option expected, v)) (textsOf option expected items) := by
  induction items with
  | nil => exact judgedAll_nil []
  | cons v items ih =>
    cases v with
    | str s => exact (ih.map (s :: ·)).cons (.of_leaf rfl)
    | _ => exact ⟨[], _, _, rfl, nofun, .outside rfl⟩

theorem ofName?_isSome (s : String) :
    (PropType.ofName? s).isSome = PropType.all.any (·.name == s) := by
  rw [PropType.ofName?, List.isSome_find?]

theorem propTypeOf?_isSome (v : Value) : (propTypeOf? v).isSome = isTypeName v := by
  unfold propTypeOf?
  split
  · exact ofName?_isSome _
  · exact ofName?_isSome _
  · rename_i htext hobject
    exact (isTypeName.eq_3 v htext hobject).symm

theorem mapM_isSome {α β : Type} (f : α → Option β) (as : List α) :
    (as.mapM f).isSome = as.all fun a => (f a).isSome := by
  induction as with
  | nil => rfl
  | cons a as ih =>
    rw [List.mapM_cons, List.all_cons, ← ih]
    cases f a with
    | none => rfl
    | some b => cases as.mapM f <;> rfl

/-- The details of a prop are read if and only if they are in order. -/
theorem propOptionsOf?_isSome (details : Record) :
    (propOptionsOf? details).isSome = describesProp details := by
  have hitems : ∀ items : List Value,
      (items.mapM propTypeOf?).isSome = items.all isTypeName := fun items => by
    rw [mapM_isSome]
    exact congrArg (List.all items) (funext propTypeOf?_isSome)
  unfold propOptionsOf? describesProp
  generalize Dict.get? details "types" = types
  generalize Dict.get? details "required" = required
  rcases types with - | types
  · rcases required with - | (_ | _ | _ | _ | _ | _) <;> rfl
  · rcases types with _ | _ | _ | _ | items | _
    case arr =>
      show ((items.mapM propTypeOf?).bind _).isSome = (items.all isTypeName && _)
      rw [← hitems]
      cases items.mapM propTypeOf? with
      | none => rfl
      | some types => rcases required with - | (_ | _ | _ | _ | _ | _) <;> rfl
    all_goals rfl

theorem judged_propOf (v : Value) : Judged .prop v (propOf v) := by
  cases v with
  | null => exact .of_leaf rfl
  | str s => exact .of_leaf rfl
  | obj details =>
    have hdetails := propOptionsOf?_isSome details
    rw [propOf]
    cases ho : propOptionsOf? details with
    | some o =>
      rw [ho] at hdetails
      exact .of_leaf (if_pos hdetails.symm)
    | none =>
      rw [ho] at hdetails
      exact .outside (if_neg (by rw [← hdetails]; exact Bool.false_ne_true))
  | _ => exact .outside rfl

theorem judged_propsOf (v : Value) : Judged .props v (propsOf v) := by
  cases v with
  | arr items =>
    exact ((judgedAll_textsOf _ "an array of strings" items).map _).judged rfl
  | obj entries =>
    refine JudgedAll.judged (JudgedAll.then_return ?_ _) rfl
    exact judgedAll_mapM (fun e => (judged_propOf e.2).then_return _) entries
  | _ => exact .outside rfl

theorem judged_injectionOf (key : String) (v : Value) :
    Judged .injection v (injectionOf key v) := by
  cases v with
  | str s => exact .of_leaf rfl
  | obj fields => exact .of_leaf rfl
  | _ => exact .outside rfl

theorem judged_injectOf (v : Value) : Judged .inject v (injectOf v) := by
  cases v with
  | arr items =>
    exact ((judgedAll_textsOf _ "an array of strings" items).map _).judged rfl
  | obj entries =>
    refine JudgedAll.judged (JudgedAll.then_return ?_ _) rfl
    exact judgedAll_mapM (fun e => (judged_injectionOf e.1 e.2).then_return _) entries
  | _ => exact .outside rfl

theorem judged_watchersOf (v : Value) : Judged .watchers v (watchersOf v) := by
  cases v with
  | str s => exact .of_leaf rfl
  | arr items => exact ((judgedAll_textsOf "watch" "a method name" items).then_return _).judged rfl
  | _ => exact .outside rfl

theorem judged_watchOf (v : Value) : Judged .watch v (watchOf v) := by
  cases v with
  | obj entries =>
    exact (judgedAll_mapM (fun e => (judged_watchersOf e.2).then_return _) entries).judged rfl
  | _ => exact .outside rfl

/-! ### Fields -/

/-- A key without a meaning may have any value. -/
theorem formOf_of_notMem {key : String} (h : key ∉ keyForms.map Prod.fst) :
    formOf key = .anything := by
  have hnone : keyForms.lookup key = none := List.lookup_eq_none_iff.mpr fun e he =>
    bne_iff_ne.mpr fun heq => h (List.mem_map.mpr ⟨e, he, heq.symm⟩)
  rw [formOf, hnone]
  rfl

/-- What a value is as a template. -/
def templateOf : Value → TemplateSource
  | .str s => .markup s
  | v => .invalid v

/-- **The keys** of a definition that hold no definitions: what is said of each of them, and of those
without a meaning, is said of all. -/
theorem Fields.setJson_cases {motive : String → Except Error Fields → Prop} (f : Fields) (v : Value)
    (name : motive "name" (do return { f with name := some (← textOf "name" "a string" v) }))
    (props : motive "props" (do return { f with props := some (.new (← propsOf v)) }))
    (data : motive "data"
      (do return { f with data := some (.new (.record (← recordOf "data" v))) }))
    (provide : motive "provide"
      (do return { f with provide := some (.new (.record (← recordOf "provide" v))) }))
    (inject : motive "inject" (do return { f with inject := some (.new (← injectOf v)) }))
    (watch : motive "watch" (do return { f with watch := some (.new (← watchOf v)) }))
    (template : motive "template" (.ok { f with template := some (templateOf v) }))
    (el : motive "el"
      (do return { f with el := some (.selector (← textOf "el" "a selector string" v)) }))
    (delimiters : motive "delimiters"
      (do return { f with delimiters := some (← pairOf "delimiters" v) }))
    (comments : motive "comments" (do return { f with comments := some (← flagOf "comments" v) }))
    (abstract : motive "abstract"
      (do return { f with isAbstract := some (← flagOf "abstract" v) }))
    (other : ∀ key, key ∉ keyForms.map Prod.fst →
      motive key (.ok { f with extra := Dict.insert key v f.extra }))
    {key : String} (hmixins : key ≠ "mixins") (hextends : key ≠ "extends")
    (hcomponents : key ≠ "components") : motive key (f.setJson key v) := by
  unfold Fields.setJson
  by_cases hname : key = "name"
  · rw [if_pos hname, hname]
    exact name
  rw [if_neg hname]
  by_cases hprops : key = "props"
  · rw [if_pos hprops, hprops]
    exact props
  rw [if_neg hprops]
  by_cases hdata : key = "data"
  · rw [if_pos hdata, hdata]
    exact data
  rw [if_neg hdata]
  by_cases hprovide : key = "provide"
  · rw [if_pos hprovide, hprovide]
    exact provide
  rw [if_neg hprovide]
  by_cases hinject : key = "inject"
  · rw [if_pos hinject, hinject]
    exact inject
  rw [if_neg hinject]
  by_cases hwatch : key = "watch"
  · rw [if_pos hwatch, hwatch]
    exact watch
  rw [if_neg hwatch]
  by_cases htemplate : key = "template"
  · rw [if_pos htemplate, htemplate]
    exact template
  rw [if_neg htemplate]
  by_cases hel : key = "el"
  · rw [if_pos hel, hel]
    exact el
  rw [if_neg hel]
  by_cases hdelimiters : key = "delimiters"
  · rw [if_pos hdelimiters, hdelimiters]
    exact delimiters
  rw [if_neg hdelimiters]
  by_cases hcomments : key = "comments"
  · rw [if_pos hcomments, hcomments]
    exact comments
  rw [if_neg hcomments]
  by_cases habstract : key = "abstract"
  · rw [if_pos habstract, habstract]
    exact abstract
  rw [if_neg habstract]
  refine other key ?_
  show key ∉ ["name", "props", "data", "provide", "inject", "watch", "template", "el", "delimiters",
    "comments", "abstract", "mixins", "extends", "components"]
  simp only [List.mem_cons, List.not_mem_nil, or_false, not_or]
  exact ⟨hname, hprops, hdata, hprovide, hinject, hwatch, htemplate, hel, hdelimiters, hcomments,
    habstract, hmixins, hextends, hcomponents⟩

theorem judged_setJson (f : Fields) {key : String} (v : Value) (hmixins : key ≠ "mixins")
    (hextends : key ≠ "extends") (hcomponents : key ≠ "components") :
    Judged (formOf key) v (f.setJson key v) := by
  refine Fields.setJson_cases f v (motive := fun key x => Judged (formOf key) v x)
    ?name ?props ?data ?provide ?inject ?watch ?template ?el ?delimiters ?comments ?abstract ?other
    hmixins hextends hcomponents
  case name => exact (judged_textOf _ _ v).then_return _
  case props => exact (judged_propsOf v).then_return _
  case data => exact (judged_recordOf _ v).then_return _
  case provide => exact (judged_recordOf _ v).then_return _
  case inject => exact (judged_injectOf v).then_return _
  case watch => exact (judged_watchOf v).then_return _
  case template => exact .of_leaf rfl
  case el => exact (judged_textOf _ _ v).then_return _
  case delimiters => exact (judged_pairOf _ v).then_return _
  case comments => exact (judged_flagOf _ v).then_return _
  case abstract => exact (judged_flagOf _ v).then_return _
  case other =>
    intro key hkey
    rw [formOf_of_notMem hkey]
    exact .of_leaf rfl

/-! ### Definitions -/

mutual

/-- **A definition** is read if and only if it fits, and refused with its first offence. -/
theorem judged_ofJson? : ∀ v : Value, Judged .definition v (Options.ofJson? v)
  | .obj fields => by
    rw [Options.ofJson?]
    exact (judgedAll_ofJsonFields {} fields).judged rfl
  | .null | .bool _ | .num _ | .str _ | .arr _ => by
    rw [Options.ofJson?]
    · exact .outside rfl
    · exact nofun

theorem judgedAll_ofJsonFields : ∀ (o : Options) (fields : List (String × Value)),
    JudgedAll (fields.map fun e => (formOf e.1, e.2)) (ofJsonFields o fields)
  | o, [] => by
    rw [ofJsonFields]
    exact judgedAll_nil o
  | o, (key, v) :: rest => by
    rw [ofJsonFields]
    by_cases hmixins : key = "mixins"
    · rw [if_pos hmixins, hmixins]
      refine judgedAll_cons (judged_ofJsonMixins v) (fun e he => by rw [he]) fun ms h => ?_
      rw [h]
      exact judgedAll_ofJsonFields _ rest
    rw [if_neg hmixins]
    by_cases hextends : key = "extends"
    · rw [if_pos hextends, hextends]
      refine judgedAll_cons (judged_ofJson? v) (fun e he => by rw [he]) fun b h => ?_
      rw [h]
      exact judgedAll_ofJsonFields _ rest
    rw [if_neg hextends]
    by_cases hcomponents : key = "components"
    · rw [if_pos hcomponents, hcomponents]
      refine judgedAll_cons (judged_ofJsonComponents v) (fun e he => by rw [he]) fun cs h => ?_
      rw [h]
      exact judgedAll_ofJsonFields _ rest
    rw [if_neg hcomponents]
    refine judgedAll_cons (judged_setJson o.fields v hmixins hextends hcomponents)
      (fun e he => by rw [he]) fun f h => ?_
    rw [h]
    exact judgedAll_ofJsonFields _ rest

theorem judged_ofJsonMixins : ∀ v : Value, Judged .mixins v (ofJsonMixins v)
  | .arr items => by
    rw [ofJsonMixins]
    exact (judgedAll_ofJsonList items).judged rfl
  | .null | .bool _ | .num _ | .str _ | .obj _ => by
    rw [ofJsonMixins]
    · exact .outside rfl
    · exact nofun

theorem judgedAll_ofJsonList : ∀ items : List Value,
    JudgedAll (items.map fun v => (.definition, v)) (ofJsonList items)
  | [] => by
    rw [ofJsonList]
    exact judgedAll_nil []
  | v :: rest => by
    rw [ofJsonList]
    refine judgedAll_cons (judged_ofJson? v) (fun e he => by rw [he]) fun o h => ?_
    rw [h]
    exact (judgedAll_ofJsonList rest).map (o :: ·)

theorem judged_ofJsonComponents : ∀ v : Value, Judged .components v (ofJsonComponents v)
  | .obj entries => by
    rw [ofJsonComponents]
    exact (judgedAll_ofJsonEntries entries).judged rfl
  | .null | .bool _ | .num _ | .str _ | .arr _ => by
    rw [ofJsonComponents]
    · exact .outside rfl
    · exact nofun

theorem judgedAll_ofJsonEntries : ∀ entries : List (String × Value),
    JudgedAll (entries.map fun e => (.definition, e.2)) (ofJsonEntries entries)
  | [] => by
    rw [ofJsonEntries]
    exact judgedAll_nil []
  | (name, v) :: rest => by
    rw [ofJsonEntries]
    refine judgedAll_cons (judged_ofJson? v) (fun e he => by rw [he]) fun o h => ?_
    rw [h]
    exact (judgedAll_ofJsonEntries rest).map _

end

section

variable {α : Type} {x : Except Error α}

theorem Judged.ok_iff (h : Judged form v x) : (∃ a, x = .ok a) ↔ Fits form v := by
  cases x with
  | ok a => exact ⟨fun _ => h, fun _ => ⟨a, rfl⟩⟩
  | error e => exact ⟨nofun, fun hfits => absurd h (hfits.not_firstOffence e)⟩

theorem Judged.error_iff (h : Judged form v x) : x = .error e ↔ FirstOffence form v e := by
  cases x with
  | ok a => exact ⟨nofun, fun hoffence => absurd hoffence (Fits.not_firstOffence h e)⟩
  | error e' => exact ⟨fun heq => Except.error.inj heq ▸ h, fun h' => by rw [h.unique h']⟩

end

end Componentry
