import Componentry.Json.Literal
import Componentry.Proofs.Dict
import Componentry.Proofs.Options.Grammar

/-!
# What a definition in JSON says

What the fields of a definition are, each looked up under its own key, and the definitions nested in
it as they are read by themselves. A reader goes over the keys one after the other instead, and each
step changes a part of what is there. It comes to the same because no key comes twice: the keys of an
object ascend.

- `Value.isOrdered`: in all objects the keys ascend. `isOrdered_of_parse?`: every value that a text
  writes is such.
- `Fields.ofRecord`, `Options.ofValue`: **what a definition says**.
- `Fields.updatedBy`: what a record says, over what is there. `updatedBy_setJson`: **one key**.
- `ofJson?_grammar`: a value is read if and only if it fits, and then as what it says; else its first
  offence is the error.
-/

namespace Componentry

open Json (Value Record)

/-! ## Ordered values -/

namespace Json.Value

mutual

/-- Whether in all objects of a value the keys ascend. -/
def isOrdered : Value → Bool
  | .arr items => areOrdered items
  | .obj fields => decide (Dict.Ordered fields) && haveOrdered fields
  | _ => true

def areOrdered : List Value → Bool
  | [] => true
  | v :: rest => isOrdered v && areOrdered rest

def haveOrdered : List (String × Value) → Bool
  | [] => true
  | (_, v) :: rest => isOrdered v && haveOrdered rest

end

theorem haveOrdered_iff {fields : List (String × Value)} :
    haveOrdered fields = true ↔ ∀ e ∈ fields, isOrdered e.2 = true := by
  induction fields with
  | nil => exact ⟨fun _ => nofun, fun _ => rfl⟩
  | cons e rest ih =>
    obtain ⟨k, v⟩ := e
    rw [haveOrdered, Bool.and_eq_true, ih, List.forall_mem_cons]

end Json.Value

open Json.Value (isOrdered areOrdered haveOrdered haveOrdered_iff)

section

open Json (Literal)

mutual

theorem isOrdered_toValueAt? : ∀ (l : Literal) (depth : Nat) (v : Value),
    l.toValueAt? depth = some v → isOrdered v = true
  | .null, _, _, h => by
    rw [Literal.toValueAt?] at h
    cases h
    rfl
  | .bool b, _, _, h => by
    rw [Literal.toValueAt?] at h
    cases h
    rfl
  | .num n, _, _, h => by
    rw [Literal.toValueAt?] at h
    obtain ⟨n, -, rfl⟩ := Option.map_eq_some_iff.mp h
    rfl
  | .str s, _, _, h => by
    rw [Literal.toValueAt?] at h
    obtain ⟨s, -, rfl⟩ := Option.map_eq_some_iff.mp h
    rfl
  | .arr items, depth, _, h => by
    rw [Literal.toValueAt?] at h
    split at h
    · cases h
    · obtain ⟨vs, hvs, rfl⟩ := Option.map_eq_some_iff.mp h
      exact areOrdered_toItemsAt? items _ vs hvs
  | .obj fields, depth, _, h => by
    rw [Literal.toValueAt?] at h
    split at h
    · cases h
    · obtain ⟨d, hd, rfl⟩ := Option.map_eq_some_iff.mp h
      obtain ⟨hordered, hvalues⟩ := ordered_toFieldsAt? fields _ d hd
      exact Bool.and_eq_true_iff.mpr ⟨decide_eq_true hordered, haveOrdered_iff.mpr hvalues⟩

theorem areOrdered_toItemsAt? : ∀ (items : List Literal) (depth : Nat) (vs : List Value),
    Literal.toItemsAt? depth items = some vs → areOrdered vs = true
  | [], _, _, h => by
    rw [Literal.toItemsAt?] at h
    cases h
    rfl
  | l :: items, depth, _, h => by
    rw [Literal.toItemsAt?] at h
    split at h
    · cases h
    · rename_i v hv
      obtain ⟨vs, hvs, rfl⟩ := Option.map_eq_some_iff.mp h
      exact Bool.and_eq_true_iff.mpr
        ⟨isOrdered_toValueAt? l depth v hv, areOrdered_toItemsAt? items depth vs hvs⟩

/-- The fields of an object are inserted one by one. -/
theorem ordered_toFieldsAt? : ∀ (fields : List (Option String × Literal)) (depth : Nat) (d : Record),
    Literal.toFieldsAt? depth fields = some d →
      Dict.Ordered d ∧ ∀ e ∈ d, isOrdered e.2 = true
  | [], _, _, h => by
    rw [Literal.toFieldsAt?] at h
    cases h
    exact ⟨Dict.ordered_nil, nofun⟩
  | (none, _) :: _, _, _, h => by
    rw [Literal.toFieldsAt?] at h
    cases h
  | (some k, l) :: fields, depth, _, h => by
    rw [Literal.toFieldsAt?] at h
    split at h
    · cases h
    · rename_i v hv
      obtain ⟨d, hd, rfl⟩ := Option.map_eq_some_iff.mp h
      obtain ⟨hordered, hvalues⟩ := ordered_toFieldsAt? fields depth d hd
      split
      · exact ⟨hordered, hvalues⟩
      · refine ⟨Dict.ordered_insert hordered k v, fun e he => ?_⟩
        rcases Dict.mem_insert he with rfl | he
        · exact isOrdered_toValueAt? l depth v hv
        · exact hvalues e he

end

/-- Every value that a text writes is ordered. -/
theorem isOrdered_of_parse? {s : String} {v : Value} (h : Value.parse? s = some v) :
    isOrdered v = true := by
  rw [Value.parse?] at h
  obtain ⟨l, -, hl⟩ := Option.bind_eq_some_iff.mp h
  exact isOrdered_toValueAt? l _ v hl

end

/-! ## What is said of props, injections and watchers -/

/-- The details of a prop. -/
def PropOptions.ofValue : Value → PropOptions
  | .str s => { types := (PropType.ofName? s).toList }
  | .obj details =>
    { types := (((Dict.get? details "types").bind Value.arr?).getD []).filterMap propTypeOf?
      default := (Dict.get? details "default").filter (!·.isNull)
      required := ((Dict.get? details "required").bind Value.bool?).getD false }
  | _ => {}

/-- The props, by a list of names or by name. -/
def PropsDecl.ofValue : Value → PropsDecl
  | .arr items => .names (items.filterMap Value.str?)
  | .obj entries => .keyed (Dict.mapValues PropOptions.ofValue entries)
  | _ => .names []

/-- An injection under a key. Without a source it has the key's name. -/
def InjectOptions.ofValue (key : String) : Value → InjectOptions
  | .str s => { source := s }
  | v => { source := ((v.field? "from").bind Value.str?).getD key, default := v.field? "default" }

/-- The injections, by a list of names or by key. -/
def InjectDecl.ofValue : Value → InjectDecl
  | .arr items => .names (items.filterMap Value.str?)
  | .obj entries => .keyed (entries.map fun e => (e.1, .ofValue e.1 e.2))
  | _ => .names []

/-- The watchers of a property: one method, or several. -/
def watchersIn : Value → List WatchHandler
  | .str s => [{ callback := .method s }]
  | .arr items => (items.filterMap Value.str?).map fun s => { callback := .method s }
  | _ => []

/-- The pair of texts that a list of two is. -/
def pairIn? : Value → Option (String × String)
  | .arr [.str a, .str b] => some (a, b)
  | _ => none

/-! ## What a definition says -/

/-- Whether a key has a meaning. -/
def isKey (key : String) : Bool := (keyForms.map Prod.fst).contains key

/-- **The fields of a definition**, each by its own key. What has no meaning is kept. -/
def Fields.ofRecord (r : Record) : Fields where
  name := (Dict.get? r "name").bind Value.str?
  props := (Dict.get? r "props").map fun v => .new (.ofValue v)
  data := ((Dict.get? r "data").bind Value.obj?).map fun d => .new (.record d)
  provide := ((Dict.get? r "provide").bind Value.obj?).map fun d => .new (.record d)
  inject := (Dict.get? r "inject").map fun v => .new (.ofValue v)
  watch := ((Dict.get? r "watch").bind Value.obj?).map fun d => .new (Dict.mapValues watchersIn d)
  template := (Dict.get? r "template").map templateOf
  el := ((Dict.get? r "el").bind Value.str?).map .selector
  delimiters := (Dict.get? r "delimiters").bind pairIn?
  comments := (Dict.get? r "comments").bind Value.bool?
  isAbstract := (Dict.get? r "abstract").bind Value.bool?
  extra := r.filter fun e => !isKey e.1

mutual

/-- **What a definition says**, and the definitions nested in it. -/
def Options.ofValue : Value → Options
  | .obj fields =>
    { fields := Fields.ofRecord fields
      mixins := mixinsIn fields
      base := baseIn fields
      components := componentsIn fields }
  | _ => {}

def mixinsIn : List (String × Value) → Option (Placed (List Options))
  | [] => none
  | (key, v) :: rest => if key = "mixins" then some (.new (mixinsOf v)) else mixinsIn rest

def baseIn : List (String × Value) → Option (Placed Options)
  | [] => none
  | (key, v) :: rest => if key = "extends" then some (.new (Options.ofValue v)) else baseIn rest

def componentsIn : List (String × Value) → Option (Placed Components)
  | [] => none
  | (key, v) :: rest =>
    if key = "components" then some (.new ⟨componentsOf v, []⟩) else componentsIn rest

def mixinsOf : Value → List Options
  | .arr items => optionsOf items
  | _ => []

def optionsOf : List Value → List Options
  | [] => []
  | v :: rest => Options.ofValue v :: optionsOf rest

def componentsOf : Value → List (String × ComponentRef Options)
  | .obj entries => definitionsOf entries
  | _ => []

def definitionsOf : List (String × Value) → List (String × ComponentRef Options)
  | [] => []
  | (name, v) :: rest => (name, .definition none (Options.ofValue v)) :: definitionsOf rest

end

theorem optionsOf_eq (items : List Value) : optionsOf items = items.map Options.ofValue := by
  induction items with
  | nil => rfl
  | cons v rest ih => rw [optionsOf, ih, List.map_cons]

theorem definitionsOf_eq (entries : List (String × Value)) :
    definitionsOf entries = entries.map fun e => (e.1, .definition none (Options.ofValue e.2)) := by
  induction entries with
  | nil => rfl
  | cons e rest ih => rw [definitionsOf, ih, List.map_cons]

/-- Walking over entries to a key is looking it up. -/
theorem eq_map_get? {α : Type} {f : List (String × Value) → Option α} {g : Value → α} {key : String}
    (hnil : f [] = none)
    (hcons : ∀ k v rest, f ((k, v) :: rest) = if k = key then some (g v) else f rest)
    (fields : List (String × Value)) : f fields = (Dict.get? fields key).map g := by
  induction fields with
  | nil => exact hnil
  | cons e rest ih =>
    obtain ⟨k, v⟩ := e
    rw [hcons, Dict.get?, ih]
    by_cases h : k = key
    · rw [if_pos h, if_pos h.symm]
      rfl
    · rw [if_neg h, if_neg (Ne.symm h)]

theorem mixinsIn_eq (fields : List (String × Value)) :
    mixinsIn fields = (Dict.get? fields "mixins").map fun v => .new (mixinsOf v) :=
  eq_map_get? rfl (fun _ _ _ => by rw [mixinsIn]) fields

theorem baseIn_eq (fields : List (String × Value)) :
    baseIn fields = (Dict.get? fields "extends").map fun v => .new (Options.ofValue v) :=
  eq_map_get? rfl (fun _ _ _ => by rw [baseIn]) fields

theorem componentsIn_eq (fields : List (String × Value)) :
    componentsIn fields = (Dict.get? fields "components").map fun v => .new ⟨componentsOf v, []⟩ :=
  eq_map_get? rfl (fun _ _ _ => by rw [componentsIn]) fields

/-! ## Readers -/

section

variable {α β γ : Type}

/-- A reader that fails where another one does comes to an end only if the other one does. -/
theorem exists_ok (x : Except Error α) {y : Except Error β} {b : β} (h : y = .ok b)
    (herror : ∀ e, x = .error e → y = .error e) : ∃ a, x = .ok a := by
  cases x with
  | ok a => exact ⟨a, rfl⟩
  | error e =>
    rw [herror e rfl] at h
    cases h

theorem ok_of_return {x : Except Error α} {f : α → β} {b : β}
    (h : (do return f (← x)) = Except.ok b) : ∃ a, x = .ok a ∧ b = f a := by
  obtain ⟨a, rfl⟩ := exists_ok x h fun e he => by rw [he]; rfl
  cases h
  exact ⟨a, rfl, rfl⟩

theorem ok_of_map {x : Except Error α} {f : α → β} {b : β} (h : x.map f = .ok b) :
    ∃ a, x = .ok a ∧ b = f a :=
  ok_of_return (h ▸ by cases x <;> rfl)

/-- Entries that are read one by one, each as what it says. -/
theorem mapM_eq_ok {f : γ → Except Error α} {g : γ → α} {cs : List γ} {as : List α}
    (hf : ∀ c a, f c = .ok a → a = g c) (h : cs.mapM f = .ok as) : as = cs.map g := by
  induction cs generalizing as with
  | nil =>
    cases h
    rfl
  | cons c cs ih =>
    rw [List.mapM_cons] at h
    obtain ⟨a, hc⟩ := exists_ok (f c) h fun e he => by rw [he]; rfl
    rw [hc] at h
    obtain ⟨rest, hrest, rfl⟩ := ok_of_return h
    rw [hf c a hc, ih hrest, List.map_cons]

end

theorem textOf_eq_ok {option expected s : String} {v : Value}
    (h : textOf option expected v = .ok s) : v = .str s := by
  cases v <;> cases h
  rfl

theorem flagOf_eq_ok {option : String} {v : Value} {b : Bool} (h : flagOf option v = .ok b) :
    v = .bool b := by
  cases v <;> cases h
  rfl

theorem recordOf_eq_ok {option : String} {v : Value} {r : Record} (h : recordOf option v = .ok r) :
    v = .obj r := by
  cases v <;> cases h
  rfl

theorem pairOf_eq_ok {option : String} {v : Value} {p : String × String}
    (h : pairOf option v = .ok p) : pairIn? v = some p := by
  unfold pairOf at h
  split at h
  · cases h
    rfl
  · cases h

theorem textsOf_eq_ok {option expected : String} {items : List Value} {ts : List String}
    (h : textsOf option expected items = .ok ts) : ts = items.filterMap Value.str? := by
  induction items generalizing ts with
  | nil =>
    cases h
    rfl
  | cons v items ih =>
    cases v with
    | str s =>
      obtain ⟨rest, hrest, rfl⟩ := ok_of_map h
      rw [ih hrest]
      rfl
    | _ => cases h

theorem filterMap_of_mapM_eq_some {α β : Type} {f : α → Option β} {as : List α} {bs : List β}
    (h : as.mapM f = some bs) : bs = as.filterMap f := by
  induction as generalizing bs with
  | nil =>
    cases h
    rfl
  | cons a as ih =>
    rw [List.mapM_cons] at h
    obtain ⟨b, hb, hbs⟩ := Option.bind_eq_some_iff.mp h
    obtain ⟨rest, hrest, heq⟩ := Option.bind_eq_some_iff.mp hbs
    cases heq
    rw [List.filterMap_cons, hb, ih hrest]

theorem propOptionsOf?_eq_some {details : Record} {o : PropOptions}
    (h : propOptionsOf? details = some o) : o = .ofValue (.obj details) := by
  unfold propOptionsOf? at h
  rw [PropOptions.ofValue]
  generalize Dict.get? details "types" = types at h ⊢
  generalize Dict.get? details "required" = required at h ⊢
  rcases types with - | (_ | _ | _ | _ | items | _)
  case none => rcases required with - | (_ | _ | _ | _ | _ | _) <;> cases h <;> rfl
  case some.arr =>
    obtain ⟨ts, hts, h⟩ := Option.bind_eq_some_iff.mp h
    rw [filterMap_of_mapM_eq_some hts] at h
    rcases required with - | (_ | _ | _ | _ | _ | _) <;> cases h <;> rfl
  all_goals cases h

theorem propOf_eq_ok {v : Value} {o : PropOptions} (h : propOf v = .ok o) : o = .ofValue v := by
  cases v with
  | null =>
    cases h
    rfl
  | str s =>
    cases h
    rfl
  | obj details =>
    rw [propOf] at h
    cases ho : propOptionsOf? details with
    | none =>
      rw [ho] at h
      cases h
    | some o =>
      rw [ho] at h
      cases h
      exact propOptionsOf?_eq_some ho
  | _ => cases h

theorem propsOf_eq_ok {v : Value} {d : PropsDecl} (h : propsOf v = .ok d) : d = .ofValue v := by
  cases v with
  | arr items =>
    obtain ⟨ts, hts, rfl⟩ := ok_of_map h
    rw [textsOf_eq_ok hts]
    rfl
  | obj entries =>
    obtain ⟨props, hprops, rfl⟩ := ok_of_return h
    refine congrArg PropsDecl.keyed (mapM_eq_ok (fun e a ha => ?_) hprops)
    obtain ⟨o, ho, rfl⟩ := ok_of_return ha
    rw [propOf_eq_ok ho]
  | _ => cases h

theorem injectionOf_eq_ok {key : String} {v : Value} {o : InjectOptions}
    (h : injectionOf key v = .ok o) : o = .ofValue key v := by
  cases v <;> cases h <;> rfl

theorem injectOf_eq_ok {v : Value} {d : InjectDecl} (h : injectOf v = .ok d) : d = .ofValue v := by
  cases v with
  | arr items =>
    obtain ⟨ts, hts, rfl⟩ := ok_of_map h
    rw [textsOf_eq_ok hts]
    rfl
  | obj entries =>
    obtain ⟨injections, hinjections, rfl⟩ := ok_of_return h
    refine congrArg InjectDecl.keyed (mapM_eq_ok (fun e a ha => ?_) hinjections)
    obtain ⟨o, ho, rfl⟩ := ok_of_return ha
    rw [injectionOf_eq_ok ho]
  | _ => cases h

theorem watchersOf_eq_ok {v : Value} {ws : List WatchHandler} (h : watchersOf v = .ok ws) :
    ws = watchersIn v := by
  cases v with
  | str s =>
    cases h
    rfl
  | arr items =>
    obtain ⟨ts, hts, rfl⟩ := ok_of_return h
    rw [textsOf_eq_ok hts]
    rfl
  | _ => cases h

theorem watchOf_eq_ok {v : Value} {m : WatchMap} (h : watchOf v = .ok m) :
    ∃ entries, v = .obj entries ∧ m = Dict.mapValues watchersIn entries := by
  cases v with
  | obj entries =>
    refine ⟨entries, rfl, mapM_eq_ok (fun e a ha => ?_) h⟩
    obtain ⟨ws, hws, rfl⟩ := ok_of_return ha
    rw [watchersOf_eq_ok hws]
  | _ => cases h

/-! ## One key after the other -/

/-- What a record says, over what is there. -/
def Fields.updatedBy (f : Fields) (r : Record) : Fields :=
  let s := Fields.ofRecord r
  { f with
    name := s.name <|> f.name
    props := s.props <|> f.props
    data := s.data <|> f.data
    provide := s.provide <|> f.provide
    inject := s.inject <|> f.inject
    watch := s.watch <|> f.watch
    template := s.template <|> f.template
    el := s.el <|> f.el
    delimiters := s.delimiters <|> f.delimiters
    comments := s.comments <|> f.comments
    isAbstract := s.isAbstract <|> f.isAbstract
    extra := Dict.overlay f.extra s.extra }

theorem Fields.updatedBy_nil (f : Fields) : f.updatedBy [] = f := rfl

theorem Fields.updatedBy_empty {r : Record} (h : Dict.Ordered r) :
    ({} : Fields).updatedBy r = Fields.ofRecord r := by
  have hextra : Dict.overlay [] (Fields.ofRecord r).extra = (Fields.ofRecord r).extra :=
    Dict.nil_overlay (Dict.ordered_filter h _)
  rw [Fields.updatedBy, hextra]
  simp [Fields.ofRecord]

variable {key : String} {v : Value} {rest : Record}

/-- **One key**: it is set, and what is behind it says nothing of it. -/
theorem Fields.updatedBy_setJson {f f' : Fields} (hordered : Dict.Ordered ((key, v) :: rest))
    (hmixins : key ≠ "mixins") (hextends : key ≠ "extends") (hcomponents : key ≠ "components")
    (h : f.setJson key v = .ok f') : f'.updatedBy rest = f.updatedBy ((key, v) :: rest) := by
  have htail : Dict.get? rest key = none := Dict.get?_tail hordered
  clear hordered
  revert h htail
  refine Fields.setJson_cases f v (motive := fun key x => x = .ok f' → Dict.get? rest key = none →
    f'.updatedBy rest = f.updatedBy ((key, v) :: rest))
    ?name ?props ?data ?provide ?inject ?watch ?template ?el ?delimiters ?comments ?abstract ?other
    hmixins hextends hcomponents
  case name =>
    intro h htail
    obtain ⟨s, hs, rfl⟩ := ok_of_return h
    simp [updatedBy, ofRecord, Dict.get?, htail, isKey, keyForms, textOf_eq_ok hs, Value.str?]
  case props =>
    intro h htail
    obtain ⟨d, hd, rfl⟩ := ok_of_return h
    simp [updatedBy, ofRecord, Dict.get?, htail, isKey, keyForms, propsOf_eq_ok hd]
  case data =>
    intro h htail
    obtain ⟨r, hr, rfl⟩ := ok_of_return h
    simp [updatedBy, ofRecord, Dict.get?, htail, isKey, keyForms, recordOf_eq_ok hr, Value.obj?]
  case provide =>
    intro h htail
    obtain ⟨r, hr, rfl⟩ := ok_of_return h
    simp [updatedBy, ofRecord, Dict.get?, htail, isKey, keyForms, recordOf_eq_ok hr, Value.obj?]
  case inject =>
    intro h htail
    obtain ⟨d, hd, rfl⟩ := ok_of_return h
    simp [updatedBy, ofRecord, Dict.get?, htail, isKey, keyForms, injectOf_eq_ok hd]
  case watch =>
    intro h htail
    obtain ⟨m, hm, rfl⟩ := ok_of_return h
    obtain ⟨entries, rfl, rfl⟩ := watchOf_eq_ok hm
    simp [updatedBy, ofRecord, Dict.get?, htail, isKey, keyForms, Value.obj?]
  case template =>
    intro h htail
    cases h
    simp [updatedBy, ofRecord, Dict.get?, htail, isKey, keyForms]
  case el =>
    intro h htail
    obtain ⟨s, hs, rfl⟩ := ok_of_return h
    simp [updatedBy, ofRecord, Dict.get?, htail, isKey, keyForms, textOf_eq_ok hs, Value.str?]
  case delimiters =>
    intro h htail
    obtain ⟨p, hp, rfl⟩ := ok_of_return h
    simp [updatedBy, ofRecord, Dict.get?, htail, isKey, keyForms, pairOf_eq_ok hp]
  case comments =>
    intro h htail
    obtain ⟨b, hb, rfl⟩ := ok_of_return h
    simp [updatedBy, ofRecord, Dict.get?, htail, isKey, keyForms, flagOf_eq_ok hb, Value.bool?]
  case abstract =>
    intro h htail
    obtain ⟨b, hb, rfl⟩ := ok_of_return h
    simp [updatedBy, ofRecord, Dict.get?, htail, isKey, keyForms, flagOf_eq_ok hb, Value.bool?]
  case other =>
    intro key hkey h htail
    cases h
    have hsame : ∀ k ∈ keyForms.map Prod.fst, Dict.get? ((key, v) :: rest) k = Dict.get? rest k :=
      fun k hk => by
        rw [Dict.get?, if_neg]
        rintro rfl
        exact hkey hk
    have hunknown : isKey key = false := by
      rw [isKey, List.contains_eq_mem, decide_eq_false hkey]
    simp (disch := decide) only [updatedBy, ofRecord, hsame, List.filter_cons, hunknown,
      Bool.not_false, if_true]
    rfl

/-- A key that holds definitions says nothing of the other fields. -/
theorem Fields.updatedBy_nested (f : Fields) (v : Value) (rest : Record)
    (hkey : key ∈ ["mixins", "extends", "components"]) :
    f.updatedBy ((key, v) :: rest) = f.updatedBy rest := by
  simp only [List.mem_cons, List.not_mem_nil, or_false] at hkey
  rcases hkey with rfl | rfl | rfl <;>
    simp [updatedBy, ofRecord, Dict.get?, isKey, keyForms]

/-- What a record says of a definition, over what is there. -/
def Options.updatedBy (o : Options) (r : Record) : Options where
  fields := o.fields.updatedBy r
  mixins := mixinsIn r <|> o.mixins
  base := baseIn r <|> o.base
  components := componentsIn r <|> o.components
  merged := o.merged

theorem Options.updatedBy_nil (o : Options) : o.updatedBy [] = o := by
  obtain ⟨fields, components, mixins, base, merged⟩ := o
  rw [updatedBy, Fields.updatedBy_nil, mixinsIn, baseIn, componentsIn]
  simp

theorem Options.updatedBy_empty {r : Record} (h : Dict.Ordered r) :
    ({} : Options).updatedBy r = Options.ofValue (.obj r) := by
  rw [updatedBy, Fields.updatedBy_empty h, ofValue]
  simp

theorem Options.updatedBy_setJson {o : Options} {f : Fields}
    (hordered : Dict.Ordered ((key, v) :: rest)) (hmixins : key ≠ "mixins")
    (hextends : key ≠ "extends") (hcomponents : key ≠ "components")
    (h : o.fields.setJson key v = .ok f) :
    ({ o with fields := f } : Options).updatedBy rest = o.updatedBy ((key, v) :: rest) := by
  rw [updatedBy, updatedBy, Fields.updatedBy_setJson hordered hmixins hextends hcomponents h,
    mixinsIn, baseIn, componentsIn, if_neg hmixins, if_neg hextends, if_neg hcomponents]

theorem Options.updatedBy_mixins (o : Options) (hordered : Dict.Ordered (("mixins", v) :: rest)) :
    ({ o with mixins := some (.new (mixinsOf v)) } : Options).updatedBy rest =
      o.updatedBy (("mixins", v) :: rest) := by
  have htail : mixinsIn rest = none := by
    rw [mixinsIn_eq, Dict.get?_tail hordered]
    rfl
  rw [updatedBy, updatedBy, Fields.updatedBy_nested _ _ _ (by decide), htail, mixinsIn, baseIn,
    componentsIn]
  rfl

theorem Options.updatedBy_extends (o : Options) (hordered : Dict.Ordered (("extends", v) :: rest)) :
    ({ o with base := some (.new (ofValue v)) } : Options).updatedBy rest =
      o.updatedBy (("extends", v) :: rest) := by
  have htail : baseIn rest = none := by
    rw [baseIn_eq, Dict.get?_tail hordered]
    rfl
  rw [updatedBy, updatedBy, Fields.updatedBy_nested _ _ _ (by decide), htail, mixinsIn, baseIn,
    componentsIn]
  rfl

theorem Options.updatedBy_components (o : Options)
    (hordered : Dict.Ordered (("components", v) :: rest)) :
    ({ o with components := some (.new ⟨componentsOf v, []⟩) } : Options).updatedBy rest =
      o.updatedBy (("components", v) :: rest) := by
  have htail : componentsIn rest = none := by
    rw [componentsIn_eq, Dict.get?_tail hordered]
    rfl
  rw [updatedBy, updatedBy, Fields.updatedBy_nested _ _ _ (by decide), htail, mixinsIn, baseIn,
    componentsIn]
  rfl

/-! ## Definitions -/

mutual

/-- **A definition** that is read is what it says. -/
theorem ofJson?_eq_ok : ∀ (v : Value) (o : Options), isOrdered v = true →
    Options.ofJson? v = .ok o → o = Options.ofValue v
  | .obj fields, o, hv, h => by
    rw [Options.ofJson?] at h
    rw [isOrdered, Bool.and_eq_true, decide_eq_true_eq] at hv
    rw [ofJsonFields_eq_ok {} fields o hv.1 hv.2 h, Options.updatedBy_empty hv.1]
  | .null, _, _, h | .bool _, _, _, h | .num _, _, _, h | .str _, _, _, h | .arr _, _, _, h => by
    rw [Options.ofJson?] at h
    · cases h
    · exact nofun

theorem ofJsonFields_eq_ok : ∀ (o : Options) (fields : List (String × Value)) (o' : Options),
    Dict.Ordered fields → haveOrdered fields = true →
    ofJsonFields o fields = .ok o' → o' = o.updatedBy fields
  | o, [], o', _, _, h => by
    rw [ofJsonFields] at h
    cases h
    exact o.updatedBy_nil.symm
  | o, (key, v) :: rest, o', hordered, hvalues, h => by
    rw [haveOrdered, Bool.and_eq_true] at hvalues
    have hrest := (List.pairwise_cons.mp hordered).2
    rw [ofJsonFields] at h
    by_cases hmixins : key = "mixins"
    · subst hmixins
      rw [if_pos rfl] at h
      obtain ⟨ms, hread⟩ := exists_ok (ofJsonMixins v) h fun e he => by rw [he]
      rw [hread, ofJsonMixins_eq_ok v ms hvalues.1 hread] at h
      rw [ofJsonFields_eq_ok _ rest o' hrest hvalues.2 h, o.updatedBy_mixins hordered]
    rw [if_neg hmixins] at h
    by_cases hextends : key = "extends"
    · subst hextends
      rw [if_pos rfl] at h
      obtain ⟨b, hread⟩ := exists_ok (Options.ofJson? v) h fun e he => by rw [he]
      rw [hread, ofJson?_eq_ok v b hvalues.1 hread] at h
      rw [ofJsonFields_eq_ok _ rest o' hrest hvalues.2 h, o.updatedBy_extends hordered]
    rw [if_neg hextends] at h
    by_cases hcomponents : key = "components"
    · subst hcomponents
      rw [if_pos rfl] at h
      obtain ⟨cs, hread⟩ := exists_ok (ofJsonComponents v) h fun e he => by rw [he]
      rw [hread, ofJsonComponents_eq_ok v cs hvalues.1 hread] at h
      rw [ofJsonFields_eq_ok _ rest o' hrest hvalues.2 h, o.updatedBy_components hordered]
    rw [if_neg hcomponents] at h
    obtain ⟨f, hread⟩ := exists_ok (o.fields.setJson key v) h fun e he => by rw [he]
    rw [hread] at h
    rw [ofJsonFields_eq_ok _ rest o' hrest hvalues.2 h,
      Options.updatedBy_setJson hordered hmixins hextends hcomponents hread]

theorem ofJsonMixins_eq_ok : ∀ (v : Value) (ms : List Options), isOrdered v = true →
    ofJsonMixins v = .ok ms → ms = mixinsOf v
  | .arr items, ms, hv, h => by
    rw [isOrdered] at hv
    rw [ofJsonMixins] at h
    rw [mixinsOf, ofJsonList_eq_ok items ms hv h]
  | .null, _, _, h | .bool _, _, _, h | .num _, _, _, h | .str _, _, _, h | .obj _, _, _, h => by
    rw [ofJsonMixins] at h
    · cases h
    · exact nofun

theorem ofJsonList_eq_ok : ∀ (items : List Value) (os : List Options), areOrdered items = true →
    ofJsonList items = .ok os → os = optionsOf items
  | [], _, _, h => by
    rw [ofJsonList] at h
    cases h
    rw [optionsOf]
  | v :: rest, os, hitems, h => by
    rw [areOrdered, Bool.and_eq_true] at hitems
    rw [ofJsonList] at h
    obtain ⟨o, hread⟩ := exists_ok (Options.ofJson? v) h fun e he => by rw [he]
    rw [hread] at h
    obtain ⟨more, hmore, rfl⟩ := ok_of_map h
    rw [optionsOf, ofJson?_eq_ok v o hitems.1 hread, ofJsonList_eq_ok rest more hitems.2 hmore]

theorem ofJsonComponents_eq_ok : ∀ (v : Value) (cs : List (String × ComponentRef Options)),
    isOrdered v = true → ofJsonComponents v = .ok cs → cs = componentsOf v
  | .obj entries, cs, hv, h => by
    rw [isOrdered, Bool.and_eq_true] at hv
    rw [ofJsonComponents] at h
    rw [componentsOf, ofJsonEntries_eq_ok entries cs hv.2 h]
  | .null, _, _, h | .bool _, _, _, h | .num _, _, _, h | .str _, _, _, h | .arr _, _, _, h => by
    rw [ofJsonComponents] at h
    · cases h
    · exact nofun

theorem ofJsonEntries_eq_ok : ∀ (entries : List (String × Value))
    (cs : List (String × ComponentRef Options)), haveOrdered entries = true →
    ofJsonEntries entries = .ok cs → cs = definitionsOf entries
  | [], _, _, h => by
    rw [ofJsonEntries] at h
    cases h
    rw [definitionsOf]
  | (name, v) :: rest, cs, hentries, h => by
    rw [haveOrdered, Bool.and_eq_true] at hentries
    rw [ofJsonEntries] at h
    obtain ⟨o, hread⟩ := exists_ok (Options.ofJson? v) h fun e he => by rw [he]
    rw [hread] at h
    obtain ⟨more, hmore, rfl⟩ := ok_of_map h
    rw [definitionsOf, ofJson?_eq_ok v o hentries.1 hread,
      ofJsonEntries_eq_ok rest more hentries.2 hmore]

end

/-- **Definitions in JSON.** A value whose objects are ordered is a definition if and only if it fits
the grammar, and then it is read as what it says; otherwise the error is its first offence. What a
definition says: the fields are each what their own key says; the mixins, the base and the
components are what is nested under theirs, each as it says by itself; and of the other options every
key without a meaning has its value, and no key with one is there. -/
theorem ofJson?_grammar (v : Value) (hv : isOrdered v = true) :
    (∀ o, Options.ofJson? v = .ok o ↔ Fits .definition v ∧ o = Options.ofValue v) ∧
    (∀ e, Options.ofJson? v = .error e ↔ FirstOffence .definition v e) ∧
    ∀ fields, v = .obj fields →
      let o := Options.ofValue v
      o.fields = Fields.ofRecord fields ∧
      (∀ key, Dict.get? o.fields.extra key = if isKey key then none else Dict.get? fields key) ∧
      o.mixins = (Dict.get? fields "mixins").map (fun ms =>
        .new ((ms.arr?.getD []).map Options.ofValue)) ∧
      o.base = (Dict.get? fields "extends").map (fun b => .new (Options.ofValue b)) ∧
      o.components = (Dict.get? fields "components").map (fun cs =>
        .new ⟨(cs.obj?.getD []).map fun e => (e.1, .definition none (Options.ofValue e.2)), []⟩) ∧
      o.merged = false := by
  have hjudged := judged_ofJson? v
  refine ⟨fun o => ⟨fun h => ⟨hjudged.ok_iff.mp ⟨o, h⟩, ofJson?_eq_ok v o hv h⟩, ?_⟩,
    fun e => hjudged.error_iff, ?_⟩
  · rintro ⟨hfits, rfl⟩
    obtain ⟨o, ho⟩ := hjudged.ok_iff.mpr hfits
    rw [ho, ofJson?_eq_ok v o hv ho]
  · rintro fields rfl o
    rw [isOrdered, Bool.and_eq_true, decide_eq_true_eq] at hv
    have ho : o = { fields := Fields.ofRecord fields, mixins := mixinsIn fields,
                    base := baseIn fields, components := componentsIn fields } := by
      show Options.ofValue (.obj fields) = _
      rw [Options.ofValue]
    rw [ho]
    refine ⟨rfl, fun key => ?_, ?_, baseIn_eq fields, ?_, rfl⟩
    · show Dict.get? (List.filter (fun e => !isKey e.1) fields) key = _
      rw [Dict.get?_filter hv.1]
      dsimp only
      cases isKey key <;> cases Dict.get? fields key <;> rfl
    · rw [mixinsIn_eq]
      cases Dict.get? fields "mixins" with
      | none => rfl
      | some ms => cases ms <;> simp [mixinsOf, optionsOf_eq, Value.arr?]
    · rw [componentsIn_eq]
      cases Dict.get? fields "components" with
      | none => rfl
      | some cs => cases cs <;> simp [componentsOf, definitionsOf_eq, Value.obj?]

/-- A definition with a base, a watcher and an option without a meaning. -/
def cardDefinition : Value :=
  .obj [("custom", .num (.int 42)), ("extends", .obj [("name", .str "base")]),
    ("name", .str "card"), ("watch", .obj [("count", .str "onCount")])]

/-- Two values of the wrong shape: the one that is nested deeper comes first. -/
def brokenDefinition : Value :=
  .obj [("components", .obj [("item", .obj [("props", .num (.int 3))])]), ("name", .null)]

theorem ofJson?_grammar_card :
    isOrdered cardDefinition = true ∧ isOrdered brokenDefinition = true ∧
    (∃ o, Options.ofJson? cardDefinition = .ok o ∧ o.fields.name = some "card" ∧
      Dict.keys o.fields.extra = ["custom"] ∧
      o.base.map (·.value.fields.name) = some (some "base")) ∧
    ∀ o, Options.ofJson? brokenDefinition = .error o ↔
      o = .invalidOption "props" "an array or object" "number" := by
  have hcard : isOrdered cardDefinition = true := by decide
  have hbroken : isOrdered brokenDefinition = true := by decide
  obtain ⟨hok, -, hsays⟩ := ofJson?_grammar cardDefinition hcard
  obtain ⟨-, herror, -⟩ := ofJson?_grammar brokenDefinition hbroken
  obtain ⟨hfields, -, -, hbase, -⟩ := hsays _ rfl
  have hfits : Fits .definition cardDefinition := by
    have hname : Fits (.text "name" "a string") (.str "base") := .of_leaf rfl
    have hcount : Fits .watchers (.str "onCount") := .of_leaf rfl
    refine .mk rfl ?_
    refine List.forall_mem_cons.mpr ⟨.of_leaf rfl, List.forall_mem_cons.mpr ⟨.mk rfl ?_,
      List.forall_mem_cons.mpr ⟨.of_leaf rfl, List.forall_mem_singleton.mpr (.mk rfl ?_)⟩⟩⟩
    · exact List.forall_mem_singleton.mpr hname
    · exact List.forall_mem_singleton.mpr hcount
  have hoffence : FirstOffence .definition brokenDefinition
      (.invalidOption "props" "an array or object" "number") := by
    refine @FirstOffence.inside _ _ [] _ _ _ rfl nofun ?_
    refine @FirstOffence.inside _ _ [] _ _ _ rfl nofun ?_
    exact @FirstOffence.inside _ _ [] _ _ _ rfl nofun (.outside rfl)
  refine ⟨hcard, hbroken, ⟨_, (hok _).mpr ⟨hfits, rfl⟩, ?_, ?_, ?_⟩, fun e => ?_⟩
  · rw [hfields]
    decide
  · rw [hfields]
    decide
  · rw [hbase]
    rfl
  · rw [herror]
    exact ⟨fun h => h.unique hoffence, fun h => h ▸ hoffence⟩

end Componentry
