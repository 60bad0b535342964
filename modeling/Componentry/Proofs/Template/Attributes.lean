import Componentry.Proofs.Dict
import Componentry.Proofs.Template.Roots
import Componentry.Proofs.Template.Verbatim
import Mathlib.Data.List.Nodup
import Mathlib.Data.List.Pairwise
import Mathlib.Data.Option.Basic

/-!
# Plain and bound attributes

An element lists its plain attributes, and behind them what its bindings give. A placeholder lays
the values of its bindings over its plain attributes instead. So the two tell an attribute that is
written both ways apart: the element has it twice and is asked for the first one, which is the plain
one, where the placeholder has what was bound last.

- `foldlM_evaluate`: a fold over bindings evaluates them first **and folds the values then**.
- `plainOf`, `boundOf`: what is written plainly, and what is bound.
- `shownAttributes`, `shownProps`: what an element shows and a placeholder is given.
- `nodup_shownAttributes`: the names are distinct **if and only if** no name shows twice.
- `attr?_shownAttributes`, `get?_shownProps`: what is read under a name.
-/

namespace Componentry.Template

open Json (Value Record)

variable {attrs : List Markup.Attribute} {values : List Value} {x : String}

/-! ## Values first -/

section

variable {m : Type → Type} [Monad m] [LawfulMonad m] {α β γ : Type}

/-- **A fold over values** that are computed one by one. All may be computed first. -/
theorem foldlM_evaluate (f : γ → α → β → γ) (g : α → m β) (as : List α) (init : γ) :
    as.foldlM (fun acc a => do return f acc a (← g a)) init =
      (fun bs => (as.zip bs).foldl (fun acc p => f acc p.1 p.2) init) <$> as.mapM g := by
  induction as generalizing init with
  | nil => simp
  | cons a as ih =>
    simp only [List.foldlM_cons, List.mapM_cons, bind_assoc, pure_bind, ih, map_bind, map_pure,
      List.zip_cons_cons, List.foldl_cons]
    simp only [← bind_pure_comp]

end

/-! ## What is written -/

/-- The name that an attribute binds, if it is a binding. -/
def boundName? (a : Markup.Attribute) : Option String :=
  without? ":" a.name.toList <|> without? "v-bind:" a.name.toList

/-- The attributes that are neither bindings nor listeners. -/
def plainOf (attrs : List Markup.Attribute) : List (String × String) :=
  attrs.filterMap fun a => if isPlainAttribute a then some (a.name, a.value) else none

/-- The names that are bound, and what to. -/
def boundOf (attrs : List Markup.Attribute) : List (String × Expression) :=
  attrs.filterMap fun a => (boundName? a).map fun x => (x, Expression.parse a.value.toList)

theorem without?_eq_some_iff {front : String} {cs : List Char} :
    without? front cs = some x ↔ cs = (front ++ x).toList := by
  rw [without?, String.toList_append]
  constructor
  · intro h
    split at h
    · rename_i hfront
      obtain ⟨rest, rfl⟩ := List.isPrefixOf_iff_prefix.mp hfront
      rw [List.drop_left] at h
      cases h
      rw [String.toList_ofList]
    · cases h
  · rintro rfl
    rw [if_pos (List.isPrefixOf_iff_prefix.mpr ⟨_, rfl⟩), List.drop_left, String.ofList_toList]

/-- The two spellings of a binding have no name in common. -/
theorem spellings_ne (x y : String) : ":" ++ x ≠ "v-bind:" ++ y := fun h => by
  have hheads := congrArg String.toList h
  rw [String.toList_append, String.toList_append] at hheads
  exact absurd (List.cons.inj hheads).1 (by decide)

/-- A name is bound in one of two spellings. -/
theorem boundName?_eq_some_iff {a : Markup.Attribute} :
    boundName? a = some x ↔ a.name = ":" ++ x ∨ a.name = "v-bind:" ++ x := by
  have hspelled : ∀ front y, without? front a.name.toList = some y ↔ a.name = front ++ y :=
    fun front y => without?_eq_some_iff.trans String.toList_inj
  rw [boundName?]
  cases hcolon : without? ":" a.name.toList with
  | none =>
    have hnot : a.name ≠ ":" ++ x := fun h => by
      rw [(hspelled ":" x).mpr h] at hcolon
      cases hcolon
    simp [hspelled, hnot]
  | some y =>
    have hy := (hspelled ":" y).mp hcolon
    have hnot : a.name ≠ "v-bind:" ++ x := fun h => spellings_ne y x (hy.symm.trans h)
    have hcolon' := hspelled ":" x
    rw [hcolon] at hcolon'
    simp [hcolon', hnot]

/-- A binding is neither plain nor does it tell how the tag was written. -/
theorem roleOf_bound {a : Markup.Attribute} (h : boundName? a = some x) :
    roleOf a = .binding x (Expression.parse a.value.toList) := by
  have hname : a.name ≠ nameAttribute := by
    intro hname
    have hnone : without? ":" nameAttribute.toList = none ∧
        without? "v-bind:" nameAttribute.toList = none := by decide
    rw [boundName?, hname, hnone.1, hnone.2] at h
    cases h
  rw [boundName?] at h
  rw [roleOf, if_neg hname, h]

/-- What is no binding and not plain either has another role. -/
theorem roleOf_other {a : Markup.Attribute} (hbound : boundName? a = none)
    (hplain : isPlainAttribute a = false) :
    (∃ n, roleOf a = .tagName n) ∨ ∃ event method, roleOf a = .listener event method := by
  by_cases hname : a.name = nameAttribute
  · exact .inl ⟨a.value, by rw [roleOf, if_pos hname]⟩
  · refine .inr ?_
    rw [boundName?] at hbound
    rw [roleOf, if_neg hname, hbound]
    cases hevent : (without? "@" a.name.toList <|> without? "v-on:" a.name.toList) with
    | some event => exact ⟨event, Text.trim a.value, rfl⟩
    | none =>
      -- none of the four marks is there, so the attribute is plain
      obtain ⟨hcolon, hbind⟩ := (Option.orElse_eq_none _ _).mp hbound
      obtain ⟨hat, hon⟩ := (Option.orElse_eq_none _ _).mp hevent
      simp only [without?, ite_eq_right_iff, reduceCtorEq, imp_false, Bool.not_eq_true]
        at hcolon hbind hat hon
      have hall : isPlainAttribute a = true := by
        simp only [isPlainAttribute, List.all_cons, List.all_nil, hcolon, hbind, hat, hon,
          bne_iff_ne.mpr hname]
        rfl
      rw [hall] at hplain
      cases hplain

/-- **The roles**: an attribute is plain, a binding, or neither. -/
theorem roleOf_cases (a : Markup.Attribute) :
    (isPlainAttribute a = true ∧ boundName? a = none ∧ roleOf a = .plain a.name a.value) ∨
    (∃ x, isPlainAttribute a = false ∧ boundName? a = some x ∧
      roleOf a = .binding x (Expression.parse a.value.toList)) ∨
    (isPlainAttribute a = false ∧ boundName? a = none ∧
      ((∃ n, roleOf a = .tagName n) ∨ ∃ event method, roleOf a = .listener event method)) := by
  cases hplain : isPlainAttribute a with
  | true =>
    have hrole := roleOf_plain hplain
    cases hbound : boundName? a with
    | none => exact .inl ⟨rfl, rfl, hrole⟩
    | some x =>
      rw [roleOf_bound hbound] at hrole
      cases hrole
  | false =>
    cases hbound : boundName? a with
    | none => exact .inr (.inr ⟨rfl, rfl, roleOf_other hbound hplain⟩)
    | some x => exact .inr (.inl ⟨x, rfl, rfl, roleOf_bound hbound⟩)

/-- **An element** has what is written plainly and what is bound, unless it is a slot. -/
theorem elementOf_roles (tag : String) (attrs : List Markup.Attribute) (children : List Node) :
    (elementOf tag (attrs.map roleOf) children).isSlot = true ∨
    ∃ tag' listeners maybeComponent, elementOf tag (attrs.map roleOf) children =
      .element tag' (plainOf attrs) (boundOf attrs) listeners children maybeComponent := by
  unfold elementOf
  simp only [List.filterMap_map]
  split
  · exact .inl rfl
  · refine .inr ⟨_, _, _, congrArg₂ (fun p b => Node.element _ p b _ children _) ?_ ?_⟩
    · refine List.filterMap_congr fun a _ => ?_
      rcases roleOf_cases a with ⟨h, -, hrole⟩ | ⟨x, h, -, hrole⟩ |
        ⟨h, -, ⟨n, hrole⟩ | ⟨event, method, hrole⟩⟩ <;> simp [hrole, h]
    · refine List.filterMap_congr fun a _ => ?_
      rcases roleOf_cases a with ⟨-, h, hrole⟩ | ⟨x, -, h, hrole⟩ |
        ⟨-, h, ⟨n, hrole⟩ | ⟨event, method, hrole⟩⟩ <;> simp [hrole, h]

/-! ## What is shown -/

/-- What a value shows as an attribute. Null and false show nothing. -/
def displayOf? : Value → Option String
  | .null => none
  | .bool false => none
  | .bool true => some ""
  | v => some v.display

theorem boundAttribute_eq (x : String) (v : Value) :
    boundAttribute x v = ((displayOf? v).map fun t => (x, t)).toList := by
  cases v with
  | bool b => cases b <;> rfl
  | _ => rfl

/-- The names that are bound, each with the value that it is given. -/
def namedValues (attrs : List Markup.Attribute) (values : List Value) : List (String × Value) :=
  ((boundOf attrs).zip values).map fun b => (b.1.1, b.2)

/-- The values that a name is bound to, in order. -/
def valuesFor (x : String) (attrs : List Markup.Attribute) (values : List Value) : List Value :=
  (namedValues attrs values).filterMap fun b => if b.1 = x then some b.2 else none

/-- The attributes of an element: the plain ones, and then those that show. -/
def shownAttributes (attrs : List Markup.Attribute) (values : List Value) :
    List (String × String) :=
  plainOf attrs ++ (namedValues attrs values).flatMap fun b => boundAttribute b.1 b.2

/-- The props of a placeholder: the values laid over the plain attributes. -/
def shownProps (attrs : List Markup.Attribute) (values : List Value) : Record :=
  Dict.overlay (Dict.ofList ((plainOf attrs).map fun a => (a.1, Value.str a.2)))
    (namedValues attrs values)

section

variable {m : Type → Type} [Monad m] [LawfulMonad m]

theorem renderAttributes_eq (ctx : RenderContext m) (attrs : List Markup.Attribute) :
    renderAttributes ctx (plainOf attrs) (boundOf attrs) =
      shownAttributes attrs <$> (boundOf attrs).mapM fun b => evaluate ctx b.2 := by
  refine (foldlM_evaluate (fun shown (b : String × Expression) v =>
    shown ++ boundAttribute b.1 v) _ _ _).trans ?_
  refine congrArg (· <$> _) (funext fun values => ?_)
  rw [shownAttributes, namedValues, List.flatMap_map, List.flatMap_def]
  exact List.foldl_append_eq_append

theorem renderProps_eq (ctx : RenderContext m) (attrs : List Markup.Attribute) :
    renderProps ctx (plainOf attrs) (boundOf attrs) =
      shownProps attrs <$> (boundOf attrs).mapM fun b => evaluate ctx b.2 := by
  refine (foldlM_evaluate (fun props (b : String × Expression) v =>
    Dict.insert b.1 v props) _ _ _).trans ?_
  refine congrArg (· <$> _) (funext fun values => ?_)
  rw [shownProps, Dict.overlay, namedValues, List.foldl_map]

/-- **Rendering an element** evaluates its bindings once, in order. What it gives depends on nothing
but their values, the nodes below and the class of the tag. -/
theorem renderNode_element (ctx : RenderContext m) (tag : String) (attrs : List Markup.Attribute)
    (listeners : List (String × String)) (children : List Node) (maybeComponent : Bool) :
    renderNode ctx (.element tag (plainOf attrs) (boundOf attrs) listeners children maybeComponent)
      = (do
        let nodes ← renderAll ctx children
        let ctor ← if maybeComponent then ctx.resolveComponent tag else pure none
        let values ← (boundOf attrs).mapM fun b => evaluate ctx b.2
        match ctor with
        | none => return [.element tag (shownAttributes attrs values) nodes false]
        | some ctor =>
          let listeners ← renderListeners ctx listeners
          return [.component tag ctor (shownProps attrs values) listeners nodes]) := by
  rw [renderNode]
  refine bind_congr fun nodes => ?_
  cases maybeComponent with
  | false =>
    simp only [renderElement, Bool.false_eq_true, if_false, pure_bind, renderAttributes_eq,
      map_eq_pure_bind, bind_assoc]
  | true =>
    simp only [renderElement, if_true, bind_assoc]
    refine bind_congr fun ctor => ?_
    cases ctor with
    | none => simp only [renderAttributes_eq, map_eq_pure_bind, bind_assoc, pure_bind]
    | some ctor => simp only [renderProps_eq, map_eq_pure_bind, bind_assoc, pure_bind]

end

/-! ## What is read -/

/-- **Reading an attribute of an element**: the plain one if there is one, else the first binding
that shows. -/
theorem attr?_shownAttributes (tag x : String) (attrs : List Markup.Attribute)
    (values : List Value) (nodes : List VNode) (isStatic : Bool) :
    (VNode.element tag (shownAttributes attrs values) nodes isStatic).attr? x =
      ((plainOf attrs).lookup x <|> (valuesFor x attrs values).findSome? displayOf?) := by
  have hbound : ∀ bs : List (String × Value),
      (bs.flatMap fun b => boundAttribute b.1 b.2).lookup x =
        (bs.filterMap fun b => if b.1 = x then some b.2 else none).findSome? displayOf? := by
    intro bs
    induction bs with
    | nil => rfl
    | cons b bs ih =>
      obtain ⟨y, v⟩ := b
      rw [List.flatMap_cons, List.lookup_append, ih, boundAttribute_eq, List.filterMap_cons]
      by_cases hy : y = x
      · subst hy
        cases hshown : displayOf? v <;> simp [hshown]
      · have hne : (x == y) = false := beq_false_of_ne (Ne.symm hy)
        cases displayOf? v <;> simp [hy, hne, List.lookup_cons]
  rw [VNode.attr?, shownAttributes, List.lookup_append, hbound, valuesFor]
  exact Option.or_eq_orElse

/-- What is laid over a dictionary last is found. -/
theorem get?_overlay_last {β : Type} (base : Dict β) (top : List (String × β)) (x : String) :
    Dict.get? (Dict.overlay base top) x =
      ((top.filterMap fun b => if b.1 = x then some b.2 else none).getLast? <|>
        Dict.get? base x) := by
  induction top generalizing base with
  | nil => rfl
  | cons b top ih =>
    obtain ⟨y, v⟩ := b
    show Dict.get? (Dict.overlay (Dict.insert y v base) top) x = _
    rw [ih, Dict.get?_insert, List.filterMap_cons]
    by_cases hy : y = x
    · rw [if_pos hy, if_pos hy.symm, List.getLast?_cons]
      cases List.getLast? _ <;> rfl
    · rw [if_neg hy, if_neg (Ne.symm hy)]

/-- Entries with distinct names are all found. -/
theorem get?_overlay_of_nodup {β : Type} {es : List (String × β)} (h : (es.map Prod.fst).Nodup)
    (base : Dict β) (x : String) :
    Dict.get? (Dict.overlay base es) x = (es.lookup x <|> Dict.get? base x) := by
  induction es generalizing base with
  | nil => rfl
  | cons e es ih =>
    obtain ⟨y, v⟩ := e
    obtain ⟨hnot, hrest⟩ := List.nodup_cons.mp h
    show Dict.get? (Dict.overlay (Dict.insert y v base) es) x = _
    rw [List.lookup_cons]
    by_cases hx : x = y
    · subst hx
      have hne : ∀ e ∈ es, e.1 ≠ x := fun e he heq =>
        hnot (List.mem_map.mpr ⟨e, he, heq⟩)
      rw [Dict.get?_overlay_of_not_mem _ _ _ hne, Dict.get?_insert, if_pos rfl, beq_self_eq_true]
      rfl
    · rw [ih hrest, Dict.get?_insert, if_neg hx, beq_false_of_ne hx]

theorem map_fst_plainOf (attrs : List Markup.Attribute) :
    (plainOf attrs).map Prod.fst = (attrs.filter isPlainAttribute).map (·.name) := by
  induction attrs with
  | nil => rfl
  | cons a attrs ih =>
    rw [plainOf] at ih ⊢
    cases hplain : isPlainAttribute a <;> simp [hplain, ih]

theorem nodup_plainOf (hnames : (attrs.map (·.name)).Nodup) :
    ((plainOf attrs).map Prod.fst).Nodup := by
  rw [map_fst_plainOf]
  exact hnames.sublist (List.filter_sublist.map _)

theorem lookup_map {β γ : Type} (f : β → γ) (es : List (String × β)) (x : String) :
    (es.map fun e => (e.1, f e.2)).lookup x = (es.lookup x).map f := by
  induction es with
  | nil => rfl
  | cons e es ih =>
    obtain ⟨y, v⟩ := e
    rw [List.map_cons, List.lookup_cons, List.lookup_cons, ih]
    cases x == y <;> rfl

/-- **Reading a prop of a placeholder**: what its name was bound to last, else the plain attribute.
-/
theorem get?_shownProps (hnames : (attrs.map (·.name)).Nodup) (x : String) (values : List Value) :
    Dict.get? (shownProps attrs values) x =
      ((valuesFor x attrs values).getLast? <|> ((plainOf attrs).lookup x).map Value.str) := by
  have hplain : (((plainOf attrs).map fun a => (a.1, Value.str a.2)).map Prod.fst).Nodup := by
    rw [List.map_map]
    exact nodup_plainOf hnames
  rw [shownProps, get?_overlay_last, valuesFor, Dict.ofList, get?_overlay_of_nodup hplain,
    lookup_map]
  congr 1
  cases ((plainOf attrs).lookup x).map Value.str <;> rfl

/-! ## Distinct names -/

/-- The bindings, each with the value that it is given. -/
def givenTo (attrs : List Markup.Attribute) (values : List Value) :
    List (Markup.Attribute × Value) :=
  (attrs.filter fun a => (boundName? a).isSome).zip values

/-- An attribute is a binding of this name, as it is written, and its value shows. -/
def Shows (attrs : List Markup.Attribute) (values : List Value) (name : String) : Prop :=
  ∃ a v, (a, v) ∈ givenTo attrs values ∧ a.name = name ∧ (displayOf? v).isSome = true

/-- The name under which a binding shows its value, if it does. -/
def shownName? (b : Markup.Attribute × Value) : Option String :=
  if (displayOf? b.2).isSome then boundName? b.1 else none

theorem map_fst_shownAttributes (attrs : List Markup.Attribute) (values : List Value) :
    (shownAttributes attrs values).map Prod.fst =
      (plainOf attrs).map Prod.fst ++ (givenTo attrs values).filterMap shownName? := by
  rw [shownAttributes, List.map_append]
  congr 1
  rw [namedValues, boundOf, givenTo]
  induction attrs generalizing values with
  | nil => rfl
  | cons a attrs ih =>
    cases hbound : boundName? a with
    | none => simpa [hbound] using ih values
    | some x =>
      cases values with
      | nil => simp
      | cons v values =>
        have hrest := ih values
        cases hshown : displayOf? v <;>
          simp_all [shownName?, boundAttribute_eq]

/-- The bindings that are given values have different names. -/
theorem pairwise_givenTo (hnames : (attrs.map (·.name)).Nodup) (values : List Value) :
    (givenTo attrs values).Pairwise fun b b' => b.1.name ≠ b'.1.name := by
  have hattrs : (attrs.filter fun a => (boundName? a).isSome).Pairwise fun a a' =>
      a.name ≠ a'.name := (List.pairwise_map.mp hnames).filter _
  rw [givenTo]
  generalize attrs.filter (fun a => (boundName? a).isSome) = bindings at hattrs
  induction hattrs generalizing values with
  | nil => exact List.Pairwise.nil
  | cons hhead _ ih =>
    cases values with
    | nil => exact List.Pairwise.nil
    | cons v values =>
      exact List.Pairwise.cons (fun b hb => hhead b.1 (List.of_mem_zip hb).1) (ih values)

theorem shownName?_eq_some_iff {b : Markup.Attribute × Value} :
    shownName? b = some x ↔
      (b.1.name = ":" ++ x ∨ b.1.name = "v-bind:" ++ x) ∧ (displayOf? b.2).isSome = true := by
  rw [shownName?, ← boundName?_eq_some_iff]
  split
  · rename_i hshown
    exact (and_iff_left hshown).symm
  · rename_i hhidden
    exact iff_of_false (Option.some_ne_none x).symm fun h => hhidden h.2

/-- A name shows in one of two spellings. -/
theorem mem_shownName? :
    x ∈ (givenTo attrs values).filterMap shownName? ↔
      Shows attrs values (":" ++ x) ∨ Shows attrs values ("v-bind:" ++ x) := by
  simp only [List.mem_filterMap, shownName?_eq_some_iff]
  constructor
  · rintro ⟨⟨a, v⟩, hmem, h | h, hshown⟩
    · exact .inl ⟨a, v, hmem, h, hshown⟩
    · exact .inr ⟨a, v, hmem, h, hshown⟩
  · rintro (⟨a, v, hmem, h, hshown⟩ | ⟨a, v, hmem, h, hshown⟩)
    · exact ⟨(a, v), hmem, .inl h, hshown⟩
    · exact ⟨(a, v), hmem, .inr h, hshown⟩

/-- No two bindings show under one name, unless it shows in both spellings. -/
theorem nodup_shownNames (hnames : (attrs.map (·.name)).Nodup) (values : List Value) :
    ((givenTo attrs values).filterMap shownName?).Nodup ↔
      ∀ x, ¬ (Shows attrs values (":" ++ x) ∧ Shows attrs values ("v-bind:" ++ x)) := by
  rw [List.Nodup, List.pairwise_filterMap]
  constructor
  · rintro h x ⟨⟨a, v, hmem, hname, hshown⟩, ⟨a', v', hmem', hname', hshown'⟩⟩
    have hne : (a, v) ≠ (a', v') := fun heq =>
      spellings_ne x x (hname.symm.trans ((congrArg (·.1.name) heq).trans hname'))
    have hsymm : Std.Symm fun b b' : Markup.Attribute × Value =>
        ∀ y, shownName? b = some y → ∀ y', shownName? b' = some y' → y ≠ y' :=
      ⟨fun _ _ hbb y hy y' hy' heq => hbb y' hy' y hy heq.symm⟩
    exact h.forall hmem hmem' hne x (shownName?_eq_some_iff.mpr ⟨.inl hname, hshown⟩) x
      (shownName?_eq_some_iff.mpr ⟨.inr hname', hshown'⟩) rfl
  · intro h
    refine (pairwise_givenTo hnames values).imp_of_mem fun {b b'} hb hb' hne x hx y hy hxy => ?_
    subst hxy
    obtain ⟨hname, hshown⟩ := shownName?_eq_some_iff.mp hx
    obtain ⟨hname', hshown'⟩ := shownName?_eq_some_iff.mp hy
    -- names that differ and bind the same are the two spellings
    rcases hname with hname | hname <;> rcases hname' with hname' | hname'
    · exact hne (hname.trans hname'.symm)
    · exact h x ⟨⟨b.1, b.2, hb, hname, hshown⟩, ⟨b'.1, b'.2, hb', hname', hshown'⟩⟩
    · exact h x ⟨⟨b'.1, b'.2, hb', hname', hshown'⟩, ⟨b.1, b.2, hb, hname, hshown⟩⟩
    · exact hne (hname.trans hname'.symm)

/-- **The names of an element's attributes are distinct** if and only if no name shows that is also
written plainly, and none shows in both spellings. -/
theorem nodup_shownAttributes (hnames : (attrs.map (·.name)).Nodup) (values : List Value) :
    ((shownAttributes attrs values).map Prod.fst).Nodup ↔
      ∀ x, (x ∈ (plainOf attrs).map Prod.fst →
          ¬ Shows attrs values (":" ++ x) ∧ ¬ Shows attrs values ("v-bind:" ++ x)) ∧
        ¬ (Shows attrs values (":" ++ x) ∧ Shows attrs values ("v-bind:" ++ x)) := by
  rw [map_fst_shownAttributes, List.nodup_append, nodup_shownNames hnames, forall_and]
  constructor
  · rintro ⟨-, hshown, happart⟩
    refine ⟨fun x hx => not_or.mp fun h => ?_, hshown⟩
    exact happart x hx x (mem_shownName?.mpr h) rfl
  · rintro ⟨happart, hshown⟩
    refine ⟨nodup_plainOf hnames, hshown, fun x hx y hy hxy => ?_⟩
    exact not_or.mpr (happart x hx) (mem_shownName?.mp (hxy ▸ hy))

/-- **Attributes that are written plainly and bound.** An element of a template lists its plain
attributes and then the bindings that show, a placeholder lays the values over the plain ones. The
element's names are distinct if and only if no name shows that is also written plainly, and none
shows in both spellings. Where a name is given in several ways, the element is read by its plain
attribute, else by the first binding that shows; the placeholder by the last binding, whatever its
value, else by the plain attribute. -/
theorem rendered_attributes (attrs : List Markup.Attribute) (hnames : (attrs.map (·.name)).Nodup) :
    (∀ s tag contents children, ∃ n,
      lowerNode s (.element tag attrs contents children) = some n ∧
      (n.isSlot = true ∨ ∃ tag' listeners below maybeComponent,
        n = .element tag' (plainOf attrs) (boundOf attrs) listeners below maybeComponent)) ∧
    (∀ (m : Type → Type) [Monad m] [LawfulMonad m] (ctx : RenderContext m) tag listeners below
        maybeComponent,
      renderNode ctx
          (.element tag (plainOf attrs) (boundOf attrs) listeners below maybeComponent) = do
        let nodes ← renderAll ctx below
        let ctor ← if maybeComponent then ctx.resolveComponent tag else pure none
        let values ← (boundOf attrs).mapM fun b => evaluate ctx b.2
        match ctor with
        | none => return [.element tag (shownAttributes attrs values) nodes false]
        | some ctor =>
          let listeners ← renderListeners ctx listeners
          return [.component tag ctor (shownProps attrs values) listeners nodes]) ∧
    ∀ values,
      (((shownAttributes attrs values).map Prod.fst).Nodup ↔
        ∀ x, (x ∈ (plainOf attrs).map Prod.fst →
            ¬ Shows attrs values (":" ++ x) ∧ ¬ Shows attrs values ("v-bind:" ++ x)) ∧
          ¬ (Shows attrs values (":" ++ x) ∧ Shows attrs values ("v-bind:" ++ x))) ∧
      ∀ x,
        (∀ tag nodes, (VNode.element tag (shownAttributes attrs values) nodes false).attr? x =
          ((plainOf attrs).lookup x <|> (valuesFor x attrs values).findSome? displayOf?)) ∧
        Dict.get? (shownProps attrs values) x =
          ((valuesFor x attrs values).getLast? <|> ((plainOf attrs).lookup x).map Value.str) := by
  refine ⟨fun s tag contents children => ?_, fun m _ _ ctx tag listeners below maybeComponent =>
    renderNode_element ctx tag attrs listeners below maybeComponent, fun values =>
    ⟨nodup_shownAttributes hnames values, fun x => ⟨fun tag nodes =>
      attr?_shownAttributes tag x attrs values nodes false, get?_shownProps hnames x values⟩⟩⟩
  refine ⟨_, rfl, ?_⟩
  rcases elementOf_roles tag.name attrs _ with hslot | ⟨tag', listeners, maybeComponent, h⟩
  · exact .inl hslot
  · exact .inr ⟨tag', listeners, _, maybeComponent, h⟩

/-- A class that is written plainly and bound, and a title that is bound only. -/
def classedAttributes : List Markup.Attribute :=
  [⟨.none, "class", "a"⟩, ⟨.none, ":class", "'b'"⟩, ⟨.none, "v-bind:title", "'t'"⟩]

theorem rendered_attributes_classed :
    (classedAttributes.map (·.name)).Nodup ∧
    ¬ ((shownAttributes classedAttributes [.str "b", .str "t"]).map Prod.fst).Nodup ∧
    ((shownAttributes classedAttributes [.null, .str "t"]).map Prod.fst).Nodup ∧
    (VNode.element "p" (shownAttributes classedAttributes [.str "b", .str "t"]) [] false).attr?
      "class" = some "a" ∧
    Dict.get? (shownProps classedAttributes [.str "b", .str "t"]) "class" = some (.str "b") := by
  have hnames : (classedAttributes.map (·.name)).Nodup := by decide
  obtain ⟨-, -, hvalues⟩ := rendered_attributes classedAttributes hnames
  obtain ⟨hnodup, hread⟩ := hvalues [.str "b", .str "t"]
  obtain ⟨hattr, hprop⟩ := hread "class"
  refine ⟨hnames, fun h => ?_, by decide, (hattr "p" []).trans rfl, hprop.trans rfl⟩
  exact ((hnodup.mp h "class").1 (by decide)).1 ⟨_, _, List.mem_cons_self, rfl, rfl⟩

/-- An element with a class that is also bound has two classes, and is read by the plain one. -/
theorem two_classes :
    (compile {} "<p class=\"a\" :class=\"'b'\">x</p>").root.map (fun root =>
      let nodes : List VNode := renderNode (slotContext fun _ => []) root
      (VNode.listToHtml nodes, nodes.map fun n => n.attr? "class")) =
        some ("<p class=\"a\" class=\"b\">x</p>", [some "a"]) := by
  decide +kernel

end Componentry.Template
