import Componentry.Options.Merge

/-!
# Merging as a fold

What a merge gives does not depend on the journal it writes to, and it is a fold: the objects that
the child stands for, laid over the parent one after the other, each field by field.

- `Gives`: what a computation that writes to the journal gives.
- `Options.over`: one object over another, field by field, without its base and mixins.
- `Options.merge_gives`: **merging is laying down the linearization**.
- `Options.linearize_unfold`: the linearization, read off an object.
- `Options.beneath`: what an object is laid over; a parent itself, if the object stands alone.
- `merge_eq_foldlM_linearize`: **a merge is a fold** of the merges of own fields.
- `Options.Alone`: an object that stands for nothing but itself.
- `Options.mergeResult_ok`: without strategies a merge succeeds.
- `Options.mergeResult_name`: the name that a merge leads to.
-/

namespace Componentry

open Json (Value)

/-- What a computation that writes to the journal gives, whatever the journal holds. -/
def Gives {α : Type} (m : Merging α) (r : Except Error α) : Prop := ∀ j, (m.run.run j).1 = r

namespace Gives

variable {α β : Type}

theorem pure (a : α) : Gives (Pure.pure a) (.ok a) := fun _ => rfl

theorem throw (e : Error) : Gives (MonadExcept.throw e : Merging α) (.error e) := fun _ => rfl

theorem bind {m : Merging α} {r : Except Error α} {g : α → Merging β}
    {s : α → Except Error β} (hm : Gives m r) (hg : ∀ a, Gives (g a) (s a)) :
    Gives (m >>= g) (r >>= s) := by
  intro j
  have hr := hm j
  show (ExceptT.run (m >>= g) |>.run j).1 = _
  rw [ExceptT.run_bind, StateT.run_bind]
  generalize hrun : m.run.run j = out at hr ⊢
  obtain ⟨a, j'⟩ := out
  subst hr
  cases a with
  | error e => rfl
  | ok a => exact hg a j'

/-- Writing to the journal first makes no difference. -/
theorem after {n : Noting Unit} {g : Unit → Merging α} {r : Except Error α}
    (hg : Gives (g ()) r) : Gives (liftM n >>= g) r :=
  fun j => hg (n.run j).2

end Gives

/-! ## One object over another -/

/-- One option without a field of its own: what the strategy of its name gives, else the child's
value wins. -/
def extraValue (cfg : Config) (key : String) (parent child : Option Value) :
    Except Error (Option Value) :=
  match Dict.get? cfg.strategies key with
  | none => .ok (child <|> parent)
  | some strategy => strategy parent child

/-- The options without a field of their own, those of the child over those of the parent. -/
def extraOver (cfg : Config) (parent child : Dict Value) : Except Error (Dict Value) :=
  (Dict.keys (Dict.overlay parent child)).foldlM (fun d key => do
    match ← extraValue cfg key (Dict.get? parent key) (Dict.get? child key) with
    | some v => return Dict.insert key v d
    | none => return d) []

/-- One object over another, given what becomes of the options without a field of their own. -/
def Options.joined (parent child : Options) (extra : Dict Value) : Options where
  fields := { Fields.mergeKnown parent.fields child.fields with extra }
  components := mergeRegistries parent.components child.components
  mixins := child.mixins <|> parent.mixins
  base := child.base <|> parent.base
  merged := true

/-- One object over another, field by field. The base and the mixins of the upper one are not
applied. -/
def Options.over (cfg : Config) (parent child : Options) : Except Error Options := do
  let extra ← extraOver cfg parent.fields.extra child.fields.extra
  return parent.joined child extra

/-- An object and what it stands for, over another. -/
def Options.mergeResult (cfg : Config) (parent child : Options) : Except Error Options :=
  child.linearize.foldlM (Options.over cfg) parent

theorem Options.over_eq_ok {cfg : Config} {p c m : Options} (h : Options.over cfg p c = .ok m) :
    ∃ extra, extraOver cfg p.fields.extra c.fields.extra = .ok extra ∧ m = p.joined c extra := by
  rw [Options.over] at h
  cases he : extraOver cfg p.fields.extra c.fields.extra with
  | error e =>
    rw [he] at h
    cases h
  | ok extra =>
    rw [he] at h
    exact ⟨extra, rfl, (Except.ok.inj h).symm⟩

theorem mergeExtraValue_gives (cfg : Config) (key : String) (parent child : Option Value) :
    Gives (mergeExtraValue cfg key parent child) (extraValue cfg key parent child) := by
  rw [mergeExtraValue, extraValue]
  cases Dict.get? cfg.strategies key with
  | none => exact Gives.pure _
  | some strategy =>
    show Gives _ (strategy parent child)
    refine Gives.after ?_
    generalize strategy parent child = r
    cases r with
    | error e => exact Gives.throw e
    | ok v => exact Gives.pure v

theorem mergeExtra_gives (cfg : Config) (parent child : Dict Value) :
    Gives (mergeExtra cfg parent child) (extraOver cfg parent child) := by
  rw [mergeExtra, extraOver]
  generalize ([] : Dict Value) = d
  induction Dict.keys (Dict.overlay parent child) generalizing d with
  | nil => exact Gives.pure d
  | cons key rest ih =>
    rw [List.foldlM_cons, List.foldlM_cons]
    refine Gives.bind (Gives.bind (mergeExtraValue_gives cfg key _ _) fun v => ?_) ih
    cases v with
    | none => exact Gives.pure d
    | some v => exact Gives.pure (Dict.insert key v d)

theorem mergeOwn_gives (cfg : Config) (parent child : Options) :
    Gives (Options.mergeOwn cfg parent child) (Options.over cfg parent child) :=
  Gives.bind (mergeExtra_gives cfg _ _) fun _ => Gives.pure _

/-! ## An object with all that it stands for

The recursion of a merge and that of `linearize` have the same shape, one case per way in which
options hold options. -/

mutual

/-- **Merging is laying down the linearization.** -/
theorem Options.merge_gives (cfg : Config) (forInstance : Bool) (parent : Options) :
    ∀ child : Options, Gives (Options.merge cfg forInstance parent child)
      (Options.mergeResult cfg parent child)
  | ⟨fields, components, mixins, base, merged⟩ => by
    rw [Options.merge, Options.mergeResult, Options.linearize, List.foldlM_append]
    -- what is left to do once the base and the mixins have been laid down
    have hown : ∀ p, Gives (do
          if !forInstance then checkClassFields cfg fields
          Options.mergeOwn cfg p ⟨fields, components, mixins, base, merged⟩)
        ([(⟨fields, components, mixins, base, merged⟩ : Options)].foldlM (Options.over cfg) p) := by
      intro p
      rw [List.foldlM_cons]
      simp only [List.foldlM_nil, bind_pure]
      cases forInstance with
      | true => exact mergeOwn_gives cfg p _
      | false => exact Gives.after (mergeOwn_gives cfg p _)
    refine Gives.after (Gives.after ?_)
    cases merged with
    | true => exact hown parent
    | false =>
      show Gives _ ((linearizeBase base ++ linearizeMixins mixins).foldlM (Options.over cfg) parent
        >>= _)
      rw [List.foldlM_append, bind_assoc]
      exact Gives.bind (mergeBase_gives cfg forInstance parent base) fun p =>
        Gives.bind (mergeMixins_gives cfg forInstance p mixins) hown

theorem mergeBase_gives (cfg : Config) (forInstance : Bool) (parent : Options) :
    ∀ base : Option (Placed Options), Gives (mergeBase cfg forInstance parent base)
      ((linearizeBase base).foldlM (Options.over cfg) parent)
  | none => by
    rw [mergeBase, linearizeBase]
    exact Gives.pure parent
  | some ⟨_, o⟩ => by
    rw [mergeBase, linearizeBase]
    exact Options.merge_gives cfg forInstance parent o

theorem mergeMixins_gives (cfg : Config) (forInstance : Bool) (parent : Options) :
    ∀ mixins : Option (Placed (List Options)), Gives (mergeMixins cfg forInstance parent mixins)
      ((linearizeMixins mixins).foldlM (Options.over cfg) parent)
  | none => by
    rw [mergeMixins, linearizeMixins]
    exact Gives.pure parent
  | some ⟨_, os⟩ => by
    rw [mergeMixins, linearizeMixins]
    exact mergeAll_gives cfg forInstance parent os

theorem mergeAll_gives (cfg : Config) (forInstance : Bool) (parent : Options) :
    ∀ os : List Options, Gives (mergeAll cfg forInstance parent os)
      ((linearizeAll os).foldlM (Options.over cfg) parent)
  | [] => by
    rw [mergeAll, linearizeAll]
    exact Gives.pure parent
  | o :: rest => by
    rw [mergeAll, linearizeAll, List.foldlM_append]
    exact Gives.bind (Options.merge_gives cfg forInstance parent o)
      fun p => mergeAll_gives cfg forInstance p rest

end

theorem linearizeAll_eq (os : List Options) : linearizeAll os = os.flatMap Options.linearize := by
  induction os with
  | nil => rw [linearizeAll, List.flatMap_nil]
  | cons o rest ih => rw [linearizeAll, List.flatMap_cons, ih]

/-- The base first, then each of the mixins, then the object itself, and nothing but the object if
it was merged before. -/
theorem Options.linearize_unfold (o : Options) :
    o.linearize =
      (if o.merged then [] else
        (o.base.toList.flatMap fun b => b.value.linearize) ++
          o.mixins.toList.flatMap fun ms => ms.value.flatMap Options.linearize) ++ [o] := by
  obtain ⟨fields, components, mixins, base, merged⟩ := o
  have hbase : linearizeBase base = base.toList.flatMap fun b => b.value.linearize := by
    cases base with
    | none => rw [linearizeBase, Option.toList_none, List.flatMap_nil]
    | some b => rw [linearizeBase, Option.toList_some, List.flatMap_singleton]
  have hmixins : linearizeMixins mixins =
      mixins.toList.flatMap fun ms => ms.value.flatMap Options.linearize := by
    cases mixins with
    | none => rw [linearizeMixins, Option.toList_none, List.flatMap_nil]
    | some ms =>
      rw [linearizeMixins, Option.toList_some, List.flatMap_singleton, linearizeAll_eq]
  rw [Options.linearize, hbase, hmixins]

/-- Merging an object that was merged before lays down its own fields only. -/
theorem Options.mergeResult_of_merged (cfg : Config) (parent o : Options) :
    Options.mergeResult cfg parent { o with merged := true } = Options.over cfg parent o := by
  rw [Options.mergeResult, Options.linearize_unfold, if_pos rfl, List.nil_append,
    List.foldlM_cons]
  simp only [List.foldlM_nil, bind_pure]
  rfl

/-- **A merge is a fold**: what it gives, result or error, is what laying down the linearization
gives, each object by the merge of its own fields. That is the merge that an object marked as
merged gets, so that it takes no notice of base and mixins. -/
theorem merge_eq_foldlM_linearize (cfg : Config) (forInstance : Bool) (parent child : Options)
    (j : Journal) :
    ((Options.merge cfg forInstance parent child).run.run j).1 =
        child.linearize.foldlM
          (fun p o => ((Options.mergeOwn cfg p o).run.run j).1) parent ∧
      (∀ p o : Options, ((Options.mergeOwn cfg p o).run.run j).1 =
        ((Options.merge cfg forInstance p { o with merged := true }).run.run j).1) ∧
      ∀ o : Options, o.linearize =
        (if o.merged then [] else
          (o.base.toList.flatMap fun b => b.value.linearize) ++
            o.mixins.toList.flatMap fun ms => ms.value.flatMap Options.linearize) ++ [o] := by
  have hown : (fun p o => ((Options.mergeOwn cfg p o).run.run j).1) = Options.over cfg := by
    funext p o
    exact mergeOwn_gives cfg p o j
  refine ⟨?_, fun p o => ?_, Options.linearize_unfold⟩
  · rw [hown]
    exact Options.merge_gives cfg forInstance parent child j
  · rw [mergeOwn_gives cfg p o j, Options.merge_gives cfg forInstance p _ j,
      Options.mergeResult_of_merged]

/-! ## An object without itself -/

/-- What an object stands for besides itself: its base and its mixins. -/
def Options.foundation (o : Options) : List Options :=
  if o.merged then [] else linearizeBase o.base ++ linearizeMixins o.mixins

/-- A parent with the base and the mixins of an object over it. -/
def Options.beneath (cfg : Config) (parent o : Options) : Except Error Options :=
  o.foundation.foldlM (Options.over cfg) parent

theorem Options.linearize_eq (o : Options) : o.linearize = o.foundation ++ [o] := by
  cases o
  rw [Options.linearize]
  rfl

/-- A merge ends with the object itself over what is beneath it. -/
theorem Options.mergeResult_eq (cfg : Config) (parent o : Options) :
    Options.mergeResult cfg parent o =
      (do Options.over cfg (← Options.beneath cfg parent o) o) := by
  rw [Options.mergeResult, Options.linearize_eq, List.foldlM_append]
  simp only [List.foldlM_cons, List.foldlM_nil, bind_pure]
  rfl

theorem Options.mergeResult_eq_ok {cfg : Config} {parent o m : Options}
    (h : Options.mergeResult cfg parent o = .ok m) :
    ∃ w extra, Options.beneath cfg parent o = .ok w ∧
      extraOver cfg w.fields.extra o.fields.extra = .ok extra ∧ m = w.joined o extra := by
  rw [Options.mergeResult_eq] at h
  cases hw : Options.beneath cfg parent o with
  | error e =>
    rw [hw] at h
    cases h
  | ok w =>
    rw [hw] at h
    obtain ⟨extra, he, hm⟩ := Options.over_eq_ok h
    exact ⟨w, extra, rfl, he, hm⟩

/-- The object has no base and no mixins, or they have been applied to it already. -/
def Options.Alone (o : Options) : Prop := o.merged = true ∨ o.base = none ∧ o.mixins = none

/-- Nothing comes between a parent and an object that stands alone. -/
theorem Options.Alone.beneath {o : Options} (h : o.Alone) (cfg : Config) (parent : Options) :
    Options.beneath cfg parent o = .ok parent := by
  have hfoundation : o.foundation = [] := by
    rw [Options.foundation]
    rcases h with hmerged | ⟨hbase, hmixins⟩
    · rw [if_pos hmerged]
    · rw [hbase, hmixins, linearizeBase, linearizeMixins, List.append_nil, ite_self]
  rw [Options.beneath, hfoundation]
  rfl

theorem Options.Alone.mergeResult {o : Options} (h : o.Alone) (cfg : Config) (parent : Options) :
    Options.mergeResult cfg parent o = Options.over cfg parent o := by
  rw [Options.mergeResult_eq, h.beneath]
  rfl

/-- Laying down objects one after the other starts with the first of them. -/
theorem foldlM_over_cons {cfg : Config} {o : Options} {rest : List Options} {p m : Options}
    (h : (o :: rest).foldlM (Options.over cfg) p = .ok m) :
    ∃ extra, rest.foldlM (Options.over cfg) (p.joined o extra) = .ok m := by
  rw [List.foldlM_cons] at h
  cases hover : Options.over cfg p o with
  | error e =>
    rw [hover] at h
    cases h
  | ok q =>
    rw [hover] at h
    obtain ⟨extra, -, rfl⟩ := Options.over_eq_ok hover
    exact ⟨extra, h⟩

/-! ## Merging without strategies -/

/-- The child's value wins. -/
theorem extraValue_eq {cfg : Config} (h : cfg.strategies = []) (key : String)
    (parent child : Option Value) : extraValue cfg key parent child = .ok (child <|> parent) := by
  rw [extraValue, h]
  rfl

theorem extraOver_ok {cfg : Config} (h : cfg.strategies = []) (p c : Dict Value) :
    ∃ extra, extraOver cfg p c = .ok extra := by
  rw [extraOver]
  generalize ([] : Dict Value) = d
  induction Dict.keys (Dict.overlay p c) generalizing d with
  | nil => exact ⟨d, rfl⟩
  | cons key rest ih =>
    rw [List.foldlM_cons, extraValue_eq h]
    cases (Dict.get? c key <|> Dict.get? p key) with
    | none => exact ih d
    | some v => exact ih (Dict.insert key v d)

/-- Only a strategy can make a merge fail. -/
theorem Options.mergeResult_ok {cfg : Config} (h : cfg.strategies = []) (p c : Options) :
    ∃ m, Options.mergeResult cfg p c = .ok m := by
  rw [Options.mergeResult]
  induction c.linearize generalizing p with
  | nil => exact ⟨p, rfl⟩
  | cons o rest ih =>
    obtain ⟨extra, he⟩ := extraOver_ok h p.fields.extra o.fields.extra
    rw [List.foldlM_cons, Options.over, he]
    exact ih (p.joined o extra)

/-! ## Names -/

/-- A definition that has a name of its own if its base or one of its mixins has one. -/
def Options.NamesItself (o : Options) : Prop := ∀ b ∈ o.foundation, b.name.isSome → o.name.isSome

instance (o : Options) : Decidable o.NamesItself :=
  inferInstanceAs (Decidable (∀ b ∈ o.foundation, b.name.isSome → o.name.isSome))

/-- Objects without a name leave that of the parent. -/
theorem foldlM_over_name {cfg : Config} {os : List Options} {p w : Options}
    (h : os.foldlM (Options.over cfg) p = .ok w) (hn : ∀ o ∈ os, o.name = none) :
    w.name = p.name := by
  induction os generalizing p with
  | nil =>
    cases h
    rfl
  | cons o rest ih =>
    obtain ⟨extra, hrest⟩ := foldlM_over_cons h
    rw [ih hrest fun o' ho' => hn o' (List.mem_cons_of_mem _ ho')]
    show (o.name <|> p.name) = p.name
    rw [hn o List.mem_cons_self]
    rfl

/-- **The name that a merge leads to**: that of the definition, else that of the parent. -/
theorem Options.mergeResult_name {cfg : Config} {p o m : Options} (hn : o.NamesItself)
    (h : Options.mergeResult cfg p o = .ok m) : m.name = (o.name <|> p.name) := by
  obtain ⟨w, extra, hw, -, rfl⟩ := Options.mergeResult_eq_ok h
  show (o.name <|> w.name) = _
  cases hname : o.name with
  | some name => rfl
  | none =>
    refine foldlM_over_name hw fun b hb => Option.not_isSome_iff_eq_none.mp fun hs => ?_
    have := hn b hb hs
    rw [hname] at this
    cases this

end Componentry
