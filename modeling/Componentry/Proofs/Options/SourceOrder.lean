import Componentry.Proofs.Options.Grouping
import Componentry.Proofs.Options.Unmarked

/-!
# Sources in turn

Options that were merged from many objects evaluate the sources of all of them, in the order opposite
to that in which the objects were laid down: the last comes first, and the first error ends it. In
what comes out the last wins all the same.

- `Eng.evaluateInTurn`: evaluating sources one after the other.
- `DataSource.over`: the source that merging makes of many.
- `Eng.evaluateSource_over`: **evaluating it** is evaluating them in turn.
- `Eng.evaluateInTurn_error`, `get?_stacked`: where it ends, and what wins.
- `RecordField.source_layered`: **many objects**, one over the other.
- `Laid`: definitions laid down as those of a line of classes are.
- `Laid.source_eq`: what the options of such a line evaluate.
-/

namespace Componentry

open Json (Value Record)

/-! ## Evaluating in turn -/

/-- Sources evaluated one after the other, up to the first that fails. -/
def Eng.evaluateInTurn (run : Runner) (vm : InstanceId) :
    List DataSource → Eng (Except HookError (List Record))
  | [] => return .ok []
  | s :: rest => do
    match ← Eng.evaluateSource run vm s with
    | .error e => return .error e
    | .ok r => return (← Eng.evaluateInTurn run vm rest).map (r :: ·)

/-- Records laid over each other. The first of them lies on top. -/
def stacked : List Record → Record
  | [] => []
  | [r] => r
  | r :: below => Dict.overlay (stacked below) r

/-- The source that merging makes of a source on top and of those below it, of which the next one
comes first. -/
def DataSource.over (s : DataSource) : List DataSource → DataSource
  | [] => s
  | s' :: below => .both (s'.over below) s

section

variable {run : Runner} {vm : InstanceId}

theorem Eng.run_evaluateInTurn_cons (s : DataSource) (rest : List DataSource) (w : World) :
    (Eng.evaluateInTurn run vm (s :: rest)).run.run w =
      match (Eng.evaluateSource run vm s).run.run w with
      | (.error h, w') => (.error h, w')
      | (.ok (.error e), w') => (.ok (.error e), w')
      | (.ok (.ok r), w') =>
        match (Eng.evaluateInTurn run vm rest).run.run w' with
        | (.error h, w'') => (.error h, w'')
        | (.ok rs, w'') => (.ok (rs.map (r :: ·)), w'') := by
  rw [Eng.evaluateInTurn, ExceptT.run_bind, StateT.run_bind]
  obtain ⟨out, w'⟩ := (Eng.evaluateSource run vm s).run.run w
  match out with
  | .error h => rfl
  | .ok (.error e) => rfl
  | .ok (.ok r) =>
    show (ExceptT.run (Eng.evaluateInTurn run vm rest >>= _)).run w' = _
    rw [ExceptT.run_bind, StateT.run_bind]
    dsimp only
    generalize (Eng.evaluateInTurn run vm rest).run.run w' = out
    obtain ⟨rs, w''⟩ := out
    cases rs <;> rfl

/-- What became of several sources, as one record. -/
def stackedResult : Except Halt (Except HookError (List Record)) × World →
    Except Halt (Except HookError Record) × World
  | (.error h, w) => (.error h, w)
  | (.ok rs, w) => (.ok (rs.map stacked), w)

/-- **Evaluating a source that merging made**: those it was made of are evaluated in turn, from the
top, and their records stacked. -/
theorem Eng.evaluateSource_over (s : DataSource) (below : List DataSource) (w : World) :
    (Eng.evaluateSource run vm (s.over below)).run.run w =
      stackedResult ((Eng.evaluateInTurn run vm (s :: below)).run.run w) := by
  induction below generalizing s w with
  | nil =>
    rw [Eng.run_evaluateInTurn_cons, DataSource.over]
    obtain ⟨out, w'⟩ := (Eng.evaluateSource run vm s).run.run w
    match out with
    | .error h => rfl
    | .ok (.error e) => rfl
    | .ok (.ok r) => rfl
  | cons s' below ih =>
    rw [DataSource.over, Eng.run_evaluateSource_both, Eng.run_evaluateInTurn_cons]
    obtain ⟨out, w'⟩ := (Eng.evaluateSource run vm s).run.run w
    match out with
    | .error h => rfl
    | .ok (.error e) => rfl
    | .ok (.ok r) =>
      dsimp only
      rw [ih s' w', Eng.run_evaluateInTurn_cons]
      -- the record of `s'` is there whenever the sources below are evaluated at all
      obtain ⟨out', w₁⟩ := (Eng.evaluateSource run vm s').run.run w'
      match out' with
      | .error h => rfl
      | .ok (.error e) => rfl
      | .ok (.ok r') =>
        dsimp only
        generalize (Eng.evaluateInTurn run vm below).run.run w₁ = outs
        obtain ⟨rs, w₂⟩ := outs
        match rs with
        | .error h => rfl
        | .ok (.error e) => rfl
        | .ok (.ok rs) => rfl

/-- There is one record for each source, and it is one that the source gave. -/
theorem Eng.evaluateInTurn_ok {ss : List DataSource} {rs : List Record} {w w' : World}
    (h : (Eng.evaluateInTurn run vm ss).run.run w = (.ok (.ok rs), w')) :
    rs.length = ss.length ∧
      ∀ r ∈ rs, ∃ s ∈ ss, ∃ v v', (Eng.evaluateSource run vm s).run.run v = (.ok (.ok r), v') := by
  induction ss generalizing rs w with
  | nil =>
    cases h
    exact ⟨rfl, fun r hr => by cases hr⟩
  | cons s rest ih =>
    rw [Eng.run_evaluateInTurn_cons] at h
    generalize hs : (Eng.evaluateSource run vm s).run.run w = out at h
    obtain ⟨out, w₁⟩ := out
    match out with
    | .error _ => cases h
    | .ok (.error _) => cases h
    | .ok (.ok r) =>
      dsimp only at h
      generalize hrest : (Eng.evaluateInTurn run vm rest).run.run w₁ = outs at h
      obtain ⟨outs, w₂⟩ := outs
      match outs with
      | .error _ => cases h
      | .ok (.error _) => cases h
      | .ok (.ok rs') =>
        cases h
        obtain ⟨hlen, heach⟩ := ih hrest
        refine ⟨congrArg Nat.succ hlen, fun r' hr' => ?_⟩
        rcases List.mem_cons.mp hr' with rfl | hr'
        · exact ⟨s, List.mem_cons_self, w, w₁, hs⟩
        · obtain ⟨s', hs', hrun⟩ := heach r' hr'
          exact ⟨s', List.mem_cons_of_mem s hs', hrun⟩

/-- **The first error ends it**: those before gave records, this one failed, and nothing has been
done since. -/
theorem Eng.evaluateInTurn_error {ss : List DataSource} {e : HookError} {w w' : World}
    (h : (Eng.evaluateInTurn run vm ss).run.run w = (.ok (.error e), w')) :
    ∃ before s rest rs v, ss = before ++ s :: rest ∧
      (Eng.evaluateInTurn run vm before).run.run w = (.ok (.ok rs), v) ∧
      (Eng.evaluateSource run vm s).run.run v = (.ok (.error e), w') := by
  induction ss generalizing w with
  | nil => cases h
  | cons s rest ih =>
    rw [Eng.run_evaluateInTurn_cons] at h
    generalize hs : (Eng.evaluateSource run vm s).run.run w = out at h
    obtain ⟨out, w₁⟩ := out
    match out with
    | .error _ => cases h
    | .ok (.error e') =>
      cases h
      exact ⟨[], s, rest, [], w, rfl, rfl, hs⟩
    | .ok (.ok r) =>
      dsimp only at h
      generalize hrest : (Eng.evaluateInTurn run vm rest).run.run w₁ = outs at h
      obtain ⟨outs, w₂⟩ := outs
      match outs with
      | .error _ => cases h
      | .ok (.ok _) => cases h
      | .ok (.error e') =>
        cases h
        obtain ⟨before, s', rest', rs, v, rfl, hbefore, hs'⟩ := ih hrest
        refine ⟨s :: before, s', rest', r :: rs, v, rfl, ?_, hs'⟩
        rw [Eng.run_evaluateInTurn_cons, hs]
        dsimp only
        rw [hbefore]
        rfl

end

/-- **The topmost record wins** that has the name. -/
theorem get?_stacked {rs : List Record} (h : ∀ r ∈ rs, Dict.Ordered r) (key : String) :
    Dict.get? (stacked rs) key = rs.findSome? (Dict.get? · key) := by
  induction rs with
  | nil => rfl
  | cons r below ih =>
    have hbelow := ih fun r' hr' => h r' (List.mem_cons_of_mem r hr')
    rw [List.findSome?_cons]
    cases below with
    | nil =>
      show Dict.get? r key = _
      cases Dict.get? r key <;> rfl
    | cons r' below =>
      show Dict.get? (Dict.overlay (stacked (r' :: below)) r) key = _
      rw [Dict.get?_overlay (h r List.mem_cons_self), hbelow]
      cases Dict.get? r key <;> rfl

/-! ## The sources of options -/

/-- A field whose source gives an instance a record. -/
inductive RecordField where
  | data
  | provide

namespace RecordField

/-- What options have in the field. -/
def source (x : RecordField) (o : Options) : Option DataSource :=
  match x with
  | data => valueOf o.fields.data
  | provide => valueOf o.fields.provide

/-- What each of several objects has in the field, if it has anything. -/
def contributions (x : RecordField) (os : List Options) : List DataSource := os.filterMap x.source

end RecordField

/-- The source made of several, the topmost of which comes first; none of none. -/
def DataSource.ofStack : List DataSource → Option DataSource
  | [] => none
  | s :: below => some (s.over below)

variable {cfg : Config} {x : RecordField}

theorem RecordField.source_joined {p : Options} {below : List DataSource}
    (h : x.source p = DataSource.ofStack below) (o : Options) (extra : Dict Value) :
    x.source (p.joined o extra) = DataSource.ofStack ((x.source o).toList ++ below) := by
  -- both fields are merged in the same way
  have hparts : ∀ part : Fields → Option (Placed DataSource),
      valueOf (part p.fields) = DataSource.ofStack below →
        valueOf (mergeParts .both (part p.fields) (part o.fields)) =
          DataSource.ofStack ((valueOf (part o.fields)).toList ++ below) := by
    intro part hp
    generalize part p.fields = under at hp
    cases part o.fields with
    | none => cases under <;> exact hp
    | some c =>
      cases below with
      | nil =>
        cases under with
        | none => rfl
        | some u => cases hp
      | cons s below =>
        cases under with
        | none => cases hp
        | some u =>
          have hu : u.value = s.over below := Option.some.inj hp
          show some (DataSource.both u.value c.value) = some (.both (s.over below) c.value)
          rw [hu]
  cases x with
  | data => exact hparts Fields.data h
  | provide => exact hparts Fields.provide h

/-- **Many objects**, one over the other: the sources of all, the last on top. -/
theorem RecordField.source_layered {os : List Options} {p m : Options} {below : List DataSource}
    (hp : x.source p = DataSource.ofStack below) (h : os.foldlM (Options.over cfg) p = .ok m) :
    x.source m = DataSource.ofStack ((x.contributions os).reverse ++ below) := by
  induction os generalizing p below with
  | nil =>
    cases h
    exact hp
  | cons o rest ih =>
    obtain ⟨extra, hrest⟩ := foldlM_over_cons h
    rw [ih (source_joined hp o extra) hrest, contributions, contributions, List.filterMap_cons]
    cases x.source o with
    | none => rfl
    | some s =>
      rw [List.reverse_cons, List.append_assoc]
      rfl

/-! ## A line of definitions -/

/-- Sources look at no mark. -/
theorem RecordField.source_of_unmarked {a b : Options} (h : a.unmarked = b.unmarked) :
    x.source a = x.source b := by
  have hf := Options.fields_unmarked_eq h
  cases x with
  | data => exact Fields.valueOf_eq hf (·.data) fun _ => rfl
  | provide => exact Fields.valueOf_eq hf (·.provide) fun _ => rfl

theorem RecordField.contributions_of_unmarked {os os' : List Options}
    (h : os.map Options.unmarked = os'.map Options.unmarked) :
    x.contributions os = x.contributions os' := by
  induction os generalizing os' with
  | nil => cases os' with
    | nil => rfl
    | cons o' os' => cases h
  | cons o os ih => cases os' with
    | nil => cases h
    | cons o' os' =>
      obtain ⟨ho, hos⟩ := List.cons.inj h
      rw [contributions, contributions, List.filterMap_cons, List.filterMap_cons,
        source_of_unmarked ho]
      have hrest := ih hos
      rw [contributions, contributions] at hrest
      rw [hrest]

theorem RecordField.source_withSelf (o : Options) (name : Option String) (c : ClassId) :
    x.source (o.withSelf name c) = x.source o := by
  cases name <;> cases x <;> rfl

/-- Definitions merged over options one after the other, as those of a line of classes are, the last
perhaps for an instance. Between two merges parts get marks, and a class may put itself among its
components. -/
inductive Laid (cfg : Config) (p : Options) : List Options → Options → Prop where
  | start {o : Options} (h : o.unmarked = p.unmarked) : Laid cfg p [] o
  | next {ds : List Options} {above d d' m o : Options} {i : Bool} {name : Option String}
      {c : ClassId} (h : Laid cfg p ds above) (hd : d'.unmarked = d.unmarked)
      (hm : Gives (Options.merge cfg i above d') (.ok m))
      (ho : o.unmarked = (m.withSelf name c).unmarked) : Laid cfg p (ds ++ [d]) o

/-- The sources of a definition that is merged over options lie on top of theirs. -/
theorem RecordField.source_merged {i : Bool} {os : List Options} {above d m : Options}
    (habove : x.source above = DataSource.ofStack (x.contributions os).reverse)
    (hm : Gives (Options.merge cfg i above d) (.ok m)) :
    x.source m = DataSource.ofStack (x.contributions (os ++ d.linearize)).reverse := by
  have hresult : Options.mergeResult cfg above d = .ok m :=
    (Options.merge_gives cfg i above d {}).symm.trans (hm {})
  rw [source_layered habove hresult, contributions, contributions, contributions,
    List.filterMap_append, List.reverse_append]

/-- **A line of definitions**: its options have the sources of all, the last on top. -/
theorem Laid.source_eq {p o : Options} {ds : List Options} (h : Laid cfg p ds o) :
    x.source o =
      DataSource.ofStack (x.contributions (p :: ds.flatMap Options.linearize)).reverse := by
  induction h with
  | start h =>
    rw [RecordField.source_of_unmarked h, List.flatMap_nil, RecordField.contributions,
      List.filterMap_cons]
    cases x.source p <;> rfl
  | @next ds above d d' m o i name c h hd hm ho ih =>
    rw [RecordField.source_of_unmarked ho, RecordField.source_withSelf,
      RecordField.source_merged ih hm, List.flatMap_append, List.flatMap_singleton]
    have hsame : x.contributions (p :: ds.flatMap Options.linearize ++ d'.linearize) =
        x.contributions (p :: ds.flatMap Options.linearize ++ d.linearize) := by
      refine RecordField.contributions_of_unmarked ?_
      rw [List.map_append, List.map_append, ← d'.linearize_unmarked, hd, d.linearize_unmarked]
    rw [hsame]
    rfl

/-! ## What evaluating comes to -/

/-- The options have a source in the field just if one of the objects has. Evaluating it evaluates
those of the objects, from the last to the first, up to the first error; and if there is none, the
last of them wins that gives the name a value. -/
structure RecordField.InTurn (x : RecordField) (os : List Options) (o : Options) : Prop where
  isSome : (x.source o).isSome ↔ x.contributions os ≠ []
  evaluated : ∀ s, x.source o = some s → ∀ run vm w,
    (Eng.evaluateSource run vm s).run.run w =
      stackedResult ((Eng.evaluateInTurn run vm (x.contributions os).reverse).run.run w)
  firstError : ∀ s, x.source o = some s → ∀ run vm w e w',
    (Eng.evaluateSource run vm s).run.run w = (.ok (.error e), w') →
      ∃ earlier failing later rs v, x.contributions os = earlier ++ failing :: later ∧
        (Eng.evaluateInTurn run vm later.reverse).run.run w = (.ok (.ok rs), v) ∧
        (Eng.evaluateSource run vm failing).run.run v = (.ok (.error e), w')
  latestWins : ∀ s, x.source o = some s → ∀ run vm w r w',
    (Eng.evaluateSource run vm s).run.run w = (.ok (.ok r), w') →
      (∀ s ∈ x.contributions os, s.Ascending run vm) →
        ∃ rs, (Eng.evaluateInTurn run vm (x.contributions os).reverse).run.run w =
            (.ok (.ok rs), w') ∧
          rs.length = (x.contributions os).length ∧
          ∀ key, Dict.get? r key = rs.findSome? (Dict.get? · key)

theorem RecordField.InTurn.of_stack {os : List Options} {o : Options}
    (h : x.source o = DataSource.ofStack (x.contributions os).reverse) : x.InTurn os o := by
  have hevaluated : ∀ s, x.source o = some s → ∀ run vm w,
      (Eng.evaluateSource run vm s).run.run w =
        stackedResult ((Eng.evaluateInTurn run vm (x.contributions os).reverse).run.run w) := by
    intro s hs run vm w
    rw [h] at hs
    cases hstack : (x.contributions os).reverse with
    | nil =>
      rw [hstack] at hs
      cases hs
    | cons top below =>
      rw [hstack] at hs
      cases hs
      exact Eng.evaluateSource_over top below w
  refine ⟨?_, hevaluated, ?_, ?_⟩
  · rw [h, ← List.reverse_ne_nil_iff]
    cases (x.contributions os).reverse with
    | nil => exact ⟨fun hnone => (by cases hnone), fun hne => absurd rfl hne⟩
    | cons s below => exact ⟨fun _ hnil => (by cases hnil), fun _ => rfl⟩
  · intro s hs run vm w e w' hrun
    rw [hevaluated s hs] at hrun
    generalize hall : (Eng.evaluateInTurn run vm (x.contributions os).reverse).run.run w = out
      at hrun
    obtain ⟨out, v⟩ := out
    match out with
    | .error _ => cases hrun
    | .ok (.ok _) => cases hrun
    | .ok (.error e') =>
      cases hrun
      obtain ⟨before, failing, rest, rs, v, hsplit, hbefore, hfails⟩ :=
        Eng.evaluateInTurn_error hall
      refine ⟨rest.reverse, failing, before.reverse, rs, v, ?_, ?_, hfails⟩
      · rw [← List.reverse_reverse (x.contributions os), hsplit, List.reverse_append,
          List.reverse_cons, List.append_assoc]
        rfl
      · rw [List.reverse_reverse]
        exact hbefore
  · intro s hs run vm w r w' hrun hascending
    rw [hevaluated s hs] at hrun
    generalize hall : (Eng.evaluateInTurn run vm (x.contributions os).reverse).run.run w = out
      at hrun ⊢
    obtain ⟨out, v⟩ := out
    match out with
    | .error _ => cases hrun
    | .ok (.error _) => cases hrun
    | .ok (.ok rs) =>
      cases hrun
      obtain ⟨hlen, heach⟩ := Eng.evaluateInTurn_ok hall
      refine ⟨rs, rfl, hlen.trans List.length_reverse, get?_stacked (fun r hr => ?_)⟩
      obtain ⟨s', hs', v, v', hrun⟩ := heach r hr
      exact hascending s' (List.mem_reverse.mp hs') v r v' hrun

end Componentry
