import Componentry.Proofs.Engine.Ancestors
import Componentry.Proofs.Engine.Requests
import Componentry.Proofs.Engine.Using
import Componentry.Proofs.Options.Entries

/-!
# Where injected values come from

An instance is injected what its ancestors provide. For each name that it declares the nearest
ancestor counts that provides the value under the name of its source. All names are looked for in
one pass up, in which fewer and fewer are wanted.

- `InjectDecl.Declares`: a declaration has a name, with a source and perhaps a default.
- `World.provider`: the value that the nearest of some instances provides.
- `Eng.ends_askAncestors`: one pass up finds what each name would find by itself.
- `Eng.run_initInjections`: what is injected, and the warnings.
- `Eng.injections_resolved`: **injected values** come from the nearest provider, or else are the
  defaults. What has neither is missing and is warned about, once.
-/

namespace Componentry

open Json (Value Record)

variable {rt : Runtime} {w : World} {vm : InstanceId} {above : List InstanceId} {key : String}
  {decl : InjectDecl} {wanted : Dict InjectOptions} {found : Record}

/-! ## Declarations -/

namespace InjectDecl

/-- The declaration has the name, with a source and perhaps a default. A mere name is its own
source. -/
inductive Declares : InjectDecl → String → InjectOptions → Prop
  | name {names : List String} {key : String} (h : key ∈ names) :
      Declares (.names names) key { source := key }
  | entry {entries : Dict InjectOptions} {key : String} {o : InjectOptions}
      (h : (key, o) ∈ entries) : Declares (.keyed entries) key o

/-- No name comes twice with details. -/
def Ordered : InjectDecl → Prop
  | names _ => True
  | keyed entries => Dict.Ordered entries

theorem ordered_normalized (h : decl.Ordered) : Dict.Ordered decl.normalized := by
  cases decl with
  | names ns => exact Dict.ordered_ofList _
  | keyed entries => exact h

theorem get?_normalized_names (names : List String) (key : String) :
    Dict.get? (InjectDecl.names names).normalized key =
      if key ∈ names then some { source := key } else none := by
  have hoverlay : ∀ base : Dict InjectOptions,
      Dict.get? (Dict.overlay base (names.map fun n => (n, { source := n }))) key =
        if key ∈ names then some { source := key } else Dict.get? base key := by
    induction names with
    | nil => exact fun _ => rfl
    | cons n rest ih =>
      intro base
      refine (ih (Dict.insert n { source := n } base)).trans ?_
      rw [Dict.get?_insert]
      by_cases hkey : key = n
      · simp [hkey]
      · simp [hkey]
  exact hoverlay Dict.empty

/-- A lookup finds what is declared. -/
theorem get?_normalized (h : decl.Ordered) (key : String) (o : InjectOptions) :
    Dict.get? decl.normalized key = some o ↔ decl.Declares key o := by
  cases decl with
  | names names =>
    rw [get?_normalized_names]
    constructor
    · intro hget
      obtain ⟨hmem, heq⟩ := Option.ite_none_right_eq_some.mp hget
      cases heq
      exact .name hmem
    · intro hdeclares
      cases hdeclares with
      | name hmem => exact if_pos hmem
  | keyed entries =>
    constructor
    · exact fun hget => .entry (Dict.mem_of_get? hget)
    · intro hdeclares
      cases hdeclares with
      | entry hmem => exact Dict.get?_of_mem h hmem

end InjectDecl

/-! ## Providers -/

/-- The value that the first of some instances provides under a name, of those that do. -/
def World.provider (w : World) (above : List InstanceId) (name : String) : Option Value :=
  above.findSome? fun p => Dict.get? (w.instances.getD p default).provided name

/-- What is still wanted after some instances were asked. -/
def World.missing (w : World) (above : List InstanceId) (wanted : Dict InjectOptions) :
    Dict InjectOptions :=
  List.filter (fun e => (w.provider above e.2.source).isNone) wanted

/-- What is found when some instances are asked, beside what was found before. -/
def World.Found (w : World) (above : List InstanceId) (wanted : Dict InjectOptions)
    (found found' : Record) : Prop :=
  ∀ key, Dict.get? found' key =
    (((Dict.get? wanted key).bind fun o => w.provider above o.source) <|> Dict.get? found key)

/-- Nothing that is wanted is provided. -/
theorem World.Found.refl
    (h : ∀ key o, Dict.get? wanted key = some o → w.provider above o.source = none) :
    w.Found above wanted found found := by
  intro key
  cases hget : Dict.get? wanted key with
  | none => rfl
  | some o => rw [Option.bind_some, h key o hget]; rfl

theorem World.provider_cons (w : World) (p : InstanceId) (above : List InstanceId)
    (name : String) : w.provider (p :: above) name =
      (Dict.get? (w.instances.getD p default).provided name <|> w.provider above name) := by
  rw [provider, List.findSome?_cons]
  cases Dict.get? (w.instances.getD p default).provided name with
  | none => rfl
  | some v => rfl

/-- What the first of some instances does not provide is missing if the others do not either. -/
theorem World.missing_cons (w : World) (p : InstanceId) (above : List InstanceId)
    (wanted : Dict InjectOptions) : w.missing (p :: above) wanted =
      w.missing above (List.filter
        (fun e => (Dict.get? (w.instances.getD p default).provided e.2.source).isNone) wanted) := by
  rw [missing, missing, List.filter_filter]
  refine congrArg (fun f => List.filter f wanted) (funext fun e => ?_)
  rw [provider_cons]
  cases Dict.get? (w.instances.getD p default).provided e.2.source with
  | none => exact (Bool.and_true _).symm
  | some v => exact (Bool.and_false _).symm

/-- What the first of some instances provides is found, and what it does not is looked for further
on. -/
theorem World.Found.cons {p : InstanceId} {found₁ found' : Record} (h : Dict.Ordered wanted)
    (hfirst : ∀ key, Dict.get? found₁ key =
      (((Dict.get? wanted key).bind fun o =>
        Dict.get? (w.instances.getD p default).provided o.source) <|> Dict.get? found key))
    (hrest : w.Found above (List.filter
      (fun e => (Dict.get? (w.instances.getD p default).provided e.2.source).isNone) wanted)
      found₁ found') : w.Found (p :: above) wanted found found' := by
  intro key
  rw [hrest key, hfirst key, Dict.get?_filter h]
  cases Dict.get? wanted key with
  | none => rfl
  | some o =>
    rw [Option.filter_some, Option.bind_some, Option.bind_some, provider_cons]
    cases Dict.get? (w.instances.getD p default).provided o.source with
    | none => rfl
    | some v => rfl

namespace Eng

/-- One name is wanted of an ancestor. -/
def takeOne (provided : Record) (acc : Dict InjectOptions × Record) (e : String × InjectOptions) :
    Dict InjectOptions × Record :=
  match Dict.get? provided e.2.source with
  | some v => (acc.1, Dict.insert e.1 v acc.2)
  | none => (acc.1 ++ [e], acc.2)

/-- **Asking one ancestor**: what it does not provide is wanted still, and what it provides is
found. -/
theorem takeProvided_spec (provided : Record) (h : Dict.Ordered wanted) (found : Record) :
    (takeProvided provided wanted found).1 =
        List.filter (fun e => (Dict.get? provided e.2.source).isNone) wanted ∧
      ∀ key, Dict.get? (takeProvided provided wanted found).2 key =
        (((Dict.get? wanted key).bind fun o => Dict.get? provided o.source) <|>
          Dict.get? found key) := by
  -- what is left collects behind what was left before
  suffices hfold : ∀ left : Dict InjectOptions,
      (wanted.foldl (takeOne provided) (left, found)).1 =
          left ++ List.filter (fun e => (Dict.get? provided e.2.source).isNone) wanted ∧
        ∀ key, Dict.get? (wanted.foldl (takeOne provided) (left, found)).2 key =
          (((Dict.get? wanted key).bind fun o => Dict.get? provided o.source) <|>
            Dict.get? found key) from hfold []
  induction wanted generalizing found with
  | nil => exact fun left => ⟨(List.append_nil left).symm, fun _ => rfl⟩
  | cons e rest ih =>
    intro left
    have ih := ih (List.pairwise_cons.mp h).2
    have hcons := Dict.get?_bind_cons h (fun o => Dict.get? provided o.source) found
    rw [List.foldl_cons, List.filter_cons, takeOne]
    cases hget : Dict.get? provided e.2.source with
    | none =>
      obtain ⟨hleft, hfound⟩ := ih found (left ++ [e])
      refine ⟨hleft.trans (List.append_cons left e _).symm, fun key => ?_⟩
      rw [hfound key, hcons, hget]
      rfl
    | some v =>
      obtain ⟨hleft, hfound⟩ := ih (Dict.insert e.1 v found) left
      refine ⟨hleft, fun key => ?_⟩
      rw [hfound key, hcons, hget]
      rfl

/-- **One pass up** finds for every name what it would find by itself, and does nothing else. -/
theorem ends_askAncestors {fuel : Nat} {p : Option InstanceId} (habove : w.Above p above)
    (hfuel : above.length ≤ fuel)
    (hshared : ∀ b ∈ above, (w.instances.getD b default).access ≠ .exclusive)
    (h : Dict.Ordered wanted) (found : Record) :
    Ends (askAncestors fuel p wanted found) w fun r w' => w' = w ∧
      ∃ found', r = .ok (w.missing above wanted, found') ∧ w.Found above wanted found found' := by
  induction above generalizing p fuel wanted found with
  | nil =>
    have hdone : Ends (pure (wanted, found)) w fun r w' => w' = w ∧
        ∃ found', r = .ok (w.missing [] wanted, found') ∧ w.Found [] wanted found found' :=
      ⟨rfl, found, congrArg (fun d => Except.ok (d, found)) (List.filter_true wanted).symm,
        World.Found.refl fun _ _ _ => rfl⟩
    cases fuel with
    | zero => exact hdone
    | succ fuel => exact Ends.next habove.run_alive? hdone
  | cons q rest ih =>
    cases fuel with
    | zero => cases hfuel
    | succ fuel =>
      refine Ends.next habove.run_alive? ?_
      cases habove with
      | up halive hrest =>
        rw [List.forall_mem_cons] at hshared
        cases hwanted : wanted.isEmpty with
        | true =>
          rw [List.isEmpty_iff] at hwanted
          subst hwanted
          exact ⟨rfl, found, rfl, World.Found.refl fun _ _ h => by cases h⟩
        | false =>
          refine Ends.getInstanceThen ?_
          rw [if_neg hshared.1]
          obtain ⟨hleft, hfirst⟩ :=
            takeProvided_spec (w.instances.getD q default).provided h found
          have hordered : Dict.Ordered
              (takeProvided (w.instances.getD q default).provided wanted found).1 :=
            hleft ▸ Dict.ordered_filter h _
          refine (ih hrest (Nat.le_of_succ_le_succ hfuel) hshared.2 hordered _).imp ?_
          rintro r w' ⟨rfl, found', rfl, hfound⟩
          refine ⟨rfl, found', ?_, ?_⟩
          · rw [hleft, ← World.missing_cons]
          · rw [hleft] at hfound
            exact .cons h hfirst hfound

end Eng

/-! ## Defaults -/

/-- The names that are neither provided nor have a default. -/
def World.lacking (w : World) (above : List InstanceId) (wanted : Dict InjectOptions) :
    List String :=
  List.map Prod.fst (List.filter (fun e => e.2.default.isNone) (w.missing above wanted))

theorem World.nodup_lacking (h : Dict.Ordered wanted) : (w.lacking above wanted).Nodup := by
  have hmissing : Dict.Ordered (w.missing above wanted) := Dict.ordered_filter h _
  have hlacking := Dict.ordered_filter hmissing fun e => e.2.default.isNone
  exact List.pairwise_map.mpr (hlacking.imp fun hlt => ne_of_lt hlt)

theorem World.mem_lacking (h : decl.Ordered) : key ∈ w.lacking above decl.normalized ↔
    ∃ o, decl.Declares key o ∧ w.provider above o.source = none ∧ o.default = none := by
  have hmem : ∀ o, (key, o) ∈ decl.normalized ↔ decl.Declares key o := fun o =>
    ⟨fun h' => (InjectDecl.get?_normalized h key o).mp
      (Dict.get?_of_mem (InjectDecl.ordered_normalized h) h'),
      fun h' => Dict.mem_of_get? ((InjectDecl.get?_normalized h key o).mpr h')⟩
  simp only [lacking, missing, List.mem_map, List.mem_filter, Option.isNone_iff_eq_none]
  constructor
  · rintro ⟨⟨_, o⟩, ⟨⟨he, hprovider⟩, hdefault⟩, rfl⟩
    exact ⟨o, (hmem o).mp he, hprovider, hdefault⟩
  · rintro ⟨o, ho, hprovider, hdefault⟩
    exact ⟨(key, o), ⟨⟨(hmem o).mpr ho, hprovider⟩, hdefault⟩, rfl⟩

/-- The warning about a name that is missing. -/
def Runtime.lackOf (rt : Runtime) (w : World) (vm : InstanceId) (key : String) : List LogEntry :=
  rt.warningOf w vm ("Injection \"" ++ key ++ "\" not found")

namespace Eng

/-- Injects the default of a name that nobody provides, or warns about it. -/
def fillOne (rt : Runtime) (vm : InstanceId) (d : Record) (e : String × InjectOptions) :
    Eng Record :=
  match e.2.default with
  | some v => pure (Dict.insert e.1 v d)
  | none => do
    warn rt vm ("Injection \"" ++ e.1 ++ "\" not found")
    return d

/-- **What nobody provides** has its default, or is warned about. -/
theorem run_fill (rt : Runtime) (w : World) (vm : InstanceId) (h : Dict.Ordered wanted)
    (found : Record) :
    ∃ injected, (wanted.foldlM (fillOne rt vm) found).run.run w = (.ok injected,
        w.noted ((List.map Prod.fst (List.filter (fun e => e.2.default.isNone) wanted)).flatMap
          (rt.lackOf w vm))) ∧
      ∀ key, Dict.get? injected key =
        (((Dict.get? wanted key).bind (·.default)) <|> Dict.get? found key) := by
  induction wanted generalizing w found with
  | nil => exact ⟨found, rfl, fun _ => rfl⟩
  | cons e rest ih =>
    have ih := fun w => ih w (List.pairwise_cons.mp h).2
    have hcons := Dict.get?_bind_cons h (·.default) found
    obtain ⟨k, source, default⟩ := e
    rw [List.foldlM_cons, ExceptT.run_bind, StateT.run_bind, List.filter_cons]
    cases default with
    | none =>
      have hwarn : (fillOne rt vm found (k, ⟨source, none⟩)).run.run w =
          (.ok found, w.noted (rt.lackOf w vm k)) := by
        rw [fillOne, ExceptT.run_bind, StateT.run_bind, run_warn]
        rfl
      have hlacks : rt.lackOf (w.noted (rt.lackOf w vm k)) vm = rt.lackOf w vm :=
        funext fun key => rt.warningOf_noted w _ vm _
      obtain ⟨injected, hrun, hget⟩ := ih (w.noted (rt.lackOf w vm k)) found
      rw [hlacks, ← World.noted_append] at hrun
      refine ⟨injected, ?_, fun key => (hget key).trans (hcons key).symm⟩
      rw [hwarn]
      exact hrun
    | some v =>
      obtain ⟨injected, hrun, hget⟩ := ih w (Dict.insert k v found)
      exact ⟨injected, hrun, fun key => (hget key).trans (hcons key).symm⟩

/-- What is found, and then the defaults. -/
theorem get?_filled {found injected : Record} (h : Dict.Ordered wanted)
    (hfound : w.Found above wanted [] found)
    (hfilled : ∀ key, Dict.get? injected key =
      (((Dict.get? (w.missing above wanted) key).bind (·.default)) <|> Dict.get? found key))
    (key : String) : Dict.get? injected key =
      (Dict.get? wanted key).bind fun o => w.provider above o.source <|> o.default := by
  rw [hfilled key, hfound key, World.missing, Dict.get?_filter h]
  cases Dict.get? wanted key with
  | none => rfl
  | some o =>
    rw [Option.filter_some, Option.bind_some, Option.bind_some]
    cases w.provider above o.source with
    | none =>
      rw [if_pos Option.isNone_none, Option.bind_some]
      cases o.default with
      | none => rfl
      | some v => rfl
    | some v => rfl

/-- Where nothing is declared nothing is done. -/
theorem run_initInjections_of_isEmpty (rt : Runtime)
    (h : (w.instances.getD vm default).options.inject.isEmpty = true) :
    (initInjections rt vm).run.run w = (.ok (), w) := by
  have hends : Ends (initInjections rt vm) w fun r w' => r = .ok () ∧ w' = w := by
    refine Ends.getInstanceThen ?_
    simp only [if_pos h]
    exact ⟨rfl, rfl⟩
  exact Prod.ext hends.1 hends.2

/-- **What is injected** for each name is what it finds by itself, or else its default. -/
theorem run_initInjections (rt : Runtime) (habove : w.Above (w.kin vm).parent above)
    (hshared : ∀ p ∈ above, (w.instances.getD p default).access ≠ .exclusive)
    (hinject : (w.instances.getD vm default).options.inject = wanted) (h : Dict.Ordered wanted)
    (hempty : wanted.isEmpty = false) :
    ∃ injected : Record, (initInjections rt vm).run.run w = (.ok (),
        { w.noted ((w.lacking above wanted).flatMap (rt.lackOf w vm)) with
          instances := w.instances.modify vm ({ · with injected }) }) ∧
      ∀ key, Dict.get? injected key =
        (Dict.get? wanted key).bind fun o => w.provider above o.source <|> o.default := by
  obtain ⟨hstays, found, hr, hfound⟩ :=
    ends_askAncestors habove (Nat.le_succ_of_le habove.length_le) hshared h []
  have hmissing : Dict.Ordered (w.missing above wanted) := Dict.ordered_filter h _
  obtain ⟨injected, hfill, hfilled⟩ := run_fill rt w vm hmissing found
  have hends : Ends (initInjections rt vm) w fun r w' => r = .ok () ∧
      w' = { w.noted ((w.lacking above wanted).flatMap (rt.lackOf w vm)) with
        instances := w.instances.modify vm ({ · with injected }) } := by
    refine Ends.getInstanceThen ?_
    simp only [hinject, hempty, if_neg Bool.false_ne_true]
    refine Ends.next (a := w) (v := w) rfl (Ends.next (Prod.ext hr hstays) ?_)
    exact Ends.next hfill ⟨rfl, rfl⟩
  exact ⟨injected, Prod.ext hends.1 hends.2, get?_filled h hfound hfilled⟩

/-- **Injected values** come from the nearest ancestor that provides them, or else are the defaults.
A name that has neither is not injected and is warned about, once. Nothing else changes. -/
theorem injections_resolved (rt : Runtime)
    (hdecl : (w.instances.getD vm default).options.part (·.inject) = some decl)
    (hordered : decl.Ordered) (habove : w.Above (w.kin vm).parent above)
    (hshared : ∀ p ∈ above, (w.instances.getD p default).access ≠ .exclusive) :
    ∃ (injected : Record) (lacking : List String),
      (initInjections rt vm).run.run w = (.ok (),
        { w.noted (lacking.flatMap (rt.lackOf w vm)) with
          instances := w.instances.modify vm ({ · with injected }) }) ∧
      (∀ key o, decl.Declares key o →
        Dict.get? injected key = (w.provider above o.source <|> o.default)) ∧
      (∀ key, (∀ o, ¬ decl.Declares key o) →
        Dict.get? (w.instances.getD vm default).injected key = none →
          Dict.get? injected key = none) ∧
      lacking.Nodup ∧ ∀ key, key ∈ lacking ↔
        ∃ o, decl.Declares key o ∧ w.provider above o.source = none ∧ o.default = none := by
  have hnormal := InjectDecl.ordered_normalized hordered
  have hget := InjectDecl.get?_normalized hordered
  have hinject : (w.instances.getD vm default).options.inject = decl.normalized := by
    rw [InstanceOptions.inject, hdecl]
  cases hempty : decl.normalized.isEmpty with
  | true =>
    have hnone : ∀ key o, ¬ decl.Declares key o := by
      intro key o ho
      have hsome := (hget key o).mpr ho
      rw [List.isEmpty_iff.mp hempty] at hsome
      cases hsome
    have hsame : w.instances.modify vm ({ · with
        injected := (w.instances.getD vm default).injected }) = w.instances :=
      modify_eq_self fun i hi => by rw [getD_of_getElem? hi]
    refine ⟨(w.instances.getD vm default).injected, [], ?_, ?_, ?_, List.nodup_nil, ?_⟩
    · rw [run_initInjections_of_isEmpty rt (hinject ▸ hempty), hsame]
      rfl
    · intro key o ho
      exact absurd ho (hnone key o)
    · intro key _ hold
      exact hold
    · intro key
      constructor
      · intro h
        cases h
      · rintro ⟨o, ho, -⟩
        exact absurd ho (hnone key o)
  | false =>
    obtain ⟨injected, hrun, hinjected⟩ :=
      run_initInjections rt habove hshared hinject hnormal hempty
    refine ⟨injected, w.lacking above decl.normalized, hrun, ?_, ?_, World.nodup_lacking hnormal,
      fun key => World.mem_lacking hordered⟩
    · intro key o ho
      rw [hinjected key, (hget key o).mpr ho, Option.bind_some]
    · intro key hundeclared _
      rw [hinjected key]
      cases hsome : Dict.get? decl.normalized key with
      | none => rfl
      | some o => exact absurd ((hget key o).mp hsome) (hundeclared o)

/-- A grandchild with a declaration, whose root provides a theme. -/
def themed (decl : InjectDecl) : World :=
  let w := World.descent [{}, {}, { fields := { inject := some (.new decl) } }]
  { w with instances := w.instances.modify 0 ({ · with provided := [("theme", .str "dark")] }) }

/-- Two names with one source, one with a default, and one that is missing. -/
theorem injections_resolved_themed :
    let decl := InjectDecl.keyed [("back", { source := "theme" }), ("fore", { source := "theme" }),
      ("size", { source := "size", default := some .null }), ("zone", { source := "zone" })]
    let w := themed decl
    w.provider [1, 0] "theme" = some (.str "dark") ∧
    (w.instances.getD 2 default).options.part (·.inject) = some decl ∧
    decl.Ordered ∧ w.Above (w.kin 2).parent [1, 0] ∧
    (∀ p ∈ [1, 0], (w.instances.getD p default).access ≠ .exclusive) ∧
    ∃ (injected : Record) (lacking : List String),
      (initInjections {} 2).run.run w = (.ok (),
        { w.noted (lacking.flatMap (Runtime.lackOf {} w 2)) with
          instances := w.instances.modify 2 ({ · with injected }) }) ∧
      (∀ key o, decl.Declares key o →
        Dict.get? injected key = (w.provider [1, 0] o.source <|> o.default)) ∧
      (∀ key, (∀ o, ¬ decl.Declares key o) →
        Dict.get? (w.instances.getD 2 default).injected key = none →
          Dict.get? injected key = none) ∧
      lacking.Nodup ∧ ∀ key, key ∈ lacking ↔
        ∃ o, decl.Declares key o ∧ w.provider [1, 0] o.source = none ∧ o.default = none := by
  intro decl w
  have hordered : decl.Ordered := by
    show Dict.Ordered _
    decide
  have habove : w.Above (w.kin 2).parent [1, 0] := .up rfl (.up rfl (.top rfl))
  have hshared : ∀ p ∈ [1, 0], (w.instances.getD p default).access ≠ .exclusive := by decide
  exact ⟨rfl, rfl, hordered, habove, hshared, injections_resolved {} rfl hordered habove hshared⟩

end Eng

end Componentry
