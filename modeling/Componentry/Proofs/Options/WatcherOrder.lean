import Componentry.Proofs.Options.Joining
import Componentry.Proofs.Options.Linearize

/-!
# The order of watchers

Watchers that run a function and watchers that call a method by its name stand in one list, but when
lists are joined a function is left out where it stands already, while a method is called once more.
However often this is done on the way down a linearization, what comes out is what one would get by
writing all the lists one after the other first and leaving out functions only then.

- `firstOfEachFunction`: a list without the functions that stand in it already.
- `watchersAt_joined`: **one object** over another.
- `watchersAt_layered`: **many objects**, one over the other.
- `watchers_in_order`: **the watchers of merged options**.
-/

namespace Componentry

variable {cfg : Config} {ws vs : List WatchHandler}

/-! ## Thinning out -/

/-- The watchers in the order in which they come, without those that run a function for which there
is one already. -/
def firstOfEachFunction (ws : List WatchHandler) : List WatchHandler :=
  ws.eraseDupsBy WatchHandler.sameFunction

/-- No two of the watchers run one function. -/
def FunctionsApart (ws : List WatchHandler) : Prop :=
  ws.Pairwise fun a b => b.sameFunction a = false

instance (ws : List WatchHandler) : Decidable (FunctionsApart ws) :=
  inferInstanceAs (Decidable (ws.Pairwise _))

theorem joinWatchers_nil (ws : List WatchHandler) :
    joinWatchers [] ws = firstOfEachFunction ws := by
  rw [joinWatchers_eq, appendNew_nil, firstOfEachFunction]

/-- A function stands once, a method as often as it did. -/
theorem occurrences_firstOfEachFunction (w : WatchHandler) (ws : List WatchHandler) :
    occurrences w (firstOfEachFunction ws) =
      if w.isFunction then min 1 (occurrences w ws) else occurrences w ws := by
  rw [← joinWatchers_nil, occurrences_joinWatchers]
  have hnone : occurrences w [] = 0 := rfl
  rw [hnone, if_neg (Nat.lt_irrefl 0), Nat.zero_add]

theorem functionsApart_firstOfEachFunction (ws : List WatchHandler) :
    FunctionsApart (firstOfEachFunction ws) := by
  rw [← joinWatchers_nil, joinWatchers_eq]
  exact pairwise_appendNew List.Pairwise.nil ws

/-- Of watchers that are told apart none is left out. -/
theorem firstOfEachFunction_of_apart (h : FunctionsApart ws) : firstOfEachFunction ws = ws := by
  rw [← joinWatchers_nil, joinWatchers_eq]
  exact appendNew_of_pairwise h

theorem sublist_firstOfEachFunction (ws : List WatchHandler) :
    (firstOfEachFunction ws).Sublist ws := by
  rw [← joinWatchers_nil, joinWatchers_eq]
  exact sublist_appendNew [] ws

theorem joinWatchers_of_apart (h : FunctionsApart ws) (vs : List WatchHandler) :
    joinWatchers ws vs = firstOfEachFunction (ws ++ vs) := by
  rw [← joinWatchers_nil, joinWatchers_eq, joinWatchers_eq, appendNew_append]
  have hws : appendNew WatchHandler.sameFunction [] ws = ws := appendNew_of_pairwise h
  rw [hws]

/-- What comes later is put behind, and runs no function for which there was a watcher before. -/
theorem firstOfEachFunction_append (ws vs : List WatchHandler) :
    ∃ rest, firstOfEachFunction (ws ++ vs) = firstOfEachFunction ws ++ rest ∧
      ∀ w ∈ rest, w.isFunction = true → occurrences w ws = 0 := by
  obtain ⟨rest, hrest, hnew⟩ := eraseDupsBy_append (q := WatchHandler.sameFunction) ws vs
  refine ⟨rest, hrest, fun w hw hf => ?_⟩
  have hself : w.same w = true := by
    obtain ⟨callback, immediate⟩ := w
    cases callback with
    | handler f => exact beq_self_eq_true f.id
    | method m => cases hf
  have hnone := hnew w hw
  change (firstOfEachFunction ws).any _ = false at hnone
  rw [any_sameFunction _ hself, hf, Bool.true_and, decide_eq_false_iff_not,
    occurrences_firstOfEachFunction, if_pos hf] at hnone
  omega

/-! ## The watchers of options -/

/-- The keys of the watchers ascend, as in all that insertions build. -/
def Options.WatchOrdered (o : Options) : Prop := Dict.Ordered (entriesOf o.fields.watch)

/-- **One object over another**: the watchers of both, without functions that stand there
already. -/
theorem watchersAt_joined {w c : Options} {key : String} (hc : c.WatchOrdered)
    (hw : FunctionsApart (watchersAt w.fields.watch key))
    (hapart : FunctionsApart (watchersAt c.fields.watch key)) (extra : Dict Json.Value) :
    watchersAt (w.joined c extra).fields.watch key =
      firstOfEachFunction (watchersAt w.fields.watch key ++ watchersAt c.fields.watch key) := by
  show watchersAt (mergeParts joinWatch w.fields.watch c.fields.watch) key = _
  rw [Options.WatchOrdered] at hc
  generalize hp : w.fields.watch = p at hw
  generalize c.fields.watch = q at hc hapart
  cases q with
  | none =>
    -- nothing is laid over the parent's watchers
    have hnone : watchersAt none key = [] := rfl
    rw [hnone, List.append_nil, firstOfEachFunction_of_apart hw]
    cases p <;> rfl
  | some c =>
    rw [watchersAt_mergeParts p hc key]
    cases p with
    | none => exact (firstOfEachFunction_of_apart hapart).symm
    | some p => exact joinWatchers_of_apart hw _

/-- **Many objects**, one over the other: the watchers of all, without functions that stand there
already. -/
theorem watchersAt_layered {os : List Options} {p m : Options} {key : String}
    (hordered : ∀ o ∈ os, o.WatchOrdered)
    (hapart : ∀ o ∈ p :: os, FunctionsApart (watchersAt o.fields.watch key))
    (h : os.foldlM (Options.over cfg) p = .ok m) :
    watchersAt m.fields.watch key =
      firstOfEachFunction ((p :: os).flatMap fun o => watchersAt o.fields.watch key) := by
  rw [List.flatMap_cons]
  induction os generalizing p with
  | nil =>
    cases h
    rw [List.flatMap_nil, List.append_nil,
      firstOfEachFunction_of_apart (hapart _ List.mem_cons_self)]
  | cons o rest ih =>
    obtain ⟨extra, hrest⟩ := foldlM_over_cons h
    have hjoined := watchersAt_joined (hordered o List.mem_cons_self)
      (hapart p List.mem_cons_self) (hapart o (List.mem_cons_of_mem p List.mem_cons_self)) extra
    -- what was laid down so far is told apart again, so the rest goes over it the same way
    have hnext : ∀ o' ∈ p.joined o extra :: rest,
        FunctionsApart (watchersAt o'.fields.watch key) := by
      intro o' ho'
      rcases List.mem_cons.mp ho' with rfl | ho'
      · rw [hjoined]
        exact functionsApart_firstOfEachFunction _
      · exact hapart o' (List.mem_cons_of_mem _ (List.mem_cons_of_mem o ho'))
    rw [ih (fun o' ho' => hordered o' (List.mem_cons_of_mem o ho')) hnext hrest, hjoined,
      List.flatMap_cons, ← List.append_assoc]
    exact eraseDupsBy_append_left WatchHandler.sameFunction_trans _ _

/-- **The watchers of merged options.** Where no object lists a function twice for a key, they are
the watchers that the parent has for the key, unchanged, and then those of the linearization, in
that order. A function stands once, where it comes first, by however many ways it is reached; a
method stands as often as all objects together list it. -/
theorem watchers_in_order (cfg : Config) (i : Bool) (p d : Options) (key : String)
    (hordered : ∀ o ∈ d.linearize, o.WatchOrdered)
    (hapart : ∀ o ∈ p :: d.linearize, FunctionsApart (watchersAt o.fields.watch key)) :
    (cfg.strategies = [] → ∃ m, Gives (Options.merge cfg i p d) (.ok m)) ∧
      ∀ m, Gives (Options.merge cfg i p d) (.ok m) →
        ∃ all, all = (p :: d.linearize).flatMap (fun o => watchersAt o.fields.watch key) ∧
          watchersAt p.fields.watch key <+: watchersAt m.fields.watch key ∧
          (watchersAt m.fields.watch key).Sublist all ∧
          (∀ w, occurrences w (watchersAt m.fields.watch key) =
            if w.isFunction then min 1 (occurrences w all) else occurrences w all) ∧
          ∀ early late, p :: d.linearize = early ++ late →
            ∃ rest, watchersAt m.fields.watch key =
                firstOfEachFunction (early.flatMap fun o => watchersAt o.fields.watch key) ++ rest ∧
              ∀ w ∈ rest, w.isFunction = true →
                occurrences w (early.flatMap fun o => watchersAt o.fields.watch key) = 0 := by
  have hgives := Options.merge_gives cfg i p d
  refine ⟨fun hcfg => ?_, fun m hm => ⟨_, rfl, ?_⟩⟩
  · obtain ⟨m, hm⟩ := Options.mergeResult_ok hcfg p d
    exact ⟨m, hm ▸ hgives⟩
  · have hresult : Options.mergeResult cfg p d = .ok m := (hgives {}).symm.trans (hm {})
    have hlist := watchersAt_layered hordered hapart hresult
    have hsplit : ∀ early late, p :: d.linearize = early ++ late →
        ∃ rest, watchersAt m.fields.watch key =
            firstOfEachFunction (early.flatMap fun o => watchersAt o.fields.watch key) ++ rest ∧
          ∀ w ∈ rest, w.isFunction = true →
            occurrences w (early.flatMap fun o => watchersAt o.fields.watch key) = 0 := by
      intro early late hall
      rw [hlist, hall, List.flatMap_append]
      exact firstOfEachFunction_append _ _
    refine ⟨?_, ?_, fun w => ?_, hsplit⟩
    · -- the parent alone comes first
      obtain ⟨rest, hrest, -⟩ := hsplit [p] d.linearize rfl
      rw [List.flatMap_singleton,
        firstOfEachFunction_of_apart (hapart p List.mem_cons_self)] at hrest
      exact ⟨rest, hrest.symm⟩
    · rw [hlist]
      exact sublist_firstOfEachFunction _
    · rw [hlist, occurrences_firstOfEachFunction]

/-- An object that watches `n`, by functions that are told apart by their identities and by
methods. -/
def listening (functions : List Mark) (methods : List String) : Options where
  fields := {
    watch := some (.new [("n", functions.map (fun id => { callback := .handler ⟨id, []⟩ }) ++
      methods.map fun name => { callback := .method name })]) }

/-- Two mixins with one base, which the definition reaches by either. -/
def listeningDiamond : Options :=
  { listening [1, 6] ["onN"] with
    mixins := some (.new [{ listening [2] [] with base := some (.new (listening [1] ["onN"])) },
      { listening [4] [] with base := some (.new (listening [1] ["onN"])) }]) }

/-- The function of the base stands once, its method twice, and once more for the definition. -/
theorem watchers_in_order_diamond :
    (∀ o ∈ listeningDiamond.linearize, o.WatchOrdered) ∧
      (∀ o ∈ listening [5, 4] [] :: listeningDiamond.linearize,
        FunctionsApart (watchersAt o.fields.watch "n")) ∧
      ∃ m, Gives (Options.merge {} false (listening [5, 4] []) listeningDiamond) (.ok m) ∧
        watchersAt (listening [5, 4] []).fields.watch "n" <+: watchersAt m.fields.watch "n" ∧
        occurrences { callback := .handler ⟨1, []⟩ } (watchersAt m.fields.watch "n") = 1 ∧
        occurrences { callback := .method "onN" } (watchersAt m.fields.watch "n") = 3 := by
  have hordered : ∀ o ∈ listeningDiamond.linearize, o.WatchOrdered := by
    simp only [Options.WatchOrdered, Dict.Ordered]
    decide +kernel
  have hapart : ∀ o ∈ listening [5, 4] [] :: listeningDiamond.linearize,
      FunctionsApart (watchersAt o.fields.watch "n") := by
    decide +kernel
  obtain ⟨hsome, hwatchers⟩ :=
    watchers_in_order {} false (listening [5, 4] []) listeningDiamond "n" hordered hapart
  obtain ⟨m, hm⟩ := hsome rfl
  obtain ⟨all, rfl, hparent, -, htimes, -⟩ := hwatchers m hm
  refine ⟨hordered, hapart, m, hm, hparent, ?_, ?_⟩
  · rw [htimes]
    decide +kernel
  · rw [htimes]
    decide +kernel

end Componentry
