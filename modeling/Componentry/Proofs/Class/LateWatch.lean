import Componentry.Proofs.Class.Everywhere
import Componentry.Proofs.Options.Watchers

/-!
# Late watchers

Watchers that are added to a class later make its whole watch map an edited part, with what it
inherited. When the class is merged again, the map goes over what the class inherits now, as if all
of it were its own. Functions that are inherited are recognized there. Methods are not: they come
once more with every merge, and a function that stands twice in the map comes once only.

- `Class.WatchEdited`: the watchers of a class are not those it was merged to.
- `watchers_merged_again`: **what becomes of them**, and when nothing does.
- `inherited_method_twice`: an inherited method that stands there twice afterwards.
-/

namespace Componentry

open Forest

variable {cfg : Config} {c : ClassId}

/-- The class has watchers, and not those that it was merged to. -/
def Class.WatchEdited (k : Class) : Prop :=
  ∃ p, k.options.value.fields.watch = some p ∧
    Placed.sameOption (some p) k.sealed.value.fields.watch = false

/-- The watchers of a key in the options of a class as they are now. -/
def Class.watchers (k : Class) (key : String) : List WatchHandler :=
  watchersAt k.options.value.fields.watch key

theorem Edit.part_watch {e : Edit} (h : e.part = some .watch) :
    (∃ key w, e = .watch key w) ∨ e = .clear "watch" := by
  cases e with
  | watch key w => exact .inl ⟨key, w, rfl⟩
  | clear key =>
    right
    rw [Edit.part] at h
    split_ifs at h <;> first
      | exact congrArg Edit.clear ‹key = "watch"›
      | exact absurd h (by decide)
  | _ => cases h

/-- Adding a watcher is seen. -/
theorem Change.watchEdited {f f' : Forest} {es : List Edit} (hk : f.Known)
    (h : Change cfg f f' (.revised c (.edits es))) (hadd : ∃ key w, Edit.watch key w ∈ es)
    (hclear : Edit.clear "watch" ∉ es) : (f'.get c).WatchEdited := by
  obtain ⟨key, w, hw⟩ := hadd
  have hanew : ∀ e ∈ es, e.part = some .watch →
      ∀ o : Options, (o.edit e).markAt .watch = some none := by
    intro e he hx o
    rcases Edit.part_watch hx with ⟨key', w', rfl⟩ | rfl
    · rfl
    · exact absurd he hclear
  obtain ⟨hthere, hapart⟩ := h.part_edited (hk c trivial).2.2.here ⟨_, hw, rfl⟩ hanew
  rw [Class.WatchEdited]
  cases hlive : (f'.get c).options.value.fields.watch with
  | none => exact absurd (congrArg markOf hlive) hthere
  | some p =>
    refine ⟨p, rfl, ?_⟩
    rw [← hlive, Placed.sameOption_eq]
    exact hapart

/-- The watchers of a class that is merged again after an edit of them. -/
theorem Change.remerged_watchers {g f' : Forest} (h : Change cfg g f' (.remerged c))
    (hlt : ∀ s, (g.get c).superClass = some s → s < c) (hedit : (g.get c).WatchEdited)
    (hordered : Dict.Ordered (entriesOf (g.get c).options.value.fields.watch)) :
    ∃ s w, (g.get c).superClass = some s ∧
      Options.beneath cfg (f'.get s).options.value (g.get c).carried = .ok w ∧
      ∀ key, (f'.get c).watchers key =
        if w.fields.watch.isNone then (g.get c).watchers key
        else joinWatchers (watchersAt w.fields.watch key) ((g.get c).watchers key) := by
  obtain ⟨s, w, extra, hsuper, hsame, hw, -, hlike, -⟩ := h.remerged_over hlt
  refine ⟨s, w, hsuper, by rw [hsame]; exact hw, fun key => ?_⟩
  obtain ⟨live, hlive, hdiff⟩ := hedit
  have hcarried : (g.get c).carried.fields.watch = some live := by
    rw [Class.carried_eq]
    show (unlessSame (Placed.sameOption (g.get c).options.value.fields.watch
      (g.get c).sealed.value.fields.watch) (g.get c).options.value.fields.watch <|>
        (g.get c).definition.fields.watch) = _
    rw [hlive, hdiff]
    rfl
  have hordered : Dict.Ordered live.value := by
    rw [hlive] at hordered
    exact hordered
  -- neither storing nor the class among its own components changes a watcher
  have hmerged : (f'.get c).watchers key =
      watchersAt (mergeParts joinWatch w.fields.watch (some live)) key := by
    rw [Class.watchers, watchersAt, entriesOf,
      Fields.valueOf_eq (Options.fields_unmarked_eq hlike) (·.watch) fun _ => rfl, ← hcarried]
    cases (w.joined (g.get c).carried extra).name <;> rfl
  rw [hmerged, watchersAt_mergeParts _ hordered, Class.watchers, hlive]

/-- Joining the watchers of a class to those it inherits leaves each handler as often as it was
exactly if no inherited handler is a method, each inherited function stands among the watchers of
the class as often, and no other function stands there twice. -/
theorem occurrences_joinWatchers_eq_iff (x : WatchHandler) (inherited live : List WatchHandler) :
    occurrences x (joinWatchers inherited live) = occurrences x live ↔
      if x.isFunction then
        if 0 < occurrences x inherited then occurrences x inherited = occurrences x live
        else occurrences x live ≤ 1
      else occurrences x inherited = 0 := by
  rw [occurrences_joinWatchers]
  split_ifs <;> omega

/-- What becomes of the watchers of a class `k` that is merged again: they are joined to what it
inherits from its super class, its base and its mixins as they are now. Each handler stands there
as often as before exactly if the class inherits no watch map, or else for every key no method is
inherited, each inherited function stood there as often as it is inherited, and no other function
stood there twice. -/
def WatchersJoined (cfg : Config) (k : Class) (f' : Forest) (o : Options) : Prop :=
  ∃ s w, k.superClass = some s ∧
    Options.beneath cfg (f'.get s).options.value k.carried = .ok w ∧
    (∀ key, watchersAt o.fields.watch key =
      if w.fields.watch.isNone then k.watchers key
      else joinWatchers (watchersAt w.fields.watch key) (k.watchers key)) ∧
    ((∀ key x, occurrences x (watchersAt o.fields.watch key) = occurrences x (k.watchers key)) ↔
      w.fields.watch.isNone ∨ ∀ key x,
        if x.isFunction then
          if 0 < occurrences x (watchersAt w.fields.watch key) then
            occurrences x (watchersAt w.fields.watch key) = occurrences x (k.watchers key)
          else occurrences x (k.watchers key) ≤ 1
        else occurrences x (watchersAt w.fields.watch key) = 0)

/-- **Late watchers.** Adding a watcher to a class is seen. When the class is resolved after that,
either it still has the options that it had, or it was merged again and its watchers were joined to
those that it inherits. -/
theorem watchers_merged_again {h : History}
    (hr : Runs cfg (fun f op => op.Known f) (.start cfg) h) (hc : c < h.forest.size) :
    (∀ es, (∃ key w, Edit.watch key w ∈ es) → Edit.clear "watch" ∉ es →
      ((h.step cfg (.edit c es)).forest.get c).WatchEdited) ∧
    ∀ o f', (h.forest.get c).WatchEdited →
      (Classes.resolve cfg c).exec h.forest = (.ok o, f') →
        o = (h.forest.get c).options ∨ WatchersJoined cfg (h.forest.get c) f' o.value := by
  have hg := hr.grounded (History.start_grounded cfg)
  have hk := hr.known (fun _ _ ha => ha) (History.start_grounded cfg) (History.start_known cfg)
  refine ⟨fun es hadd hclear => ?_, fun o f' hedit hres => ?_⟩
  · have hedits : Change cfg h.forest (h.step cfg (.edit c es)).forest (.revised c (.edits es)) :=
      (Classes.edit_yields cfg hc es).2
    exact hedits.watchEdited hk hadd hclear
  have hlast := Classes.resolve_last cfg hg c
  rw [Yields, hres] at hlast
  rcases hlast o rfl with ⟨-, ho⟩ | ⟨g, hget, hchange, ho⟩
  · exact .inl ho
  · obtain ⟨s, w, hs, hw, hwatch⟩ := hchange.remerged_watchers
      (fun s hs => hg.super_lt (hget ▸ hs)) (hget.symm ▸ hedit)
      (hget.symm ▸ (hk c trivial).1.here.watch)
    rw [hget] at hs hw
    simp only [hget] at hwatch
    have hnew : ∀ key, watchersAt o.value.fields.watch key = (f'.get c).watchers key := by
      intro key
      rw [ho]
      rfl
    refine .inr ⟨s, w, hs, hw, fun key => (hnew key).trans (hwatch key), ?_⟩
    simp only [hnew, hwatch]
    cases w.fields.watch with
    | none => exact iff_of_true (fun key x => rfl) (.inl rfl)
    | some W =>
      simp only [Option.isNone_some, Bool.false_eq_true, if_false, false_or]
      exact forall_congr' fun key => forall_congr' fun x =>
        occurrences_joinWatchers_eq_iff x _ _

/-! ## A method that comes twice -/

/-- The name by which a watcher goes, if it is a method. -/
def WatchHandler.method? (w : WatchHandler) : Option String :=
  match w.callback with
  | .handler _ => none
  | .method name => some name

/-- A definition that watches by the name of a method. -/
def watchingN : Options where
  fields := { watch := some (.new [("n", [{ callback := .method "onN" }])]) }

theorem known_watchingN (n : Nat) : watchingN.Throughout (Options.Known n) := by
  refine Options.throughout_alone ⟨fun x m hm => ?_, ?_, ?_, ?_, ?_⟩ rfl rfl
  · cases x <;> cases hm
  all_goals decide

/-- A class that watches by the name of a method, and a class under it. -/
def watching : History :=
  ((History.start quietConfig).step quietConfig (.extend rootClass watchingN)).step quietConfig
    (.extend 1 {})

/-- The class below gets a watcher of its own. -/
def watchingLate : History :=
  watching.step quietConfig (.edit 2 [.watch "n" { callback := .method "late" }])

/-- Something is mixed in that concerns no watcher. -/
def watchingThemed : History := watchingLate.step quietConfig (.mixin darkTheme)

theorem known_watching :
    Runs quietConfig (fun f op => op.Known f) (.start quietConfig) watching := by
  have hempty := (Options.known_hereditary quietConfig).throughout_empty
  refine .step (.step .refl Nat.one_pos (known_watchingN _)) ?_ (hempty _)
  show 1 < Forest.size _
  decide +kernel

theorem known_watchingThemed :
    Runs quietConfig (fun f op => op.Known f) (.start quietConfig) watchingThemed := by
  refine .step (.step known_watching ?_ fun e he => ?_) trivial (known_darkTheme _)
  · show 2 < Forest.size _
    decide +kernel
  · cases List.mem_singleton.mp he
    trivial

theorem watchingThemed_edited : (watchingThemed.forest.get 2).WatchEdited := by
  have h : (watchingThemed.forest.get 2).options.value.fields.watch.map (fun p =>
      Placed.sameOption (some p) (watchingThemed.forest.get 2).sealed.value.fields.watch) =
        some false := by decide +kernel
  exact Option.map_eq_some_iff.mp h

theorem resolve_watchingThemed :
    ∃ o f', (Classes.resolve quietConfig 2).exec watchingThemed.forest = (.ok o, f') :=
  Forging.exec_eq_ok (by decide +kernel)

theorem watchers_merged_again_themed :
    ((watchingThemed.step quietConfig
        (.edit 2 [.watch "n" { callback := .method "onN" }])).forest.get 2).WatchEdited ∧
      ∃ o f', (Classes.resolve quietConfig 2).exec watchingThemed.forest = (.ok o, f') ∧
        (o = (watchingThemed.forest.get 2).options ∨
          WatchersJoined quietConfig (watchingThemed.forest.get 2) f' o.value) := by
  obtain ⟨o, f', hres⟩ := resolve_watchingThemed
  have hlate := watchers_merged_again known_watchingThemed (c := 2) (by decide +kernel)
  refine ⟨hlate.1 _ ⟨"n", _, List.mem_singleton.mpr rfl⟩ ?_, o, f', hres, ?_⟩
  · exact fun h => by cases List.mem_singleton.mp h
  · exact hlate.2 o f' watchingThemed_edited hres

/-- **An inherited method twice.** A class gets a watcher of its own, then something is mixed in
that concerns no watcher, so that the super class has the watchers that it had. The inherited
method stood once among the watchers of the class; once the class is resolved it stands there
twice. -/
theorem inherited_method_twice :
    ∃ (cfg : Config) (h : History) (s c : ClassId) (key : String) (late x : WatchHandler)
      (d : Options) (o : Placed Options) (f' : Forest),
      Runs cfg (fun f op => op.Known f) (.start cfg) h ∧ (h.forest.get c).superClass = some s ∧
      (Classes.resolve cfg c).exec
        ((h.step cfg (.edit c [.watch key late])).step cfg (.mixin d)).forest = (.ok o, f') ∧
      ((h.forest.get s).watchers key).map WatchHandler.method? = [some "onN"] ∧
      ((f'.get s).watchers key).map WatchHandler.method? = [some "onN"] ∧
      occurrences x (((h.step cfg (.edit c [.watch key late])).forest.get c).watchers key) = 1 ∧
      occurrences x (watchersAt o.value.fields.watch key) = 2 := by
  obtain ⟨o, f', hres⟩ := resolve_watchingThemed
  have hf' : ((Classes.resolve quietConfig 2).exec watchingThemed.forest).2 = f' := by rw [hres]
  have ho : ((Classes.resolve quietConfig 2).exec watchingThemed.forest).1.toOption = some o := by
    rw [hres]
    rfl
  have htwice : ((Classes.resolve quietConfig 2).exec watchingThemed.forest).1.toOption.map
      (fun o => occurrences { callback := .method "onN" } (watchersAt o.value.fields.watch "n")) =
        some 2 := by decide +kernel
  rw [ho] at htwice
  refine ⟨quietConfig, watching, 1, 2, "n", { callback := .method "late" },
    { callback := .method "onN" }, darkTheme, o, f', known_watching, ?_, hres, ?_, ?_, ?_,
    Option.some.inj htwice⟩
  · decide +kernel
  · decide +kernel
  · rw [← hf']
    decide +kernel
  · decide +kernel

end Componentry
