import Componentry.Proofs.Class.Elsewhere
import Componentry.Proofs.Options.Assets
import Componentry.Proofs.Options.Unmarked

/-!
# Classes under their own names

A class that has a name is to be found by it among its own components. Making a class and merging it
again put it there in different ways: the first takes the name of the definition, or else that of
the super class, the second takes the name that the merge led to. These names differ if a definition
owes its name to its base or to a mixin, and then the class is found from the next merge on only.

- `Options.Finds`, `Options.FindsItself`: a class among components.
- `Options.finds_withSelf`: **putting a class among its components**, under any name.
- `Change.finds_made`, `Change.finds_remerged`: what both ways of merging do.
- `FoundSince.lasting`: a class is found once it was merged again.
- `found_under_own_name`: **when a class is found under its own name**.
- `not_found_under_mixin_name`: a class with the name of a mixin, which nobody finds.
-/

namespace Componentry

open Forest

variable {cfg : Config} {f f' : Forest} {c s : ClassId} {d o : Options} {name : String}

/-- The class `c` is the component of a name, exactly as it is spelled and in any spelling. -/
structure Options.Finds (o : Options) (name : String) (c : ClassId) : Prop where
  exactly : Asset.components.get? o name = some (.self c)
  anyhow : (valueOf o.components).bind (·.resolve? name) = some (.self c)

/-- The class `c` is the component of the name that the options have, if they have one. -/
def Options.FindsItself (o : Options) (c : ClassId) : Prop :=
  ∀ name, o.name = some name → o.Finds name c

/-! ## Putting a class among its components -/

/-- What the own layer has under a name is found by it. -/
theorem Options.Finds.of_own (h : Asset.components.getOwn? o name = some (.self c)) :
    o.Finds name c := by
  refine ⟨Asset.get?_of_getOwn? h, ?_⟩
  rw [Asset.getOwn?, ownIn] at h
  show (valueOf (Asset.components.part o)).bind _ = _
  cases hpart : valueOf (Asset.components.part o) with
  | none =>
    rw [hpart] at h
    cases h
  | some r =>
    rw [hpart] at h
    -- the name as it is spelled comes first, and the own layer before all others
    have hown : r.getOwn? name = some (.self c) := h
    show r.resolve? name = some (.self c)
    rw [Registry.resolve?, Registry.spellings, List.findSome?_cons, hown]

theorem Options.getOwn?_addComponent (o : Options) (name : String) (e : ComponentRef Options) :
    Asset.components.getOwn? (o.addComponent name e) name = some e := by
  show Dict.get? (Dict.insert name e _) name = some e
  rw [Dict.get?_insert, if_pos rfl]

theorem Options.get?_addComponent_of_ne (o : Options) {name key : String} (h : name ≠ key)
    (e : ComponentRef Options) :
    Asset.components.get? (o.addComponent name e) key = Asset.components.get? o key := by
  rw [Asset.get?, Asset.get?, lookupIn, lookupIn]
  show (Registry.insert _ name e).get? key = _
  rw [Registry.get?_insert, if_neg (Ne.symm h)]
  show _ = (valueOf o.components).bind _
  cases o.components with
  | none => rfl
  | some r => rfl

/-- **Putting a class among its components**: it is found under that name, and all other names find
what they found before. -/
theorem Options.finds_withSelf (o : Options) (own : Option String) (c : ClassId) (n : Nat)
    (key : String) :
    (own = some key → ((o.withSelf own c).stored n).value.Finds key c) ∧
      (own ≠ some key → Option.Rel ComponentRef.StoredAs (Asset.components.get? o key)
        (Asset.components.get? ((o.withSelf own c).stored n).value key)) := by
  obtain ⟨hget, hgetOwn⟩ := (o.withSelf own c).components_placed n key
  constructor
  · rintro rfl
    rw [show o.withSelf (some key) c = o.addComponent key (.self c) from rfl,
      Options.getOwn?_addComponent] at hgetOwn
    refine Options.Finds.of_own ?_
    show Asset.components.getOwn? ((o.addComponent key (.self c)).placed n) key = _
    revert hgetOwn
    generalize Asset.components.getOwn? ((o.addComponent key (.self c)).placed n) key = e
    intro hrel
    cases hrel with
    | some hstored => exact congrArg some (hstored.same trivial)
  · intro hne
    cases own with
    | none => exact hget
    | some name =>
      rw [show o.withSelf (some name) c = o.addComponent name (.self c) from rfl,
        Options.get?_addComponent_of_ne o (fun h => hne (congrArg some h))] at hget
      exact hget

theorem Options.name_stored (o : Options) (n : Nat) : (o.stored n).value.name = o.name :=
  Options.name_eq_of_unmarked (o.placed_unmarked n)

/-! ## Making a class -/

/-- A class that was made came last, when its super class was up to date. -/
theorem Classes.extend_made {f₁ : Forest} (hg : f.Grounded) (hs : s < f.size)
    (hext : (Classes.extend cfg s d).exec f = (.ok c, f₁)) :
    ∃ g : Forest, g.size = f.size ∧ c = g.size ∧ Change cfg g f₁ (.made s d) := by
  have hyields := Classes.extend_in_turn cfg hg hs d
  rw [Yields, hext] at hyields
  obtain ⟨evs, g, -, -, ⟨⟨e, he⟩, -⟩ | ⟨hc, hsize, hmade⟩⟩ := hyields
  · cases he
  · exact ⟨g, hsize, (Except.ok.inj hc).trans hsize.symm, hmade⟩

theorem Change.super_made (h : Change cfg f f' (.made s d)) :
    (f'.get f.size).superClass = some s ∧ f'.get s = f.get s := by
  cases h with
  | made hlt _ _ _ ho _ _ => exact ⟨by rw [ho.here], ho.there s (Nat.ne_of_lt hlt)⟩

theorem History.step_extend_ok {h : History} {f₁ : Forest}
    (hext : (Classes.extend cfg s d).exec h.forest = (.ok c, f₁)) :
    (h.step cfg (.extend s d)).forest = f₁ := by
  show ((Op.run cfg (.extend s d)).exec h.forest).2 = f₁
  rw [Op.run, Forging.exec_bind, hext]
  rfl

/-! ## Both ways of merging -/

/-- What a class that was just made finds: itself under the name of its definition, or else of the
super class, and under other names what the merge has there. -/
structure Class.FindsSince (k : Class) (own : Option String) (m : Options) (c : ClassId) : Prop where
  named : k.options.value.name = m.name
  itself : ∀ key, own = some key → k.options.value.Finds key c
  others : ∀ key, own ≠ some key → Option.Rel ComponentRef.StoredAs
    (Asset.components.get? m key) (Asset.components.get? k.options.value key)

/-- **A class that is made** is found under the name of its definition or of its super class. -/
theorem Change.finds_made (h : Change cfg f f' (.made s d)) :
    ∃ m, Options.mergeResult cfg (f.get s).options.value (d.placed f.nextMark) = .ok m ∧
      (f'.get f.size).FindsSince (d.name <|> (f.get s).options.value.name) m f.size := by
  cases h with
  | @made _ _ m p _ _ hm hp ho _ _ =>
    refine ⟨m, hm, ?_⟩
    rw [ho.here]
    subst hp
    refine ⟨?_, fun key => (m.finds_withSelf _ _ _ key).1, fun key => (m.finds_withSelf _ _ _ key).2⟩
    exact (Options.name_stored _ _).trans (Options.name_withSelf _ _ _)

/-- A definition that has a name if its base or one of its mixins has one gives it to the merge. -/
theorem Class.FindsSince.findsItself {k : Class} {p m : Options} {n : Nat}
    (h : k.FindsSince (d.name <|> p.name) m c) (hd : d.NamesItself)
    (hm : Options.mergeResult cfg p (d.placed n) = .ok m) : k.options.value.FindsItself c := by
  obtain ⟨m', hm', hmm'⟩ :=
    Options.mergeResult_alike (Eq.refl p.unmarked) (d.placed_unmarked n) hm
  have hname : m.name = (d.name <|> p.name) :=
    (Options.name_eq_of_unmarked hmm'.symm).trans (Options.mergeResult_name hd hm')
  intro name hk
  exact h.itself name (hname.symm.trans (h.named.symm.trans hk))

/-- **A class that is merged again** is found under the name that the merge led to. -/
theorem Change.finds_remerged (h : Change cfg f f' (.remerged c)) :
    (f'.get c).options.value.FindsItself c := by
  cases h with
  | @remerged _ _ m p _ _ _ _ hp ho _ _ =>
    intro name hname
    rw [ho.here] at hname ⊢
    subst hp
    refine (m.finds_withSelf m.name c f.nextMark name).1 ?_
    exact (Options.name_withSelf m m.name c).symm.trans ((Options.name_stored _ _).symm.trans hname)

/-! ## Later -/

/-- A class has these options still, or is found under its own name. -/
def FoundSince (p : Placed Options) (c : ClassId) (k : Class) : Prop :=
  k.options = p ∨ k.options.value.FindsItself c

/-- **A class is found once it was merged again.** A merge that fails leaves the options. -/
theorem FoundSince.lasting (cfg : Config) (p : Placed Options) (c : ClassId) :
    Lasting cfg (fun _ _ => True) c (FoundSince p c) where
  remerged _ _ h _ := .inr h.finds_remerged
  spoiled _ _ h := h

/-- Any options are fine in any operation. -/
theorem Forest.everywhere_true (f : Forest) : f.Everywhere (fun _ => True) fun _ _ => True :=
  fun _ _ => ⟨Options.throughout_of_forall (fun _ => trivial) _,
    Options.throughout_of_forall (fun _ => trivial) _,
    Options.throughout_of_forall (fun _ => trivial) _⟩

/-- **When a class is found under its own name.** Right after a class is made, it is found under the
name of its definition, or else of its super class; so it is found by the name it has, unless the
definition owes that to its base or a mixin. Whatever is done elsewhere later, whenever the class is
resolved it has the options that it was made with, or is found by the name it has. -/
theorem found_under_own_name {h h' : History} {f₁ : Forest} (hr : Reachable cfg h)
    (hs : s < h.forest.size) (hext : (Classes.extend cfg s d).exec h.forest = (.ok c, f₁))
    (hlater : Runs cfg (fun _ op => op.Elsewhere c) (h.step cfg (.extend s d)) h') :
    (∃ n m, Options.mergeResult cfg (f₁.get s).options.value (d.placed n) = .ok m ∧
      (f₁.get c).FindsSince (d.name <|> (f₁.get s).options.value.name) m c) ∧
    (d.NamesItself → (f₁.get c).options.value.FindsItself c) ∧
    ∀ o f', (Classes.resolve cfg c).exec h'.forest = (.ok o, f') →
      o = (f₁.get c).options ∨ o.value.FindsItself c := by
  obtain ⟨g, -, rfl, hmade⟩ := Classes.extend_made hr.grounded hs hext
  obtain ⟨m, hm, hfinds⟩ := hmade.finds_made
  obtain ⟨hsuper, hsame⟩ := hmade.super_made
  have hstep := History.step_extend_ok hext
  rw [← hsame] at hm hfinds
  rw [← hstep] at hsuper
  refine ⟨⟨_, m, hm, hfinds⟩, fun hd => hfinds.findsItself hd hm, fun o f' hres => ?_⟩
  have hgrounded := Reachable.grounded (.step hr hs trivial : Reachable cfg (h.step cfg (.extend s d)))
  have hfound := (FoundSince.lasting cfg (f₁.get g.size).options g.size).later
    (Hereditary.of_forall fun _ _ => trivial)
    (fun _ _ hop => ⟨fun ev _ n size _ _ => ev.keeps_of_forall (fun _ _ => trivial) _ n size, hop⟩)
    hlater hgrounded (Forest.everywhere_true _) hsuper (.inl (by rw [hstep]))
  obtain ⟨rfl, hq⟩ := hfound.2 o f' hres
  exact hq

/-- A definition that owes its name to a mixin. -/
def mixedPanel : Options where
  mixins := some (.new [panel])

def mixedClass : History :=
  (History.start quietConfig).step quietConfig (.extend rootClass mixedPanel)

/-- Something is mixed in after the class was made, so that it will be merged again. -/
def themedMixed : History := mixedClass.step quietConfig (.mixin darkTheme)

/-- What these histories come to. -/
theorem mixedPanel_evaluated :
    (Classes.extend quietConfig rootClass mixedPanel).passes (History.start quietConfig).forest
      (fun c _ => c == 1) = true ∧
    (Classes.resolve quietConfig 1).passes mixedClass.forest (fun o _ =>
      o.value.name == some "panel" && (Asset.components.get? o.value "panel").isNone) = true ∧
    (Classes.resolve quietConfig 1).passes themedMixed.forest (fun o _ =>
      o.mark != (mixedClass.forest.get 1).options.mark && o.value.name == some "panel") = true := by
  decide +kernel

theorem extend_mixedPanel :
    ∃ f₁, (Classes.extend quietConfig rootClass mixedPanel).exec
        (History.start quietConfig).forest = (.ok 1, f₁) ∧ mixedClass.forest = f₁ := by
  obtain ⟨c, f₁, hext, htest⟩ := Forging.exec_of_passes mixedPanel_evaluated.1
  cases beq_iff_eq.mp htest
  exact ⟨f₁, hext, History.step_extend_ok hext⟩

theorem found_under_own_name_mixedPanel :
    ∃ f₁ o f', (Classes.extend quietConfig rootClass mixedPanel).exec
        (History.start quietConfig).forest = (.ok 1, f₁) ∧
      Runs quietConfig (fun _ op => op.Elsewhere 1) mixedClass themedMixed ∧
      (Classes.resolve quietConfig 1).exec themedMixed.forest = (.ok o, f') ∧
      o.value.name = some "panel" ∧ o.value.Finds "panel" 1 := by
  obtain ⟨f₁, hext, hsame⟩ := extend_mixedPanel
  obtain ⟨o, f', hres, htest⟩ := Forging.exec_of_passes mixedPanel_evaluated.2.2
  rw [Bool.and_eq_true, bne_iff_ne, beq_iff_eq] at htest
  have hlater : Runs quietConfig (fun _ op => op.Elsewhere 1) mixedClass themedMixed :=
    .step .refl trivial ⟨fun _ h => (by cases h), fun _ h => (by cases h)⟩
  obtain ⟨-, -, hfound⟩ := found_under_own_name .refl Nat.one_pos hext hlater
  refine ⟨f₁, o, f', hext, hlater, hres, htest.2, ?_⟩
  rcases hfound o f' hres with rfl | hitself
  · exact absurd (by rw [hsame]) htest.1
  · exact hitself _ htest.2

/-- **A class that nobody finds.** A class is made of a definition without a name, whose mixin has
one. It has that name, also when it is resolved, and no component is found by it. -/
theorem not_found_under_mixin_name :
    ∃ (cfg : Config) (h : History) (s c : ClassId) (d : Options) (f₁ f' : Forest)
      (o : Placed Options) (name : String),
      Reachable cfg h ∧ s < h.forest.size ∧
      (Classes.extend cfg s d).exec h.forest = (.ok c, f₁) ∧
      (Classes.resolve cfg c).exec f₁ = (.ok o, f') ∧
      o.value.name = some name ∧ Asset.components.get? o.value name = none := by
  obtain ⟨f₁, hext, hsame⟩ := extend_mixedPanel
  obtain ⟨o, f', hres, htest⟩ := Forging.exec_of_passes mixedPanel_evaluated.2.1
  rw [Bool.and_eq_true, beq_iff_eq, Option.isNone_iff_eq_none] at htest
  exact ⟨quietConfig, .start quietConfig, rootClass, 1, mixedPanel, f₁, f', o, "panel", .refl,
    Nat.one_pos, hext, hsame ▸ hres, htest⟩

end Componentry
