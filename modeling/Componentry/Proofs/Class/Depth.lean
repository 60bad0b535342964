import Componentry.Proofs.Class.OwnName
import Componentry.Proofs.Class.Scratch

/-!
# How deep a line may be

Resolving follows a line of super classes up to a limit. The limit is looked at when the top of the
line has not been reached yet, before any class is merged again. A class is resolved before another
one is made under it, but not when it is made itself. So there are classes that cannot be resolved:
those one class deeper than the limit.

- `Forest.Depth`: how many classes are above a class.
- `Forest.Depth.tooDeep_iff`: which classes cannot be resolved.
- `Change.depth`, `Change.shallow`: what an event does to depths.
- `Reachable.shallow`: **no class is deeper** than one more than the limit.
- `resolve_by_depth`: **what resolving and extending do at each depth**.
- `lineage`: classes that are made each under the one before, up to the deepest one.
-/

namespace Componentry

open Forest

variable {cfg : Config} {f f' : Forest} {c s : ClassId} {d : Options} {n m : Nat} {ev : Event}
  {evs : List Event} {h : History}

namespace Forest

/-- `f.Depth c n`: there are `n` classes above the class `c`. -/
inductive Depth (f : Forest) : ClassId → Nat → Prop where
  | root {c : ClassId} (hc : (f.get c).superClass = none) : Depth f c 0
  | under {c s : ClassId} {n : Nat} (hc : (f.get c).superClass = some s) (hs : Depth f s n) :
    Depth f c (n + 1)

/-- No class is deeper than one more than the limit. -/
def Shallow (f : Forest) : Prop := ∀ c, c < f.size → ∀ n, f.Depth c n → n ≤ 65

theorem Depth.unique (hn : f.Depth c n) (hm : f.Depth c m) : n = m := by
  induction hn generalizing m with
  | root hc =>
    cases hm with
    | root _ => rfl
    | under hc' _ =>
      rw [hc] at hc'
      cases hc'
  | under hc _ ih =>
    cases hm with
    | root hc' =>
      rw [hc] at hc'
      cases hc'
    | under hc' hs' =>
      rw [hc] at hc'
      cases hc'
      rw [ih hs']

theorem Depth.hasAbove_iff (h : f.Depth c n) (k : Nat) : f.HasAbove k c ↔ k ≤ n := by
  induction h generalizing k with
  | root hc =>
    cases k with
    | zero => exact iff_of_true trivial (Nat.le_refl 0)
    | succ k => simp [HasAbove, hc]
  | under hc _ ih =>
    cases k with
    | zero => exact iff_of_true trivial (Nat.zero_le _)
    | succ k => simp [HasAbove, hc, ih]

/-- **Too deep** is what has more than 64 classes above it. -/
theorem Depth.tooDeep_iff (h : f.Depth c n) : f.TooDeep c ↔ 64 < n :=
  h.hasAbove_iff 65

/-- Super classes come first, so every line has an end. -/
theorem Grounded.exists_depth (hg : f.Grounded) (c : ClassId) : ∃ n, f.Depth c n := by
  induction c using Nat.strong_induction_on with
  | _ c ih =>
    cases hc : (f.get c).superClass with
    | none => exact ⟨0, .root hc⟩
    | some s =>
      obtain ⟨n, hn⟩ := ih s (hg.super_lt hc)
      exact ⟨n + 1, .under hc hn⟩

/-- Only the classes up to a class decide how deep it is. -/
theorem Depth.frame (h : f.Depth c n) (hg : f.Grounded)
    (hsame : ∀ b, b ≤ c → (f'.get b).superClass = (f.get b).superClass) : f'.Depth c n := by
  induction h with
  | root hc => exact .root ((hsame _ (Nat.le_refl _)).trans hc)
  | @under c s n hc _ ih =>
    have hlt := hg.super_lt hc
    exact .under ((hsame c (Nat.le_refl c)).trans hc)
      (ih fun b hb => hsame b (Nat.le_trans hb (Nat.le_of_lt hlt)))

end Forest

/-! ## Depths stay -/

theorem Change.depth (h : Change cfg f f' ev) (hg : f.Grounded) (hc : c < f.size)
    (hd : f.Depth c n) : f'.Depth c n :=
  hd.frame hg fun _ hb => h.superClass_eq (Nat.lt_of_le_of_lt hb hc)

theorem Steps.depth (h : Steps cfg evs f f') (hg : f.Grounded) (hc : c < f.size)
    (hd : f.Depth c n) : f'.Depth c n := by
  induction h with
  | nil f => exact hd
  | cons hstep _ ih =>
    exact ih (hstep.grounded hg) (Nat.lt_of_lt_of_le hc hstep.size_le) (hstep.depth hg hc hd)

/-- **A new class is one deeper** than its super class; all others are as deep as they were. -/
theorem Change.shallow (h : Change cfg f f' ev) (hg : f.Grounded) (hf : f.Shallow)
    (hmade : ∀ s d, ev = .made s d → ¬f.TooDeep s) : f'.Shallow := by
  intro c hc n hn
  by_cases hold : c < f.size
  · obtain ⟨m, hm⟩ := hg.exists_depth c
    rw [hn.unique (h.depth hg hold hm)]
    exact hf c hold m hm
  · cases h with
    | aside hq => exact absurd (hq.size ▸ hc) hold
    | founded _ ho hs _ =>
      obtain rfl : c = f.size := by omega
      have hroot : (f'.get f.size).superClass = none := by rw [ho.here]
      rw [hn.unique (.root hroot)]
      omega
    | @made s d _ _ hlt hu hm hp ho hs hmark =>
      obtain rfl : c = f.size := by omega
      obtain ⟨m, hdepth⟩ := hg.exists_depth s
      have hsuper : (f'.get f.size).superClass = some s := by rw [ho.here]
      have hthere := (Change.made hlt hu hm hp ho hs hmark).depth hg hlt hdepth
      have hnot := hmade s d rfl
      rw [hdepth.tooDeep_iff] at hnot
      rw [hn.unique (.under hsuper hthere)]
      omega
    | revised _ _ _ _ hs _ => omega
    | remerged _ _ _ _ _ _ hs _ => omega
    | spoiled _ _ _ _ _ hs _ => omega

theorem Steps.shallow (h : Steps cfg evs f f') (hg : f.Grounded) (hf : f.Shallow)
    (hmade : ∀ ev ∈ evs, ∀ s d, ev = .made s d → s < f.size ∧ ¬f.TooDeep s) : f'.Shallow := by
  induction h with
  | nil f => exact hf
  | @cons ev evs f g f' hstep _ ih =>
    refine ih (hstep.grounded hg) (hstep.shallow hg hf fun s d hev => ?_) fun ev' hev s d heq => ?_
    · exact (hmade ev List.mem_cons_self s d hev).2
    · obtain ⟨hs, hdeep⟩ := hmade ev' (List.mem_cons_of_mem _ hev) s d heq
      obtain ⟨m, hm⟩ := hg.exists_depth s
      rw [hm.tooDeep_iff] at hdeep
      refine ⟨Nat.lt_of_lt_of_le hs hstep.size_le, ?_⟩
      rwa [(hstep.depth hg hs hm).tooDeep_iff]

/-- A class is made under one that can be resolved: the root, or one that was resolved for it. -/
theorem History.step_shallow (hcfg : cfg.strategies = []) {op : Op} (hg : h.forest.Grounded)
    (hfit : op.Fits h.forest) (hf : h.forest.Shallow) : (h.step cfg op).forest.Shallow := by
  obtain ⟨evs, hsteps, hevs, -⟩ := History.step_events cfg hg hfit
  refine hsteps.shallow hg hf fun ev hev s d heq => ?_
  subst heq
  have horigin : op.origin = some (s, d) := hevs _ hev
  have hroot : (h.forest.get rootClass).superClass = none :=
    Option.eq_none_iff_forall_ne_some.mpr fun s hs => hg.ne_root hs rfl
  have hbase : rootClass < h.forest.size ∧ ¬h.forest.TooDeep rootClass := by
    refine ⟨hg.root_lt, ?_⟩
    rw [(Depth.root hroot).tooDeep_iff]
    omega
  cases op with
  | extend s' d' =>
    cases horigin
    refine ⟨hfit, fun hdeep => ?_⟩
    -- nothing would have been done at all
    rcases h.step_extend hcfg hg hfit d with ⟨-, hsame⟩ | ⟨hnot, -⟩
    · have hsize := hsteps.size_eq
      rw [hsame] at hsize
      have hmem : some (s, d) ∈ evs.filterMap Event.origin? :=
        List.mem_filterMap.mpr ⟨_, hev, rfl⟩
      have hpos := List.length_pos_of_mem hmem
      omega
    · exact hnot hdeep
  | component name d' =>
    cases horigin
    exact hbase
  | classFor entry =>
    cases entry with
    | definition id d' =>
      cases horigin
      exact hbase
    | ofClass _ => cases horigin
    | self _ => cases horigin
  | _ => cases horigin

theorem Reachable.shallow (hcfg : cfg.strategies = []) (hr : Reachable cfg h) :
    h.forest.Shallow := by
  induction hr with
  | refl =>
    intro c hc n hn
    obtain rfl : c = 0 := Nat.lt_one_iff.mp hc
    rw [hn.unique (.root rfl)]
    omega
  | step hr hfit _ ih => exact History.step_shallow hcfg (Reachable.grounded hr) hfit ih

/-! ## Resolving and extending -/

theorem Classes.resolve_of_not_tooDeep (hcfg : cfg.strategies = []) (hg : f.Grounded)
    (hc : ¬f.TooDeep c) : ∃ o f', (Classes.resolve cfg c).exec f = (.ok o, f') := by
  have hfail := Classes.tooDeep_of_resolve hcfg hg c
  rw [Yields] at hfail
  generalize (Classes.resolve cfg c).exec f = out at hfail
  obtain ⟨r, f'⟩ := out
  cases r with
  | error e => exact absurd (hfail e rfl) hc
  | ok o => exact ⟨o, f', rfl⟩

theorem Classes.extend_of_not_tooDeep (hcfg : cfg.strategies = []) (hg : f.Grounded)
    (hs : s < f.size) (hdepth : f.Depth s n) (hn : n ≤ 64) (d : Options) :
    ∃ f', (Classes.extend cfg s d).exec f = (.ok f.size, f') ∧ f'.size = f.size + 1 ∧
      f'.Depth f.size (n + 1) := by
  have hyields := (Classes.extend_yields cfg hg hs d).and (Classes.tooDeep_of_extend hcfg hg s d)
  have hmade : ∀ c f', (Classes.extend cfg s d).exec f = (.ok c, f') →
      ∃ g : Forest, g.size = f.size ∧ c = g.size ∧ Change cfg g f' (.made s d) :=
    fun _ _ => Classes.extend_made hg hs
  rw [Yields] at hyields
  generalize (Classes.extend cfg s d).exec f = out at hyields hmade
  obtain ⟨r, f'⟩ := out
  obtain ⟨⟨evs, hsteps, -, ⟨⟨e, rfl⟩, -⟩ | ⟨rfl, hevs⟩⟩, hfail⟩ := hyields
  · have hdeep := hfail e rfl
    rw [hdepth.tooDeep_iff] at hdeep
    omega
  · obtain ⟨g, hsize, -, hchange⟩ := hmade _ _ rfl
    have hsuper := hchange.super_made.1
    rw [hsize] at hsuper
    refine ⟨f', rfl, ?_, .under hsuper (hsteps.depth hg hs hdepth)⟩
    rw [hsteps.size_eq, hevs]
    rfl

/-- **What resolving and extending do at each depth.** Without strategies, whatever was done to the
classes, no class has more than 65 classes above it. One that has more than 64 can neither be
resolved nor extended, and trying to leaves all classes as they are; any other can be resolved, and
extending it makes a class that is one deeper. -/
theorem resolve_by_depth (hcfg : cfg.strategies = []) (hr : Reachable cfg h)
    (hc : c < h.forest.size) :
    ∃ n, h.forest.Depth c n ∧ n ≤ 65 ∧
      (64 < n →
        (Classes.resolve cfg c).exec h.forest = (.error (.inheritanceTooDeep 64), h.forest) ∧
        ∀ d, (Classes.extend cfg c d).exec h.forest =
          (.error (.inheritanceTooDeep 64), h.forest)) ∧
      (n ≤ 64 →
        (∃ o f', (Classes.resolve cfg c).exec h.forest = (.ok o, f')) ∧
        ∀ d, ∃ c' f', (Classes.extend cfg c d).exec h.forest = (.ok c', f') ∧
          f'.Depth c' (n + 1)) := by
  have hg := hr.grounded
  obtain ⟨n, hn⟩ := hg.exists_depth c
  refine ⟨n, hn, hr.shallow hcfg c hc n hn, fun hdeep => ?_, fun hle => ⟨?_, fun d => ?_⟩⟩
  · have htooDeep := hn.tooDeep_iff.mpr hdeep
    exact ⟨Classes.resolveWithin_of_hasAbove cfg htooDeep, Classes.extend_of_tooDeep cfg htooDeep⟩
  · refine Classes.resolve_of_not_tooDeep hcfg hg ?_
    rw [hn.tooDeep_iff]
    omega
  · obtain ⟨f', hext, -, hdepth⟩ := Classes.extend_of_not_tooDeep hcfg hg hc hn hle d
    exact ⟨_, f', hext, hdepth⟩

/-! ## The deepest class -/

theorem quietConfig_strategies : quietConfig.strategies = [] := rfl

/-- So many classes, each made under the one before. -/
def lineage : Nat → History
  | 0 => .start quietConfig
  | n + 1 => (lineage n).step quietConfig (.extend n {})

theorem lineage_depth (hn : n ≤ 65) : Reachable quietConfig (lineage n) ∧
    (lineage n).forest.size = n + 1 ∧ (lineage n).forest.Depth n n := by
  induction n with
  | zero => exact ⟨.refl, rfl, .root rfl⟩
  | succ n ih =>
    obtain ⟨hr, hsize, hdepth⟩ := ih (by omega)
    have hfit : n < (lineage n).forest.size := by omega
    obtain ⟨f', hext, hsize', hdepth'⟩ :=
      Classes.extend_of_not_tooDeep quietConfig_strategies hr.grounded hfit hdepth (by omega) {}
    have hforest : (lineage (n + 1)).forest = f' := History.step_extend_ok hext
    refine ⟨.step hr hfit trivial, ?_, ?_⟩
    · rw [hforest, hsize', hsize]
    · rw [hforest]
      rwa [hsize] at hdepth'

/-- The deepest class can be made, but not resolved. -/
theorem resolve_by_depth_lineage : (lineage 65).forest.Depth 65 65 ∧
    (Classes.resolve quietConfig 65).exec (lineage 65).forest =
      (.error (.inheritanceTooDeep 64), (lineage 65).forest) := by
  obtain ⟨hr, hsize, hdepth⟩ := lineage_depth (Nat.le_refl 65)
  have hc : 65 < (lineage 65).forest.size := by omega
  obtain ⟨n, hn, -, hdeep, -⟩ := resolve_by_depth quietConfig_strategies hr hc
  obtain rfl : 65 = n := hdepth.unique hn
  exact ⟨hdepth, (hdeep (by omega)).1⟩

end Componentry
