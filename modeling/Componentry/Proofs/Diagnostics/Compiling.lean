import Componentry.Proofs.Diagnostics.Rendering
import Componentry.Proofs.Template.SourceRange

/-!
# Compiling and diagnostics

In development problems tell where they are, and a compilation that does so is remembered apart from
one that does not. So what was compiled before depends on the flags. What a compilation gives does
not, as long as the compiler can tell what it was asked for: it is what compiling afresh gives.

- `CompiledTemplate.Alike`: render functions that do the same.
- `Eng.succeeds_compile_tells`: where the compiler can tell, it gives what was asked for.
- `Eng.alike_compile`: **compiling** does alike whether or not problems tell where they are.
- `Eng.same_compileInto`: so does compiling for an instance.
-/

namespace Componentry

open Template (CompileSettings fingerprint NulFree)

variable {rt : Runtime} {φ : Flags} {vm : InstanceId} {s : CompileSettings} {template : String}

/-- Render functions that do the same. -/
structure CompiledTemplate.Alike (c c' : CompiledTemplate) : Prop where
  render : c.render.value = c'.render.value
  statics : c.statics.map (·.value) = c'.statics.map (·.value)

theorem CompiledTemplate.Alike.refl (c : CompiledTemplate) : c.Alike c := ⟨rfl, rfl⟩

/-- Compilations that differ in where problems are. -/
theorem CompiledTemplate.Of.alike {c c' : CompiledTemplate} {t t' : Template.Compiled}
    (h : c.Of t) (h' : c'.Of t') (ht : t.unlocated = t'.unlocated) : c.Alike c' := by
  constructor
  · rw [h.render, h'.render]
    show RenderBody.template t.unlocated.root = .template t'.unlocated.root
    rw [ht]
  · rw [h.statics, h'.statics]
    show t.unlocated.statics.map RenderBody.fixed = t'.unlocated.statics.map .fixed
    rw [ht]

/-- Installing render functions that do the same. -/
theorem InstanceOptions.Alike.setRender {o o' : InstanceOptions} (h : o.Alike o')
    {c c' : CompiledTemplate} (hc : c.Alike c') :
    (o.setRender c.render c.statics).Alike (o'.setRender c'.render c'.statics) := by
  have hplain : ∀ (o : InstanceOptions) (c : CompiledTemplate),
      (o.setRender c.render c.statics).plain =
        o.plain.setRender (.new c.render.value) ((c.statics.map (·.value)).map .new) := by
    intro o c
    rw [List.map_map]
    rfl
  rw [Alike, hplain, hplain, hc.render, hc.statics, show o.plain = o'.plain from h]

/-- What the compiler was asked for before, it could tell before. -/
theorem Runtime.Tells.before {asked more : List (CompileSettings × String)}
    (h : rt.Tells (asked ++ more)) : rt.Tells asked where
  nulFree q hq := h.nulFree q (List.mem_append_left more hq)
  distinct p hp q hq := h.distinct p (List.mem_append_left more hp) q (List.mem_append_left more hq)

namespace Eng

/-- Whatever is remembered, compiling leaves word of what was asked for. -/
theorem succeeds_compile_asked (rt : Runtime) (s : CompileSettings) (template : String)
    (w : World) : Succeeds (compile rt s template) w fun _ w' =>
      w'.asked = w.asked ++ [(s, template)] := by
  cases hhit : Dict.get? w.memo (rt.digest s template) with
  | some hit =>
    refine (succeeds_compile_hit hhit).imp fun c w' ⟨_, hw'⟩ => ?_
    rw [hw']
    rfl
  | none =>
    refine (succeeds_compile_miss hhit).imp fun c w' ⟨_, es, _, hw'⟩ => ?_
    rw [hw']
    rfl

theorem tells_compile {w : World} (ht : rt.Tells ((compile rt s template).run.run w).2.asked) :
    rt.Tells (w.asked ++ [(s, template)]) := by
  obtain ⟨c, w', hrun, hasked⟩ := succeeds_compile_asked rt s template w
  rw [hrun] at ht
  exact hasked ▸ ht

/-- Where the compiler can tell what it was asked for, it gives that. -/
theorem succeeds_compile_tells {w : World} (hw : w.Remembers rt)
    (ht : rt.Tells (w.asked ++ [(s, template)])) :
    Succeeds (compile rt s template) w fun c w' => w'.Remembers rt ∧
      c.Of (Template.compile s template) ∧
      ∃ es memo compilations, (∀ e ∈ es, ∃ text, e = .line .warn text) ∧
        w' = w.compiled (s, template) (1 + c.statics.length) es memo compilations := by
  refine (succeeds_compile s template hw).imp fun c w' ⟨hafter, ⟨q, hq, hof⟩, hcompiled⟩ =>
    ⟨hafter, ?_, hcompiled⟩
  obtain ⟨hmem, hdigest⟩ := Runtime.firstAsked_spec hq
  have hlast : (s, template) ∈ w.asked ++ [(s, template)] :=
    List.mem_append_right w.asked List.mem_cons_self
  obtain ⟨hsettings, htemplate⟩ := Template.fingerprint_injective (ht.nulFree q hmem)
    (ht.nulFree _ hlast) (ht.distinct q hmem _ hlast hdigest)
  rw [hsettings, htemplate] at hof
  exact hof

end Eng

/-- Worlds that were alike before a compilation of the same template, up to where problems are. -/
theorem World.Alike.compiled {w w' : World} (h : w.Alike w') (q q' : CompileSettings × String)
    (marks : Nat) {es es' : List LogEntry} (hes : ∀ e ∈ es, ∃ text, e = .line .warn text)
    (hes' : ∀ e ∈ es', ∃ text, e = .line .warn text) (memo memo' : Dict CompiledTemplate)
    (count count' : Nat) :
    (w.compiled q marks es memo count).Alike (w'.compiled q' marks es' memo' count') := by
  have hwarned : ∀ es : List LogEntry, (∀ e ∈ es, ∃ text, e = .line .warn text) →
      ∀ e ∈ es, e.told? = none := fun es hes e he => by
    obtain ⟨text, rfl⟩ := hes e he
    rfl
  have hnoted : (w.noted es).Alike (w'.noted es') :=
    (World.Alike.noted w (hwarned es hes)).symm.trans (h.trans (.noted w' (hwarned es' hes')))
  exact { hnoted with
    forest := { hnoted.forest with nextMark := congrArg (· + marks) h.forest.nextMark } }

namespace Eng

/-- **Compiling** does alike whether or not problems tell where they are; if they do so on both sides
or on neither, they are the same. -/
theorem alike_compile (rt : Runtime) (φ : Flags) (s : CompileSettings) (b b' : Bool)
    (template : String) :
    (alike rt).Rel (fun c c' => c.Alike c' ∧ (b = b' → c.problems = c'.problems))
      (compile rt (s.located b) template) (compile (rt.under φ) (s.located b') template) where
  left w := by
    refine ⟨?_, fun ht => (tells_compile ht).before⟩
    obtain ⟨c, w₁, hrun, -⟩ := succeeds_compile_asked rt (s.located b) template w
    rw [hrun]
    exact ⟨.ok c, .ok ⟨.refl c, fun _ => rfl⟩⟩
  right w := by
    refine ⟨?_, fun ht => (tells_compile ht).before⟩
    obtain ⟨c, w₁, hrun, -⟩ := succeeds_compile_asked rt (s.located b') template w
    rw [show compile (rt.under φ) = compile rt from rfl, hrun]
    exact ⟨.ok c, .ok ⟨.refl c, fun _ => rfl⟩⟩
  both w w' hw ht ht' := by
    -- the flags say nothing of how compilations are remembered
    rw [show compile (rt.under φ) = compile rt from rfl] at ht' ⊢
    obtain ⟨c, w₁, hrun, hw₁, hof, es, memo, count, hes, rfl⟩ :=
      succeeds_compile_tells hw.left (tells_compile ht)
    obtain ⟨c', w₁', hrun', hw₁', hof', es', memo', count', hes', rfl⟩ :=
      succeeds_compile_tells hw.right (tells_compile ht')
    have hc : c.Alike c' := hof.alike hof'
      ((Template.compile_located s b template).trans (Template.compile_located s b' template).symm)
    have hproblems : b = b' → c.problems = c'.problems := fun hb => by
      rw [hof.problems, hof'.problems, hb]
    have hlength : c.statics.length = c'.statics.length := by
      have hvalues := congrArg List.length hc.statics
      rwa [List.length_map, List.length_map] at hvalues
    rw [hrun, hrun']
    refine ⟨.ok ⟨hc, hproblems⟩, ?_, hw₁, hw₁'⟩
    rw [← hlength]
    exact hw.alike.compiled _ _ _ hes hes' _ _ _ _

/-- **Compiling for an instance** does alike under any flags. -/
theorem same_compileInto (template : String) :
    Same rt (compileInto rt vm template) (compileInto (rt.under φ) vm template) := by
  refine (alike rt).bindSame (same_aside (.onPerf _) (.onPerf _)) fun _ => ?_
  refine (alike rt).bindSame (same_aside (.source _) (.source _)) fun _ => ?_
  refine getInstanceThen fun i o d ho => ?_
  have hsettings : compileSettings (rt.under φ) { i with options := o, devProxy := d } =
      (compileSettings rt i).located (rt.under φ).config.devMode := by
    rw [compileSettings, ← ho.read (·.field (·.delimiters)) fun _ => rfl,
      ← ho.read (·.comments) fun _ => rfl]
    rfl
  rw [hsettings]
  have hcompile := alike_compile rt φ (compileSettings rt i) rt.config.devMode
    (rt.under φ).config.devMode template
  refine (alike rt).bind hcompile fun c c' ⟨hc, _⟩ => ?_
  -- what people are told of the problems is nothing but warnings
  refine (alike rt).bindSame ?_ fun _ => ?_
  · exact same_aside (.forM (fun p => .warn rt vm _) _) (.forM (fun p => .warn _ vm _) _)
  refine (alike rt).bindSame ?_ fun _ => ?_
  · exact alike_modifyInstance vm fun i i' hi => hi.withOptions (hi.options.setRender hc)
  refine same_aside ?_ ?_
  all_goals exact .bind (.onPerf _) (.getInstance fun i => .onPerf _)

end Eng

end Componentry
