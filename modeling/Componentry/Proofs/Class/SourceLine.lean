import Componentry.Proofs.Class.Scratch
import Componentry.Proofs.Options.SourceOrder

/-!
# The sources of a line of classes

What the options of a class evaluate for its data, and what those of an instance do that has a
definition of its own, goes back to the objects that the definitions on the line of the class stand
for.

- `History.line`: those objects.
- `merged_sources_in_turn`: **evaluating the sources of merged options**.
-/

namespace Componentry

variable {cfg : Config} {x : RecordField} {h : History} {c : ClassId}

/-- The objects that are laid down for a class: what the class at the root of its line has now, and
what the definitions of the classes below stand for. -/
def History.line (h : History) (c : ClassId) : List Options :=
  match h.origin c with
  | none => [(h.forest.get c).options.value]
  | some (s, d) => if _hlt : s < c then h.line s ++ d.linearize else []
termination_by c

/-- Options computed anew have the sources of the line, the last on top. -/
theorem History.source_of_scratch {o : Options} (ho : h.scratch cfg c = .ok o) :
    x.source o = DataSource.ofStack (x.contributions (h.line c)).reverse := by
  induction c using Nat.strong_induction_on generalizing o with
  | _ c ih =>
    rw [History.scratch] at ho
    rw [History.line]
    cases horigin : h.origin c with
    | none =>
      rw [horigin] at ho
      cases ho
      rw [RecordField.contributions, List.filterMap_cons]
      cases x.source (h.forest.get c).options.value <;> rfl
    | some origin =>
      obtain ⟨s, d⟩ := origin
      rw [horigin] at ho
      dsimp only at ho ⊢
      by_cases hlt : s < c
      · rw [dif_pos hlt] at ho ⊢
        cases habove : h.scratch cfg s with
        | error e =>
          rw [habove] at ho
          cases ho
        | ok above =>
          cases hm : Options.mergedOver cfg above d with
          | error e =>
            rw [habove] at ho
            change (Options.mergedOver cfg above d >>= _) = _ at ho
            rw [hm] at ho
            cases ho
          | ok m =>
            rw [habove] at ho
            change (Options.mergedOver cfg above d >>= _) = _ at ho
            rw [hm] at ho
            cases ho
            have hgives := Options.merge_gives cfg false above d
            rw [← Options.mergedOver_eq, hm] at hgives
            rw [RecordField.source_withSelf]
            exact RecordField.source_merged (ih s hlt habove) hgives
      · rw [dif_neg hlt] at ho
        cases ho

/-- **Evaluating the sources of merged options.** Definitions with any bases and mixins, merged one
after the other over options, give options whose data is evaluated in turn, from what the last of
them contributes to what the first does, up to the first error; and without one the last
contribution wins that has the name. So it is for every class as it resolves, where nobody edits
classes and there are no strategies, and for any definition that an instance of the class brings.
What is provided is evaluated likewise. -/
theorem merged_sources_in_turn (cfg : Config) (x : RecordField) :
    (∀ p ds o, Laid cfg p ds o → x.InTurn (p :: ds.flatMap Options.linearize) o) ∧
      ∀ h, cfg.strategies = [] → Runs cfg Op.Plain (.start cfg) h →
        ∀ c o f', (Classes.resolve cfg c).exec h.forest = (.ok o, f') →
          x.InTurn (h.line c) o.value ∧
            ∀ i d m, Gives (Options.merge cfg i o.value d) (.ok m) →
              x.InTurn (h.line c ++ d.linearize) m := by
  refine ⟨fun p ds o hlaid => .of_stack hlaid.source_eq, fun h hcfg hr c o f' hres => ?_⟩
  obtain ⟨hc, hs⟩ := hr.settled hcfg
  have hok := History.resolve_scratch h c (hr.grounded (History.start_grounded cfg)) hc hcfg hs rfl
    fun b _ => rfl
  rw [Yields, hres] at hok
  obtain ⟨o', hscratch, halike⟩ := hok o rfl
  have hsource : x.source o.value = DataSource.ofStack (x.contributions (h.line c)).reverse :=
    (RecordField.source_of_unmarked halike).trans (History.source_of_scratch hscratch)
  exact ⟨.of_stack hsource, fun i d m hm => .of_stack (RecordField.source_merged hsource hm)⟩

/-- Data that is the same for every instance. -/
def sharedData : Options where
  fields := { data := some (.new (.record [("kind", .str "any"), ("size", .str "small")])) }

/-- A mixin that gives data by a script, and over it a record. -/
def sizedPanel : Options where
  fields := {
    name := some "panel"
    data := some (.new (.record [("size", .str "large")])) }
  mixins := some (.new [
    { fields := { data := some (.new (.script [.ret (.record [("kind", .lit (.str "panel"))])])) } }])

/-- Its data cannot be computed. -/
def brokenData : Options where
  fields := { data := some (.new (.script [.fail "no data"])) }

/-- A class for which something is mixed in after it was made. -/
def sharedPanel : History :=
  ((History.start quietConfig).step quietConfig (.extend rootClass sizedPanel)).step quietConfig
    (.mixin sharedData)

/-- Of the two values for a size the one wins that was laid down last, and of the two for a kind that
of the script. Broken data on top leaves nothing of it. -/
theorem merged_sources_in_turn_panel :
    (∃ o s w', Laid quietConfig sharedData [sizedPanel] o ∧ RecordField.data.source o = some s ∧
      (Eng.evaluateSource (Runtime.run { fuel := 1 }) 0 s).run.run default =
        (.ok (.ok [("kind", .str "panel"), ("size", .str "large")]), w')) ∧
      quietConfig.strategies = [] ∧ Runs quietConfig Op.Plain (.start quietConfig) sharedPanel ∧
      ∃ o f' m, (Classes.resolve quietConfig 1).exec sharedPanel.forest = (.ok o, f') ∧
        Gives (Options.merge quietConfig true o.value brokenData) (.ok m) ∧
        RecordField.data.InTurn (sharedPanel.line 1 ++ brokenData.linearize) m := by
  obtain ⟨hlaid, hline⟩ := merged_sources_in_turn quietConfig .data
  have hr : Runs quietConfig Op.Plain (.start quietConfig) sharedPanel :=
    .step (.step .refl Nat.one_pos (show sizedPanel.NamesItself by decide)) trivial trivial
  refine ⟨?_, rfl, hr, ?_⟩
  · obtain ⟨m, hm⟩ : ∃ m, Options.mergeResult quietConfig sharedData sizedPanel = .ok m :=
      Options.mergeResult_ok rfl sharedData sizedPanel
    have hgives := Options.merge_gives quietConfig true sharedData sizedPanel
    rw [hm] at hgives
    have ho : Laid quietConfig sharedData ([] ++ [sizedPanel]) m :=
      .next (.start rfl) rfl hgives (show _ = (m.withSelf none 0).unmarked from rfl)
    obtain ⟨hsome, heval, -, -⟩ := hlaid _ _ _ ho
    obtain ⟨s, hs⟩ := Option.isSome_iff_exists.mp (hsome.mpr (by decide))
    have hrun := heval s hs (Runtime.run { fuel := 1 }) 0 default
    exact ⟨m, s, _, ho, hs, hrun⟩
  · obtain ⟨o, f', hres⟩ : ∃ o f', (Classes.resolve quietConfig 1).exec sharedPanel.forest =
        (.ok o, f') := Forging.exec_eq_ok (by decide +kernel)
    obtain ⟨m, hm⟩ : ∃ m, Options.mergeResult quietConfig o.value brokenData = .ok m :=
      Options.mergeResult_ok rfl o.value brokenData
    have hgives := Options.merge_gives quietConfig true o.value brokenData
    rw [hm] at hgives
    exact ⟨o, f', m, hres, hgives, (hline _ rfl hr 1 o f' hres).2 true _ m hgives⟩

end Componentry
