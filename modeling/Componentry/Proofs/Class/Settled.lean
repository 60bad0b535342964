import Componentry.Proofs.Class.Coherent
import Componentry.Proofs.Options.Unmarked

/-!
# Classes that nobody edits

As long as only classes without a super class are edited, every other class stays what its
definition, as it was given, makes of the options that the class has noted.

- `Class.MadeOf`: such a class.
- `Forest.Settled`: all classes, by what they were made of.
- `Change.settled`: **events keep it**, if no strategy can make a merge fail.
- `Op.Plain`, `Runs.settled`: the histories in which all classes stay settled.
-/

namespace Componentry

open Forest

variable {cfg : Config} {f f' : Forest} {c s : ClassId} {k : Class} {d : Options}

/-- A class with the number `c`, made under `s` of a definition and not edited since. Its options
are what merging the definition over the noted options gives. -/
structure Class.MadeOf (cfg : Config) (k : Class) (c s : ClassId) (d : Options) : Prop where
  super : k.superClass = some s
  named : d.NamesItself
  unedited : k.sealed = k.options
  marked : k.options.value.Marked
  ordered : Dict.Ordered k.options.value.fields.extra
  definition : k.definition.unmarked = d.unmarked
  merged : ∃ above m, k.superOptions = some above ∧
    Options.mergeResult cfg above.value d = .ok m ∧
    k.options.value.unmarked = (m.withSelf m.name c).unmarked

/-- Every class is made of what it is said to be made of. -/
structure Forest.Settled (cfg : Config) (f : Forest) (os : List (Option (ClassId × Options))) :
    Prop where
  length : os.length = f.size
  root : ∀ c, originAt os c = none → (f.get c).superClass = none
  made : ∀ c s d, originAt os c = some (s, d) → (f.get c).MadeOf cfg c s d

/-! ## Merging once more -/

/-- No edit is carried where there was none. -/
theorem Class.MadeOf.carried (h : k.MadeOf cfg c s d) : k.carried = k.definition := by
  rw [k.carried_eq, h.unedited]
  exact Options.carry_changes_self h.marked h.ordered k.definition

/-- What a merge gives, once it is stored. -/
theorem Class.MadeOf.of_merge {above : Placed Options} {d' m : Options} {name : Option String}
    {n : Nat} (hsuper : k.superClass = some s) (hnamed : d.NamesItself)
    (hd : d'.unmarked = d.unmarked) (hm : Options.mergeResult cfg above.value d' = .ok m)
    (hname : name = m.name ∨ name = (d.name <|> above.value.name))
    (hk : k.superOptions = some above ∧ k.definition = d' ∧ k.sealed = k.options ∧
      k.options = (m.withSelf name c).stored n) : k.MadeOf cfg c s d := by
  obtain ⟨hover, hdef, hsealed, hoptions⟩ := hk
  obtain ⟨m', hm', hmm'⟩ := Options.mergeResult_alike (Eq.refl above.value.unmarked) hd hm
  have hn : name = m'.name := by
    rcases hname with rfl | rfl
    · exact Options.name_eq_of_unmarked hmm'.symm
    · exact (Options.mergeResult_name hnamed hm').symm
  have hu : k.options.value.unmarked = (m'.withSelf m'.name c).unmarked := by
    rw [hoptions]
    show (Options.placed _ _).unmarked = _
    rw [Options.placed_unmarked, Options.withSelf_unmarked, Options.withSelf_unmarked, hn, hmm']
  refine ⟨hsuper, hnamed, hsealed, ?_, ?_, by rw [hdef]; exact hd, above, m', hover, hm', hu⟩
  · rw [hoptions]
    exact Options.marked_stored _ _
  · have hextra : k.options.value.fields.extra = m'.fields.extra := by
      have hf := congrArg (fun o : Options => o.fields.extra) hu
      simp only [Options.unmarked_fields] at hf
      refine hf.trans ?_
      cases m'.name <;> rfl
    obtain ⟨w, extra, -, he, rfl⟩ := Options.mergeResult_eq_ok hm'
    rw [hextra]
    exact ordered_extraOver he

/-! ## One class after an event -/

variable {os : List (Option (ClassId × Options))}

namespace Forest.Settled

theorem superClass_eq (hf : f.Settled cfg os) (c : ClassId) :
    (f.get c).superClass = (originAt os c).map Prod.fst := by
  cases ho : originAt os c with
  | none => exact hf.root c ho
  | some sd => exact (hf.made c sd.1 sd.2 ho).super

theorem originAt_of_super (hf : f.Settled cfg os) (h : (f.get c).superClass = some s) :
    ∃ d, originAt os c = some (s, d) := by
  rw [hf.superClass_eq] at h
  obtain ⟨⟨s', d⟩, ho, rfl⟩ := Option.map_eq_some_iff.mp h
  exact ⟨d, ho⟩

theorem originAt_eq_none (hf : f.Settled cfg os) (h : (f.get c).superClass = none) :
    originAt os c = none := by
  rw [hf.superClass_eq] at h
  exact Option.map_eq_none_iff.mp h

theorem quiet (hf : f.Settled cfg os) (hq : Quiet f f') : f'.Settled cfg os where
  length := hf.length.trans hq.size.symm
  root c hc := by
    rw [hq.get]
    exact hf.root c hc
  made c s d hc := by
    rw [hq.get]
    exact hf.made c s d hc

/-- One class changes. -/
theorem only (hf : f.Settled cfg os) (ho : Only f f' c k) (hs : f'.size = f.size)
    (hroot : originAt os c = none → k.superClass = none)
    (hmade : ∀ s d, originAt os c = some (s, d) → k.MadeOf cfg c s d) : f'.Settled cfg os where
  length := hf.length.trans hs.symm
  root := ho.forall (P := fun b k => originAt os b = none → k.superClass = none) hroot
    fun b _ => hf.root b
  made := ho.forall (P := fun b k => ∀ s d, originAt os b = some (s, d) → k.MadeOf cfg b s d) hmade
    fun b _ => hf.made b

/-- One class is added. -/
theorem added (hf : f.Settled cfg os) {x : Option (ClassId × Options)} (ho : Only f f' f.size k)
    (hs : f'.size = f.size + 1) (hroot : x = none → k.superClass = none)
    (hmade : ∀ s d, x = some (s, d) → k.MadeOf cfg f.size s d) :
    f'.Settled cfg (os ++ [x]) := by
  have hlen := hf.length
  have hlast : originAt (os ++ [x]) f.size = x := hlen ▸ originAt_length x
  -- what is said of the other classes does not change
  have hrest : ∀ b, b ≠ f.size → originAt (os ++ [x]) b = originAt os b := by
    intro b hb
    by_cases hlt : b < os.length
    · exact originAt_append_of_lt hlt
    · have hgt : os.length < b := Nat.lt_of_le_of_ne (Nat.le_of_not_lt hlt) (hlen ▸ Ne.symm hb)
      rw [originAt, originAt, List.getElem?_eq_none (Nat.le_of_not_lt hlt),
        List.getElem?_eq_none (by rw [List.length_append]; exact hgt)]
  refine ⟨?_, ho.forall (P := fun b k => originAt (os ++ [x]) b = none → k.superClass = none)
      (fun hx => ?_) fun b hb hnone => ?_,
    ho.forall (P := fun b k => ∀ s d, originAt (os ++ [x]) b = some (s, d) → k.MadeOf cfg b s d)
      (fun s d hx => ?_) fun b hb s d hsome => ?_⟩
  · rw [List.length_append, hlen, hs]
    rfl
  · exact hroot (hlast.symm.trans hx)
  · exact hf.root b ((hrest b hb).symm.trans hnone)
  · exact hmade s d (hlast.symm.trans hx)
  · exact hf.made b s d ((hrest b hb).symm.trans hsome)

end Forest.Settled

/-! ## Events -/

/-- An event that makes a class of a definition with a name of its own, where it needs one, or
changes a class that was not made of a definition. -/
def Event.Plain (os : List (Option (ClassId × Options))) : Event → Prop
  | made _ d => d.NamesItself
  | revised c _ => c < os.length ∧ originAt os c = none
  | _ => True

theorem Event.Plain.append {ev : Event} (h : ev.Plain os)
    (os' : List (Option (ClassId × Options))) : ev.Plain (os ++ os') := by
  cases ev with
  | made s d => exact h
  | revised c r =>
    refine ⟨?_, (originAt_append_of_lt h.1).trans h.2⟩
    rw [List.length_append]
    exact Nat.lt_of_lt_of_le h.1 (Nat.le_add_right _ _)
  | aside => trivial
  | founded o => trivial
  | remerged c => trivial
  | spoiled c => trivial

/-- **Events keep** classes settled. -/
theorem Change.settled {ev : Event} (hcfg : cfg.strategies = []) (h : Change cfg f f' ev)
    (hev : ev.Plain os) (hf : f.Settled cfg os) :
    f'.Settled cfg (os ++ ev.origin?.toList) := by
  cases h with
  | aside hq =>
    rw [show Event.aside.origin?.toList = [] from rfl, List.append_nil]
    exact hf.quiet hq
  | founded hp ho hs hn => exact hf.added ho hs (fun _ => rfl) fun s d h => by cases h
  | @made s d m p hlt hu hm hp ho hs hn =>
    refine hf.added ho hs (fun h => by cases h) fun s' d' h => ?_
    cases h
    exact .of_merge rfl hev (d.placed_unmarked _) hm (.inr rfl) ⟨rfl, rfl, rfl, hp⟩
  | @revised c r o n p hc hr hp ho hs hn =>
    rw [show (Event.revised c r).origin?.toList = [] from rfl, List.append_nil]
    refine hf.only ho hs (fun h => hf.root c h) fun s d h => ?_
    rw [hev.2] at h
    cases h
  | @remerged c s m p hk hu hcur hm hp ho hs hn =>
    rw [show (Event.remerged c).origin?.toList = [] from rfl, List.append_nil]
    refine hf.only ho hs (fun h => hf.root c h) fun s' d' h => ?_
    have hmade := hf.made c s' d' h
    -- no edit is carried, so that what is merged is the definition as it was given
    refine .of_merge hmade.super hmade.named ?_ hm (.inl rfl) ⟨rfl, rfl, rfl, hp⟩
    rw [hmade.carried]
    exact hmade.definition
  | @spoiled c s e hk hu hcur hm ho hs hn =>
    -- without strategies no merge fails
    obtain ⟨m, hok⟩ := Options.mergeResult_ok hcfg (f.get s).options.value (f.get c).carried
    rw [hok] at hm
    cases hm

theorem Steps.settled {evs : List Event} (hcfg : cfg.strategies = []) (h : Steps cfg evs f f')
    (hev : ∀ ev ∈ evs, ev.Plain os) (hf : f.Settled cfg os) :
    f'.Settled cfg (os ++ evs.filterMap Event.origin?) := by
  induction h generalizing os with
  | nil f =>
    rw [List.filterMap_nil, List.append_nil]
    exact hf
  | @cons ev evs f g f' hc _ ih =>
    have hnext := ih (fun ev' hev' => (hev ev' (List.mem_cons_of_mem _ hev')).append _)
      (hc.settled hcfg (hev ev List.mem_cons_self) hf)
    rw [List.append_assoc] at hnext
    rw [Event.origins_cons]
    exact hnext

/-! ## Histories -/

/-- Definitions have names of their own where they need one, and no class is edited but those
without a super class. -/
def Op.Plain (f : Forest) : Op → Prop
  | .extend _ d => d.NamesItself
  | .classFor (.definition _ d) => d.NamesItself
  | .edit c _ => (f.get c).superClass = none
  | .replace c _ => (f.get c).superClass = none
  | _ => True

/-- A definition under the name it is registered by has a name. -/
theorem Options.namesItself_orNamed (o : Options) (name : String) :
    (o.orNamed name).NamesItself := by
  intro b _ _
  rw [Options.orNamed]
  split
  · rfl
  · rename_i h
    exact Option.isSome_iff_ne_none.mpr fun hnone => h (by rw [hnone]; rfl)

theorem Op.Plain.event {op : Op} {ev : Event} (h : op.Plain f) (hfit : op.Fits f)
    (hg : f.Grounded) (hf : f.Settled cfg os) (hev : op.Brings ev) : ev.Plain os := by
  have hroot : rootClass < os.length ∧ originAt os rootClass = none := by
    refine ⟨hf.length ▸ hg.root_lt, hf.originAt_eq_none ?_⟩
    refine Option.eq_none_iff_forall_ne_some.mpr fun s hs => ?_
    exact Nat.not_lt_zero s (hg.super_lt hs)
  cases ev with
  | aside => trivial
  | founded o => trivial
  | remerged c => trivial
  | spoiled c => trivial
  | made s d =>
    cases op with
    | extend s' d' =>
      cases hev
      exact h
    | component name d' =>
      cases hev
      exact d'.namesItself_orNamed name
    | classFor entry =>
      cases entry with
      | definition id o =>
        cases hev
        exact h
      | ofClass c => cases hev
      | self c => cases hev
    | _ => cases hev
  | revised c r =>
    cases op with
    | mixin d => exact hev.1 ▸ hroot
    | component name d => exact hev.1 ▸ hroot
    | register name k => exact hev.1 ▸ hroot
    | directive name => exact hev.1 ▸ hroot
    | filter name e => exact hev.1 ▸ hroot
    | edit b es =>
      cases hev.1
      exact ⟨hf.length ▸ hfit, hf.originAt_eq_none h⟩
    | replace b o =>
      cases hev.1
      exact ⟨hf.length ▸ hfit, hf.originAt_eq_none h⟩
    | _ => cases hev

theorem History.start_settled (cfg : Config) :
    (History.start cfg).forest.Settled cfg (History.start cfg).origins := by
  have hnone : ∀ c, originAt (History.start cfg).origins c = none := fun c => by
    cases c with
    | zero => rfl
    | succ c => rfl
  refine ⟨rfl, fun c _ => ?_, fun c s d h => ?_⟩
  · refine Option.eq_none_iff_forall_ne_some.mpr fun s hs => ?_
    cases c with
    | zero => cases hs
    | succ c =>
      rw [get_of_size_le (Nat.le_add_left 1 c)] at hs
      cases hs
  · rw [hnone] at h
    cases h

/-- Every operation of these histories keeps a forest coherent and its classes settled. -/
theorem Op.Plain.step {h : History} {op : Op} (hcfg : cfg.strategies = [])
    (hop : op.Plain h.forest) (hfit : op.Fits h.forest) (hg : h.forest.Grounded)
    (hc : h.forest.Coherent) (hs : h.forest.Settled cfg h.origins) :
    (h.step cfg op).forest.Coherent ∧
      (h.step cfg op).forest.Settled cfg (h.step cfg op).origins := by
  obtain ⟨evs, hsteps, hevs, horigins⟩ := History.step_events cfg hg hfit
  refine ⟨hsteps.coherent hg hc, ?_⟩
  rw [horigins]
  exact hsteps.settled hcfg (fun ev hev => hop.event hfit hg hs (hevs ev hev)) hs

/-- **All classes stay settled** in these histories. -/
theorem Runs.settled {h : History} (hcfg : cfg.strategies = [])
    (hr : Runs cfg Op.Plain (.start cfg) h) :
    h.forest.Coherent ∧ h.forest.Settled cfg h.origins := by
  induction hr with
  | refl => exact ⟨History.start_coherent cfg, History.start_settled cfg⟩
  | step hr hfit ha ih =>
    exact ha.step hcfg hfit (hr.grounded (History.start_grounded cfg)) ih.1 ih.2

end Componentry
