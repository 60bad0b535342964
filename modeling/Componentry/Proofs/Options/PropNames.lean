import Mathlib.Data.Finset.Max
import Componentry.Proofs.Options.Grouping
import Componentry.Proofs.Text.Spelling

/-!
# Names of props through merges

Props are overlaid by name, but what is declared is made camel names of with every reading, and so is
what a merge has declared. Names that are their own camel names stay what they are on every level.
A name that is not loses a dash with each level.

- `PropsDecl.renormalized_iff`: **which names last**: those that are their own camel names.
- `Options.camel_of_singleDashes`: where no two dashes stand in a row.
- `Options.propsMap_joined_iff`: **one level**, and when it lays props over props.
- `Layered`: options and the definitions that they were merged of, on any number of levels.
- `Layered.propsMap`, `Layered.name_kept`: **all levels**.
- `props_overlaid`: the props of merged options.
-/

namespace Componentry

/-! ## Names that last -/

/-- The names as a declaration has them. -/
def PropsDecl.written : PropsDecl → List String
  | .names ns => ns
  | .keyed ps => Dict.keys ps

/-- The names of a normal form are the camel names of what is written. -/
theorem PropsDecl.mem_keys_normalized {p : PropsDecl} {key : String} :
    key ∈ Dict.keys p.normalized ↔ ∃ name ∈ p.written, Text.camelize name = key := by
  cases p with
  | names ns =>
    rw [PropsDecl.normalized, Dict.mem_keys_ofList]
    simp [PropsDecl.written]
  | keyed ps =>
    rw [PropsDecl.normalized, Dict.mem_keys_ofList]
    simp [PropsDecl.written, Dict.keys]

theorem PropsDecl.ordered_normalized (p : PropsDecl) : Dict.Ordered p.normalized := by
  cases p with
  | names ns => exact Dict.ordered_ofList _
  | keyed ps => exact Dict.ordered_ofList _

/-- **Which names last**: made a declaration of, props are their own normal form only if each name
is its own camel name. -/
theorem PropsDecl.renormalized_iff {d : Dict PropOptions} (hd : Dict.Ordered d) :
    (PropsDecl.keyed d).normalized = d ↔ ∀ key ∈ Dict.keys d, Text.camelize key = key := by
  constructor
  · intro hsame
    by_contra hnot
    push Not at hnot
    obtain ⟨k, hk, hne⟩ := hnot
    -- of the names that do not last, one with the most dashes
    let spoilt := (Dict.keys d).toFinset.filter fun key => Text.camelize key ≠ key
    have hspoilt : ∀ key, key ∈ spoilt ↔ key ∈ Dict.keys d ∧ Text.camelize key ≠ key := by
      simp [spoilt]
    obtain ⟨longest, hlongest, hmax⟩ :=
      spoilt.exists_max_image (fun key => key.toList.count '-') ⟨k, (hspoilt k).mpr ⟨hk, hne⟩⟩
    obtain ⟨hmem, hchanges⟩ := (hspoilt longest).mp hlongest
    -- it is the camel name of one that has more
    rw [← hsame, PropsDecl.mem_keys_normalized] at hmem
    obtain ⟨longer, hlonger, rfl⟩ := hmem
    rcases Text.camelize_eq_or_lt longer with heq | hlt
    · rw [heq] at hchanges
      exact hchanges heq
    · have hne' : Text.camelize longer ≠ longer := by
        intro heq
        rw [heq] at hlt
        exact Nat.lt_irrefl _ hlt
      have hle := hmax longer ((hspoilt longer).mpr ⟨hlonger, hne'⟩)
      omega
  · intro h
    exact PropsDecl.normalized_keyed hd fun key po hget => h key (Dict.mem_keys_of_get? hget)

theorem Options.camel_iff {o : Options} :
    o.Camel ↔ ∀ key ∈ Dict.keys o.propsMap, Text.camelize key = key := by
  constructor
  · intro h key hkey
    obtain ⟨⟨k, po⟩, hmem, rfl⟩ := List.mem_map.mp hkey
    exact h k po (Dict.get?_of_mem o.ordered_propsMap hmem)
  · exact Options.camel_of_keys

/-- Names without two dashes in a row have camel names that last. -/
theorem Options.camel_of_singleDashes {o : Options}
    (h : ∀ p, valueOf o.fields.props = some p → ∀ name ∈ p.written,
      Text.SingleDashes name.toList) : o.Camel := by
  rw [Options.camel_iff, Options.propsMap_eq]
  intro key hkey
  cases hp : valueOf o.fields.props with
  | none =>
    rw [hp] at hkey
    exact absurd hkey List.not_mem_nil
  | some p =>
    rw [hp] at hkey
    obtain ⟨name, hname, rfl⟩ := PropsDecl.mem_keys_normalized.mp hkey
    exact Text.camelize_camelize (h p hp name hname)

/-! ## One level -/

section Level

variable {cfg : Config} {p d m : Options}

/-- A level lays props over props where none are declared or all names last, and only there. -/
theorem Options.propsMap_joined_iff (p d : Options) (extra : Dict Json.Value) :
    (p.joined d extra).propsMap = Dict.overlay p.propsMap d.propsMap ↔
      d.fields.props = none ∨ p.Camel ∧ d.Camel := by
  have hordered := Dict.ordered_overlay p.ordered_propsMap d.propsMap
  rw [(p.declarations_joined d extra).1, Options.camel_iff, Options.camel_iff]
  cases hprops : d.fields.props with
  | none =>
    have hd : d.propsMap = [] := by
      rw [Options.propsMap_eq, hprops]
      rfl
    simp [hd, Dict.overlay]
  | some decl =>
    simp only [Option.isSome_some, if_true, PropsDecl.renormalized_iff hordered,
      Dict.mem_keys_overlay, reduceCtorEq, false_or]
    constructor
    · intro h
      exact ⟨fun key hkey => h key (.inl hkey), fun key hkey => h key (.inr hkey)⟩
    · rintro ⟨hp, hd⟩ key (hkey | hkey)
      · exact hp key hkey
      · exact hd key hkey

theorem Options.Camel.joined (hp : p.Camel) (hd : d.Camel) (extra : Dict Json.Value) :
    (p.joined d extra).Camel := by
  rw [Options.camel_iff] at hp hd ⊢
  have hboth : p.Camel ∧ d.Camel := ⟨Options.camel_iff.mpr hp, Options.camel_iff.mpr hd⟩
  rw [(p.propsMap_joined_iff d extra).mpr (.inr hboth)]
  intro key hkey
  exact (Dict.mem_keys_overlay.mp hkey).elim (hp key) (hd key)

/-- A level keeps each name, or makes a camel name of it once more. -/
theorem Options.mem_keys_joined {key : String} (extra : Dict Json.Value)
    (h : key ∈ Dict.keys p.propsMap ∨ key ∈ Dict.keys d.propsMap) :
    key ∈ Dict.keys (p.joined d extra).propsMap ∨
      Text.camelize key ∈ Dict.keys (p.joined d extra).propsMap := by
  rw [(p.declarations_joined d extra).1]
  split
  · exact .inr (PropsDecl.mem_keys_normalized.mpr ⟨key, Dict.mem_keys_overlay.mpr h, rfl⟩)
  · rename_i hnone
    refine .inl (h.resolve_right ?_)
    rw [Options.propsMap_eq, Option.not_isSome_iff_eq_none.mp hnone]
    exact List.not_mem_nil

theorem Options.iterate_joined {key : String} {n : Nat} (extra : Dict Json.Value)
    (h : Text.camelize^[n] key ∈ Dict.keys p.propsMap ∨
      Text.camelize^[n] key ∈ Dict.keys d.propsMap) :
    ∃ n, Text.camelize^[n] key ∈ Dict.keys (p.joined d extra).propsMap := by
  rcases Options.mem_keys_joined extra h with hkept | hmade
  · exact ⟨n, hkept⟩
  · exact ⟨n + 1, by rwa [Function.iterate_succ_apply']⟩

/-- A name that lasts is among the props of all that it is laid into. -/
theorem mem_keys_layered {ds : List Options} {key : String} (hkey : Text.camelize key = key)
    (hm : ds.foldlM (Options.over cfg) p = .ok m)
    (h : key ∈ Dict.keys p.propsMap ∨ ∃ e ∈ ds, key ∈ Dict.keys e.propsMap) :
    key ∈ Dict.keys m.propsMap := by
  induction ds generalizing p with
  | nil =>
    cases hm
    exact h.resolve_right fun ⟨_, he, _⟩ => absurd he List.not_mem_nil
  | cons d rest ih =>
    obtain ⟨extra, hrest⟩ := foldlM_over_cons hm
    have hjoined : key ∈ Dict.keys p.propsMap ∨ key ∈ Dict.keys d.propsMap →
        key ∈ Dict.keys (p.joined d extra).propsMap := by
      intro hboth
      have hlasts := Options.mem_keys_joined extra hboth
      rwa [hkey, or_self] at hlasts
    rcases h with hp | ⟨e, he, hin⟩
    · exact ih hrest (.inl (hjoined (.inl hp)))
    · rcases List.mem_cons.mp he with rfl | hmem
      · exact ih hrest (.inl (hjoined (.inr hin)))
      · exact ih hrest (.inr ⟨e, hmem, hin⟩)

/-- What a merge of an object that stands alone gives. -/
theorem Options.Alone.joined_of_gives (hd : d.Alone) {i : Bool}
    (hm : Gives (Options.merge cfg i p d) (.ok m)) : ∃ extra, m = p.joined d extra := by
  have hresult : Options.mergeResult cfg p d = .ok m :=
    (Options.merge_gives cfg i p d {}).symm.trans (hm {})
  rw [hd.mergeResult] at hresult
  obtain ⟨extra, -, hm⟩ := Options.over_eq_ok hresult
  exact ⟨extra, hm⟩

end Level

/-! ## Levels -/

/-- Options that were merged of definitions, which are listed the lowest first; on whatever levels,
and with whatever merged before. -/
inductive Layered (cfg : Config) : List Options → Options → Prop
  | definition {d : Options} (h : d.Alone) : Layered cfg [d] d
  | merged {ps ds : List Options} {p d m : Options} {i : Bool} (hp : Layered cfg ps p)
      (hd : Layered cfg ds d) (hm : Gives (Options.merge cfg i p d) (.ok m)) :
      Layered cfg (ps ++ ds) m

/-- The props of several objects, each over those before it. -/
def overlaid (ds : List Options) : Dict PropOptions :=
  ds.foldl (fun ps d => Dict.overlay ps d.propsMap) []

/-- Whatever lies beneath, the objects may be laid over each other first. -/
theorem foldl_overlay (ps : Dict PropOptions) (ds : List Options) :
    ds.foldl (fun ps d => Dict.overlay ps d.propsMap) ps = Dict.overlay ps (overlaid ds) := by
  induction ds generalizing ps with
  | nil => rfl
  | cons d rest ih =>
    have hall : overlaid (d :: rest) = Dict.overlay (Dict.overlay [] d.propsMap) (overlaid rest) :=
      ih _
    rw [List.foldl_cons, ih, hall, Dict.nil_overlay d.ordered_propsMap,
      Dict.overlay_assoc d.ordered_propsMap]

theorem overlaid_cons (d : Options) (ds : List Options) :
    overlaid (d :: ds) = Dict.overlay d.propsMap (overlaid ds) := by
  rw [overlaid, List.foldl_cons, foldl_overlay, Dict.nil_overlay d.ordered_propsMap]

theorem ordered_overlaid (ds : List Options) : Dict.Ordered (overlaid ds) := by
  induction ds with
  | nil => exact Dict.ordered_nil
  | cons d rest ih =>
    rw [overlaid_cons]
    exact Dict.ordered_overlay d.ordered_propsMap _

theorem overlaid_append (ps ds : List Options) :
    overlaid (ps ++ ds) = Dict.overlay (overlaid ps) (overlaid ds) := by
  induction ps with
  | nil => exact (Dict.nil_overlay (ordered_overlaid ds)).symm
  | cons p rest ih =>
    rw [List.cons_append, overlaid_cons, overlaid_cons, ih,
      Dict.overlay_assoc (ordered_overlaid rest)]

theorem mem_keys_overlaid {ds : List Options} {d : Options} (hd : d ∈ ds) {key : String}
    (hkey : key ∈ Dict.keys d.propsMap) : key ∈ Dict.keys (overlaid ds) := by
  induction ds with
  | nil => exact absurd hd List.not_mem_nil
  | cons e rest ih =>
    rw [overlaid_cons, Dict.mem_keys_overlay]
    rcases List.mem_cons.mp hd with rfl | hrest
    · exact .inl hkey
    · exact .inr (ih hrest)

namespace Layered

variable {cfg : Config} {ds : List Options} {m : Options}

theorem alone (h : Layered cfg ds m) : m.Alone := by
  induction h with
  | definition h => exact h
  | merged _ _ hm _ ihd =>
    obtain ⟨extra, rfl⟩ := ihd.joined_of_gives hm
    exact .inl rfl

/-- **No level renames a prop** that has a camel name: the props are those of the definitions, each
over those before it. -/
theorem propsMap (h : Layered cfg ds m) (hds : ∀ d ∈ ds, d.Camel) :
    m.Camel ∧ m.propsMap = overlaid ds := by
  induction h with
  | @definition d h =>
    refine ⟨hds d List.mem_cons_self, ?_⟩
    rw [overlaid, List.foldl_cons, List.foldl_nil, Dict.nil_overlay d.ordered_propsMap]
  | @merged ps ds p d m i hp hd hm ihp ihd =>
    obtain ⟨hpcamel, hpmap⟩ := ihp fun e he => hds e (List.mem_append_left ds he)
    obtain ⟨hdcamel, hdmap⟩ := ihd fun e he => hds e (List.mem_append_right ps he)
    obtain ⟨extra, rfl⟩ := hd.alone.joined_of_gives hm
    refine ⟨hpcamel.joined hdcamel extra, ?_⟩
    rw [(p.propsMap_joined_iff d extra).mpr (.inr ⟨hpcamel, hdcamel⟩), hpmap, hdmap,
      overlaid_append]

/-- Whatever the names: on every level a name is kept, or a camel name is made of it once more. -/
theorem name_kept (h : Layered cfg ds m) {d : Options} (hd : d ∈ ds) {key : String}
    (hkey : key ∈ Dict.keys d.propsMap) :
    ∃ n, Text.camelize^[n] key ∈ Dict.keys m.propsMap := by
  induction h with
  | definition h =>
    rw [List.mem_singleton.mp hd] at hkey
    exact ⟨0, hkey⟩
  | @merged ps ds p d' m i _ hd' hm ihp ihd =>
    obtain ⟨extra, rfl⟩ := hd'.alone.joined_of_gives hm
    rcases List.mem_append.mp hd with hmem | hmem
    · obtain ⟨n, hn⟩ := ihp hmem
      exact Options.iterate_joined extra (.inl hn)
    · obtain ⟨n, hn⟩ := ihd hmem
      exact Options.iterate_joined extra (.inr hn)

end Layered

/-! ## Props of merged options -/

/-- **Props overlaid by name.** Merged over other options, a definition that declares props lays them
over theirs, and camel names are made of the names of all of them. That is the overlay itself only
if the names are their own camel names, as they are where no two dashes stand in a row. On whatever
levels such definitions are merged, no prop is renamed. -/
theorem props_overlaid {d : Options} (hd : d.Alone) (cfg : Config) (p : Options) :
    (∃ r, (∀ i, Gives (Options.merge cfg i p d) r) ∧
      (cfg.strategies = [] → ∃ m, r = .ok m) ∧
      ∀ m, r = .ok m →
        m.propsMap = (if d.fields.props.isSome then
          (PropsDecl.keyed (Dict.overlay p.propsMap d.propsMap)).normalized else p.propsMap) ∧
        (m.propsMap = Dict.overlay p.propsMap d.propsMap ↔
          d.fields.props = none ∨ p.Camel ∧ d.Camel)) ∧
    ((∀ decl, valueOf d.fields.props = some decl → ∀ name ∈ decl.written,
      Text.SingleDashes name.toList) → d.Camel) ∧
    ∀ ds m, Layered cfg ds m → d ∈ ds →
      (∀ key ∈ Dict.keys d.propsMap, ∃ n, Text.camelize^[n] key ∈ Dict.keys m.propsMap) ∧
      ((∀ e ∈ ds, e.Camel) →
        m.propsMap = overlaid ds ∧ ∀ key ∈ Dict.keys d.propsMap, key ∈ Dict.keys m.propsMap) := by
  refine ⟨⟨Options.mergeResult cfg p d, fun i => Options.merge_gives cfg i p d, ?_, ?_⟩,
    Options.camel_of_singleDashes, fun ds m hlayered hmem => ⟨?_, fun hcamel => ?_⟩⟩
  · intro hcfg
    obtain ⟨extra, hextra⟩ := extraOver_ok hcfg p.fields.extra d.fields.extra
    rw [hd.mergeResult, Options.over, hextra]
    exact ⟨_, rfl⟩
  · intro m hm
    rw [hd.mergeResult] at hm
    obtain ⟨extra, -, rfl⟩ := Options.over_eq_ok hm
    exact ⟨(p.declarations_joined d extra).1, p.propsMap_joined_iff d extra⟩
  · exact fun key hkey => hlayered.name_kept hmem hkey
  · have hmap := (hlayered.propsMap hcamel).2
    refine ⟨hmap, fun key hkey => ?_⟩
    rw [hmap]
    exact mem_keys_overlaid hmem hkey

/-- A panel, and what one that opens declares over it. -/
def titledPanel : Options where
  fields := { props := some (.new (.names ["panel-title"])) }

def openPanel : Options where
  fields := { props := some (.new (.keyed [("is-open", { required := true }), ("titel-ä", {})])) }

/-- Three levels: the upper object goes over the lower one, and what comes of that over an object
without props. -/
theorem props_overlaid_panels :
    ∃ m n, (∀ i, Gives (Options.merge {} i titledPanel openPanel) (.ok m)) ∧
      (∀ i, Gives (Options.merge {} i {} m) (.ok n)) ∧
      Dict.keys n.propsMap = ["isOpen", "panelTitle", "titelÄ"] ∧
      m.propsMap = Dict.overlay titledPanel.propsMap openPanel.propsMap ∧ n.propsMap = m.propsMap := by
  have hpanel : titledPanel.Alone := .inr ⟨rfl, rfl⟩
  have hopen : openPanel.Alone := .inr ⟨rfl, rfl⟩
  have hnothing : ({} : Options).Alone := .inr ⟨rfl, rfl⟩
  have hcamel : titledPanel.Camel := Options.camel_iff.mpr (by decide +kernel)
  have hcamel' : openPanel.Camel := Options.camel_iff.mpr (by decide +kernel)
  have hcamel'' : ({} : Options).Camel := Options.camel_iff.mpr (by decide +kernel)
  obtain ⟨⟨r, hr, hok, hiff⟩, -, -⟩ := props_overlaid hopen {} titledPanel
  obtain ⟨m, rfl⟩ := hok rfl
  have hm : Layered {} [titledPanel, openPanel] m :=
    .merged (.definition hpanel) (.definition hopen) (hr true)
  obtain ⟨⟨r', hr', hok', -⟩, -, hlayers⟩ := props_overlaid hm.alone {} {}
  obtain ⟨n, rfl⟩ := hok' rfl
  have hn : Layered {} [{}, titledPanel, openPanel] n := .merged (.definition hnothing) hm (hr' true)
  have hmap := (hiff m rfl).2.mpr (.inr ⟨hcamel, hcamel'⟩)
  have hmap' := (((props_overlaid hopen {} titledPanel).2.2 _ n hn (by simp)).2 (by simp [*])).1
  refine ⟨m, n, hr, hr', ?_, hmap, ?_⟩
  · rw [hmap']
    decide +kernel
  · rw [hmap', hmap]
    rfl

/-- **A level renames a prop.** A definition whose prop begins with two dashes, merged over one
that has nothing in it: the definition declares a name with one dash, what is merged one with
none. -/
theorem dashed_prop_renamed :
    ∃ d m : Options, d.Alone ∧ valueOf d.fields.props = some (.names ["--a"]) ∧
      (∀ i, Gives (Options.merge {} i {} d) (.ok m)) ∧
      Dict.keys (Dict.overlay ({} : Options).propsMap d.propsMap) = ["-A"] ∧
      Dict.keys m.propsMap = ["A"] ∧
      m.propsMap ≠ Dict.overlay ({} : Options).propsMap d.propsMap := by
  let d : Options := { fields := { props := some (.new (.names ["--a"])) } }
  have hd : d.Alone := .inr ⟨rfl, rfl⟩
  have hplain : ({} : Config).strategies = [] := rfl
  obtain ⟨extra, -, hm⟩ := hd.merge_gives hplain {}
  have hbefore : Dict.keys (Dict.overlay ({} : Options).propsMap d.propsMap) = ["-A"] := by
    decide +kernel
  have hafter : Dict.keys (Options.joined {} d extra).propsMap = ["A"] := by
    rw [(Options.declarations_joined {} d extra).1]
    decide +kernel
  refine ⟨d, _, hd, rfl, hm, hbefore, hafter, ?_⟩
  intro heq
  rw [heq, hbefore] at hafter
  exact absurd hafter (by decide)

end Componentry
