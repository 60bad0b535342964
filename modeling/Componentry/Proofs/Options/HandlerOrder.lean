import Componentry.Proofs.Options.Joining
import Componentry.Proofs.Options.Linearize
import Mathlib.Data.List.Nodup

/-!
# The order of handlers

Definitions may share others among their bases and mixins, so that a merge comes by the same
handlers more than once. It lays down the linearization of a definition one object after the other,
and each time keeps the first handler of each identity. What comes out is what one would get by
writing all the lists one after the other first and thinning them out only then.

- `HandlerList`: the lists of handlers that options have.
- `HandlerList.of_joined`: **one object** over another.
- `HandlerList.of_layered`: **many objects**, one over the other.
- `handlers_in_order`: **the handlers of merged options**.
-/

namespace Componentry

variable {cfg : Config} {fs gs : List Handler}

/-! ## Thinning out -/

theorem timesIn_eq_count (id : Mark) (fs : List Handler) :
    timesIn id fs = (fs.map Handler.id).count id := by
  rw [timesIn, List.count, List.countP_map]
  rfl

/-- The first of each stands once. -/
theorem timesIn_firstOfEach (id : Mark) (fs : List Handler) :
    timesIn id (firstOfEach fs) = min 1 (timesIn id fs) := by
  have hjoined : timesIn id (joinHandlers [] fs) = min 1 (timesIn id [] + timesIn id fs) :=
    timesIn_joinHandlers [] fs
  rw [joinHandlers_eq, List.nil_append] at hjoined
  rw [hjoined, timesIn, List.countP_nil, Nat.zero_add]

theorem nodup_firstOfEach (fs : List Handler) : ((firstOfEach fs).map Handler.id).Nodup := by
  rw [List.nodup_iff_count_le_one]
  intro id
  rw [← timesIn_eq_count, timesIn_firstOfEach]
  exact Nat.min_le_left _ _

/-- Handlers that are told apart are all the first of their identity. -/
theorem firstOfEach_of_nodup (h : (fs.map Handler.id).Nodup) : firstOfEach fs = fs := by
  rw [firstOfEach, ← appendNew_nil]
  refine appendNew_of_pairwise ?_
  rw [List.nil_append]
  refine (List.pairwise_map.mp h).imp fun {f g} hfg => ?_
  exact beq_false_of_ne hfg

/-- What comes later is put behind, and is nothing that came before. -/
theorem firstOfEach_append (fs gs : List Handler) :
    ∃ rest, firstOfEach (fs ++ gs) = firstOfEach fs ++ rest ∧ ∀ f ∈ rest, timesIn f.id fs = 0 := by
  obtain ⟨rest, hrest, hnew⟩ := eraseDupsBy_append (q := fun f g : Handler => g.id == f.id) fs gs
  refine ⟨rest, hrest, fun f hf => ?_⟩
  have hnone := hnew f hf
  change (firstOfEach fs).any _ = false at hnone
  rw [any_id_eq, decide_eq_false_iff_not, timesIn_firstOfEach] at hnone
  omega

/-! ## The lists of options -/

/-- The lists of handlers: one for each hook, and that for captured errors. -/
inductive HandlerList where
  | hook (h : Hook)
  | errorCaptured

/-- The handlers in one of the lists. -/
def HandlerList.of : HandlerList → Options → List Handler
  | .hook h, o => o.hookHandlers h
  | .errorCaptured, o => handlersOf o.fields.errorCaptured

/-- Two parts are joined; one that stands alone stays as it is. -/
theorem handlers_mergeParts {γ : Type} {join : γ → γ → γ}
    (read : Option (Placed γ) → List Handler) (hnone : read none = [])
    (hjoin : ∀ a b : Placed γ, read (some (.new (join a.value b.value))) =
      joinHandlers (read (some a)) (read (some b))) (p c : Option (Placed γ)) :
    read (mergeParts join p c) = joinHandlers (read p) (read c) ∨
      read c = [] ∧ read (mergeParts join p c) = read p ∨
      read p = [] ∧ read (mergeParts join p c) = read c := by
  cases p with
  | none =>
    refine .inr (.inr ⟨hnone, ?_⟩)
    cases c <;> rfl
  | some p =>
    cases c with
    | none => exact .inr (.inl ⟨hnone, rfl⟩)
    | some c => exact .inl (hjoin p c)

theorem HandlerList.of_joined_cases (x : HandlerList) (w c : Options)
    (extra : Dict Json.Value) :
    x.of (w.joined c extra) = joinHandlers (x.of w) (x.of c) ∨
      x.of c = [] ∧ x.of (w.joined c extra) = x.of w ∨
      x.of w = [] ∧ x.of (w.joined c extra) = x.of c := by
  cases x with
  | hook h =>
    have hjoin : ∀ a b : Placed HookMap, hooksOf (some (.new (joinHooks a.value b.value))) h =
        joinHandlers (hooksOf (some a) h) (hooksOf (some b) h) :=
      fun a b => HookMap.handlers_joinHooks a.value b.value h
    simp only [HandlerList.of, Options.hookHandlers_eq]
    exact handlers_mergeParts (hooksOf · h) rfl hjoin w.fields.hooks c.fields.hooks
  | errorCaptured =>
    exact handlers_mergeParts handlersOf rfl (fun _ _ => rfl) w.fields.errorCaptured
      c.fields.errorCaptured

/-- **One object over another**: the handlers of both, the first of each. -/
theorem HandlerList.of_joined {x : HandlerList} {w c : Options}
    (hw : ((x.of w).map Handler.id).Nodup) (hc : ((x.of c).map Handler.id).Nodup)
    (extra : Dict Json.Value) :
    x.of (w.joined c extra) = firstOfEach (x.of w ++ x.of c) := by
  rcases x.of_joined_cases w c extra with hjoined | ⟨hnone, hkept⟩ | ⟨hnone, hkept⟩
  · rw [hjoined, joinHandlers_eq]
  · rw [hkept, hnone, List.append_nil, firstOfEach_of_nodup hw]
  · rw [hkept, hnone, List.nil_append, firstOfEach_of_nodup hc]

/-- **Many objects**, one over the other: the handlers of all, the first of each. -/
theorem HandlerList.of_layered {x : HandlerList} {os : List Options} {p m : Options}
    (hdist : ∀ o ∈ p :: os, ((x.of o).map Handler.id).Nodup)
    (h : os.foldlM (Options.over cfg) p = .ok m) :
    x.of m = firstOfEach ((p :: os).flatMap x.of) := by
  rw [List.flatMap_cons]
  have hp := hdist p List.mem_cons_self
  induction os generalizing p with
  | nil =>
    cases h
    rw [List.flatMap_nil, List.append_nil, firstOfEach_of_nodup hp]
  | cons o rest ih =>
    obtain ⟨extra, hrest⟩ := foldlM_over_cons h
    have ho := hdist o (List.mem_cons_of_mem p List.mem_cons_self)
    have hjoined := HandlerList.of_joined hp ho extra
    -- what was laid down so far is told apart again, so the rest goes over it the same way
    have hq : ((x.of (p.joined o extra)).map Handler.id).Nodup := by
      rw [hjoined]
      exact nodup_firstOfEach _
    have hdist' : ∀ o' ∈ p.joined o extra :: rest, ((x.of o').map Handler.id).Nodup := by
      intro o' ho'
      rcases List.mem_cons.mp ho' with rfl | ho'
      · exact hq
      · exact hdist o' (List.mem_cons_of_mem p (List.mem_cons_of_mem o ho'))
    rw [ih hdist' hrest hq, hjoined, firstOfEach_append_left, List.append_assoc, List.flatMap_cons]

/-- **The handlers of merged options.** Where no object lists a handler twice, they are the handlers
of the parent and then those of the linearization, the first of each. So every handler runs once,
by however many ways it is reached, and the handlers that some of the objects have run before all
handlers that only come in with the objects after them. -/
theorem handlers_in_order (cfg : Config) (i : Bool) (p d : Options) (x : HandlerList)
    (hdist : ∀ o ∈ p :: d.linearize, ((x.of o).map Handler.id).Nodup) :
    (cfg.strategies = [] → ∃ m, Gives (Options.merge cfg i p d) (.ok m)) ∧
      ∀ m, Gives (Options.merge cfg i p d) (.ok m) →
        x.of m = firstOfEach ((p :: d.linearize).flatMap x.of) ∧
        (∀ id, timesIn id (x.of m) = min 1 (timesIn id ((p :: d.linearize).flatMap x.of))) ∧
        ∀ early late, p :: d.linearize = early ++ late →
          ∃ rest, x.of m = firstOfEach (early.flatMap x.of) ++ rest ∧
            ∀ f ∈ rest, timesIn f.id (early.flatMap x.of) = 0 := by
  have hgives := Options.merge_gives cfg i p d
  refine ⟨fun hcfg => ?_, fun m hm => ?_⟩
  · obtain ⟨m, hm⟩ := Options.mergeResult_ok hcfg p d
    exact ⟨m, hm ▸ hgives⟩
  · have hresult : Options.mergeResult cfg p d = .ok m := (hgives {}).symm.trans (hm {})
    have hlist : x.of m = firstOfEach ((p :: d.linearize).flatMap x.of) :=
      HandlerList.of_layered hdist hresult
    refine ⟨hlist, fun id => ?_, fun early late hsplit => ?_⟩
    · rw [hlist, timesIn_firstOfEach]
    · rw [hlist, hsplit, List.flatMap_append]
      exact firstOfEach_append _ _

/-- An object with handlers that are told apart by their identities. -/
def listing (hook captured : List Mark) : Options where
  fields := {
    hooks := some (.new [(.created, hook.map (⟨·, []⟩))])
    errorCaptured := some (.new (captured.map (⟨·, []⟩))) }

/-- Two mixins with one base, which the definition reaches by either and lists once more itself. -/
def diamond : Options :=
  { listing [1, 6] [] with
    mixins := some (.new [{ listing [2] [8] with base := some (.new (listing [1] [7])) },
      { listing [4] [7, 9] with base := some (.new (listing [1] [7])) }]) }

theorem handlers_in_order_diamond :
    (∀ o ∈ listing [5, 4] [9] :: diamond.linearize,
        ((o.hookHandlers .created).map Handler.id).Nodup ∧
          ((handlersOf o.fields.errorCaptured).map Handler.id).Nodup) ∧
      ∃ m, Gives (Options.merge {} false (listing [5, 4] [9]) diamond) (.ok m) ∧
        (m.hookHandlers .created).map Handler.id = [5, 4, 1, 2, 6] ∧
        (handlersOf m.fields.errorCaptured).map Handler.id = [9, 7, 8] := by
  have hdist : ∀ o ∈ listing [5, 4] [9] :: diamond.linearize,
      ((o.hookHandlers .created).map Handler.id).Nodup ∧
        ((handlersOf o.fields.errorCaptured).map Handler.id).Nodup := by decide +kernel
  obtain ⟨hsome, hcreated⟩ := handlers_in_order {} false (listing [5, 4] [9]) diamond
    (.hook .created) fun o ho => (hdist o ho).1
  obtain ⟨-, hcaptured⟩ := handlers_in_order {} false (listing [5, 4] [9]) diamond
    .errorCaptured fun o ho => (hdist o ho).2
  obtain ⟨m, hm⟩ := hsome rfl
  refine ⟨hdist, m, hm, ?_, ?_⟩
  · have hlist : m.hookHandlers .created = firstOfEach _ := (hcreated m hm).1
    rw [hlist]
    decide +kernel
  · have hlist : handlersOf m.fields.errorCaptured = firstOfEach _ := (hcaptured m hm).1
    rw [hlist]
    decide +kernel

end Componentry
