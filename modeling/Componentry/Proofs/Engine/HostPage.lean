import Componentry.Proofs.Engine.Landing
import Componentry.Proofs.Engine.Requests
import Componentry.Proofs.Host.WellFormed

/-!
# What happens to the host page

Whatever a runtime is asked for, three things happen to the host page: markup is read, which makes
nodes; these are put in the place of a target that is no document root; and nodes are let go of. So
a relation that says nothing of anything else need only be kept by these.

Nothing is mounted in the place of an html or body element: such a target is refused before anything
else is done. So these elements stay where they are. And the host is well formed when a runtime
starts, and after whatever the runtime is asked for.

- `World.Paged`: a relation about the host page.
- `Eng.paged_mountAt`, `Request.paged`: **a mount** and **any request** keep to it.
- `Eng.run_mountAt_refused`: **a mount on a document root** is refused and does nothing else.
- `document_roots_stay`: both, over any number of requests.
- `World.release_wellFormed`: **letting go** leaves the host well formed.
- `Runtime.start_wellFormed`, `Runtime.after_wellFormed`: **it is well formed** at the start, and
  after any number of requests.
-/

namespace Componentry

variable {H : Halt → Prop} {rt : Runtime} {w w' : World} {vm : InstanceId}
  {R : World → World → Prop}

/-! ## Reading and replacing -/

namespace Eng

theorem run_onHost {α : Type} (f : Host → α × Host) (w : World) :
    (onHost f).run.run w = (.ok (f w.host).1, { w with host := (f w.host).2 }) := rfl

/-- Reading markup makes nodes in the host. -/
theorem ends_readMarkup (markup : String) :
    Ends (readMarkup markup) w fun r w' =>
      ∃ nodes, r = .ok nodes ∧ (nodes, w'.host) = w.host.loadMarkup markup := by
  rw [readMarkup, Host.loadMarkup]
  generalize Markup.Document.parse markup = d
  refine Ends.after (R := World.Spared fun _ => True) (H := fun _ => False)
    (within_warnMisplaced _) (fun _ w₁ h₁ => ?_) fun e w₁ _ h => h.elim
  rw [Ends, run_onHost, ← h₁.host]
  exact ⟨_, rfl, rfl⟩

/-- Nodes are put in the place of a target. -/
theorem ends_replaceTarget (t : NodeId) (nodes : List NodeId) :
    Ends (replaceTarget (some t) nodes) w fun _ w' =>
      w'.host = (w.host.replaceNode t nodes).2 := by
  refine Ends.next (run_onHost _ w) ?_
  have hsame : Within (World.Spared fun _ => True) (fun _ => True)
      (if !(w.host.replaceNode t nodes).1 then
        note (.line .debug "mount target is detached; rendered nodes are kept off-document")
      else Pure.pure ()) := Within.ite (Within.note _) (Within.pure ())
  exact (Ends.of_within hsame _).imp fun _ _ h => h.1.host

end Eng

/-! ## Relations about the host page -/

/-- A relation about nothing but the host page. What is read from the body of a document keeps to
it, and so does putting that in the place of a node that is no document root. -/
class World.Paged (R : World → World → Prop) : Prop where
  trans {w w' w'' : World} : R w w' → R w' w'' → R w w''
  same {w w' : World} : w'.host = w.host → R w w'
  loaded {w w' : World} (d : Markup.Document) : w'.host = (w.host.loadBody d).2 → R w w'
  placed {w w' : World} {t : NodeId} (d : Markup.Document) : w.host.isDocumentRoot t = false →
    w'.host = ((w.host.loadBody d).2.replaceNode t (w.host.loadBody d).1).2 → R w w'

namespace World.Paged

variable [World.Paged R]

instance : World.Lax R where
  refl _ := same rfl
  trans := trans
  acted h := same (h.read (·.host) fun _ => rfl)
  access {w w' vm a} h := by
    have hused : R w (Eng.setAccess vm a w) := same rfl
    exact trans hused (trans h (same rfl))
  aside _ _ hh := same hh

theorem set {f : Instance → Instance} : Eng.Within R H (Eng.modifyInstance vm f) :=
  Eng.Within.modifyInstance vm fun _ => same rfl

theorem record (what : Happening) : Eng.Within R H (Eng.record vm what) :=
  Eng.Within.modifyGet fun _ => same rfl

/-- The phases of an instance do not touch the host page. -/
theorem raising (vm : InstanceId) : Eng.Raising R vm where
  own _ _ := same rfl
  adopt _ _ := same rfl
  record _ _ := same rfl

end World.Paged

namespace Eng

variable [World.Paged R]

/-- **A patch** of a target that is no document root. -/
theorem ends_patch_paged {target : Option NodeId}
    (hallowed : target.any w.host.isDocumentRoot = false) (tree : VNode) (hydrating : Bool) :
    Ends (patch rt vm target tree hydrating) w fun _ w' => R w w' := by
  have hput : ∀ w₁ : World, w₁.host = w.host → Ends (do
      let nodes ← readMarkup tree.toHtml
      replaceTarget target nodes
      return nodes.head?) w₁ fun _ w' => R w w' := by
    intro w₁ h₁
    refine Ends.bind (ends_readMarkup _) ?_ fun e w₂ ⟨_, hr, _⟩ => by cases hr
    rintro nodes w₂ ⟨_, hr, hloaded⟩
    obtain rfl := Except.ok.inj hr
    obtain ⟨d, rfl, h₂⟩ : ∃ d, nodes = (w.host.loadBody d).1 ∧ w₂.host = (w.host.loadBody d).2 :=
      ⟨_, Prod.ext_iff.mp (h₁ ▸ hloaded)⟩
    cases target with
    | none => exact World.Paged.loaded d h₂
    | some t =>
      have hplaced : ∀ w₃ : World,
          w₃.host = (w₂.host.replaceNode t (w.host.loadBody d).1).2 → R w w₃ := fun w₃ h₃ =>
        World.Paged.placed d hallowed (h₂ ▸ h₃)
      exact Ends.bind (ends_replaceTarget t _) (fun _ => hplaced) fun _ => hplaced
  refine Ends.next (a := w.host) (v := w) rfl ?_
  by_cases hagrees : (hydrating && target.any fun t => w.host.outerHtml t == tree.toHtml)
  · rw [if_pos hagrees]
    exact World.Paged.same rfl
  · rw [if_neg hagrees]
    by_cases hwarns : (hydrating && target.isSome)
    · rw [if_pos hwarns]
      refine Ends.after (R := World.Spared fun _ => True) (H := fun _ => False)
        (within_warn vm _) (fun _ w₁ h₁ => hput w₁ h₁.host) fun e w₁ _ h => h.elim
    · rw [if_neg hwarns]
      exact hput w rfl

end Eng

/-- A landing keeps to the relation. -/
theorem World.Landed.paged [World.Paged R] {r : Except Halt Unit} (h : w.Landed rt vm r w') :
    R w w' := by
  obtain ⟨hbefore, -, hallowed, hlanding⟩ := h
  rename_i w₁ target tree queue hydrating
  have hspared : R w w₁ := World.Paged.same hbefore.host
  have hfinish : ∀ vm, Eng.Within R (fun _ => True) (Eng.finishMounted rt rt.run vm) :=
    fun vm => Eng.within_finishMounted rt.within_run World.Paged.set fun _ => World.Paged.record _
  have hrest : ∀ el, Eng.Within R (fun _ => True) (do
      Eng.record vm (.patched vm)
      Eng.modifyInstance vm ({ · with el })
      queue.forM (Eng.finishMounted rt rt.run)
      Eng.finishMounted rt rt.run vm) := fun el =>
    (World.Paged.record _).bind fun _ => World.Paged.set.bind fun _ =>
      (Eng.Within.forM hfinish queue).bind fun _ => hfinish vm
  have hland : Eng.Ends (Eng.land rt rt.run vm target tree queue hydrating) w₁
      fun _ w' => R w w' := by
    refine Eng.Ends.bind (Eng.ends_patch_paged (R := R) (hbefore.host ▸ hallowed) tree hydrating)
      (fun el w₂ h₂ => ?_) fun e w₂ h₂ => World.Paged.trans hspared h₂
    exact World.Paged.trans hspared (World.Paged.trans h₂ (hrest el w₂).1)
  rw [Eng.Ends, hlanding] at hland
  exact hland

namespace Eng

variable [World.Paged R]

/-- **A mount** keeps to the relation, however it goes. -/
theorem paged_mountAt (rt : Runtime) (fuel : Nat) (vm : InstanceId) (target : Option MountTarget)
    (hydrating : Bool) : Within R (fun _ => True) (mountAt rt rt.run fuel vm target hydrating) := by
  refine fun w => ⟨?_, fun _ _ => trivial⟩
  rcases ends_mountAt rt fuel w vm target hydrating with hspared | hlanded
  · exact World.Paged.same hspared.host
  · exact hlanded.paged

theorem paged_setUp (rt : Runtime) (vm : InstanceId) (origin : Origin) :
    Within R (fun _ => True) (rt.setUp vm origin) :=
  within_setUp (fun _ => trivial) rt.within_run (World.Paged.raising vm)
    (fun _ => World.Paged.set) (fun el => paged_mountAt rt rt.fuel vm (some el) false) origin

theorem paged_make (rt : Runtime) (c : ClassId) (origin : Origin) :
    Within R (fun _ => True) (make rt rt.run rt.mount c origin) := by
  have hallocate : Within R (fun _ => True) (allocate c) :=
    Within.modifyGet fun _ => World.Paged.same rfl
  exact hallocate.bind fun vm => (paged_setUp rt vm origin).bind fun _ => Within.pure vm

end Eng

/-- **A request** keeps to the relation, if letting go of nodes does. -/
theorem Request.paged [World.Paged R] (rt : Runtime) {q : Request}
    (hrelease : ∀ roots, q.core = .release roots → ∀ w, R w (w.release roots)) :
    Eng.Within R (fun _ => True) (q.perform rt) :=
  q.within (fun _ _ => Eng.Within.modifyGet fun _ => World.Paged.same rfl)
    (fun vm origin _ => Eng.paged_setUp rt vm origin)
    (fun c definition => Eng.paged_make rt c (.root definition))
    (fun _ p => Eng.within_createChild (fun _ => trivial) (Eng.paged_make rt p.ctor _))
    (fun vm target hydrating => Eng.paged_mountAt rt rt.fuel vm target hydrating) hrelease

/-! ## Keeping document roots -/

/-- The document roots of the host page are kept. -/
def World.Keeps (w w' : World) : Prop := w.host.Keeps w'.host

instance : World.Paged World.Keeps where
  trans := Host.Keeps.trans
  same {w w'} h := by
    rw [World.Keeps, h]
    exact .refl _
  loaded {w w'} d h := by
    rw [World.Keeps, h]
    exact (Host.loadNodes_extends none w.host d.body).1.keeps
  placed {w w' t} d ht h := by
    rw [World.Keeps, h]
    exact Host.keeps_loadBody_replaceNode ht d

/-- **A request** keeps all document roots, unless it lets go of nodes. -/
theorem Request.keeps (rt : Runtime) {q : Request} (hq : ∀ roots, q.core ≠ .release roots) :
    Eng.Within World.Keeps (fun _ => True) (q.perform rt) :=
  q.paged rt fun roots h => absurd h (hq roots)

/-! ## Refusal -/

/-- What the page is asked to find a target. -/
def MountTarget.asked : MountTarget → List LogEntry
  | .node _ => []
  | .selector s => [.query s]

/-- What a document root is refused with. -/
def refusal : String :=
  "Do not mount components to <html> or <body> - mount to normal elements instead."

/-- **A mount on a document root** is refused. But for the journal the world is as before. -/
theorem Eng.run_mountAt_refused (rt : Runtime) (fuel : Nat) (vm : InstanceId) {t : MountTarget}
    {n : NodeId} (hydrating : Bool) (ht : rt.targetOf w.host t = some n)
    (hn : w.host.isDocumentRoot n = true) :
    (mountAt rt rt.run (fuel + 1) vm (some t) hydrating).run.run w =
      (.ok (), w.noted (t.asked ++ rt.warningOf w vm refusal)) := by
  have hrefused : ∀ (w₁ : World), w₁.host = w.host →
      (mountOn rt rt.run (mountAt rt rt.run fuel) vm (some n) hydrating).run.run w₁ =
        (.ok (), w₁.noted (rt.warningOf w₁ vm refusal)) := by
    intro w₁ h₁
    have hasked : (refuses (some n)).run.run w₁ = (.ok true, w₁) := by
      rw [← hn, ← h₁]
      rfl
    rw [mountOn, ExceptT.run_bind, StateT.run_bind, hasked]
    exact run_warn rt w₁ vm refusal
  cases t with
  | node m =>
    cases ht
    exact hrefused w rfl
  | selector s =>
    have hfound : (resolveTarget rt vm (.selector s)).run.run w =
        (.ok (some n), w.noted [.query s]) := by
      rw [Runtime.targetOf] at ht
      rw [resolveTarget, query]
      cases hpage : rt.page with
      | none =>
        rw [hpage] at ht
        cases ht
      | some page =>
        rw [hpage, Option.bind_some] at ht
        have hquery : (do
            note (.query s)
            return (← getHost).query page s : Eng (Option NodeId)).run.run w =
              (.ok (some n), w.noted [.query s]) := by
          rw [← ht]
          rfl
        rw [ExceptT.run_bind, StateT.run_bind, hquery]
        rfl
    show (mountWith rt rt.run (mountAt rt rt.run fuel) vm (some (.selector s))
      hydrating).run.run w = _
    rw [mountWith, ExceptT.run_bind, StateT.run_bind, hfound, MountTarget.asked, World.noted_append,
      ← rt.warningOf_noted w [.query s]]
    exact hrefused _ rfl

/-- **Document roots are never replaced.** An html or body element that belongs to a document stays
where it is, whatever a runtime is asked for in any order, with any targets. And a mount on such an
element, by whatever target and at whatever depth, gives a warning and does nothing else: but for
the journal, the whole world is as before. -/
theorem document_roots_stay (rt : Runtime) (w : World) :
    (∀ (qs : List Request) (page n : NodeId), (∀ q ∈ qs, ∀ roots, q.core ≠ .release roots) →
      w.host.Rooted page n → (rt.after qs w).host.Rooted page n) ∧
    ∀ (fuel : Nat) (vm : InstanceId) (t : MountTarget) (hydrating : Bool) (n : NodeId),
      rt.targetOf w.host t = some n → w.host.isDocumentRoot n = true →
        (Eng.mountAt rt rt.run (fuel + 1) vm (some t) hydrating).run.run w =
          (.ok (), w.noted (t.asked ++ rt.warningOf w vm refusal)) := by
  constructor
  · intro qs page n hqs hn
    have hkeeps : w.Keeps (rt.after qs w) :=
      Runtime.within_after (fun q hq => Request.keeps rt (hqs q hq)) w
    exact hkeeps.rooted hn
  · intro fuel vm t hydrating n ht hn
    exact Eng.run_mountAt_refused rt fuel vm hydrating ht hn

/-- The body of a page stays when something is mounted in it, and is refused as a target. -/
theorem document_roots_stay_plainPage :
    let rt : Runtime := { page := some 0 }
    let w : World := { freshWorld with host := plainPage }
    plainPage.Rooted 0 2 ∧ rt.targetOf plainPage (.node 2) = some 2 ∧
      plainPage.isDocumentRoot 2 = true ∧
      (rt.after [.mount 0 (some (.node 3)) false] w).host.Rooted 0 2 ∧
      (Eng.mountAt rt rt.run 1 0 (some (.node 2)) false).run.run w =
        (.ok (), w.noted (rt.warningOf w 0 refusal)) := by
  intro rt w
  have hbody : plainPage.Rooted 0 2 :=
    .inside (.top rfl (List.mem_singleton_self 1) rfl) rfl (List.mem_singleton_self 2) rfl
  obtain ⟨hstays, hrefused⟩ := document_roots_stay rt w
  refine ⟨hbody, rfl, rfl, hstays _ 0 2 (fun q hq roots => ?_) hbody,
    hrefused 0 0 (.node 2) false 2 rfl rfl⟩
  rw [List.mem_singleton.mp hq]
  exact nofun

/-! ## Letting go -/

namespace Host

variable {h h' h'' : Host} {n : NodeId}

/-- Between the two, some nodes lost their children, and nothing else changed about the tree. -/
structure Pruned (h h' : Host) : Prop where
  children : ∀ i, h'.children i = h.children i ∨ h'.children i = []
  parent : ∀ i, (h'.node i).parent = (h.node i).parent
  alive : ∀ i, (h'.node i).alive = (h.node i).alive

namespace Pruned

theorem refl (h : Host) : h.Pruned h := ⟨fun _ => .inl rfl, fun _ => rfl, fun _ => rfl⟩

theorem trans (hp : h.Pruned h') (hp' : h'.Pruned h'') : h.Pruned h'' where
  children i := by
    rcases hp'.children i with hsame | hnone
    · rw [hsame]
      exact hp.children i
    · exact .inr hnone
  parent i := (hp'.parent i).trans (hp.parent i)
  alive i := (hp'.alive i).trans (hp.alive i)

/-- A node without children gets none. -/
theorem childless (hp : h.Pruned h') (hnone : h.children n = []) : h'.children n = [] := by
  rcases hp.children n with hsame | hnone'
  · rw [hsame, hnone]
  · exact hnone'

theorem wellFormed (hp : h.Pruned h') (hwf : h.WellFormed) : h'.WellFormed where
  once q := by
    rcases hp.children q with hsame | hnone
    · rw [hsame]
      exact hwf.once q
    · rw [hnone]
      exact List.nodup_nil
  parent q i hi := by
    rcases hp.children q with hsame | hnone
    · rw [parent?_congr (hp.parent i) hp.alive]
      exact hwf.parent q i (hsame ▸ hi)
    · rw [hnone] at hi
      cases hi

end Pruned

theorem children_setChildren_nil (h : Host) (n : NodeId) : (h.setChildren n []).children n = [] := by
  by_cases hn : n < h.nodes.size
  · rw [children, setChildren, node_update_self hn]
  · rw [children, node_of_size_le (by rw [size_setChildren]; exact Nat.le_of_not_lt hn)]

theorem pruned_setChildren_nil (h : Host) (n : NodeId) : h.Pruned (h.setChildren n []) where
  children i := by
    by_cases hi : i = n
    · rw [hi]
      exact .inr (children_setChildren_nil h n)
    · exact .inl (congrArg HostNode.children (node_update_of_ne hi))
  parent := read_setChildren HostNode.parent (fun _ _ => rfl) h n []
  alive := read_setChildren HostNode.alive (fun _ _ => rfl) h n []

/-- Letting go of nodes in a row, to a depth. -/
theorem pruned_dropNodes {depth : Nat}
    (hdrop : ∀ (h : Host) n, h.Pruned (World.dropNode h depth n)) (ns : List NodeId) (h : Host) :
    h.Pruned (ns.foldl (World.dropNode · depth ·) h) := by
  induction ns generalizing h with
  | nil => exact .refl h
  | cons n rest ih => exact (hdrop h n).trans (ih _)

theorem pruned_dropNode (depth : Nat) (h : Host) (n : NodeId) :
    h.Pruned (World.dropNode h depth n) := by
  induction depth generalizing h n with
  | zero => exact .refl h
  | succ depth ih => exact (pruned_setChildren_nil h n).trans (pruned_dropNodes ih _ _)

/-- What is let go of lists nothing. -/
theorem children_dropNode (depth : Nat) (h : Host) (n : NodeId) :
    (World.dropNode h (depth + 1) n).children n = [] :=
  (pruned_dropNodes (pruned_dropNode depth) _ _).childless (children_setChildren_nil h n)

/-- A node that lists nothing is nobody's parent, and need not be there. -/
theorem WellFormed.bury (hwf : h.WellFormed) (hnone : h.children n = []) :
    (h.update n ({ · with alive := false })).WellFormed := by
  have hchildren : ∀ q, (h.update n ({ · with alive := false })).children q = h.children q :=
    read_update fun _ => rfl
  have hparents : ∀ i, ((h.update n ({ · with alive := false })).node i).parent =
      (h.node i).parent := read_update fun _ => rfl
  refine ⟨fun q => hchildren q ▸ hwf.once q, fun q i hi => ?_⟩
  rw [hchildren] at hi
  have hne : q ≠ n := by
    rintro rfl
    rw [hnone] at hi
    cases hi
  have hparent := hwf.parent q i hi
  rw [parent?, Option.filter_eq_some_iff] at hparent ⊢
  rw [hparents, node_update_of_ne hne]
  exact hparent

/-- Letting go of nodes for good. -/
theorem WellFormed.buryAll (hwf : h.WellFormed) (ns : List NodeId) :
    (ns.foldl (fun h n => (World.dropNode h (h.nodes.size + 1) n).update n
      ({ · with alive := false })) h).WellFormed := by
  induction ns generalizing h with
  | nil => exact hwf
  | cons n rest ih =>
    exact ih (((pruned_dropNode _ h n).wellFormed hwf).bury (children_dropNode _ h n))

end Host

/-! ## Well-formed host pages -/

/-- If the host is well formed, it stays well formed. -/
def World.StaysWellFormed (w w' : World) : Prop := w.host.WellFormed → w'.host.WellFormed

instance : World.Paged World.StaysWellFormed where
  trans h h' hwf := h' (h hwf)
  same h hwf := h ▸ hwf
  loaded d h hwf := h ▸ Host.loadNodes_wellFormed none hwf d.body
  placed d _ h hwf := h ▸ Host.loadBody_replaceNode_wellFormed hwf _ d

/-- **Letting go** leaves the host well formed. -/
theorem World.release_wellFormed (roots : List Ref) (w : World) :
    w.StaysWellFormed (w.release roots) :=
  World.within_release (fun _ hwf => hwf.buryAll _) w

/-- The host that a runtime starts with is well formed, whatever the markup of the page. -/
theorem Runtime.start_wellFormed (config : Config) (page : Option String) :
    (Runtime.start config page).2.host.WellFormed := by
  have hempty : Host.WellFormed {} := by decide
  unfold Runtime.start
  generalize (Classes.newBase defaultOptions).run.run {} = base
  obtain ⟨_, forest⟩ := base
  cases page with
  | none => exact hempty
  | some html =>
    dsimp only
    exact Host.loadDocument_wellFormed hempty html

/-- **Any number of requests** leave the host well formed. -/
theorem Runtime.after_wellFormed (rt : Runtime) (qs : List Request) (hwf : w.host.WellFormed) :
    (rt.after qs w).host.WellFormed := by
  have hrequests : w.StaysWellFormed (rt.after qs w) :=
    Runtime.within_after (fun q _ => q.paged rt fun roots _ w => w.release_wellFormed roots) w
  exact hrequests hwf

end Componentry
