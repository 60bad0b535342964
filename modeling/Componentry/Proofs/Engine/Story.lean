import Componentry.Proofs.Engine.Family
import Componentry.Proofs.Engine.InitOrder

/-!
# Stories

What happens to a family in a mount can be told from the options of its members: each is
initialized, and then rendered with those below it.

- `Family.story`: what happens to all members of a family.
- `Family.filter_story_beforeMount`: **which handlers** of a hook run, and in which order.
- `Family.rootStory`: what happens when a root is mounted, with the host page and the mounted hooks.
-/

namespace Componentry

/-! ## The story of a family -/

/-- What happens to an instance when it is rendered in a mount, and below it. -/
def InstanceOptions.visitSteps (o : InstanceOptions) (vm : InstanceId) (tree : VNode)
    (below : List Happening) : List Happening :=
  o.calls vm .beforeMount ++ .rendered vm tree :: below

/-- Whether a handler of a hook begins to run. -/
def Happening.isCall (h : Hook) : Happening → Bool
  | .ran _ (.hook h' _) => h' == h
  | _ => false

/-- Whether a handler of a hook begins to run for an instance. -/
def Happening.isCallOf (c : InstanceId) (h : Hook) (s : Happening) : Bool :=
  s.subject == c && s.isCall h

namespace Family

variable (o : InstanceId → InstanceOptions)

/-- What happens to a family whose instances have the given options: each is initialized and then
rendered, the children right after their parent. -/
def story : Family → List Happening :=
  fold fun vm visits => .entered vm .identified :: ((o vm).initSteps vm ++
    visits.flatMap fun v => (o vm).visitSteps vm v.1 v.2.flatten)

theorem story_node (vm : InstanceId) (visits : List (VNode × List Family)) :
    (node vm visits).story o = .entered vm .identified :: ((o vm).initSteps vm ++
      visits.flatMap fun v => (o vm).visitSteps vm v.1 (v.2.flatMap (story o))) := by
  rw [story, fold_node, List.flatMap_map]
  rfl

/-! ## Which handlers run -/

variable {o} {f : Family} {h : Hook}

theorem filter_calls (vm : InstanceId) (h h' : Hook) :
    ((o vm).calls vm h').filter (Happening.isCall h) =
      if h' = h then (o vm).calls vm h else [] := by
  split
  · next heq =>
    subst heq
    exact List.filter_eq_self.mpr fun s hs => by
      obtain ⟨_, -, rfl⟩ := List.mem_map.mp hs
      exact beq_self_eq_true _
  · next hne =>
    exact List.filter_eq_nil_iff.mpr fun s hs => by
      obtain ⟨_, -, rfl⟩ := List.mem_map.mp hs
      exact fun heq => hne (beq_iff_eq.mp heq)

/-- Initialization runs the handlers of two hooks. -/
theorem filter_initSteps (vm : InstanceId) :
    ((o vm).initSteps vm).filter (Happening.isCall h) =
      if h = .beforeCreate ∨ h = .created then (o vm).calls vm h else [] := by
  have hdata : ((o vm).evaluates vm (·.data) .data).filter (Happening.isCall h) = [] := by
    rw [InstanceOptions.evaluates]
    split <;> rfl
  have hprovide : ((o vm).evaluates vm (·.provide) .provide).filter (Happening.isCall h) = [] := by
    rw [InstanceOptions.evaluates]
    split <;> rfl
  simp only [InstanceOptions.initSteps, placeSteps, InstanceOptions.ownSteps,
    InstanceOptions.stateSteps, List.filter_append, List.filter_cons, Happening.isCall,
    Bool.false_eq_true, if_false, List.filter_nil, hdata, hprovide, filter_calls, List.nil_append,
    List.append_nil]
  cases h <;> simp

/-- The handlers of a hook in a visit. -/
theorem filter_visitSteps (vm : InstanceId) (tree : VNode) (below : List Happening) :
    ((o vm).visitSteps vm tree below).filter (Happening.isCall h) =
      (if h = .beforeMount then (o vm).calls vm h else []) ++
        below.filter (Happening.isCall h) := by
  rw [InstanceOptions.visitSteps, List.filter_append, filter_calls, List.filter_cons_of_neg]
  · simp only [eq_comm]
  · exact Bool.false_ne_true

/-- The handlers of a hook in the story of a family: those of the instance, then those below it. -/
theorem filter_story_node (vm : InstanceId) (visits : List (VNode × List Family)) :
    ((node vm visits).story o).filter (Happening.isCall h) =
      (if h = .beforeCreate ∨ h = .created then (o vm).calls vm h else []) ++
        visits.flatMap fun v => (if h = .beforeMount then (o vm).calls vm h else []) ++
          v.2.flatMap fun k => (k.story o).filter (Happening.isCall h) := by
  rw [story_node, List.filter_cons_of_neg Bool.false_ne_true, List.filter_append,
    filter_initSteps, List.filter_flatMap]
  simp only [filter_visitSteps, List.filter_flatMap]

/-- **The handlers of the early hooks** run once for each instance, parents first. -/
theorem filter_story_early (hh : h = .beforeCreate ∨ h = .created) (f : Family) :
    (f.story o).filter (Happening.isCall h) = f.preorder.flatMap fun c => (o c).calls c h := by
  have hne : h ≠ .beforeMount := by rcases hh with rfl | rfl <;> nofun
  induction f using induct with
  | h vm visits ih =>
    rw [filter_story_node, preorder_node, if_pos hh, List.flatMap_cons, List.flatMap_assoc]
    refine congrArg _ (List.flatMap_congr fun v hv => ?_)
    rw [if_neg hne, List.nil_append, List.flatMap_assoc]
    exact List.flatMap_congr fun k hk => ih v hv k hk

/-- **The handlers of `beforeMount`** run each time that an instance is rendered, parents first. -/
theorem filter_story_beforeMount (f : Family) :
    (f.story o).filter (Happening.isCall .beforeMount) =
      f.openings.flatMap fun c => (o c).calls c .beforeMount := by
  induction f using induct with
  | h vm visits ih =>
    rw [filter_story_node, openings_node, if_neg (by nofun), List.nil_append, List.flatMap_assoc]
    refine List.flatMap_congr fun v hv => ?_
    rw [if_pos rfl, List.flatMap_cons, List.flatMap_assoc]
    exact congrArg _ (List.flatMap_congr fun k hk => ih v hv k hk)

/-- No other handlers run. -/
theorem filter_story_late (hh : h ≠ .beforeCreate ∧ h ≠ .created ∧ h ≠ .beforeMount) (f : Family) :
    (f.story o).filter (Happening.isCall h) = [] := by
  induction f using induct with
  | h vm visits ih =>
    rw [filter_story_node, if_neg (not_or.mpr ⟨hh.1, hh.2.1⟩), List.nil_append,
      List.flatMap_eq_nil_iff]
    intro v hv
    rw [if_neg hh.2.2, List.nil_append, List.flatMap_eq_nil_iff]
    exact fun k hk => ih v hv k hk

/-- If the handlers of a hook run for some instances in turn, they run for each as often as it is
among those. -/
theorem filter_isCallOf {new : List Happening} {ids : List InstanceId}
    (hnew : new.filter (Happening.isCall h) = ids.flatMap fun b => (o b).calls b h)
    (c : InstanceId) : new.filter (Happening.isCallOf c h) =
      (List.replicate (ids.count c) ((o c).calls c h)).flatten := by
  have hsplit : new.filter (Happening.isCallOf c h) =
      (new.filter (Happening.isCall h)).filter (·.subject == c) := by
    rw [List.filter_filter]
    rfl
  have hone : ∀ b, ((o b).calls b h).filter (·.subject == c) =
      if b = c then (o c).calls c h else [] := by
    intro b
    have hsubject : ∀ s ∈ (o b).calls b h, s.subject = b := fun s hs => by
      obtain ⟨_, -, rfl⟩ := List.mem_map.mp hs
      rfl
    split
    · next heq =>
      subst heq
      exact List.filter_eq_self.mpr fun s hs => beq_iff_eq.mpr (hsubject s hs)
    · next hne =>
      exact List.filter_eq_nil_iff.mpr fun s hs heq =>
        hne ((hsubject s hs).symm.trans (beq_iff_eq.mp heq))
  rw [hsplit, hnew, List.filter_flatMap]
  clear hsplit hnew
  induction ids with
  | nil => rfl
  | cons b rest ih =>
    rw [List.flatMap_cons, hone, ih, List.count_cons]
    by_cases hb : b = c
    · rw [if_pos hb, if_pos (beq_iff_eq.mpr hb), List.replicate_succ, List.flatten_cons]
    · rw [if_neg hb, if_neg (mt beq_iff_eq.mp hb), List.nil_append, Nat.add_zero]

/-! ## Children after their parents -/

/-- Of an instance and each child: the handlers of `beforeMount` of the one, then all that happens
to the other. -/
theorem story_after_parent (f : Family) : f.All fun p visits => ∀ v ∈ visits, ∀ k ∈ v.2,
    ((o p).calls p .beforeMount ++ k.story o).Sublist (f.story o) := by
  induction f using induct with
  | h vm visits ih =>
    have hvisit : ∀ v ∈ visits, ∀ k ∈ v.2,
        ((o vm).calls vm .beforeMount ++ k.story o).Sublist ((node vm visits).story o) := by
      intro v hv k hk
      have hbelow : (k.story o).Sublist (v.2.flatMap (story o)) := sublist_flatMap _ hk
      have hhere : ((o vm).calls vm .beforeMount ++ k.story o).Sublist
          ((o vm).visitSteps vm v.1 (v.2.flatMap (story o))) :=
        (List.Sublist.refl _).append (hbelow.cons _)
      have hall := hhere.trans (sublist_flatMap
        (fun v => (o vm).visitSteps vm v.1 (v.2.flatMap (story o))) hv)
      rw [story_node]
      exact (hall.trans (List.sublist_append_right _ _)).cons _
    refine .node hvisit fun v hv k hk => ?_
    refine (ih v hv k hk).imp fun p visits' hp v' hv' k' hk' => (hp v' hv' k' hk').trans ?_
    exact (List.sublist_append_right _ _).trans (hvisit v hv k hk)

/-- An instance runs its early handlers before those of `beforeMount`. -/
theorem calls_sublist_story {k : Family} (hk : k.Once) :
    ((o k.vm).calls k.vm .beforeCreate ++ (o k.vm).calls k.vm .created ++
      (o k.vm).calls k.vm .beforeMount).Sublist (k.story o) := by
  obtain ⟨vm, visits⟩ := k
  obtain ⟨⟨tree, kids, rfl⟩, -⟩ := hk
  have hinit : ((o vm).calls vm .beforeCreate ++ (o vm).calls vm .created).Sublist
      ((o vm).initSteps vm) := by
    have hcreated : ((o vm).calls vm .created).Sublist ((o vm).stateSteps vm) :=
      (((List.sublist_append_left _ _).cons _).trans (List.sublist_append_right _ _)).cons _
        |>.trans (List.sublist_append_right _ _)
    exact ((List.Sublist.refl _).append ((hcreated.cons _).cons _)).trans
      (List.sublist_append_right _ _)
  rw [story_node, List.flatMap_singleton]
  exact (hinit.append (List.sublist_append_left _ _)).cons _

/-! ## The story of a mount -/

/-- What happens when a root is mounted: it is rendered with everything below it, the tree is put
into the host page, and then the handlers of `mounted` run for all that wait. -/
def rootStory (o : InstanceId → InstanceOptions) (vm : InstanceId) (tree : VNode)
    (kids : List Family) : List Happening :=
  (o vm).visitSteps vm tree (kids.flatMap (story o)) ++
    .patched vm :: (node vm [(tree, kids)]).waiting.flatMap fun c => (o c).calls c .mounted

variable {vm : InstanceId} {tree : VNode} {kids : List Family}

/-- The handlers of a hook in the story of a mount. -/
theorem filter_rootStory (h : Hook) :
    (rootStory o vm tree kids).filter (Happening.isCall h) =
      (if h = .beforeMount then (o vm).calls vm h else []) ++
        (kids.flatMap fun k => (k.story o).filter (Happening.isCall h)) ++
        if h = .mounted then (node vm [(tree, kids)]).waiting.flatMap fun c => (o c).calls c h
        else [] := by
  rw [rootStory, List.filter_append, filter_visitSteps, List.filter_flatMap,
    List.filter_cons_of_neg Bool.false_ne_true, List.filter_flatMap]
  refine congrArg _ ?_
  split
  · next hh =>
    subst hh
    exact List.flatMap_congr fun c _ => by rw [filter_calls, if_pos rfl]
  · next hh =>
    exact List.flatMap_eq_nil_iff.mpr fun c _ => by rw [filter_calls, if_neg (Ne.symm hh)]

/-- **The handlers of the early hooks** run for the children, parents first. -/
theorem filter_rootStory_early (hh : h = .beforeCreate ∨ h = .created) :
    (rootStory o vm tree kids).filter (Happening.isCall h) =
      (kids.flatMap preorder).flatMap fun c => (o c).calls c h := by
  have hmount : h ≠ .beforeMount ∧ h ≠ .mounted := by
    rcases hh with rfl | rfl <;> exact ⟨nofun, nofun⟩
  rw [filter_rootStory, if_neg hmount.1, if_neg hmount.2, List.nil_append, List.append_nil,
    List.flatMap_assoc]
  exact List.flatMap_congr fun k _ => filter_story_early hh k

/-- **The handlers of `beforeMount`** run each time that an instance is rendered, the root first. -/
theorem filter_rootStory_beforeMount :
    (rootStory o vm tree kids).filter (Happening.isCall .beforeMount) =
      (node vm [(tree, kids)]).openings.flatMap fun c => (o c).calls c .beforeMount := by
  rw [filter_rootStory, if_pos rfl, if_neg nofun, List.append_nil, openings_node,
    List.flatMap_singleton, List.flatMap_cons, List.flatMap_assoc]
  exact congrArg _ (List.flatMap_congr fun k _ => filter_story_beforeMount k)

/-- None of the children runs a handler of `mounted` while it is made and rendered. -/
theorem filter_stories_mounted (kids : List Family) :
    (kids.flatMap fun k => (k.story o).filter (Happening.isCall .mounted)) = [] :=
  List.flatMap_eq_nil_iff.mpr fun k _ => filter_story_late (h := .mounted) ⟨nofun, nofun, nofun⟩ k

/-- **The handlers of `mounted`** run for those that wait, the root last. -/
theorem filter_rootStory_mounted :
    (rootStory o vm tree kids).filter (Happening.isCall .mounted) =
      (node vm [(tree, kids)]).waiting.flatMap fun c => (o c).calls c .mounted := by
  rw [filter_rootStory, if_neg nofun, if_pos rfl, List.nil_append, filter_stories_mounted,
    List.nil_append]

/-- **No handler of `mounted` before the page**: they run after the tree was put there, and those
of `beforeMount` run before. -/
theorem rootStory_patched : ∃ before after,
    rootStory o vm tree kids = before ++ .patched vm :: after ∧
      (∀ s ∈ before, s.isCall .mounted = false) ∧ ∀ s ∈ after, s.isCall .mounted = true := by
  refine ⟨_, _, rfl, fun s hs => ?_, fun s hs => ?_⟩
  · have hnone : ((o vm).visitSteps vm tree (kids.flatMap (story o))).filter
        (Happening.isCall .mounted) = [] := by
      rw [filter_visitSteps, if_neg nofun, List.nil_append, List.filter_flatMap,
        filter_stories_mounted]
    exact Bool.not_eq_true _ ▸ List.filter_eq_nil_iff.mp hnone s hs
  · obtain ⟨c, -, hc⟩ := List.mem_flatMap.mp hs
    obtain ⟨_, -, rfl⟩ := List.mem_map.mp hc
    rfl

/-- Of an instance and each child: the handlers of `beforeMount` of the one, then all that happens
to the other until it is rendered. -/
theorem rootStory_after_parent (hkids : ∀ k ∈ kids, k.Once) :
    (node vm [(tree, kids)]).All fun p visits => ∀ v ∈ visits, ∀ k ∈ v.2,
      ((o p).calls p .beforeMount ++ ((o k.vm).calls k.vm .beforeCreate ++
        (o k.vm).calls k.vm .created ++ (o k.vm).calls k.vm .beforeMount)).Sublist
        (rootStory o vm tree kids) := by
  have hstory : ∀ k ∈ kids, ((o vm).calls vm .beforeMount ++ k.story o).Sublist
      (rootStory o vm tree kids) := by
    intro k hk
    have hbelow : (k.story o).Sublist (kids.flatMap (story o)) := sublist_flatMap _ hk
    exact ((List.Sublist.refl _).append (hbelow.cons _)).trans (List.sublist_append_left _ _)
  refine .node (fun v hv k hk => ?_) fun v hv k hk => ?_
  · rw [List.mem_singleton.mp hv] at hk
    exact ((List.Sublist.refl _).append (calls_sublist_story (hkids k hk))).trans (hstory k hk)
  · rw [List.mem_singleton.mp hv] at hk
    refine ((story_after_parent (o := o) k).and (hkids k hk).ofKids).imp ?_
    rintro p visits ⟨hafter, honce⟩ v' hv' k' hk'
    refine (((List.Sublist.refl _).append (calls_sublist_story (honce v' hv' k' hk'))).trans
      (hafter v' hv' k' hk')).trans ?_
    exact (List.sublist_append_right _ _).trans (hstory k hk)

end Family

end Componentry
