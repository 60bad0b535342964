import Componentry.Proofs.Engine.Placement

/-!
# Taking over what was written before

A page may come with the markup of a tree in it. An instance that is mounted there and renders to
that tree takes over the element that is there, if it is written like the tree.

- `Host.SoleInBody`: all there is in the body of a page.
- `Host.loadDocument_page`: **where the tree of a page is**.
- `World.Patched.hydrated`: a target is taken over if and only if it is written like the tree.
- `own_markup_hydrates`: the markup of a tree of ordinary elements **is taken over if and only if**
  there is no no-break space in it.
-/

namespace Componentry

open Markup

namespace Host

variable {h g : Host} {html : String} {n : Node} {t : NodeId}

/-- The node is all there is in the body of a page. -/
def SoleInBody (h : Host) (page t : NodeId) : Prop :=
  ∃ root ∈ h.children page, ∃ body ∈ h.children root,
    h.tag? body = some "body" ∧ h.children body = [t]

/-- What is known of an element. -/
theorem of_look_element {i : NodeId} {tag : TagName} {attrs : List Attribute} {ids : List NodeId}
    (hlook : h.look i = (some (.element tag attrs none []), ids)) :
    h.tag? i = some tag.name ∧ h.children i = ids := by
  obtain ⟨hkind, hchildren⟩ := Prod.mk.inj hlook
  refine ⟨?_, hchildren⟩
  rw [tag?]
  cases hk : (h.node i).kind with
  | element tag' attrs' =>
    rw [hk] at hkind
    cases hkind
    rfl
  | _ =>
    rw [hk] at hkind
    cases hkind

/-- **Where the tree of a page is**, when the page is read. -/
theorem loadDocument_page (h : Host) (hnodes : (Document.parse html).nodes = [page n])
    (hbare : n.Bare) :
    (h.loadDocument html).2.nodes.size = h.nodes.size + 4 + n.count ∧
      n.At (h.loadDocument html).2.look (h.nodes.size + 4) ∧
      ∀ t, (h.loadDocument html).2.SoleInBody (h.loadDocument html).1 t ↔ t = h.nodes.size + 4 := by
  have hpage : AllBare [page n] := by
    simp only [page, AllBare, Node.Bare]
    exact ⟨⟨trivial, ⟨trivial, trivial⟩, ⟨trivial, hbare, trivial⟩, trivial⟩, trivial⟩
  obtain ⟨hnumber, hsize, hroots, hrow⟩ := h.loadDocument_at hnodes hpage
  simp only [page, countAll, Node.count, rootsFrom, AllAt, Node.At, Nat.add_assoc, Nat.reduceAdd,
    Nat.add_zero, and_true, true_and] at hsize hroots hrow
  obtain ⟨hroot, hhead, hbody, htree⟩ := hrow
  obtain ⟨-, hroot⟩ := of_look_element hroot
  obtain ⟨hhead, -⟩ := of_look_element hhead
  obtain ⟨hbody, hsole⟩ := of_look_element hbody
  generalize h.loadDocument html = loaded at hnumber hsize hroots hroot hhead hbody hsole htree ⊢
  refine ⟨by omega, htree, fun t => ⟨?_, ?_⟩⟩
  · rintro ⟨root, hinPage, body, hinRoot, htag, ht⟩
    rw [hnumber, hroots, List.mem_singleton] at hinPage
    subst hinPage
    rw [hroot, List.mem_cons, List.mem_singleton] at hinRoot
    rcases hinRoot with rfl | rfl
    · rw [hhead] at htag
      exact absurd htag (by decide)
    · rw [hsole] at ht
      exact (List.cons.inj ht).1.symm
  · rintro rfl
    refine ⟨h.nodes.size + 1, ?_, h.nodes.size + 3, ?_, hbody, hsole⟩
    · rw [hnumber, hroots]
      exact List.mem_singleton_self _
    · rw [hroot]
      exact List.mem_cons_of_mem _ (List.mem_singleton_self _)

/-- An ordinary element is no document root. -/
theorem not_isDocumentRoot {tree : VNode} {names : List String}
    (hordinary : VNode.isOrdinary names tree = true) (helement : VNode.isText tree = false)
    (hat : tree.node.At h.look t) : h.isDocumentRoot t = false := by
  cases tree with
  | element tag attrs children isStatic =>
    simp only [VNode.isOrdinary, Bool.and_eq_true] at hordinary
    have hpeculiar := (nestable_iff.mp hordinary.1.1.1.1.2).1
    have hhtml : tag ≠ "html" := ne_of_contains_eq_false (by decide) hpeculiar
    have hbody : tag ≠ "body" := ne_of_contains_eq_false (by decide) hpeculiar
    rw [VNode.node, Node.At] at hat
    rw [isDocumentRoot, (of_look_element hat.2.1).1, Bool.or_eq_false_iff]
    exact ⟨beq_false_of_ne fun h => hhtml (Option.some.inj h),
      beq_false_of_ne fun h => hbody (Option.some.inj h)⟩
  | text s => cases helement
  | comment s => cases hordinary
  | component => cases hordinary

end Host

/-- **A target is taken over** if and only if it is written like the tree. Then the page stays as it
is, and putting the tree into it changes nothing at all. -/
theorem World.Patched.hydrated {rt : Runtime} {vm : InstanceId} {w w' : World} {t : NodeId}
    {tree : VNode} (h : w.Patched rt vm (some t) tree true w') (hlt : t < w.host.nodes.size) :
    ((w'.instances.getD vm default).el = some t ↔ w.host.outerHtml t = tree.toHtml) ∧
      (w.host.outerHtml t = tree.toHtml → w'.host = w.host ∧
        ∃ w₁, World.Spared (fun _ => True) w w₁ ∧
          (Eng.patch rt vm (some t) tree true).run.run w₁ = (.ok (some t), w₁)) := by
  obtain ⟨-, w₁, w₂, hspared, hrun, hhost⟩ := h
  rw [← hspared.host] at hlt ⊢
  by_cases hagrees : w₁.host.outerHtml t = tree.toHtml
  · have hsame := Eng.run_patch_of_agrees rt vm hagrees
    obtain ⟨hel, rfl⟩ := Prod.mk.inj (hrun.symm.trans hsame)
    exact ⟨iff_of_true (Except.ok.inj hel) hagrees, fun _ => ⟨hhost, _, hspared, hsame⟩⟩
  · refine ⟨iff_of_false (fun hel => ?_) hagrees, fun h => absurd h hagrees⟩
    have hgives := Eng.gives_patch rt vm true fun _ => hagrees
    rw [Eng.Gives, Eng.Ends, hrun] at hgives
    obtain ⟨nodes, hnodes, hfirst, -⟩ := hgives _ rfl
    -- what stands for the instance is new
    rw [hel] at hfirst
    have hfresh := (Host.loadNodes_extends none w₁.host (Document.parse tree.toHtml).body).2 t
      (hnodes ▸ List.mem_of_mem_head? hfirst.symm)
    exact Nat.not_lt_of_le hfresh hlt

/-- **Own markup is taken over.** A page is read from the markup of a tree of ordinary elements.
Then the body has one element in it. A root instance that is mounted on it with hydration, and
renders to the tree, takes it over if and only if there is no no-break space in the tree. Then the
page stays as it is, and putting the tree into it changes nothing at all: in particular there is no
warning. -/
theorem own_markup_hydrates (rt : Runtime) (hpatch : rt.mounter = .patch) {tree : VNode}
    (hordinary : VNode.isOrdinary ["body", "html"] tree = true) (hplain : VNode.isPlain tree = true)
    (helement : VNode.isText tree = false) (hmark : isUnmarked tree.toHtml = true) (h : Host) :
    (∃ t, (h.loadDocument tree.toHtml).2.SoleInBody (h.loadDocument tree.toHtml).1 t) ∧
    ∀ t, (h.loadDocument tree.toHtml).2.SoleInBody (h.loadDocument tree.toHtml).1 t →
      ∀ {w w' : World} {vm : InstanceId} {target : Option MountTarget},
        h.Untouched (h.loadDocument tree.toHtml).2 w.host → vm < w.instances.size →
        (w.instances.getD vm default).parentVNode = none →
        target.bind (rt.targetOf w.host) = some t → (w.optionsOf vm).stopped = false →
        (rt.mount vm target true).run.run w = (.ok (), w') →
        (w'.instances.getD vm default).vnode = some tree →
          ((w'.instances.getD vm default).el = some t ↔ tree.noBreaks = 0) ∧
          (tree.noBreaks = 0 → w'.host = w.host ∧ ∃ w₁, World.Spared (fun _ => True) w w₁ ∧
            (Eng.patch rt vm (some t) tree true).run.run w₁ = (.ok (some t), w₁)) := by
  have hparse := congrArg Document.nodes
    (Document.parse_toHtml hordinary hplain helement hmark)
  obtain ⟨hsize, hat, hsole⟩ := h.loadDocument_page hparse tree.bare_node
  refine ⟨⟨_, (hsole _).mpr rfl⟩, fun t ht => ?_⟩
  obtain rfl := (hsole t).mp ht
  intro w w' vm target huntouched hlt hroot htarget hstopped hmount hvnode
  have hend : h.nodes.size + 4 + tree.node.count ≤ w.host.nodes.size := hsize ▸ huntouched.size
  have hthere := huntouched.at hat (Nat.le_add_right _ _) (Nat.le_of_eq hsize.symm)
  have hwritten := Host.outerHtml_eq hthere (Nat.le_trans (Nat.le_add_left _ _) hend)
  have hopen : (rt.refuses w.host target || (w.optionsOf vm).stopped) = false := by
    rw [Runtime.refuses, htarget, hstopped, Option.map_some,
      Host.not_isDocumentRoot hordinary helement hthere]
    rfl
  obtain ⟨tree', hpatched⟩ := Runtime.patched hpatch hlt hroot hopen hmount
  obtain rfl := Option.some.inj (hpatched.vnode.symm.trans hvnode)
  rw [htarget] at hpatched
  obtain ⟨hiff, hkeeps⟩ := hpatched.hydrated
    (Nat.lt_of_lt_of_le (Nat.lt_add_of_pos_right tree'.node.count_pos) hend)
  rw [hwritten, VNode.write_node_iff hordinary] at hiff hkeeps
  exact ⟨hiff, hkeeps⟩

/-- A page that was read from markup. -/
def servedPage (html : String) : Host := (Host.loadDocument {} html).2

theorem own_markup_hydrates_servedPage :
    let html := "<div class=\"a&amp;b\">1 &lt; 2<b>3</b></div>"
    let w := rootOn (servedPage html) (.element "div" [("class", .literal (.str "a&b"))]
      [.text (.literal (.str "1 < 2")), .element "b" [] [.text (.literal (.str "3"))]])
    ∃ w' tree, (servedPage html).SoleInBody 0 4 ∧
      (pageRuntime.mount 0 (some (.node 4)) true).run.run w = (.ok (), w') ∧
      (w'.instances.getD 0 default).vnode = some tree ∧ tree.toHtml = html ∧
      (w'.instances.getD 0 default).el = some 4 ∧ w'.host = w.host := by
  intro html w
  obtain ⟨w', hmount, hw'⟩ := Eng.run_eq_done (w := w)
    (m := pageRuntime.mount 0 (some (.node 4)) true) (by decide +kernel)
  have hordinary : (w'.instances.getD 0 default).vnode.any fun tree =>
      VNode.isOrdinary ["body", "html"] tree && VNode.isPlain tree && !VNode.isText tree &&
        Markup.isUnmarked tree.toHtml && tree.noBreaks == 0 && tree.toHtml == html := by
    rw [hw']
    decide +kernel
  obtain ⟨tree, hvnode⟩ : ∃ tree, (w'.instances.getD 0 default).vnode = some tree := by
    refine Option.isSome_iff_exists.mp ?_
    rw [hw']
    decide +kernel
  rw [hvnode] at hordinary
  simp only [Option.any_some, Bool.and_eq_true, Bool.not_eq_true', beq_iff_eq] at hordinary
  obtain ⟨⟨⟨⟨⟨htree, hplain⟩, htext⟩, hmark⟩, hnone⟩, hhtml⟩ := hordinary
  have hsole : (servedPage html).SoleInBody 0 4 :=
    ⟨1, by decide +kernel, 3, by decide +kernel, by decide +kernel, by decide +kernel⟩
  obtain ⟨-, hall⟩ := own_markup_hydrates pageRuntime rfl htree hplain htext hmark {}
  rw [hhtml, Host.loadDocument_fst] at hall
  have huntouched : Host.Untouched {} (servedPage html) w.host := by
    rw [rootOn_host]
    exact .refl _ _
  have htarget : (some (MountTarget.node 4)).bind (pageRuntime.targetOf w.host) = some 4 := rfl
  obtain ⟨hiff, hkeeps⟩ := hall 4 hsole huntouched (by decide +kernel)
    (Option.isNone_iff_eq_none.mp (by decide +kernel)) htarget (by decide +kernel) hmount hvnode
  exact ⟨w', tree, hsole, hmount, hvnode, hhtml, hiff.mpr hnone, (hkeeps hnone).1⟩

/-- A no-break space is written as a reference, so the target is replaced. -/
theorem no_break_space_not_hydrated :
    let html := "<div>a\u00A0b</div>"
    let w := rootOn (servedPage html) (.element "div" [] [.text (.literal (.str "a\u00A0b"))])
    ∃ w', (servedPage html).SoleInBody 0 4 ∧
      (pageRuntime.mount 0 (some (.node 4)) true).run.run w = (.ok (), w') ∧
      ((w'.instances.getD 0 default).vnode.any fun tree =>
        VNode.isOrdinary ["body", "html"] tree && tree.toHtml == html) = true ∧
      (w'.instances.getD 0 default).el ≠ some 4 := by
  intro html w
  obtain ⟨w', hmount, hw'⟩ := Eng.run_eq_done (w := w)
    (m := pageRuntime.mount 0 (some (.node 4)) true) (by decide +kernel)
  refine ⟨w', ⟨1, by decide +kernel, 3, by decide +kernel, by decide +kernel, by decide +kernel⟩,
    hmount, ?_⟩
  rw [hw']
  decide +kernel

end Componentry
