import Componentry.Proofs.Markup.Feeding
import Componentry.Proofs.Markup.Ordinary

/-!
# Reading what was written

The markup of ordinary trees is read token by token. The trees come to stand at the end of the
current element, and the elements that were open stay open. This is shown by induction on the trees,
since an element takes its content in before its end tag closes it.

- `Builder.Continues`: reading goes on from another state, with less of the text.
- `Builder.Takes`: **trees were taken in** at the end of the current element.
- `Builder.takes_node`, `Builder.takes_nodes`: the trees that were written.
-/

namespace Componentry.Markup

namespace Builder

variable {b b' b'' : Builder} {src src' src'' : Source} {names : List String} {ns ms : List Node}
  {rest later : List Char} {t : Token}

/-! ## Going on -/

/-- **Reading goes on** from another state, with less of the text. -/
def Continues (b : Builder) (src : Source) (b' : Builder) (src' : Source) : Prop :=
  ∀ n, src.text.length ≤ n →
    ∃ m, src'.text.length ≤ m ∧ Builder.read n b src = Builder.read m b' src'

theorem Continues.refl (b : Builder) (src : Source) : Continues b src b src :=
  fun n hn => ⟨n, hn, rfl⟩

theorem Continues.trans (h : Continues b src b' src') (h' : Continues b' src' b'' src'') :
    Continues b src b'' src'' := by
  intro n hn
  obtain ⟨m, hm, hread⟩ := h n hn
  obtain ⟨k, hk, hread'⟩ := h' m hm
  exact ⟨k, hk, hread.trans hread'⟩

/-- One token goes into the state. -/
theorem read_token {n : Nat} (hmodel : b.model = .markup)
    (hforeign : (!b.openElements.isEmpty && b.currentTag.vocabulary != .html) = false)
    (hscript : b.endsScript t = false) (hnext : Token.next .markup false src = ([t], src'))
    (ht : ∀ rest, [t] ≠ .eof :: rest) :
    Builder.read (n + 1) b src = Builder.read n (b.feed t) src' := by
  rw [Builder.read, hmodel, hforeign, hnext]
  cases t with
  | eof => exact absurd rfl (ht [])
  | _ =>
    simp only [List.any_cons, List.any_nil, hscript]
    rfl

/-- No element of a foreign vocabulary is open. -/
theorem Inside.not_foreign (h : b.Inside names) :
    (!b.openElements.isEmpty && b.currentTag.vocabulary != .html) = false := by
  obtain ⟨name, outer, -, htag⟩ := h.exists_current
  rw [currentTag, tag_of_tag? htag]
  exact Bool.and_false _

theorem Continues.token (h : b.Inside names) (hnext : Token.next .markup false src = ([t], src'))
    (ht : ∀ rest, [t] ≠ .eof :: rest) (hless : src'.text.length < src.text.length) :
    Continues b src (b.feed t) src' := by
  intro n hn
  obtain ⟨n, rfl⟩ : ∃ k, n = k + 1 := ⟨n - 1, by omega⟩
  have hscript : b.endsScript t = false := by
    cases t with
    | endTag name =>
      rw [endsScript, h.mode]
      rfl
    | _ => rfl
  exact ⟨n, by omega, read_token h.model h.not_foreign hscript hnext ht⟩

/-- **Trees were taken in** at the end of the current element, and the text behind them is still to
be read. -/
structure Takes (b : Builder) (src : Source) (b' : Builder) (src' : Source) (names : List String)
    (ns : List Node) (rest : List Char) : Prop where
  continues : Continues b src b' src'
  inside : b'.Inside names
  openElements : b'.openElements = b.openElements
  grown : Draft.Grown b.draft b'.draft b.current ns
  misplaced : b'.misplaced = b.misplaced
  text : src'.text = rest
  alone : src'.alone = false

theorem Takes.current_eq (h : Takes b src b' src' names ns rest) : b'.current = b.current := by
  rw [current, current, h.openElements]

theorem Takes.append (hb : b.Inside names) (h : Takes b src b' src' names ns rest)
    (h' : Takes b' src' b'' src'' names ms later) :
    Takes b src b'' src'' names (ns ++ ms) later where
  continues := h.continues.trans h'.continues
  inside := h'.inside
  openElements := h'.openElements.trans h.openElements
  grown := h.grown.append (h.current_eq ▸ h'.grown) hb.current_lt
  misplaced := h'.misplaced.trans h.misplaced
  text := h'.text
  alone := h'.alone

/-! ## Texts -/

theorem length_writtenText (run later rest : List Char) :
    run.length + (writtenText later rest).length ≤ (writtenText (run ++ later) rest).length := by
  induction run with
  | nil => simp
  | cons c run ih =>
    have hpos : 0 < (VNode.escapeTextChar c).length := by
      rcases escapeTextChar_cases c with ⟨e, -, -, hesc⟩ | ⟨-, -, hesc⟩
      · rw [hesc]
        exact Nat.succ_pos _
      · rw [hesc]
        exact Nat.one_pos
    rw [List.cons_append, writtenText_cons, List.length_append, List.length_cons]
    omega

/-- A run of a text that was written. -/
theorem exists_run {cs : List Char} (h : b.Inside names) (hcs : cs ≠ [])
    (hkept : ∀ c ∈ cs, isKept c = true) (hsrc : src.text = writtenText cs rest)
    (halone : src.alone = false) (hskip : b.skipNewline = true → cs.head? ≠ some '\n') :
    ∃ run later b' src', cs = run ++ later ∧ run ≠ [] ∧ Continues b src b' src' ∧
      b'.Inside names ∧ b'.draft = b.draft.appendText b.current (String.ofList run) ∧
      b'.openElements = b.openElements ∧ b'.misplaced = b.misplaced ∧ b'.skipNewline = false ∧
      src'.text = writtenText later rest ∧ src'.alone = false := by
  obtain ⟨run, later, src', rfl, hrun, hnext, htext, halone⟩ := next_text hcs hkept hsrc halone
  have hskip : b.skipNewline = true → run.head? ≠ some '\n' := fun hs heq => by
    refine hskip hs ?_
    rw [List.head?_append, heq]
    rfl
  obtain ⟨b', hfeed, hinside, hdraft, hopen, hmisplaced, hflag⟩ := h.feed_text hrun hskip
  have hcontinues := Continues.token h hnext nofun (by
    have hlength := length_writtenText run later rest
    have hpos := List.length_pos_iff.mpr hrun
    rw [hsrc, htext]
    omega)
  rw [hfeed] at hcontinues
  exact ⟨run, later, b', src', rfl, hrun, hcontinues, hinside, hdraft, hopen, hmisplaced, hflag,
    htext, halone⟩

/-- The rest of a text, whose first runs are in the current element. -/
theorem takes_more {d : Draft} {s : String} {cs : List Char} (h : b.Inside names)
    (hp : b.current < d.size) (hgrown : Draft.Grown d b.draft b.current [.text s])
    (hkept : ∀ c ∈ cs, isKept c = true) (hsrc : src.text = writtenText cs rest)
    (halone : src.alone = false) (hskip : b.skipNewline = false) :
    ∃ b' src', Continues b src b' src' ∧ b'.Inside names ∧ b'.openElements = b.openElements ∧
      Draft.Grown d b'.draft b.current [.text (s ++ String.ofList cs)] ∧
      b'.misplaced = b.misplaced ∧ b'.skipNewline = false ∧ src'.text = '<' :: rest ∧
      src'.alone = false := by
  induction hlen : cs.length using Nat.strong_induction_on generalizing b src s cs with
  | _ len ih =>
    by_cases hcs : cs = []
    · subst hcs
      refine ⟨b, src, .refl b src, h, rfl, ?_, rfl, hskip, hsrc, halone⟩
      rw [String.ofList_nil, String.append_empty]
      exact hgrown
    · obtain ⟨run, later, b₁, src₁, rfl, hrun, hcontinues, hinside, hdraft, hopen, hmisplaced,
        hskip, htext, halone⟩ := exists_run h hcs hkept hsrc halone fun hs => by
          rw [hskip] at hs
          cases hs
      have hcurrent : b₁.current = b.current := by rw [current, current, hopen]
      have hmore := hgrown.more hp (String.ofList run)
      rw [← hdraft, ← hcurrent] at hmore
      have hless : later.length < len := by
        have hpos := List.length_pos_iff.mpr hrun
        rw [← hlen, List.length_append]
        omega
      obtain ⟨b', src', hgo, hin, hopen', hall, hmis, hflag, htext', halone'⟩ :=
        ih later.length hless hinside (hcurrent ▸ hp) hmore
          (fun c hc => hkept c (List.mem_append_right run hc)) htext halone hskip rfl
      refine ⟨b', src', hcontinues.trans hgo, hin, hopen'.trans hopen, ?_, hmis.trans hmisplaced,
        hflag, htext', halone'⟩
      rw [String.ofList_append, ← String.append_assoc, ← hcurrent]
      exact hall

/-- **A text** that was written. -/
theorem takes_text {cs : List Char} (h : b.Inside names) (hcs : cs ≠ [])
    (hend : b.draft.endsInText b.current = false) (hkept : ∀ c ∈ cs, isKept c = true)
    (hsrc : src.text = writtenText cs rest) (halone : src.alone = false)
    (hskip : b.skipNewline = true → cs.head? ≠ some '\n') :
    ∃ b' src', Takes b src b' src' names [.text (String.ofList cs)] ('<' :: rest) ∧
      b'.skipNewline = false := by
  obtain ⟨run, later, b₁, src₁, rfl, hrun, hcontinues, hinside, hdraft, hopen, hmisplaced,
    hskip, htext, halone⟩ := exists_run h hcs hkept hsrc halone hskip
  have hcurrent : b₁.current = b.current := by rw [current, current, hopen]
  have hfirst := Draft.Grown.text h.current_lt (String.ofList run)
  rw [← Draft.appendText_of_not hend, ← hdraft, ← hcurrent] at hfirst
  obtain ⟨b', src', hgo, hin, hopen', hall, hmis, hflag, htext', halone'⟩ :=
    takes_more hinside (hcurrent ▸ h.current_lt) hfirst
      (fun c hc => hkept c (List.mem_append_right run hc)) htext halone hskip
  rw [hcurrent, ← String.ofList_append] at hall
  exact ⟨b', src', ⟨hcontinues.trans hgo, hin, hopen'.trans hopen, hall, hmis.trans hmisplaced,
    htext', halone'⟩, hflag⟩

/-! ## Elements -/

/-- **An element**, when what is in it is taken in. Its tags may be written in any way. -/
theorem takes_element {name : String} {attrs : List (String × String)} {closes : Bool}
    {start inner stop : List Char} {n : Node} (h : b.Inside names)
    (hnestable : nestable names name = true) (hstart : ReadsAs start (.startTag name attrs closes))
    (hstop : ReadsAs stop (.endTag name)) (hpos : start ≠ [] ∧ stop ≠ [])
    (hsrc : src.text = start ++ (inner ++ (stop ++ rest)))
    (hn : n = .element ⟨.html, name⟩ (plainAttrs attrs) none ns)
    (hinner : ∀ {b₁ : Builder} {src₁ : Source}, b₁.Inside (name :: names) →
      b₁.draft.endsInText b₁.current = false → (b₁.skipNewline = true → dropsNewline name = true) →
      src₁.text = inner ++ (stop ++ rest) → src₁.alone = false →
      ∃ b₂ src₂, Takes b₁ src₁ b₂ src₂ (name :: names) ns (stop ++ rest)) :
    ∃ b' src', Takes b src b' src' names [n] rest ∧ b'.skipNewline = false := by
  subst hn
  -- the start tag
  obtain ⟨src₁, hnext₁, htext₁, halone₁⟩ := hstart src _ hsrc
  obtain ⟨b₁, hfeed₁, hinside₁, hdraft₁, hopen₁, hmisplaced₁, hskip₁⟩ :=
    h.feed_startTag hnestable attrs closes
  have hgo₁ := Continues.token h hnext₁ (fun _ h => by cases h) (by
    rw [hsrc, htext₁, @List.length_append _ start]
    exact Nat.lt_add_of_pos_left (List.length_pos_iff.mpr hpos.1))
  have hcurrent₁ : b₁.current = b.draft.size := by rw [current, hopen₁, List.headD_cons]
  have hnew : b₁.draft.endsInText b₁.current = false := by
    rw [Draft.endsInText, hcurrent₁, hdraft₁, Draft.node_put h.current_lt, if_pos rfl]
    rfl
  -- what is in it
  obtain ⟨b₂, src₂, htakes⟩ := hinner hinside₁ hnew hskip₁ htext₁ halone₁
  -- the end tag
  obtain ⟨src₃, hnext₃, htext₃, halone₃⟩ := hstop src₂ rest htakes.text
  obtain ⟨b₃, hfeed₃, hinside₃, hdraft₃, hopen₃, hmisplaced₃, hskip₃⟩ :=
    htakes.inside.feed_endTag h.inner hnestable
  have hgo₃ := Continues.token htakes.inside hnext₃ (fun _ h => by cases h) (by
    rw [htakes.text, htext₃, @List.length_append _ stop]
    exact Nat.lt_add_of_pos_left (List.length_pos_iff.mpr hpos.2))
  have hgrown := htakes.grown
  rw [hcurrent₁, hdraft₁] at hgrown
  rw [hfeed₁] at hgo₁
  rw [hfeed₃] at hgo₃
  refine ⟨b₃, src₃, ⟨(hgo₁.trans htakes.continues).trans hgo₃, hinside₃, ?_, ?_, ?_, htext₃,
    halone₃⟩, hskip₃⟩
  · rw [hopen₃, htakes.openElements, hopen₁, List.tail_cons]
  · rw [hdraft₃]
    exact .element h.current_lt hgrown
  · rw [hmisplaced₃, htakes.misplaced, hmisplaced₁]

/-- What is written of a tree that is no text starts with a bracket. -/
theorem exists_bracket {ns : List VNode} (hordinary : VNode.areOrdinary names ns = true)
    (htext : ns.head?.any VNode.isText = false) (rest : List Char) :
    ∃ more, (VNode.listToHtml ns).toList ++ '<' :: rest = '<' :: more := by
  cases ns with
  | nil => exact ⟨rest, rfl⟩
  | cons n ns =>
    rw [VNode.areOrdinary, Bool.and_eq_true] at hordinary
    cases n with
    | element tag attrs children isStatic =>
      have htag := hordinary.1
      simp only [VNode.isOrdinary, Bool.and_eq_true] at htag
      rw [VNode.listToHtml, String.toList_append, VNode.toList_toHtml_element
        (contains_eq_false (by decide) (nestable_iff.mp htag.1.1.1.1.2).1), writtenStart]
      exact ⟨_, rfl⟩
    | text s => cases htext
    | comment s => cases hordinary.1
    | component => cases hordinary.1

/-- The attributes of a plain tree are read as they stand. -/
theorem areAttrs_of_plain {attrs : List (String × String)}
    (hnames : attrs.all (isAttrName ·.1) = true) (hdistinct : (attrs.map (·.1)).Nodup)
    (hplain : attrs.all (·.2.toList.all isKept) = true) : areAttrs attrs = true := by
  rw [areAttrs, Bool.and_eq_true, decide_eq_true_eq]
  refine ⟨List.all_eq_true.mpr fun a ha => ?_, hdistinct⟩
  rw [Bool.and_eq_true]
  exact ⟨List.all_eq_true.mp hnames a ha, List.all_eq_true.mp hplain a ha⟩

mutual

/-- **An element** that was written is taken in. -/
theorem takes_node : ∀ {n : VNode} {names : List String} {b : Builder} {src : Source}
    {rest : List Char}, VNode.isOrdinary names n = true → VNode.isPlain n = true →
    VNode.isText n = false → b.Inside names → src.text = n.toHtml.toList ++ rest →
    ∃ b' src', Takes b src b' src' names [n.node] rest ∧ b'.skipNewline = false
  | .element tag attrs children isStatic, names, b, src, rest, hordinary, hplain, _, h, hsrc => by
    simp only [VNode.isOrdinary, Bool.and_eq_true, decide_eq_true_eq] at hordinary
    simp only [VNode.isPlain, Bool.and_eq_true, Bool.not_eq_true', Bool.and_eq_false_imp] at hplain
    obtain ⟨⟨⟨⟨⟨hname, hnestable⟩, hnames⟩, hdistinct⟩, hapart⟩, hchildren⟩ := hordinary
    obtain ⟨⟨hvalues, hnewline⟩, hrest⟩ := hplain
    rw [VNode.toList_toHtml_element (contains_eq_false (by decide) (nestable_iff.mp hnestable).1),
      List.append_assoc, List.append_assoc] at hsrc
    refine takes_element h hnestable
      (next_startTag hname (areAttrs_of_plain hnames hdistinct hvalues)) (next_endTag hname)
      ⟨nofun, nofun⟩ hsrc rfl ?_
    intro b₁ src₁ hinside hend hskip htext halone
    exact takes_nodes hchildren hrest hapart (fun _ => hend) (fun hs => hnewline (hskip hs)) hinside
      htext halone

  | .text s, _, _, _, _, _, _, htext, _, _ => by cases htext
  | .comment s, _, _, _, _, hordinary, _, _, _, _ => by cases hordinary
  | .component .., _, _, _, _, hordinary, _, _, _, _ => by cases hordinary

/-- **Trees in a row** are taken in. -/
theorem takes_nodes : ∀ {ns : List VNode} {names : List String} {b : Builder} {src : Source}
    {rest : List Char}, VNode.areOrdinary names ns = true → VNode.arePlain ns = true →
    VNode.apart ns = true →
    (ns.head?.any VNode.isText = true → b.draft.endsInText b.current = false) →
    (b.skipNewline = true → VNode.startsWithNewline ns = false) → b.Inside names →
    src.text = (VNode.listToHtml ns).toList ++ '<' :: rest → src.alone = false →
    ∃ b' src', Takes b src b' src' names (VNode.nodes ns) ('<' :: rest)
  | [], names, b, src, rest, _, _, _, _, _, h, hsrc, halone => by
    have hrest : src.text = '<' :: rest := hsrc.trans (by rw [VNode.listToHtml]; rfl)
    exact ⟨b, src, .refl b src, h, rfl, .nil b.draft b.current, rfl, hrest, halone⟩
  | .text s :: ns, names, b, src, rest, hordinary, hplain, hapart, hend, hskip, h, hsrc,
      halone => by
    rw [VNode.areOrdinary, VNode.isOrdinary, Bool.and_eq_true] at hordinary
    rw [VNode.arePlain, VNode.isPlain, Bool.and_eq_true] at hplain
    -- behind a text there is a tag
    obtain ⟨hnext, hapart⟩ : ns.head?.any VNode.isText = false ∧ VNode.apart ns = true := by
      cases ns with
      | nil => exact ⟨rfl, rfl⟩
      | cons m ns =>
        rw [VNode.apart, Bool.and_eq_true, Bool.not_eq_true'] at hapart
        exact hapart
    obtain ⟨more, hmore⟩ := exists_bracket hordinary.2 hnext rest
    have hcs : s.toList ≠ [] := by
      intro hnil
      rw [hnil] at hordinary
      cases hordinary.1
    rw [VNode.listToHtml, String.toList_append, VNode.toList_toHtml_text, List.append_assoc,
      hmore] at hsrc
    obtain ⟨b₁, src₁, htakes, hskip₁⟩ := takes_text h hcs (hend rfl) (List.all_eq_true.mp hplain.1) hsrc
      halone fun hs heq => by
        have hnot := hskip hs
        rw [VNode.startsWithNewline, heq] at hnot
        cases hnot
    rw [String.ofList_toList] at htakes
    obtain ⟨b₂, src₂, htakes₂⟩ := takes_nodes hordinary.2 hplain.2 hapart
      (fun htext => by rw [hnext] at htext; cases htext)
      (fun hs => by rw [hskip₁] at hs; cases hs) htakes.inside (htakes.text.trans hmore.symm)
      htakes.alone
    exact ⟨b₂, src₂, htakes.append h htakes₂⟩
  | .element tag attrs children isStatic :: ns, names, b, src, rest, hordinary, hplain, hapart,
      hend, hskip, h, hsrc, halone => by
    rw [VNode.areOrdinary, Bool.and_eq_true] at hordinary
    rw [VNode.arePlain, Bool.and_eq_true] at hplain
    have hapart : VNode.apart ns = true := by
      cases ns with
      | nil => rfl
      | cons m ns =>
        rw [VNode.apart, Bool.and_eq_true] at hapart
        exact hapart.2
    rw [VNode.listToHtml, String.toList_append, List.append_assoc] at hsrc
    obtain ⟨b₁, src₁, htakes, hskip₁⟩ := takes_node hordinary.1 hplain.1 rfl h hsrc
    obtain ⟨b₂, src₂, htakes₂⟩ := takes_nodes hordinary.2 hplain.2 hapart
      (fun _ => htakes.current_eq ▸ htakes.grown.endsInText_element)
      (fun hs => by rw [hskip₁] at hs; cases hs) htakes.inside htakes.text htakes.alone
    exact ⟨b₂, src₂, htakes.append h htakes₂⟩
  | .comment s :: ns, _, _, _, _, hordinary, _, _, _, _, _, _, _ => by
    rw [VNode.areOrdinary, Bool.and_eq_true] at hordinary
    cases hordinary.1
  | .component .. :: ns, _, _, _, _, hordinary, _, _, _, _, _, _, _ => by
    rw [VNode.areOrdinary, Bool.and_eq_true] at hordinary
    cases hordinary.1

end

end Builder

end Componentry.Markup
