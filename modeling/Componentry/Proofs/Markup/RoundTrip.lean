import Componentry.Proofs.Markup.Reading

/-!
# The document that was written

A tree is written, and what was written is read as a document. The document starts without the tags
of the page, so these are put in before the first tag is read in the body.

- `pageIn`: the state when the first tag is read in a mode, with the page put in so far.
- `Source.text_ofText`: the text to be read is the text.
- `Document.parse_toHtml`, `Document.body_parse_toHtml`: **what was written is read**: the tree is
  the only one in the body.
-/

namespace Componentry.Markup

open Builder

variable {t t' : Token} {b b' : Builder} {name : String} {attrs : List (String × String)}
  {closes : Bool}

/-! ## The page -/

/-- An element of the page that no tag was written for. -/
def pageElement (name : String) : DraftKind := .element ⟨.html, name⟩ [] none

/-- The state in which the first tag, one of the body, is read in a mode. -/
def pageIn (m : InsertionMode) : Builder :=
  let page := Draft.empty.put 0 (pageElement "html")
  let headed := page.put 1 (pageElement "head")
  match m with
  | .initial => {}
  | .beforeHtml => { mode := m, quirks := true }
  | .beforeHead => { mode := m, quirks := true, draft := page, openElements := [1] }
  | .inHead =>
    { mode := m, quirks := true, draft := headed, openElements := [2, 1], head := some 2 }
  | .afterHead =>
    { mode := m, quirks := true, draft := headed, openElements := [1], head := some 2 }
  | _ =>
    { mode := .inBody, quirks := true, draft := headed.put 1 (pageElement "body")
      openElements := [3, 1], head := some 2 }

theorem initialRules_run :
    (rules .initial (.startTag name attrs closes)).run (pageIn .initial) =
      (.again (.startTag name attrs closes), pageIn .beforeHtml) := rfl

theorem beforeHtmlRules_run (hname : name ≠ "html") :
    (rules .beforeHtml (.startTag name attrs closes)).run (pageIn .beforeHtml) =
      (.again (.startTag name attrs closes), pageIn .beforeHead) := by
  rw [rules, beforeHtmlRules.eq_def]
  split
  case h_3 heq =>
    cases heq
    exact absurd rfl hname
  case h_5 => rfl
  all_goals contradiction

theorem beforeHeadRules_run (hhtml : name ≠ "html") (hhead : name ≠ "head") :
    (rules .beforeHead (.startTag name attrs closes)).run (pageIn .beforeHead) =
      (.again (.startTag name attrs closes), pageIn .inHead) := by
  rw [rules, beforeHeadRules.eq_def]
  split
  case h_3 heq =>
    cases heq
    exact absurd rfl hhtml
  case h_4 heq =>
    cases heq
    exact absurd rfl hhead
  case h_6 => rfl
  all_goals contradiction

theorem inHeadRules_run (hname : peculiarNames.contains name = false) :
    (rules .inHead (.startTag name attrs closes)).run (pageIn .inHead) =
      (.again (.startTag name attrs closes), pageIn .afterHead) := by
  have hne := contains_eq_false (l := ["html", "title", "noframes", "style", "noscript", "script",
    "template", "head"]) (by decide) hname
  simp only [List.contains_cons, List.contains_nil, Bool.or_eq_false_iff, beq_eq_false_iff_ne]
    at hne
  have hmetadata := contains_eq_false (l := metadataNames) (by decide) hname
  simp only [rules, inHeadRules, hne, hmetadata, if_false, Bool.false_eq_true, or_self]
  rfl

theorem afterHeadRules_run (hname : peculiarNames.contains name = false) :
    (rules .afterHead (.startTag name attrs closes)).run (pageIn .afterHead) =
      (.again (.startTag name attrs closes), pageIn .inBody) := by
  have hne := contains_eq_false (l := ["html", "body", "frameset", "head"]) (by decide) hname
  simp only [List.contains_cons, List.contains_nil, Bool.or_eq_false_iff, beq_eq_false_iff_ne]
    at hne
  have hhead := contains_eq_false (l := headNames) (by decide) hname
  simp only [rules, afterHeadRules, hne, hhead, if_false, Bool.false_eq_true]
  rfl

theorem feedUpTo_again {n : Nat} {m : InsertionMode} (hmode : b.mode = m)
    (hforeign : b.isForeign t = false) (hrule : (rules m t).run b = (.again t', b')) :
    (feedUpTo (n + 1) t).run b = (feedUpTo n t').run b' := by
  rw [feedUpTo, get_then, hforeign]
  show (rules b.mode t >>= _).run b = _
  rw [hmode, run_then hrule]

theorem inside_pageIn : (pageIn .inBody).Inside ["body", "html"] where
  mode := rfl
  model := rfl
  fostering := rfl
  templateModes := rfl
  named := rfl
  contents i hi := by
    simp only [pageIn, List.mem_cons, List.not_mem_nil, or_false] at hi
    rcases hi with rfl | rfl <;> rfl
  distinct := by decide
  inner := nofun
  noTemplate := by decide
  form := rfl
  formatting := ⟨[], rfl, List.nil_sublist _, nofun⟩

/-- **The page is put in** before the first tag. -/
theorem feed_first (hname : nestable ["body", "html"] name = true) :
    Builder.feed {} (.startTag name attrs closes) =
      (pageIn .inBody).feed (.startTag name attrs closes) := by
  have hpeculiar := (nestable_iff.mp hname).1
  have hhtml := ne_of_contains_eq_false (n := "html") (by decide) hpeculiar
  have hhead := ne_of_contains_eq_false (n := "head") (by decide) hpeculiar
  obtain ⟨_, _, _, hrun, -⟩ := inBodyStart_run inside_pageIn hname
    (.startTag name attrs closes) attrs closes
  have hbody := feedOne_run (t := .startTag name attrs closes) inside_pageIn hrun
  have hstart : (feedOne (.startTag name attrs closes)).run {} =
      (feedUpTo 16 (.startTag name attrs closes)).run (pageIn .initial) := rfl
  rw [feedUpTo_again rfl rfl initialRules_run, feedUpTo_again rfl rfl (beforeHtmlRules_run hhtml),
    feedUpTo_again rfl rfl (beforeHeadRules_run hhtml hhead),
    feedUpTo_again rfl rfl (inHeadRules_run hpeculiar),
    feedUpTo_again rfl rfl (afterHeadRules_run hpeculiar),
    feedUpTo_run (t := .startTag name attrs closes) inside_pageIn hrun] at hstart
  exact congrArg Prod.snd (hstart.trans hbody.symm)

/-! ## The text to read -/

theorem foldReturns_eq {cs : List Char} (h : '\r' ∉ cs) : foldReturns false cs = (cs, false) := by
  induction cs with
  | nil => rfl
  | cons c cs ih =>
    rw [List.mem_cons, not_or] at h
    rw [foldReturns, beq_false_of_ne (Ne.symm h.1), ih h.2]
    rfl

theorem dropMark_eq {cs : List Char} (h : cs.head? ≠ some '\uFEFF') : dropMark cs = cs := by
  cases cs with
  | nil => rfl
  | cons c cs =>
    rw [dropMark]
    rintro cs' heq
    exact h (by rw [heq]; rfl)

theorem prepareBlocks_eq {blocks : List (List Char)}
    (h : ∀ block ∈ blocks, '\r' ∉ block ∧ block.head? ≠ some '\uFEFF') :
    prepareBlocks false blocks = blocks := by
  induction blocks with
  | nil => rfl
  | cons block later ih =>
    obtain ⟨hblock, hlater⟩ := List.forall_mem_cons.mp h
    rw [prepareBlocks, dropMark_eq hblock.2, foldReturns_eq hblock.1]
    exact congrArg (List.cons block) (ih hlater)

/-- No block of the text starts with a byte order mark. -/
def isUnmarked (s : String) : Bool :=
  (blocksFrom 0 s.toList).all (·.head? != some '\uFEFF')

/-- **The text to be read** is the text, if there are neither returns nor byte order marks. -/
theorem Source.text_ofText {s : String} (hreturn : '\r' ∉ s.toList) (hmark : isUnmarked s = true) :
    (Source.ofText s).text = s.toList := by
  rw [ofText, prepareBlocks_eq, Source.text, List.nil_append, flatten_blocksFrom]
  intro block hblock
  refine ⟨fun hmem => hreturn ?_, bne_iff_ne.mp (List.all_eq_true.mp hmark block hblock)⟩
  rw [← flatten_blocksFrom 0 s.toList]
  exact List.mem_flatten_of_mem hblock hmem

theorem Source.length_eq (src : Source) : src.length = src.text.length := by
  have hfold : ∀ (blocks : List (List Char)) n,
      blocks.foldl (fun n block => n + block.length) n = n + blocks.flatten.length := by
    intro blocks
    induction blocks with
    | nil => exact fun n => rfl
    | cons block blocks ih =>
      intro n
      rw [List.foldl_cons, ih, List.flatten_cons, List.length_append, Nat.add_assoc]
  rw [Source.length, hfold, Source.text, List.length_append]

/-! ## What is written has no returns -/

theorem isKept_writtenStart (hname : isTagName name = true) (hattrs : areAttrs attrs = true) :
    ∀ c ∈ writtenStart name attrs, isKept c = true := by
  have hall : ∀ c ∈ name.toList, isKept c = true := by
    rw [isTagName, Bool.and_eq_true, List.all_eq_true] at hname
    exact fun c hc => isKept_of_isNameChar (hname.2 c hc)
  rw [areAttrs, Bool.and_eq_true, List.all_eq_true] at hattrs
  have hattr : ∀ c ∈ attrs.flatMap writtenAttr, isKept c = true := by
    intro c hc
    obtain ⟨a, ha, hc⟩ := List.mem_flatMap.mp hc
    have hboth := hattrs.1 a ha
    simp only [isAttrName, Bool.and_eq_true, List.all_eq_true] at hboth
    have hvalue := forall_mem_escaped (p := isKept) (by decide)
      fun c hc _ => hboth.2 c hc
    simp only [writtenAttr, List.mem_cons, List.mem_append, List.not_mem_nil, or_false] at hc
    rcases hc with rfl | hc | rfl | rfl | hc | rfl
    · decide
    · exact isKept_of_isNameChar (hboth.1.2 c hc).1
    · decide
    · decide
    · exact hvalue c hc
    · decide
  intro c hc
  simp only [writtenStart, List.mem_cons, List.mem_append, List.not_mem_nil, or_false] at hc
  rcases hc with rfl | hc | hc | rfl
  · decide
  · exact hall c hc
  · exact hattr c hc
  · decide

theorem isKept_writtenEnd (hname : isTagName name = true) :
    ∀ c ∈ writtenEnd name, isKept c = true := by
  rw [isTagName, Bool.and_eq_true, List.all_eq_true] at hname
  intro c hc
  simp only [writtenEnd, List.mem_cons, List.mem_append, List.not_mem_nil, or_false] at hc
  rcases hc with rfl | rfl | hc | rfl
  · decide
  · decide
  · exact isKept_of_isNameChar (hname.2 c hc)
  · decide

theorem isKept_escapedText {cs : List Char} (h : ∀ c ∈ cs, isKept c = true) :
    ∀ c ∈ cs.flatMap VNode.escapeTextChar, isKept c = true := by
  intro c hc
  obtain ⟨d, hd, hc⟩ := List.mem_flatMap.mp hc
  rcases escapeTextChar_cases d with ⟨e, he, -, hesc⟩ | ⟨-, -, hesc⟩
  · have hrefs : ∀ e ∈ escapeNames, ('&' :: (e.1 ++ [';'])).all isKept = true := by decide
    exact List.all_eq_true.mp (hrefs e he) c (hesc ▸ hc)
  · rw [hesc, List.mem_singleton] at hc
    exact hc ▸ h d hd

mutual

theorem isKept_toHtml : ∀ {n : VNode} {names : List String}, VNode.isOrdinary names n = true →
    VNode.isPlain n = true → ∀ c ∈ n.toHtml.toList, isKept c = true
  | .element tag attrs children isStatic, names, hordinary, hplain => by
    simp only [VNode.isOrdinary, Bool.and_eq_true, decide_eq_true_eq] at hordinary
    simp only [VNode.isPlain, Bool.and_eq_true] at hplain
    obtain ⟨⟨⟨⟨⟨hname, hnestable⟩, hnames⟩, hdistinct⟩, -⟩, hchildren⟩ := hordinary
    have hattrs := areAttrs_of_plain hnames hdistinct hplain.1.1
    rw [VNode.toList_toHtml_element
      (contains_eq_false (by decide) (nestable_iff.mp hnestable).1)]
    intro c hc
    rw [List.mem_append, List.mem_append] at hc
    rcases hc with hc | hc | hc
    · exact isKept_writtenStart hname hattrs c hc
    · exact isKept_listToHtml hchildren hplain.2 c hc
    · exact isKept_writtenEnd hname c hc
  | .text s, _, _, hplain => by
    rw [VNode.isPlain] at hplain
    rw [VNode.toList_toHtml_text]
    exact isKept_escapedText (List.all_eq_true.mp hplain)
  | .comment s, _, hordinary, _ => by cases hordinary
  | .component .., _, hordinary, _ => by cases hordinary

theorem isKept_listToHtml : ∀ {ns : List VNode} {names : List String},
    VNode.areOrdinary names ns = true → VNode.arePlain ns = true →
    ∀ c ∈ (VNode.listToHtml ns).toList, isKept c = true
  | [], _, _, _ => by
    rw [VNode.listToHtml]
    exact nofun
  | n :: ns, names, hordinary, hplain => by
    rw [VNode.areOrdinary, Bool.and_eq_true] at hordinary
    rw [VNode.arePlain, Bool.and_eq_true] at hplain
    rw [VNode.listToHtml, String.toList_append]
    intro c hc
    rcases List.mem_append.mp hc with hc | hc
    · exact isKept_toHtml hordinary.1 hplain.1 c hc
    · exact isKept_listToHtml hordinary.2 hplain.2 c hc

end

/-! ## The document -/

/-- At the end of the text there is no other token. -/
theorem next_end {src : Source} (h : src.text = []) :
    (Token.next .markup false src).1 = [.eof] := by
  obtain ⟨p, blocks, htext, -, hnext⟩ := nextFrom_eq .markup false src.alone src.front src.later
  have hp : p = [] := (List.append_eq_nil_iff.mp (htext.trans h)).1
  subst hp
  exact congrArg Prod.fst hnext

/-- Reading ends where the text does. -/
theorem read_end {names : List String} {src : Source} (h : b.Inside names) (htext : src.text = [])
    (n : Nat) : Builder.read n b src = { b with skipNewline := false } := by
  rw [← h.feed_eof]
  cases n with
  | zero => rfl
  | succ n =>
    obtain ⟨ts, src', hnext⟩ : ∃ ts src', Token.next .markup false src = (ts, src') := ⟨_, _, rfl⟩
    have hend := next_end htext
    rw [hnext] at hend
    subst hend
    rw [Builder.read, h.model, h.not_foreign, hnext]

/-- The page around a tree. -/
def page (n : Node) : Node :=
  .element ⟨.html, "html"⟩ [] none
    [.element ⟨.html, "head"⟩ [] none [], .element ⟨.html, "body"⟩ [] none [n]]

/-- What is read of a draft that a tree was added to in the body. -/
theorem toNodes_page {d : Draft} {n : Node} (h : Draft.Grown (pageIn .inBody).draft d 3 [n]) :
    d.toNodes 0 = [page n] := by
  have hold : ∀ j, j < 3 → d.node j = (pageIn .inBody).draft.node j := fun j hj =>
    h.old j (by rw [show (pageIn .inBody).draft.size = 4 from rfl]; omega) (by omega)
  have hlook : ∀ j, j < 3 → d.look j = (pageIn .inBody).draft.look j := fun j hj => by
    rw [Draft.look, Draft.look, hold j hj]
  have hunder : d.look 3 = (some (.element ⟨.html, "body"⟩ [] none []), rootsFrom 4 [n]) := by
    rw [Draft.look, h.under]
    rfl
  have hat : (page n).At d.look 1 := by
    simp only [page, Node.At, AllAt, Node.count, countAll]
    exact ⟨trivial, (hlook 1 (by omega)).trans rfl, ⟨trivial, (hlook 2 (by omega)).trans rfl,
      trivial⟩, ⟨trivial, hunder, h.row⟩, trivial⟩
  have hcount : (page n).count ≤ d.size := by
    rw [h.size]
    show 1 + (1 + 0 + (1 + countAll [n] + 0)) ≤ 4 + countAll [n]
    omega
  have hread := Node.At.read d.readsTrees hat hcount
  rw [Draft.toNodes, hold 0 (by omega)]
  show [1].flatMap _ = _
  rw [List.flatMap_singleton, hread]

/-- **What was written is read.** -/
theorem Document.parse_toHtml {tree : VNode}
    (hordinary : VNode.isOrdinary ["body", "html"] tree = true) (hplain : VNode.isPlain tree = true)
    (helement : VNode.isText tree = false) (hmark : isUnmarked tree.toHtml = true) :
    Document.parse tree.toHtml = { nodes := [page tree.node], misplaced := 0 } := by
  have hreturn : '\r' ∉ tree.toHtml.toList := fun hmem => by
    have hkept := isKept_toHtml hordinary hplain _ hmem
    cases hkept
  have htext := Source.text_ofText hreturn hmark
  generalize hsrc : Source.ofText tree.toHtml = src at htext
  -- the first tag is read in the page
  have hpage : ∀ n, src.text.length ≤ n →
      Builder.read n {} src = Builder.read n (pageIn .inBody) src := by
    cases tree with
    | element tag attrs children isStatic =>
      have helem := hordinary
      have hvalues := hplain
      simp only [VNode.isOrdinary, Bool.and_eq_true, decide_eq_true_eq] at helem
      simp only [VNode.isPlain, Bool.and_eq_true] at hvalues
      obtain ⟨⟨⟨⟨⟨hname, hnestable⟩, hnames⟩, hdistinct⟩, -⟩, -⟩ := helem
      rw [VNode.toList_toHtml_element
        (contains_eq_false (by decide) (nestable_iff.mp hnestable).1)] at htext
      obtain ⟨src', hnext, -⟩ := next_startTag hname
        (areAttrs_of_plain hnames hdistinct hvalues.1.1) src _ htext
      intro n hn
      rw [htext] at hn
      obtain ⟨n, rfl⟩ : ∃ k, n = k + 1 := ⟨n - 1, (Nat.sub_add_cancel
        (Nat.le_trans (Nat.succ_le_succ (Nat.zero_le _)) hn)).symm⟩
      have hfirst : Builder.read (n + 1) {} src =
          Builder.read n (Builder.feed {} (.startTag tag attrs false)) src' :=
        read_token rfl rfl rfl hnext nofun
      rw [hfirst, feed_first hnestable,
        read_token rfl inside_pageIn.not_foreign rfl hnext nofun]
    | text s => cases helement
    | comment s => cases hordinary
    | component => cases hordinary
  -- then the tree is taken in
  obtain ⟨b', src', htakes, -⟩ := takes_node hordinary hplain helement inside_pageIn
    (htext.trans (List.append_nil _).symm)
  obtain ⟨m, -, hread⟩ := htakes.continues src.length (Nat.le_of_eq src.length_eq.symm)
  have hdone : Builder.read src.length {} src = { b' with skipNewline := false } := by
    rw [hpage _ (Nat.le_of_eq src.length_eq.symm), hread, read_end htakes.inside htakes.text]
  show (⟨(Builder.read _ _ _).draft.toNodes 0, (Builder.read _ _ _).misplaced⟩ : Document) = _
  rw [hsrc, hdone, toNodes_page htakes.grown, htakes.misplaced]
  rfl

/-- **The tree is all there is** in the body. -/
theorem Document.body_parse_toHtml {tree : VNode}
    (hordinary : VNode.isOrdinary ["body", "html"] tree = true) (hplain : VNode.isPlain tree = true)
    (helement : VNode.isText tree = false) (hmark : isUnmarked tree.toHtml = true) :
    (Document.parse tree.toHtml).body = [tree.node] := by
  rw [parse_toHtml hordinary hplain helement hmark]
  rfl

end Componentry.Markup
