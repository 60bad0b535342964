import Componentry.Proofs.Dict
import Componentry.Render.Slots

/-!
# What slots hold

The children that come with a placeholder are dealt out to slots one after the other. Afterwards a
slot holds what its children contribute, in their order, and every contribution is in exactly one
slot. Only a slot with nothing but blank texts is left out. A placeholder among the children always
goes to the default slot, also if it names another.

- `VNode.slotName`, `VNode.slotNodes`: the slot that a child names, and what it contributes.
- `VNode.dealtSlot`: the slot that it is dealt to.
- `get?_foldl_deal`: **what dealing leaves in a slot**, by induction on the children.
- `perm_flatMap_fibers`: taking a list apart by keys loses nothing and doubles nothing.
- `slots_partition`: **slots partition the children**.
-/

namespace Componentry

namespace VNode

/-- The slot that a child names, or else the default one. -/
def slotName (n : VNode) : String := (n.attr? "slot").getD "default"

def isPlaceholder : VNode → Bool
  | component .. => true
  | _ => false

/-- The slot that a child is dealt to. What a placeholder names is not looked at. -/
def dealtSlot (n : VNode) : String := if n.isPlaceholder then "default" else n.slotName

/-- What a child contributes: a template that names a slot its children, anything else itself. -/
def slotNodes : VNode → List VNode
  | element tag attrs children isStatic =>
    if (attrs.lookup "slot").isSome && tag = "template" then children
    else [element tag attrs children isStatic]
  | n => [n]

theorem slotShare_eq (n : VNode) : slotShare n = (n.dealtSlot, n.slotNodes) := by
  cases n with
  | element tag attrs children isStatic =>
    simp only [slotShare, dealtSlot, isPlaceholder, slotName, slotNodes, attr?]
    cases attrs.lookup "slot" with
    | none => simp
    | some name => by_cases h : tag = "template" <;> simp [h]
  | _ => rfl

/-- A child other than a placeholder is dealt to the slot that it names. -/
theorem dealtSlot_eq_slotName_iff (n : VNode) :
    n.dealtSlot = n.slotName ↔ (n.isPlaceholder = true → n.slotName = "default") := by
  by_cases h : n.isPlaceholder = true
  · simp [dealtSlot, h, eq_comm]
  · simp [dealtSlot, h]

/-- Who is dealt to a slot other than the default one names it. -/
theorem slotName_of_dealtSlot {n : VNode} {name : String} (h : n.dealtSlot = name)
    (hname : name ≠ "default") : n.slotName = name := by
  rw [dealtSlot] at h
  split at h
  · exact absurd h.symm hname
  · exact h

theorem slotNodes_of_isPlaceholder {n : VNode} (h : n.isPlaceholder = true) :
    n.slotNodes = [n] := by
  cases n with
  | component => rfl
  | _ => simp [isPlaceholder] at h

theorem isWhitespace_of_isPlaceholder {n : VNode} (h : n.isPlaceholder = true) :
    n.isWhitespace = false := by
  cases n with
  | component => rfl
  | _ => simp [isPlaceholder] at h

end VNode

/-- What children contribute to a slot, in their order, if they go to slots by `goesTo`. -/
def contributions (goesTo : VNode → String) (children : List VNode) (name : String) : List VNode :=
  (children.filter fun n => goesTo n = name).flatMap VNode.slotNodes

/-- What is left of a slot: nothing at all if its nodes are blank texts. -/
def unlessBlank (nodes : List VNode) : Option (List VNode) :=
  if nodes.all VNode.isWhitespace then none else some nodes

theorem unlessBlank_eq_some {nodes nodes' : List VNode} (h : unlessBlank nodes = some nodes') :
    nodes.all VNode.isWhitespace = false ∧ nodes' = nodes := by
  rw [unlessBlank] at h
  split at h
  · simp at h
  · rename_i hblank
    exact ⟨by simpa using hblank, (Option.some.inj h).symm⟩

/-! ## Dealing -/

/-- A child is dealt out. -/
def deal (d : Dict (List VNode)) (n : VNode) : Dict (List VNode) :=
  Dict.alter (slotShare n).1 (fun ns => ns.getD [] ++ (slotShare n).2) d

theorem resolveSlots_eq (children : List VNode) : resolveSlots children =
    List.filter (fun e => !(e.2.all VNode.isWhitespace)) (children.foldl deal []) := rfl

theorem ordered_foldl_deal {d : Dict (List VNode)} (h : Dict.Ordered d) (children : List VNode) :
    Dict.Ordered (children.foldl deal d) := by
  induction children generalizing d with
  | nil => exact h
  | cons n rest ih => exact ih (Dict.ordered_alter h _ _)

theorem ordered_resolveSlots (children : List VNode) : Dict.Ordered (resolveSlots children) :=
  Dict.ordered_filter (ordered_foldl_deal Dict.ordered_nil children) _

/-- **Dealing one child** adds its nodes behind those that are in its slot. -/
theorem get?_deal (d : Dict (List VNode)) (n : VNode) (name : String) :
    (Dict.get? (deal d n) name).getD [] =
      (Dict.get? d name).getD [] ++ contributions VNode.dealtSlot [n] name := by
  rw [deal, Dict.get?_alter, VNode.slotShare_eq]
  by_cases h : name = n.dealtSlot
  · simp [contributions, h]
  · have hne : n.dealtSlot ≠ name := fun heq => h heq.symm
    simp [contributions, h, hne]

theorem contributions_cons (goesTo : VNode → String) (n : VNode) (rest : List VNode)
    (name : String) : contributions goesTo (n :: rest) name =
      contributions goesTo [n] name ++ contributions goesTo rest name := by
  simp only [contributions]
  rw [← List.flatMap_append, ← List.filter_append, List.singleton_append]

/-- **Dealing all children** adds to each slot what they contribute to it, in their order. -/
theorem get?_foldl_deal (d : Dict (List VNode)) (children : List VNode) (name : String) :
    (Dict.get? (children.foldl deal d) name).getD [] =
      (Dict.get? d name).getD [] ++ contributions VNode.dealtSlot children name := by
  induction children generalizing d with
  | nil => simp [contributions]
  | cons n rest ih =>
    rw [List.foldl_cons, ih, get?_deal, List.append_assoc, ← contributions_cons]

/-- **A slot** holds what is contributed to it. -/
theorem get?_resolveSlots (children : List VNode) (name : String) :
    Dict.get? (resolveSlots children) name =
      unlessBlank (contributions VNode.dealtSlot children name) := by
  have hdealt : (Dict.get? (children.foldl deal []) name).getD [] =
      contributions VNode.dealtSlot children name := get?_foldl_deal [] children name
  rw [resolveSlots_eq, Dict.get?_filter (ordered_foldl_deal Dict.ordered_nil children)]
  cases hget : Dict.get? (children.foldl deal []) name with
  | none =>
    -- nobody contributed, and a slot without nodes counts as blank
    rw [hget] at hdealt
    simp [unlessBlank, ← hdealt]
  | some nodes =>
    rw [hget] at hdealt
    rw [← hdealt, Option.getD_some, Option.filter_some, unlessBlank]
    cases nodes.all VNode.isWhitespace <;> simp

/-! ## Nothing is lost and nothing is doubled -/

/-- Taking a list apart by keys: what the fibers over distinct keys hold is what all elements with
one of these keys hold, in another order. -/
theorem perm_flatMap_fibers {α β : Type} (key : α → String) (f : α → List β) (as : List α)
    {keys : List String} (hkeys : keys.Nodup) :
    (keys.flatMap fun k => (as.filter fun a => key a = k).flatMap f).Perm
      ((as.filter fun a => key a ∈ keys).flatMap f) := by
  induction keys with
  | nil => simp
  | cons k rest ih =>
    obtain ⟨hk, hrest⟩ := List.nodup_cons.mp hkeys
    let wanted := as.filter fun a => key a ∈ k :: rest
    -- the elements with the first key, and all others
    have hfirst : (wanted.filter fun a => key a = k) = as.filter fun a => key a = k := by
      rw [List.filter_filter]
      refine List.filter_congr fun a _ => ?_
      by_cases h : key a = k <;> simp [h]
    have hothers : (wanted.filter fun a => !decide (key a = k)) =
        as.filter fun a => key a ∈ rest := by
      rw [List.filter_filter]
      refine List.filter_congr fun a _ => ?_
      by_cases h : key a = k
      · simp [h, hk]
      · simp [h]
    have hsplit := List.filter_append_perm (fun a => decide (key a = k)) wanted
    rw [hfirst, hothers] at hsplit
    have hwhole := hsplit.flatMap_right f
    rw [List.flatMap_append] at hwhole
    rw [List.flatMap_cons]
    exact ((ih hrest).append_left _).trans hwhole

theorem mem_keys_resolveSlots (children : List VNode) (name : String) :
    name ∈ Dict.keys (resolveSlots children) ↔
      (contributions VNode.dealtSlot children name).all VNode.isWhitespace = false := by
  constructor
  · intro hmem
    obtain ⟨⟨name', nodes⟩, he, rfl⟩ := List.mem_map.mp hmem
    have hget := Dict.get?_of_mem (ordered_resolveSlots children) he
    rw [get?_resolveSlots] at hget
    exact (unlessBlank_eq_some hget).1
  · intro hblank
    have hget := get?_resolveSlots children name
    rw [unlessBlank, hblank] at hget
    exact Dict.mem_keys_of_get? hget

/-- All nodes of all slots are what the children contribute that are not left out. -/
theorem perm_resolveSlots (children : List VNode) :
    ((resolveSlots children).flatMap Prod.snd).Perm
      ((children.filter fun n =>
        !(contributions VNode.dealtSlot children n.dealtSlot).all VNode.isWhitespace).flatMap
          VNode.slotNodes) := by
  have hordered := ordered_resolveSlots children
  have hnodup : (Dict.keys (resolveSlots children)).Nodup :=
    List.pairwise_map.mpr (hordered.imp fun hlt => ne_of_lt hlt)
  have hslots : (resolveSlots children).flatMap Prod.snd =
      (Dict.keys (resolveSlots children)).flatMap
        (contributions VNode.dealtSlot children) := by
    rw [Dict.keys, List.flatMap_map]
    refine List.flatMap_congr fun e he => ?_
    have hget := Dict.get?_of_mem hordered he
    rw [get?_resolveSlots] at hget
    exact (unlessBlank_eq_some hget).2
  have hkept : (children.filter fun n => n.dealtSlot ∈ Dict.keys (resolveSlots children)) =
      children.filter fun n =>
        !(contributions VNode.dealtSlot children n.dealtSlot).all VNode.isWhitespace := by
    refine List.filter_congr fun n _ => ?_
    rw [Bool.eq_iff_iff, decide_eq_true_iff, mem_keys_resolveSlots, Bool.not_eq_true']
  rw [hslots, ← hkept]
  exact perm_flatMap_fibers VNode.dealtSlot VNode.slotNodes children hnodup

/-! ## Placeholders that name a slot -/

/-- A slot other than the default one lacks the placeholders that name it. -/
theorem length_contributions_lt {children : List VNode} {n : VNode} (hn : n ∈ children)
    (hplaceholder : n.isPlaceholder = true) (hname : n.slotName ≠ "default") :
    (contributions VNode.dealtSlot children n.slotName).length <
      (contributions VNode.slotName children n.slotName).length := by
  let named := children.filter fun c => c.slotName = n.slotName
  have hdealt : (named.filter fun c => c.dealtSlot = n.slotName) =
      children.filter fun c => c.dealtSlot = n.slotName := by
    rw [List.filter_filter]
    refine List.filter_congr fun c _ => ?_
    by_cases h : c.dealtSlot = n.slotName
    · simp [h, VNode.slotName_of_dealtSlot h hname]
    · simp [h]
  have hlacking : n ∈ named.filter fun c => !decide (c.dealtSlot = n.slotName) := by
    have hdefault : n.dealtSlot = "default" := by simp [VNode.dealtSlot, hplaceholder]
    simp only [List.mem_filter, named, hdefault]
    exact ⟨⟨hn, by simp⟩, by simpa using Ne.symm hname⟩
  have hpos : 0 < ((named.filter fun c =>
      !decide (c.dealtSlot = n.slotName)).flatMap VNode.slotNodes).length := by
    refine List.length_pos_of_mem (a := n) (List.mem_flatMap.mpr ⟨n, hlacking, ?_⟩)
    simp [VNode.slotNodes_of_isPlaceholder hplaceholder]
  have hsplit := (List.filter_append_perm (fun c => decide (c.dealtSlot = n.slotName))
    named).flatMap_right VNode.slotNodes
  have hlength := hsplit.length_eq
  rw [hdealt, List.flatMap_append, List.length_append] at hlength
  change (List.flatMap _ _).length < (named.flatMap VNode.slotNodes).length
  omega

/-- Dealing goes by what children name exactly if every placeholder goes to the default slot
anyway. -/
theorem dealt_as_named_iff (children : List VNode) :
    (∀ name, Dict.get? (resolveSlots children) name =
        unlessBlank (contributions VNode.slotName children name)) ↔
      ∀ n ∈ children, n.isPlaceholder = true → n.slotName = "default" := by
  constructor
  · intro hlaw n hn hplaceholder
    by_contra hname
    have hslot := (get?_resolveSlots children n.slotName).symm.trans (hlaw n.slotName)
    have hmem : n ∈ contributions VNode.slotName children n.slotName := by
      refine List.mem_flatMap.mpr ⟨n, by simp [hn], ?_⟩
      simp [VNode.slotNodes_of_isPlaceholder hplaceholder]
    have hshown : (contributions VNode.slotName children n.slotName).all VNode.isWhitespace =
        false := by
      refine List.all_eq_false.mpr ⟨n, hmem, ?_⟩
      simp [VNode.isWhitespace_of_isPlaceholder hplaceholder]
    have hfull : unlessBlank (contributions VNode.slotName children n.slotName) =
        some (contributions VNode.slotName children n.slotName) := by
      simp [unlessBlank, hshown]
    have hsame := (unlessBlank_eq_some (hslot.trans hfull)).2
    have hlt := length_contributions_lt hn hplaceholder hname
    rw [hsame] at hlt
    omega
  · intro hdefault name
    have hgoes : (children.filter fun n => n.dealtSlot = name) =
        children.filter fun n => n.slotName = name := by
      refine List.filter_congr fun n hn => ?_
      rw [(VNode.dealtSlot_eq_slotName_iff n).mpr (hdefault n hn)]
    rw [get?_resolveSlots, contributions, contributions, hgoes]

/-! ## Slots -/

/-- **Slots partition the children.** Each slot holds what the children that are dealt to it
contribute, in their order, and is left out if that is nothing but blank texts; no slot comes twice,
and all slots together hold the contributions of all children whose slot is not left out, each once.
A child is dealt to the slot that it names exactly if it is no placeholder or names the default
slot, and the slots are those that the children name exactly if this is so for all of them. -/
theorem slots_partition (children : List VNode) :
    Dict.Ordered (resolveSlots children) ∧
    (∀ name, Dict.get? (resolveSlots children) name =
      unlessBlank (contributions VNode.dealtSlot children name)) ∧
    ((resolveSlots children).flatMap Prod.snd).Perm
      ((children.filter fun n =>
        !(contributions VNode.dealtSlot children n.dealtSlot).all VNode.isWhitespace).flatMap
          VNode.slotNodes) ∧
    (∀ n : VNode, n.dealtSlot = n.slotName ↔
      (n.isPlaceholder = true → n.slotName = "default")) ∧
    ((∀ name, Dict.get? (resolveSlots children) name =
        unlessBlank (contributions VNode.slotName children name)) ↔
      ∀ n ∈ children, n.isPlaceholder = true → n.slotName = "default") :=
  ⟨ordered_resolveSlots children, get?_resolveSlots children, perm_resolveSlots children,
    VNode.dealtSlot_eq_slotName_iff, dealt_as_named_iff children⟩

/-- A placeholder that names a slot is not in it. -/
theorem named_placeholder_misses_slot :
    ¬ ∀ (children : List VNode) (name : String), Dict.get? (resolveSlots children) name =
      unlessBlank (contributions VNode.slotName children name) := by
  intro hlaw
  let item := VNode.component "my-item" 0 [("slot", .str "header")] [] []
  have hheader := (dealt_as_named_iff [item]).mp (hlaw [item]) item List.mem_cons_self rfl
  exact absurd hheader (by decide)

end Componentry
