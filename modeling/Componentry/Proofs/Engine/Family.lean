import Componentry.World
import Mathlib.Data.List.Flatten
import Mathlib.Data.List.Perm.Basic

/-!
# Families

A mount makes a family: an instance, the tree that it renders to, a child for each placeholder in
the tree, and so on. An instance that is mounted more than once renders more than once, and has
children from each time.

- `VNode.placeholders`: the placeholders of a tree, in document order.
- `Family`: instances below instances, with `Family.fold` and an induction principle.
- `Family.preorder`, `Family.postorder`, `Family.openings`, `Family.waiting`: orders of its members.
- `Family.Once.openings_eq`, `Family.All.waiting_eq`: the orders agree where nobody is rendered
  twice.
-/

namespace Componentry

variable {α : Type}

/-! ## Placeholders -/

mutual

/-- The placeholders of a tree, in document order. Those among the children of a placeholder are
not meant: they belong to whatever is made for it. -/
def VNode.placeholders : VNode → List Placeholder
  | .component tag ctor props listeners children => [{ tag, ctor, props, listeners, children }]
  | .element _ _ children _ => VNode.allPlaceholders children
  | .text _ => []
  | .comment _ => []

def VNode.allPlaceholders : List VNode → List Placeholder
  | [] => []
  | n :: rest => n.placeholders ++ VNode.allPlaceholders rest

end

/-! ## Families -/

/-- An instance with its visits: each time that it was rendered in a mount, the tree and the
families of the children that were made for it. -/
inductive Family where
  | node (vm : InstanceId) (visits : List (VNode × List Family))

namespace Family

mutual

/-- Puts a family together from what is made of its members. -/
def fold (f : InstanceId → List (VNode × List α) → α) : Family → α
  | node vm visits => f vm (foldVisits f visits)

def foldVisits (f : InstanceId → List (VNode × List α) → α) :
    List (VNode × List Family) → List (VNode × List α)
  | [] => []
  | (tree, kids) :: rest => (tree, foldKids f kids) :: foldVisits f rest

def foldKids (f : InstanceId → List (VNode × List α) → α) : List Family → List α
  | [] => []
  | k :: rest => fold f k :: foldKids f rest

end

theorem foldKids_eq (f : InstanceId → List (VNode × List α) → α) (kids : List Family) :
    foldKids f kids = kids.map (fold f) := by
  induction kids with
  | nil => rfl
  | cons k rest ih => rw [foldKids, ih, List.map_cons]

theorem foldVisits_eq (f : InstanceId → List (VNode × List α) → α)
    (visits : List (VNode × List Family)) :
    foldVisits f visits = visits.map fun v => (v.1, v.2.map (fold f)) := by
  induction visits with
  | nil => rfl
  | cons v rest ih => rw [foldVisits, ih, foldKids_eq, List.map_cons]

/-- Folding a family folds each of its visits. -/
theorem fold_node (f : InstanceId → List (VNode × List α) → α) (vm : InstanceId)
    (visits : List (VNode × List Family)) :
    fold f (node vm visits) = f vm (visits.map fun v => (v.1, v.2.map (fold f))) := by
  rw [fold, foldVisits_eq]

/-- What holds of an instance with its visits if it holds of all children, holds of all
families. -/
theorem induct {P : Family → Prop}
    (h : ∀ vm visits, (∀ v ∈ visits, ∀ k ∈ v.2, P k) → P (node vm visits)) : ∀ f, P f
  | node vm visits => h vm visits (ofVisits visits)
where
  ofVisits : ∀ visits : List (VNode × List Family), ∀ v ∈ visits, ∀ k ∈ v.2, P k
    | [] => fun _ hv => by cases hv
    | (_, kids) :: rest => List.forall_mem_cons.mpr ⟨ofKids kids, ofVisits rest⟩
  ofKids : ∀ kids : List Family, ∀ k ∈ kids, P k
    | [] => fun _ hk => by cases hk
    | k :: rest => List.forall_mem_cons.mpr ⟨induct h k, ofKids rest⟩

/-- Something holds of all members, each with its visits. -/
inductive All (P : InstanceId → List (VNode × List Family) → Prop) : Family → Prop
  | node {vm : InstanceId} {visits : List (VNode × List Family)} (here : P vm visits)
      (below : ∀ v ∈ visits, ∀ k ∈ v.2, All P k) : All P (.node vm visits)

theorem All.imp {P Q : InstanceId → List (VNode × List Family) → Prop}
    (hPQ : ∀ vm visits, P vm visits → Q vm visits) : ∀ {f : Family}, f.All P → f.All Q := by
  intro f
  induction f using induct with
  | h vm visits ih =>
    rintro ⟨here, below⟩
    exact .node (hPQ _ _ here) fun v hv k hk => ih v hv k hk (below v hv k hk)

theorem All.and {P Q : InstanceId → List (VNode × List Family) → Prop} :
    ∀ {f : Family}, f.All P → f.All Q → f.All fun vm visits => P vm visits ∧ Q vm visits := by
  intro f
  induction f using induct with
  | h vm visits ih =>
    rintro ⟨hP, hbelow⟩ ⟨hQ, hbelow'⟩
    exact .node ⟨hP, hQ⟩ fun v hv k hk => ih v hv k hk (hbelow v hv k hk) (hbelow' v hv k hk)

/-- What holds of all members holds of all below each. -/
theorem All.ofKids {P : InstanceId → List (VNode × List Family) → Prop} :
    ∀ {f : Family}, f.All P → f.All fun _ visits => ∀ v ∈ visits, ∀ k ∈ v.2, k.All P := by
  intro f
  induction f using induct with
  | h vm visits ih =>
    rintro ⟨-, hbelow⟩
    exact .node hbelow fun v hv k hk => ih v hv k hk (hbelow v hv k hk)

def vm : Family → InstanceId
  | node vm _ => vm

/-- Each member was rendered once. -/
def Once (f : Family) : Prop := f.All fun _ visits => ∃ tree kids, visits = [(tree, kids)]

/-! ## Orders -/

/-- Every instance before those below it. -/
def preorder : Family → List InstanceId :=
  fold fun vm visits => vm :: visits.flatMap fun v => v.2.flatten

/-- Every instance after those below it. -/
def postorder : Family → List InstanceId :=
  fold fun vm visits => (visits.flatMap fun v => v.2.flatten) ++ [vm]

/-- Every instance each time that it is rendered, before those that are made for it then. -/
def openings : Family → List InstanceId :=
  fold fun vm visits => visits.flatMap fun v => vm :: v.2.flatten

/-- The instances that wait for their mounted hook: each after those that were made for it last. -/
def waiting : Family → List InstanceId :=
  fold fun vm visits => (visits.getLast?.elim [] fun v => v.2.flatten) ++ [vm]

variable (vm : InstanceId) (visits : List (VNode × List Family))

theorem preorder_node : (node vm visits).preorder =
    vm :: visits.flatMap fun v => v.2.flatMap preorder := by
  rw [preorder, fold_node, List.flatMap_map]
  rfl

theorem postorder_node : (node vm visits).postorder =
    (visits.flatMap fun v => v.2.flatMap postorder) ++ [vm] := by
  rw [postorder, fold_node, List.flatMap_map]
  rfl

theorem openings_node : (node vm visits).openings =
    visits.flatMap fun v => vm :: v.2.flatMap openings := by
  rw [openings, fold_node, List.flatMap_map]
  rfl

theorem waiting_node : (node vm visits).waiting =
    (visits.getLast?.elim [] fun v => v.2.flatMap waiting) ++ [vm] := by
  rw [waiting, fold_node, List.getLast?_map]
  cases visits.getLast? <;> rfl

variable {vm visits} {f : Family}

/-- Something about the members need only be known of those. -/
theorem All.imp_of_mem {P Q : InstanceId → List (VNode × List Family) → Prop} :
    ∀ {f : Family}, (∀ c ∈ f.preorder, ∀ visits, P c visits → Q c visits) → f.All P → f.All Q := by
  intro f
  induction f using induct with
  | h vm visits ih =>
    rintro hPQ ⟨here, below⟩
    rw [preorder_node] at hPQ
    refine .node (hPQ vm List.mem_cons_self _ here) fun v hv k hk => ?_
    refine ih v hv k hk (fun c hc => hPQ c (List.mem_cons_of_mem _ ?_)) (below v hv k hk)
    exact List.mem_flatMap.mpr ⟨v, hv, List.mem_flatMap.mpr ⟨k, hk, hc⟩⟩

/-- Rendered once each, the instances are rendered in pre-order. -/
theorem Once.openings_eq : f.Once → f.openings = f.preorder := by
  induction f using induct with
  | h vm visits ih =>
    rintro ⟨⟨tree, kids, rfl⟩, below⟩
    rw [openings_node, preorder_node, List.flatMap_singleton, List.flatMap_singleton]
    have hv := List.mem_singleton_self (tree, kids)
    exact congrArg (vm :: ·) (List.flatMap_congr fun k hk => ih _ hv k hk (below _ hv k hk))

/-- Rendered at most once each, the instances wait in post-order. -/
theorem All.waiting_eq : f.All (fun _ visits => visits.length ≤ 1) → f.waiting = f.postorder := by
  induction f using induct with
  | h vm visits ih =>
    rintro ⟨hle, below⟩
    rw [waiting_node, postorder_node]
    match visits with
    | [] => rfl
    | [v] =>
      rw [List.flatMap_singleton]
      have hv := List.mem_singleton_self v
      exact congrArg (· ++ [vm]) (List.flatMap_congr fun k hk => ih v hv k hk (below v hv k hk))

/-- Rendered once each, the instances wait in post-order. -/
theorem Once.waiting_eq (hf : f.Once) : f.waiting = f.postorder :=
  All.waiting_eq <| hf.imp fun _ _ ⟨_, _, hvisits⟩ => hvisits ▸ Nat.le_refl 1

theorem postorder_perm (f : Family) : f.postorder.Perm f.preorder := by
  induction f using induct with
  | h vm visits ih =>
    rw [postorder_node, preorder_node]
    refine List.perm_append_comm.trans (List.Perm.cons vm ?_)
    exact List.Perm.flatMap_left _ fun v hv => List.Perm.flatMap_left _ fun k hk => ih v hv k hk

/-- What one contributes is there as it is. -/
theorem sublist_flatMap {β : Type} {l : List α} {a : α} (g : α → List β) (ha : a ∈ l) :
    (g a).Sublist (l.flatMap g) := List.sublist_flatten_of_mem (List.mem_map_of_mem ha)

/-- Who waits is a member, and waits once. -/
theorem waiting_sublist (f : Family) : f.waiting.Sublist f.postorder := by
  induction f using induct with
  | h vm visits ih =>
    rw [waiting_node, postorder_node]
    refine List.Sublist.append_right ?_ [vm]
    cases hlast : visits.getLast? with
    | none => exact List.nil_sublist _
    | some v =>
      have hv : v ∈ visits := List.mem_of_getLast? hlast
      have hkids : (v.2.flatMap waiting).Sublist (v.2.flatMap postorder) :=
        List.Sublist.flatMap_right _ fun k hk => ih v hv k hk
      exact hkids.trans (sublist_flatMap (fun v => v.2.flatMap postorder) hv)

/-- Who waits is a member. -/
theorem mem_preorder_of_waiting {c : InstanceId} (hc : c ∈ f.waiting) : c ∈ f.preorder :=
  f.postorder_perm.mem_iff.mp (f.waiting_sublist.subset hc)

/-- Counting in lists that are put together from others. -/
theorem count_flatMap_mul {β : Type} {l : List β} {g g' : β → List InstanceId} {c : InstanceId}
    {n : Nat} (h : ∀ b ∈ l, (g b).count c = n * (g' b).count c) :
    (l.flatMap g).count c = n * (l.flatMap g').count c := by
  induction l with
  | nil => rfl
  | cons b rest ih =>
    have hrest := ih fun b hb => h b (List.mem_cons_of_mem _ hb)
    rw [List.flatMap_cons, List.flatMap_cons, List.count_append, List.count_append, hrest,
      h b List.mem_cons_self, Nat.mul_add]

theorem count_flatMap_cons {β : Type} (l : List β) (g : β → List InstanceId)
    (vm c : InstanceId) : (l.flatMap fun b => vm :: g b).count c =
      l.length * [vm].count c + (l.flatMap g).count c := by
  induction l with
  | nil => simp
  | cons b rest ih =>
    rw [List.flatMap_cons, List.flatMap_cons, List.count_append, List.count_append, ih,
      ← List.singleton_append, List.count_append, List.length_cons, Nat.add_mul, Nat.one_mul]
    omega

/-- If all instances are rendered as often as `n` says, then each is rendered that often. -/
theorem count_openings {n : InstanceId → Nat} (c : InstanceId) :
    f.All (fun vm visits => visits.length = n vm) →
      f.openings.count c = n c * f.preorder.count c := by
  induction f using induct with
  | h vm visits ih =>
    rintro ⟨here, below⟩
    have hbelow : (visits.flatMap fun v => v.2.flatMap openings).count c =
        n c * (visits.flatMap fun v => v.2.flatMap preorder).count c :=
      count_flatMap_mul fun v hv => count_flatMap_mul fun k hk => ih v hv k hk (below v hv k hk)
    have hhere : visits.length * [vm].count c = n c * [vm].count c := by
      rw [List.count_singleton]
      split
      · next heq => rw [here, beq_iff_eq.mp heq]
      · rfl
    rw [openings_node, preorder_node, count_flatMap_cons, hbelow, hhere, ← Nat.mul_add,
      ← List.count_append, List.singleton_append]

end Family

end Componentry
