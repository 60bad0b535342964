import Componentry.Dict
import Componentry.Text.Spelling

/-!
# Layered registries

Assets (components, directives, filters) are registered by name. A registry has its own layer
over the layers of what it was merged over; an entry hides the entries of its name further out.

- `Registry.get?`: the visible entry of an exact name.
- `Registry.resolve?`: the entry of a name in any of its spellings, own entries first.
- `Registry.pushLayer`: a new layer over a registry.
-/

namespace Componentry

structure Registry (α : Type) where
  own : List (String × α) := []
  /-- The layers below the own one, nearest first. -/
  outer : List (List (String × α)) := []
  deriving Repr, Inhabited

namespace Registry

variable {α : Type}

def empty : Registry α := {}

/-- `entries` as a new layer over `r`. -/
def pushLayer (r : Registry α) (entries : Dict α) : Registry α := ⟨entries, r.own :: r.outer⟩

/-- Every layer, the own one first. -/
def layers (r : Registry α) : List (Dict α) := r.own :: r.outer

def insert (r : Registry α) (k : String) (v : α) : Registry α :=
  { r with own := Dict.insert k v r.own }

def get? (r : Registry α) (k : String) : Option α :=
  r.layers.findSome? (Dict.get? · k)

def getOwn? (r : Registry α) (k : String) : Option α := Dict.get? r.own k

def contains (r : Registry α) (k : String) : Bool := (r.get? k).isSome

/-- Every visible name, in order. -/
def keys (r : Registry α) : List String :=
  Dict.keys (r.layers.foldr (fun layer d => layer.foldl (fun d e => Dict.insert e.1 () d) d) [])

/-- The spellings under which `id` is looked up, in order. -/
def spellings (id : String) : List String :=
  let camel := Text.camelize id
  [id, camel, Text.capitalize camel]

/-- The entry of `id` in any spelling. Every spelling is tried among the own entries before any
layer further out. -/
def resolve? (r : Registry α) (id : String) : Option α :=
  match (spellings id).findSome? r.getOwn? with
  | some v => some v
  | none => (spellings id).findSome? r.get?

theorem get?_pushLayer (r : Registry α) (entries : Dict α) (k : String) :
    (r.pushLayer entries).get? k =
      match Dict.get? entries k with
      | some v => some v
      | none => r.get? k := by
  simp only [get?, layers, pushLayer, List.findSome?_cons]
  cases Dict.get? entries k <;> rfl

theorem get?_insert (r : Registry α) (k j : String) (v : α) :
    (r.insert k v).get? j = if j = k then some v else r.get? j := by
  simp only [get?, layers, insert, List.findSome?_cons, Dict.get?_insert]
  by_cases h : j = k <;> simp [h]

end Registry

end Componentry
