/-!
# The registry of shutdown hooks

Hooks wait in the order of registration. The first drain takes them all, last registered first, and
seals the registry: what is registered afterwards is dropped, since the sweep it would belong to has
already happened.
-/

namespace SupervisedWorker

/-- A unit of work for the end of the process, with the identity by which it can be withdrawn. -/
structure Hook (α : Type) where
  id : Nat
  name : String
  action : α
deriving DecidableEq, Repr, Inhabited

/-- The hooks that wait, the oldest first, and whether the registry is sealed. -/
structure Registry (α : Type) where
  hooks : List (Hook α)
  drained : Bool
deriving DecidableEq, Repr, Inhabited

namespace Registry

variable {α : Type}

/-- A registry without hooks. -/
def empty : Registry α := ⟨[], false⟩

/-- Appends a hook, unless the registry is sealed. -/
def register (r : Registry α) (h : Hook α) : Registry α :=
  if r.drained then r else { r with hooks := r.hooks ++ [h] }

/-- Withdraws the first hook with the given identity, and tells whether there was one. -/
def deregister (r : Registry α) (id : Nat) : Bool × Registry α :=
  (r.hooks.any (·.id == id), { r with hooks := r.hooks.eraseP (·.id == id) })

/-- Takes all hooks, last registered first, and seals the registry. -/
def drain (r : Registry α) : List (Hook α) × Registry α := (r.hooks.reverse, ⟨[], true⟩)

/-- How many hooks wait. -/
def size (r : Registry α) : Nat := r.hooks.length

def isEmpty (r : Registry α) : Bool := r.hooks.isEmpty

/-- The names of the waiting hooks, the oldest first. -/
def names (r : Registry α) : List String := r.hooks.map (·.name)

end Registry

end SupervisedWorker
