/-!
# Stacks

A `Stack` is a list, top first, that knows its height without counting.

* `push`, `pop`, `mapTop`: its operations; `items_push`, `items_pop` and `items_mapTop` say what they
  do to the list, and `height_eq` what the height is. `pop_push` and `mapTop_mapTop` are their laws.
-/

namespace ScriptBridge

/-- A list with its length. -/
structure Stack (α : Type) where
  items : List α
  height : Nat
  height_eq : height = items.length

namespace Stack

variable {α : Type}

/-- Nothing. -/
def empty : Stack α := ⟨[], 0, rfl⟩

instance : Inhabited (Stack α) := ⟨empty⟩

/-- Puts an item on top. -/
def push (s : Stack α) (a : α) : Stack α := ⟨a :: s.items, s.height + 1, congrArg (· + 1) s.height_eq⟩

/-- Takes the top off, if there is one. -/
def pop (s : Stack α) : Stack α :=
  match s with
  | ⟨[], n, h⟩ => ⟨[], n, h⟩
  | ⟨_ :: rest, n, h⟩ => ⟨rest, n - 1, congrArg (· - 1) h⟩

/-- Changes the top, if there is one. -/
def mapTop (f : α → α) (s : Stack α) : Stack α :=
  match s with
  | ⟨[], n, h⟩ => ⟨[], n, h⟩
  | ⟨a :: rest, n, h⟩ => ⟨f a :: rest, n, h⟩

/-- The topmost item. -/
def top? (s : Stack α) : Option α := s.items.head?

theorem items_push (s : Stack α) (a : α) : (s.push a).items = a :: s.items := rfl

theorem items_pop (s : Stack α) : s.pop.items = s.items.tail := by
  rcases s with ⟨_ | ⟨_, _⟩, _, _⟩ <;> rfl

theorem items_mapTop (f : α → α) (s : Stack α) : (s.mapTop f).items = s.items.modifyHead f := by
  rcases s with ⟨_ | ⟨_, _⟩, _, _⟩ <;> rfl

theorem pop_push (s : Stack α) (a : α) : (s.push a).pop = s := rfl

theorem mapTop_push (s : Stack α) (a : α) (f : α → α) : (s.push a).mapTop f = s.push (f a) := rfl

theorem mapTop_mapTop (f g : α → α) (s : Stack α) : (s.mapTop f).mapTop g = s.mapTop (g ∘ f) := by
  rcases s with ⟨_ | ⟨_, _⟩, _, _⟩ <;> rfl

theorem mapTop_id (s : Stack α) : s.mapTop id = s := by
  rcases s with ⟨_ | ⟨_, _⟩, _, _⟩ <;> rfl

end Stack

end ScriptBridge
