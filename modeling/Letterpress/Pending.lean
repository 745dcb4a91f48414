/-!
# Pending Results

A result that may take a while. It is either there, or it will be there after some more steps
of waiting, of which every wait has finitely many. Several pending results can be waited for
together: each round moves every unfinished one ahead by one step, and the waiting is over
when the slowest is done.

The number of steps shows up nowhere in a result, so a caller cannot tell a filter that
answers at once from one that waits.

## Main definitions

* `Pending`: A result now or later.
* `Pending.result`: The result, after all waiting.
* `Pending.map`, `Pending.bind`: Going on with a pending result.
* `Pending.both`, `Pending.all`: Waiting for several results together.

## Theorems

* `Pending.result_bind`: Going on with a pending result goes on with its result.
* `Pending.result_both`, `Pending.result_all`: Waiting together loses and mixes up nothing.
-/

namespace Letterpress

/-- A result that is there, or will be after one more step. -/
inductive Pending (α : Type u) where
  | done (a : α)
  | later (rest : Pending α)

namespace Pending

variable {α : Type u} {β : Type v}

/-- The result, after all waiting. -/
def result : Pending α → α
  | .done a => a
  | .later p => p.result

/-- Applies a function to the result. -/
def map (f : α → β) : Pending α → Pending β
  | .done a => .done (f a)
  | .later p => .later (p.map f)

/-- Goes on with the result, which may take another while. -/
def bind (p : Pending α) (f : α → Pending β) : Pending β :=
  match p with
  | .done a => f a
  | .later p => .later (p.bind f)

/-- Waits for two results together. -/
def both : Pending α → Pending β → Pending (α × β)
  | .done a, q => q.map fun b => (a, b)
  | .later p, .done b => .later (p.map fun a => (a, b))
  | .later p, .later q => .later (p.both q)

/-- Waits for a list of results together. -/
def all : List (Pending α) → Pending (List α)
  | [] => .done []
  | p :: ps => (p.both (all ps)).map fun (a, as) => a :: as

@[simp]
theorem result_done (a : α) : (done a).result = a := rfl

@[simp]
theorem result_later (p : Pending α) : (later p).result = p.result := rfl

@[simp]
theorem result_map (f : α → β) (p : Pending α) : (p.map f).result = f p.result := by
  induction p with
  | done => rfl
  | later p ih => exact ih

@[simp]
theorem result_bind (p : Pending α) (f : α → Pending β) :
    (p.bind f).result = (f p.result).result := by
  induction p with
  | done => rfl
  | later p ih => exact ih

@[simp]
theorem result_both (p : Pending α) (q : Pending β) :
    (p.both q).result = (p.result, q.result) := by
  induction p generalizing q with
  | done => simp [both]
  | later p ih =>
    cases q with
    | done => simp [both]
    | later q => simp [both, ih]

@[simp]
theorem result_all (ps : List (Pending α)) : (all ps).result = ps.map result := by
  induction ps with
  | nil => rfl
  | cons p ps ih => simp [all, ih]

end Pending

end Letterpress
