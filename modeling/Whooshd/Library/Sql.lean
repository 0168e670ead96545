import Mathlib
import Whooshd.Library.Dict

set_option autoImplicit true

namespace Sql

/-- `SUM`: nulls are passed over, and the sum of nothing else is null. -/
def sum (xs : List (Option Int)) : Option Int :=
  match xs.filterMap id with
  | [] => none
  | y :: ys => some (y :: ys).sum

def coalesce (x : Option α) (y : α) : α := x.getD y

/-- `CASE WHEN .. THEN 1 ELSE 0 END`. -/
def indicator (b : Bool) : Option Int := some (if b then 1 else 0)

variable {κ ρ : Type} [DecidableEq κ]

/-- `INSERT .. ON CONFLICT(key) DO UPDATE`. -/
def upsert (table : Dict κ ρ) (key : κ) (new : ρ) (update : ρ → ρ) : Dict κ ρ :=
  table.set key ((table.get? key).elim new update)

theorem upsert_get? (table : Dict κ ρ) (key : κ) (new : ρ) (update : ρ → ρ) (k : κ) :
    (upsert table key new update).get? k =
      if k = key then some ((table.get? key).elim new update) else table.get? k :=
  Dict.get?_set _ _ _

theorem coalesce_sum (xs : List (Option Int)) : coalesce (sum xs) 0 = (xs.filterMap id).sum := by
  unfold sum coalesce
  split
  · next hnone => rw [hnone, Option.getD_none, List.sum_nil]
  · next hsome => rw [hsome, Option.getD_some]

theorem sum_indicator (xs : List α) (p : α → Bool) :
    sum (xs.map fun x => indicator (p x)) =
      if xs = [] then none else some (xs.countP p : Int) := by
  have hvalues : ∀ ys : List α, (ys.map fun x => indicator (p x)).filterMap id =
      ys.map fun x => if p x then (1 : Int) else 0 := by
    intro ys
    rw [List.filterMap_map, ← List.filterMap_eq_map]
    rfl
  have hcount : ∀ ys : List α, (ys.map fun x => if p x then (1 : Int) else 0).sum =
      (ys.countP p : Int) := by
    intro ys
    induction ys with
    | nil => rfl
    | cons y ys ih =>
      rw [List.map_cons, List.sum_cons, ih, List.countP_cons]
      split <;> simp [Int.add_comm]
  cases xs with
  | nil => rfl
  | cons x xs =>
    rw [if_neg (List.cons_ne_nil _ _), ← hcount, sum, hvalues, List.map_cons]

end Sql
