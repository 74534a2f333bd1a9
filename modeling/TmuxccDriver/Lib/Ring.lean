import Mathlib.Data.List.Basic
import Mathlib.Data.List.Perm.Basic

/-!
# Rings of cells

An array that is written round and round: one cell is current, and to advance is to overwrite
the oldest cell and make it the current one. Read from the current cell backwards, the array is
the list of what was written last.

Results:
1. `recent_modify`: to change the current cell is to change the head.
2. `recent_advance`: to advance is to add a head and to lose the last.
3. `recent_perm`: the cells are the list, in another order.
-/

namespace TmuxccDriver.Lib.Ring

variable {α : Type*}

/-- The cell after `cur`. -/
def next (cells : List α) (cur : Nat) : Nat := (cur + 1) % cells.length

/-- The cells from the current one backwards, the oldest last. -/
def recent (cells : List α) (cur : Nat) : List α :=
  (cells.drop (cur + 1) ++ cells.take (cur + 1)).reverse

theorem recent_perm (cells : List α) (cur : Nat) : (recent cells cur).Perm cells := by
  have happ : (cells.drop (cur + 1) ++ cells.take (cur + 1)).Perm
      (cells.take (cur + 1) ++ cells.drop (cur + 1)) := List.perm_append_comm
  rw [List.take_append_drop] at happ
  exact (List.reverse_perm _).trans happ

theorem next_lt {cells : List α} {cur : Nat} (h : cur < cells.length) :
    next cells cur < cells.length := Nat.mod_lt _ (Nat.zero_lt_of_lt h)

theorem exists_split {cells : List α} {cur : Nat} (h : cur < cells.length) :
    ∃ before a after, cells = before ++ a :: after ∧ before.length = cur :=
  ⟨cells.take cur, cells[cur], cells.drop (cur + 1), by simp,
    List.length_take_of_le (Nat.le_of_lt h)⟩

/-- The current cell is the head. -/
theorem recent_split (before after : List α) (a : α) :
    recent (before ++ a :: after) before.length = a :: (before.reverse ++ after.reverse) := by
  have hlen : (before ++ [a]).length = before.length + 1 := List.length_append
  have hcells : before ++ a :: after = (before ++ [a]) ++ after := by simp
  rw [recent, hcells, List.drop_left' hlen, List.take_left' hlen]
  simp

theorem recent_modify {cells : List α} {cur : Nat} (h : cur < cells.length) (f : α → α) :
    recent (cells.modify cur f) cur = (recent cells cur).modifyHead f := by
  obtain ⟨before, a, after, rfl, rfl⟩ := exists_split h
  have hmodify : (before ++ a :: after).modify before.length f = before ++ f a :: after := by
    rw [List.modify_eq_take_cons_drop h, List.take_left' rfl,
      List.getElem_append_right (Nat.le_refl _)]
    simp
  rw [hmodify, recent_split, recent_split]
  rfl

theorem recent_advance {cells : List α} {cur : Nat} (h : cur < cells.length) (a : α) :
    recent (cells.set (next cells cur) a) (next cells cur) = a :: (recent cells cur).dropLast := by
  obtain ⟨before, b, after, rfl, rfl⟩ := exists_split h
  rw [recent_split]
  cases after with
  | nil =>
    -- round to the first cell
    have hnext : next (before ++ [b]) before.length = 0 := by simp [next]
    rw [hnext]
    rcases before with _ | ⟨c, before⟩
    · simp [recent]
    · have hdrop : (b :: before.reverse ++ [c]).dropLast = b :: before.reverse :=
        List.dropLast_concat
      simpa [recent] using hdrop.symm
  | cons c after =>
    -- the cell after the current one
    have hnext : next (before ++ b :: c :: after) before.length = (before ++ [b]).length := by
      simp only [next, List.length_append, List.length_cons, List.length_nil]
      exact Nat.mod_eq_of_lt (by omega)
    have hcells : before ++ b :: c :: after = (before ++ [b]) ++ c :: after := by simp
    rw [hnext, hcells, List.set_append_right _ _ (Nat.le_refl _), Nat.sub_self, List.set_cons_zero,
      recent_split]
    have hdrop : (b :: (before.reverse ++ after.reverse) ++ [c]).dropLast =
        b :: (before.reverse ++ after.reverse) := List.dropLast_concat
    simpa using hdrop.symm

end TmuxccDriver.Lib.Ring
