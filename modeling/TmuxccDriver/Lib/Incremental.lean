import Mathlib.Data.List.Basic

/-!
# Incremental reading

A reader looks at the symbols it has so far. It waits, refuses them, or takes one item from
their front; what it said of the symbols it does not take back when more arrive
(`ItemReader`). `drain` reads as many items as there are, `feed` does so after every chunk.

Results:
1. `drain_append`: what was read is not read differently with more symbols behind it.
2. `feed_eq_drain`: feeding chunks is draining their concatenation.
3. `drain_flatMap`: items that are each read back from their symbols are read back from the
   concatenation.
-/

namespace TmuxccDriver.Lib

/-- What a reader makes of the symbols it has. -/
inductive Reading (ι ο ε : Type*)
  /-- More symbols are needed. -/
  | wait
  | fail (e : ε)
  | item (x : ο) (rest : List ι)

/-- A reader of one item whose verdict stands whatever comes later. -/
structure ItemReader (ι ο ε : Type*) where
  read : List ι → Reading ι ο ε
  /-- An item is read from symbols of its own. -/
  item_front : ∀ {buf x rest}, read buf = .item x rest →
    ∃ own, own ≠ [] ∧ buf = own ++ rest ∧ ∀ more, read (own ++ more) = .item x more
  fail_append : ∀ {buf e} (more : List ι), read buf = .fail e → read (buf ++ more) = .fail e

namespace ItemReader

variable {ι ο ε : Type*} (R : ItemReader ι ο ε)

theorem shorter {buf rest : List ι} {x : ο} (h : R.read buf = .item x rest) :
    rest.length < buf.length := by
  obtain ⟨own, hown, rfl, -⟩ := R.item_front h
  rw [List.length_append]
  exact Nat.lt_add_of_pos_left (List.length_pos_iff.mpr hown)

theorem item_append {buf rest : List ι} {x : ο} (more : List ι) (h : R.read buf = .item x rest) :
    R.read (buf ++ more) = .item x (rest ++ more) := by
  obtain ⟨own, -, rfl, hread⟩ := R.item_front h
  rw [List.append_assoc, hread]

/-- The items of a buffer, with what is left of it or the reason why reading stopped. -/
def drain (buf : List ι) : List ο × Except ε (List ι) :=
  match _h : R.read buf with
  | .wait => ([], .ok buf)
  | .fail e => ([], .error e)
  | .item x rest => (x :: (drain rest).1, (drain rest).2)
termination_by buf.length
decreasing_by all_goals exact R.shorter ‹_›

/-- Read after every chunk, until reading fails. -/
def feed : List ι → List (List ι) → List ο × Except ε (List ι)
  | pending, [] => ([], .ok pending)
  | pending, chunk :: chunks =>
    match R.drain (pending ++ chunk) with
    | (items, .error e) => (items, .error e)
    | (items, .ok rest) => (items ++ (feed rest chunks).1, (feed rest chunks).2)

variable {R} {buf rest : List ι}

theorem drain_wait (h : R.read buf = .wait) : R.drain buf = ([], .ok buf) := by
  rw [drain]
  split <;> simp_all

theorem drain_fail {e : ε} (h : R.read buf = .fail e) : R.drain buf = ([], .error e) := by
  rw [drain]
  split <;> simp_all

theorem drain_item {x : ο} (h : R.read buf = .item x rest) :
    R.drain buf = (x :: (R.drain rest).1, (R.drain rest).2) := by
  rw [drain]
  split <;> simp_all

/-- A buffer waits, fails, or is an item before a shorter buffer. -/
theorem reading_induction {P : List ι → Prop} (hwait : ∀ buf, R.read buf = .wait → P buf)
    (hfail : ∀ buf e, R.read buf = .fail e → P buf)
    (hitem : ∀ buf x rest, R.read buf = .item x rest → P rest → P buf) (buf : List ι) : P buf := by
  induction hlen : buf.length using Nat.strongRecOn generalizing buf with
  | ind n ih =>
    cases hread : R.read buf with
    | wait => exact hwait buf hread
    | fail e => exact hfail buf e hread
    | item x rest => exact hitem buf x rest hread (ih _ (hlen ▸ R.shorter hread) rest rfl)

/-- What draining leaves waits for more. -/
theorem read_of_drain {items : List ο} (h : R.drain buf = (items, .ok rest)) :
    R.read rest = .wait := by
  induction buf using reading_induction (R := R) generalizing items with
  | hwait buf hread =>
    rw [drain_wait hread] at h
    cases h
    exact hread
  | hfail buf e hread =>
    rw [drain_fail hread] at h
    cases h
  | hitem buf x next hread ih =>
    rw [drain_item hread, Prod.mk.injEq] at h
    exact ih (Prod.ext rfl h.2)

/-- More symbols are read after what was there. -/
theorem drain_append {items : List ο} (h : R.drain buf = (items, .ok rest)) (more : List ι) :
    R.drain (buf ++ more) =
      (items ++ (R.drain (rest ++ more)).1, (R.drain (rest ++ more)).2) := by
  induction buf using reading_induction (R := R) generalizing items with
  | hwait buf hread =>
    rw [drain_wait hread] at h
    cases h
    rfl
  | hfail buf e hread =>
    rw [drain_fail hread] at h
    cases h
  | hitem buf x next hread ih =>
    rw [drain_item hread, Prod.mk.injEq] at h
    have hrest := ih (Prod.ext rfl h.2)
    rw [drain_item (R.item_append more hread), hrest, ← h.1, List.cons_append]

/-- A failure stays one. -/
theorem drain_append_error {items : List ο} {e : ε} (h : R.drain buf = (items, .error e))
    (more : List ι) : R.drain (buf ++ more) = (items, .error e) := by
  induction buf using reading_induction (R := R) generalizing items with
  | hwait buf hread =>
    rw [drain_wait hread] at h
    cases h
  | hfail buf e' hread =>
    rw [drain_fail hread] at h
    cases h
    exact drain_fail (R.fail_append more hread)
  | hitem buf x next hread ih =>
    rw [drain_item hread, Prod.mk.injEq] at h
    have hrest := ih (Prod.ext rfl h.2)
    rw [drain_item (R.item_append more hread), hrest, ← h.1]

/-- How the input was cut does not matter. -/
theorem feed_eq_drain {pending : List ι} (h : R.read pending = .wait) (chunks : List (List ι)) :
    R.feed pending chunks = R.drain (pending ++ chunks.flatten) := by
  induction chunks generalizing pending with
  | nil => rw [feed, List.flatten_nil, List.append_nil, drain_wait h]
  | cons chunk chunks ih =>
    rw [feed, List.flatten_cons, ← List.append_assoc]
    rcases hdrain : R.drain (pending ++ chunk) with ⟨items, _ | rest⟩
    · exact (drain_append_error hdrain _).symm
    · rw [drain_append hdrain]
      simp only [ih (read_of_drain hdrain)]

/-- Items one after the other, each of which is read from its own symbols. -/
theorem drain_flatMap {α : Type*} {encode : α → List ι} {value : α → ο}
    (hnil : R.read [] = .wait) {xs : List α}
    (hread : ∀ x ∈ xs, ∀ more, R.read (encode x ++ more) = .item (value x) more) :
    R.drain (xs.flatMap encode) = (xs.map value, .ok []) := by
  induction xs with
  | nil => exact drain_wait hnil
  | cons x xs ih =>
    have hfirst := hread x List.mem_cons_self (xs.flatMap encode)
    have hrest := ih fun y hy => hread y (List.mem_cons_of_mem x hy)
    rw [List.flatMap_cons, drain_item hfirst, hrest, List.map_cons]

/-- The first item is the one read at the front. -/
theorem head?_drain (buf : List ι) (x : ο) :
    (R.drain buf).1.head? = some x ↔ ∃ rest, R.read buf = .item x rest := by
  cases hread : R.read buf with
  | wait => simp [drain_wait hread]
  | fail e => simp [drain_fail hread]
  | item y rest => simp [drain_item hread]

/-- Nothing is read from a buffer that is refused at once. -/
theorem drain_refused (buf : List ι) (e : ε) :
    R.drain buf = ([], .error e) ↔ R.read buf = .fail e := by
  cases hread : R.read buf with
  | wait => simp [drain_wait hread]
  | fail e => simp [drain_fail hread]
  | item y rest => simp [drain_item hread]

end ItemReader

end TmuxccDriver.Lib
