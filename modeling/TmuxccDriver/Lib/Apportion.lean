import Mathlib.Algebra.BigOperators.Group.List.Basic
import Mathlib.Algebra.Order.Floor.Ring
import Mathlib.Data.List.Sort
import Mathlib.Tactic.Linarith
import Mathlib.Tactic.Ring

/-!
# Apportioning by the largest remainder

A whole total is split by shares: each share is rounded down, and what is left goes,
one each, to the shares with the largest fractions, the earlier first among equal ones.

Results:
1. `pairwise_insertionSort_stable`: a stable sort exchanges only what it has to.
2. `mem_take_iff`: which elements stand first in a sorted list.
3. `sum_largestRemainder_iff`: when the parts sum to the total.
4. `largestRemainder_eq_iff`: they are the only ones that are rounded so.
5. `apportions_of_sum`: the shares need not be exact for it.
-/

namespace TmuxccDriver.Lib

/-! ## What a stable sort puts first -/

section Sorting
variable {α : Type*}

theorem pair_sublist_or {l : List α} {a b : α} (ha : a ∈ l) (hb : b ∈ l) (hne : a ≠ b) :
    [a, b].Sublist l ∨ [b, a].Sublist l := by
  obtain ⟨s, t, rfl⟩ := List.append_of_mem ha
  rcases List.mem_append.mp hb with hs | ht
  · right
    exact (List.singleton_sublist.mpr hs).append (List.singleton_sublist.mpr List.mem_cons_self)
  · left
    have hbt : b ∈ t := (List.mem_cons.mp ht).resolve_left hne.symm
    exact ((List.singleton_sublist.mpr hbt).cons_cons a).trans (List.sublist_append_right s _)

theorem not_pair_sublist {l : List α} (h : l.Nodup) {a b : α} (hab : [a, b].Sublist l) :
    ¬[b, a].Sublist l := by
  intro hba
  induction l with
  | nil => cases hab
  | cons c l ih =>
    obtain ⟨hc, hl⟩ := List.nodup_cons.mp h
    cases hab with
    | cons _ hab =>
      cases hba with
      | cons _ hba => exact ih hl hab hba
      | cons_cons _ hba => exact hc (hab.subset (by simp))
    | cons_cons _ hab =>
      cases hba with
      | cons _ hba => exact hc (hba.subset (by simp))
      | cons_cons _ hba => exact hc (hab.subset (by simp))

/-- Of two elements that may stand either way, a stable sort keeps the order. -/
theorem pairwise_insertionSort_stable {r S : α → α → Prop} [DecidableRel r] [Std.Total r]
    [IsTrans α r] {l : List α} (hl : l.Nodup) (hS : l.Pairwise S) :
    (l.insertionSort r).Pairwise fun a b => r a b ∧ (r b a → S a b) := by
  rw [List.pairwise_iff_forall_sublist]
  intro a b hab
  have hsorted := List.pairwise_iff_forall_sublist.mp (List.pairwise_insertionSort r l) hab
  refine ⟨hsorted, fun hba => ?_⟩
  have hnodup : (l.insertionSort r).Nodup := (List.perm_insertionSort r l).nodup_iff.mpr hl
  have hmem : ∀ c ∈ [a, b], c ∈ l := fun c hc =>
    (List.mem_insertionSort r).mp (hab.subset hc)
  have hne : a ≠ b := by
    have := hnodup.sublist hab
    simpa using this
  rcases pair_sublist_or (hmem a (by simp)) (hmem b (by simp)) hne with hkept | hother
  · exact List.pairwise_iff_forall_sublist.mp hS hkept
  · exact absurd (List.pair_sublist_insertionSort hba hother) (not_pair_sublist hnodup hab)

theorem not_of_mem_drop {p : α → Prop} [DecidablePred p] {l : List α} {k : Nat}
    (hk : l.countP p = k) (htake : ∀ a ∈ l.take k, p a) : ∀ b ∈ l.drop k, ¬p b := by
  have hlen : (l.take k).length = k := by
    rw [List.length_take, Nat.min_eq_left (hk ▸ List.countP_le_length)]
  have hcount : ((l.take k) ++ (l.drop k)).countP p = _ := List.countP_append
  rw [List.take_append_drop, hk, List.countP_eq_length.mpr (by simpa using htake), hlen] at hcount
  have hzero : (l.drop k).countP p = 0 := by omega
  simpa using List.countP_eq_zero.mp hzero

/-- As many elements as have a property stand first in a sorted list: they have it exactly if
each of those that have it comes before each of the others. -/
theorem forall_take_iff {R : α → α → Prop} (hasymm : ∀ a b, R a b → ¬R b a) {l : List α}
    (hl : l.Pairwise R) {p : α → Prop} [DecidablePred p] {k : Nat} (hk : l.countP p = k) :
    (∀ a ∈ l, a ∈ l.take k ↔ p a) ↔ ∀ a ∈ l, ∀ b ∈ l, p a → ¬p b → R a b := by
  have hsplit : ∀ a ∈ l.take k, ∀ b ∈ l.drop k, R a b := by
    rw [← List.take_append_drop k l] at hl
    exact (List.pairwise_append.mp hl).2.2
  have hmem : ∀ a ∈ l, a ∈ l.take k ∨ a ∈ l.drop k := fun a ha =>
    List.mem_append.mp (by rwa [List.take_append_drop])
  constructor
  · intro htake a ha b hb hpa hpb
    exact hsplit a ((htake a ha).mpr hpa) b
      ((hmem b hb).resolve_left fun hin => hpb ((htake b hb).mp hin))
  · intro hbefore
    have htake : ∀ a ∈ l.take k, p a := by
      intro a ha
      by_contra hpa
      -- one that lacks the property leaves one that has it behind
      have hne : (l.take k).countP p ≠ (l.take k).length := fun hall =>
        hpa (by simpa using List.countP_eq_length.mp hall a ha)
      have hlt := lt_of_le_of_ne List.countP_le_length hne
      have hcount : ((l.take k) ++ (l.drop k)).countP p = _ := List.countP_append
      rw [List.take_append_drop, hk] at hcount
      have hpos : 0 < (l.drop k).countP p := by
        have hle := List.length_take_le k l
        omega
      obtain ⟨b, hb, hpb⟩ := List.countP_pos_iff.mp hpos
      exact hasymm _ _ (hsplit a ha b hb)
        (hbefore b (List.mem_of_mem_drop hb) a (List.mem_of_mem_take ha) (by simpa using hpb) hpa)
    intro a ha
    refine ⟨htake a, fun hpa => (hmem a ha).resolve_right fun hout => ?_⟩
    exact not_of_mem_drop hk htake a hout hpa

end Sorting

/-! ## Handing out units -/

/-- One unit to each of the places. -/
def bump (xs : List Int) (places : List Nat) : List Int :=
  places.foldl (fun xs i => xs.modify i (· + 1)) xs

theorem bump_cons (xs : List Int) (place : Nat) (places : List Nat) :
    bump xs (place :: places) = bump (xs.modify place (· + 1)) places := rfl

theorem getElem?_bump {places : List Nat} (h : places.Nodup) (xs : List Int) (i : Nat) :
    (bump xs places)[i]? = xs[i]?.map fun x => x + if i ∈ places then 1 else 0 := by
  induction places generalizing xs with
  | nil => simp [bump]
  | cons place places ih =>
    obtain ⟨hplace, hplaces⟩ := List.nodup_cons.mp h
    have hrec := ih hplaces (xs.modify place (· + 1))
    rw [bump_cons, hrec, List.getElem?_modify]
    by_cases hi : place = i
    · subst hi
      cases xs[place]? <;> simp [hplace]
    · have hne : i ≠ place := Ne.symm hi
      simp [hi, hne]

@[simp] theorem length_bump (xs : List Int) (places : List Nat) :
    (bump xs places).length = xs.length := by
  induction places generalizing xs with
  | nil => rfl
  | cons place places ih => rw [bump_cons, ih, List.length_modify]

theorem bump_map_add (c : Int) (xs : List Int) (places : List Nat) :
    bump (xs.map (c + ·)) places = (bump xs places).map (c + ·) := by
  induction places generalizing xs with
  | nil => rfl
  | cons place places ih =>
    have hmodify : (xs.map (c + ·)).modify place (· + 1) =
        (xs.modify place (· + 1)).map (c + ·) := by
      refine List.ext_getElem? fun i => ?_
      rw [List.getElem?_modify, List.getElem?_map, List.getElem?_map, List.getElem?_modify]
      cases xs[i]? with
      | none => rfl
      | some x =>
        show some (if place = i then c + x + 1 else c + x) =
          some (c + if place = i then x + 1 else x)
        split
        · rw [add_assoc]
        · rfl
    rw [bump_cons, hmodify, ih, bump_cons]

theorem sum_modify {xs : List Int} {i : Nat} (h : i < xs.length) :
    (xs.modify i (· + 1)).sum = xs.sum + 1 := by
  induction xs generalizing i with
  | nil => cases h
  | cons x xs ih =>
    cases i with
    | zero =>
      rw [List.modify_zero_cons, List.sum_cons, List.sum_cons]
      ring
    | succ i =>
      rw [List.modify_succ_cons, List.sum_cons, List.sum_cons, ih (Nat.lt_of_succ_lt_succ h)]
      ring

theorem sum_bump {xs : List Int} {places : List Nat} (h : ∀ i ∈ places, i < xs.length) :
    (bump xs places).sum = xs.sum + places.length := by
  induction places generalizing xs with
  | nil => simp [bump]
  | cons place places ih =>
    obtain ⟨hplace, hplaces⟩ := List.forall_mem_cons.mp h
    rw [bump_cons, ih (by simpa using hplaces), sum_modify hplace,
      List.length_cons]
    push_cast
    ring

/-- Parts that are rounded down or up sum to the rounded ones and one for each that is up. -/
theorem sum_eq_add_countP (xs ts : List Int) (hlen : ts.length = xs.length)
    (h : ∀ i, i < xs.length → ts[i]? = xs[i]? ∨ ts[i]? = xs[i]?.map (· + 1)) :
    ts.sum = xs.sum + (List.range xs.length).countP fun i => ts[i]? = xs[i]?.map (· + 1) := by
  induction xs generalizing ts with
  | nil =>
    obtain rfl : ts = [] := List.eq_nil_of_length_eq_zero hlen
    rfl
  | cons x xs ih =>
    obtain ⟨t, ts, rfl⟩ := List.exists_cons_of_length_eq_add_one hlen
    have hrec := ih ts (by simpa using hlen) fun i hi => h (i + 1) (by simpa using hi)
    have hfirst : t = x ∨ t = x + 1 := by simpa using h 0 (by simp)
    rw [List.sum_cons, List.sum_cons, hrec, List.length_cons, List.range_succ_eq_map,
      List.countP_cons, List.countP_map]
    have hshift : ((fun i => decide ((t :: ts)[i]? = (x :: xs)[i]?.map (· + 1))) ∘ Nat.succ) =
        fun i => decide (ts[i]? = xs[i]?.map (· + 1)) := by
      funext i
      simp
    rw [hshift]
    rcases hfirst with rfl | rfl
    · simp
      ring
    · simp
      ring

/-! ## The largest remainder -/

/-- One share is before another one if its fraction is larger, or else its place is smaller. -/
def Before {K : Type*} [LinearOrder K] (a b : Nat × K) : Prop :=
  b.2 < a.2 ∨ b.2 = a.2 ∧ a.1 < b.1

theorem Before.asymm {K : Type*} [LinearOrder K] {a b : Nat × K} (h : Before a b) :
    ¬Before b a := by
  rintro (hlt | ⟨heq, hplace⟩)
  · rcases h with hlt' | ⟨heq', -⟩
    · exact lt_asymm hlt hlt'
    · exact hlt.ne heq'.symm
  · rcases h with hlt' | ⟨-, hplace'⟩
    · exact hlt'.ne heq.symm
    · exact lt_asymm hplace hplace'

section Remainder
variable {K : Type*} [Field K] [LinearOrder K] [FloorRing K]

/-- The places of the shares and their fractions, the largest first. -/
def remainderOrder (exact : List K) : List (Nat × K) :=
  (exact.zipIdx.map fun share => (share.2, Int.fract share.1)).insertionSort fun a b => b.2 ≤ a.2

def leftover (exact : List K) (total : Int) : Nat := (total - (exact.map Int.floor).sum).toNat

/-- The places of the shares that are rounded up. -/
def roundedUp (exact : List K) (total : Int) : List Nat :=
  ((remainderOrder exact).take (leftover exact total)).map Prod.fst

def largestRemainder (exact : List K) (total : Int) : List Int :=
  bump (exact.map Int.floor) (roundedUp exact total)

theorem perm_remainderOrder (exact : List K) :
    (remainderOrder exact).Perm (exact.zipIdx.map fun share => (share.2, Int.fract share.1)) :=
  List.perm_insertionSort _ _

theorem map_fst_remainderOrder (exact : List K) :
    ((remainderOrder exact).map Prod.fst).Perm (List.range exact.length) := by
  refine ((perm_remainderOrder exact).map _).trans (List.Perm.of_eq ?_)
  rw [List.map_map]
  exact (List.zipIdx_map_snd 0 exact).trans List.range_eq_range'.symm

theorem mem_remainderOrder {exact : List K} {a : Nat × K} :
    a ∈ remainderOrder exact ↔ exact[a.1]?.map Int.fract = some a.2 := by
  rw [(perm_remainderOrder exact).mem_iff, List.mem_map]
  constructor
  · rintro ⟨⟨x, i⟩, hmem, rfl⟩
    rw [List.mem_zipIdx_iff_getElem?] at hmem
    rw [hmem]
    rfl
  · intro h
    obtain ⟨x, hx, hfract⟩ := Option.map_eq_some_iff.mp h
    exact ⟨(x, a.1), List.mem_zipIdx_iff_getElem?.mpr hx, Prod.ext rfl hfract⟩

theorem lt_of_mem_remainderOrder {exact : List K} {a : Nat × K} (h : a ∈ remainderOrder exact) :
    a.1 < exact.length :=
  List.mem_range.mp ((map_fst_remainderOrder exact).mem_iff.mp (List.mem_map_of_mem h))

theorem pairwise_remainderOrder (exact : List K) : (remainderOrder exact).Pairwise Before := by
  have htotal : Std.Total fun a b : Nat × K => b.2 ≤ a.2 := ⟨fun a b => le_total b.2 a.2⟩
  have htrans : IsTrans (Nat × K) fun a b => b.2 ≤ a.2 := ⟨fun _ _ _ hab hbc => hbc.trans hab⟩
  have hplaces : (exact.zipIdx.map fun share => (share.2, Int.fract share.1)).Pairwise
      fun a b => a.1 < b.1 := by
    rw [List.pairwise_map]
    exact List.pairwise_map.mp (List.zipIdx_map_snd 0 exact ▸ List.pairwise_lt_range')
  have hnodup := hplaces.imp (S := fun a b => a ≠ b) fun hlt heq => (heq ▸ hlt).ne rfl
  refine (pairwise_insertionSort_stable hnodup hplaces).imp fun {a b} hab => ?_
  rcases hab.1.lt_or_eq with hlt | heq
  · exact .inl hlt
  · exact .inr ⟨heq, hab.2 heq.ge⟩

theorem nodup_roundedUp (exact : List K) (total : Int) : (roundedUp exact total).Nodup :=
  ((List.take_sublist _ _).map _).nodup
    ((map_fst_remainderOrder exact).nodup_iff.mpr List.nodup_range)

theorem lt_of_mem_roundedUp {exact : List K} {total : Int} {i : Nat}
    (h : i ∈ roundedUp exact total) : i < exact.length :=
  List.mem_range.mp ((map_fst_remainderOrder exact).mem_iff.mp
    (((List.take_sublist _ _).map _).subset h))

@[simp] theorem length_largestRemainder (exact : List K) (total : Int) :
    (largestRemainder exact total).length = exact.length := by
  rw [largestRemainder, length_bump, List.length_map]

theorem getElem?_largestRemainder (exact : List K) (total : Int) (i : Nat) :
    (largestRemainder exact total)[i]? =
      exact[i]?.map fun x => ⌊x⌋ + if i ∈ roundedUp exact total then 1 else 0 := by
  rw [largestRemainder, getElem?_bump (nodup_roundedUp exact total), List.getElem?_map,
    Option.map_map]
  rfl

theorem floor_le_of_mem_largestRemainder {exact : List K} {total part : Int}
    (h : part ∈ largestRemainder exact total) : ∃ x ∈ exact, ⌊x⌋ ≤ part := by
  obtain ⟨i, hi⟩ := List.mem_iff_getElem?.mp h
  rw [getElem?_largestRemainder] at hi
  obtain ⟨x, hx, rfl⟩ := Option.map_eq_some_iff.mp hi
  refine ⟨x, List.mem_of_getElem? hx, ?_⟩
  split <;> omega

theorem mem_take_iff {exact : List K} {total : Int} {a : Nat × K}
    (ha : a ∈ remainderOrder exact) :
    a ∈ (remainderOrder exact).take (leftover exact total) ↔ a.1 ∈ roundedUp exact total := by
  constructor
  · exact fun h => List.mem_map_of_mem h
  · intro h
    obtain ⟨b, hb, hplace⟩ := List.mem_map.mp h
    have hsnd : some b.2 = some a.2 := by
      rw [← mem_remainderOrder.mp (List.mem_of_mem_take hb), ← mem_remainderOrder.mp ha, hplace]
    rwa [show a = b from Prod.ext hplace.symm (Option.some.inj hsnd).symm]

/-- The part at a place is the share rounded up. -/
def RoundsUp (exact : List K) (parts : List Int) (i : Nat) : Prop :=
  parts[i]? = (exact.map Int.floor)[i]?.map (· + 1)

instance (exact : List K) (parts : List Int) : DecidablePred (RoundsUp exact parts) :=
  fun _ => inferInstanceAs (Decidable (_ = _))

/-- Each part is the share rounded down or up. -/
def Rounded (exact : List K) (parts : List Int) : Prop :=
  ∀ i, i < exact.length → parts[i]? = (exact.map Int.floor)[i]? ∨ RoundsUp exact parts i

theorem rounded_largestRemainder (exact : List K) (total : Int) :
    Rounded exact (largestRemainder exact total) := by
  intro i hi
  rw [RoundsUp, getElem?_largestRemainder, List.getElem?_map, List.getElem?_eq_getElem hi]
  by_cases h : i ∈ roundedUp exact total
  · right
    simp [h]
  · left
    simp [h]

theorem roundsUp_largestRemainder {exact : List K} {total : Int} {i : Nat} (hi : i < exact.length) :
    RoundsUp exact (largestRemainder exact total) i ↔ i ∈ roundedUp exact total := by
  rw [RoundsUp, getElem?_largestRemainder, List.getElem?_map, List.getElem?_eq_getElem hi]
  by_cases h : i ∈ roundedUp exact total <;> simp [h]

/-- What the floors leave of the total is not negative, and at most one for each share. -/
structure Apportions (exact : List K) (total : Int) : Prop where
  le : (exact.map Int.floor).sum ≤ total
  ge : total ≤ (exact.map Int.floor).sum + exact.length

instance (exact : List K) (total : Int) : Decidable (Apportions exact total) :=
  decidable_of_iff (_ ∧ _) ⟨fun h => ⟨h.1, h.2⟩, fun h => ⟨h.le, h.ge⟩⟩

theorem Apportions.leftover_eq {exact : List K} {total : Int} (h : Apportions exact total) :
    (leftover exact total : Int) = total - (exact.map Int.floor).sum ∧
      leftover exact total ≤ exact.length := by
  have hle := h.le
  have hge := h.ge
  unfold leftover
  omega

theorem length_roundedUp (exact : List K) (total : Int) :
    (roundedUp exact total).length = min (leftover exact total) exact.length := by
  have hlen : (remainderOrder exact).length = exact.length := by
    simpa using (map_fst_remainderOrder exact).length_eq
  rw [roundedUp, List.length_map, List.length_take, hlen]

/-- The parts sum to the total exactly if the floors leave enough, and not too much. -/
theorem sum_largestRemainder_iff {exact : List K} {total : Int} :
    (largestRemainder exact total).sum = total ↔ Apportions exact total := by
  have hsum : (largestRemainder exact total).sum =
      (exact.map Int.floor).sum + (min (leftover exact total) exact.length : Nat) := by
    rw [largestRemainder, sum_bump fun i hi => by simpa using lt_of_mem_roundedUp hi,
      length_roundedUp]
  rw [hsum]
  constructor
  · intro heq
    unfold leftover at heq
    exact ⟨by omega, by omega⟩
  · intro h
    have hleft := h.leftover_eq
    omega

theorem countP_roundsUp {exact : List K} {total : Int} {parts : List Int}
    (hlen : parts.length = exact.length) (htotal : parts.sum = total)
    (hrounded : Rounded exact parts) :
    (remainderOrder exact).countP (fun a => RoundsUp exact parts a.1) = leftover exact total := by
  have hparts := sum_eq_add_countP (exact.map Int.floor) parts (by simpa using hlen)
    fun i hi => hrounded i (by simpa using hi)
  have hperm :=
    (map_fst_remainderOrder exact).countP_eq (p := fun i => decide (RoundsUp exact parts i))
  rw [List.countP_map] at hperm
  rw [List.length_map] at hparts
  have hplaces : (remainderOrder exact).countP (fun a => RoundsUp exact parts a.1) =
      (List.range exact.length).countP fun i => RoundsUp exact parts i := hperm
  have hcount : (List.range exact.length).countP (fun i => RoundsUp exact parts i) =
      (List.range exact.length).countP fun i =>
        parts[i]? = (exact.map Int.floor)[i]?.map (· + 1) := rfl
  unfold leftover
  omega

/-- The parts are rounded down or up, and those that are rounded up are before the others. No
other parts of the total are. -/
theorem largestRemainder_eq_iff {exact : List K} {total : Int} {parts : List Int}
    (hlen : parts.length = exact.length) (htotal : parts.sum = total) :
    largestRemainder exact total = parts ↔
      Rounded exact parts ∧ ∀ a ∈ remainderOrder exact, ∀ b ∈ remainderOrder exact,
        RoundsUp exact parts a.1 → ¬RoundsUp exact parts b.1 → Before a b := by
  constructor
  · intro heq
    have hrounded : Rounded exact parts := heq ▸ rounded_largestRemainder exact total
    refine ⟨hrounded, (forall_take_iff (fun _ _ h => h.asymm) (pairwise_remainderOrder exact)
      (countP_roundsUp hlen htotal hrounded)).mp fun a ha => ?_⟩
    rw [mem_take_iff ha, ← heq, roundsUp_largestRemainder (lt_of_mem_remainderOrder ha)]
  · rintro ⟨hrounded, hbefore⟩
    have htake := (forall_take_iff (fun _ _ h => h.asymm) (pairwise_remainderOrder exact)
      (countP_roundsUp hlen htotal hrounded)).mpr hbefore
    refine List.ext_getElem? fun i => ?_
    rcases Nat.lt_or_ge i exact.length with hi | hi
    · have hmem : (i, Int.fract exact[i]) ∈ remainderOrder exact :=
        mem_remainderOrder.mpr (by rw [List.getElem?_eq_getElem hi, Option.map_some])
      have hup : i ∈ roundedUp exact total ↔ RoundsUp exact parts i :=
        (mem_take_iff hmem).symm.trans (htake _ hmem)
      rw [getElem?_largestRemainder, List.getElem?_eq_getElem hi, Option.map_some]
      by_cases h : i ∈ roundedUp exact total
      · rw [if_pos h, hup.mp h]
        simp [hi]
      · rw [if_neg h, (hrounded i hi).resolve_right fun hround => h (hup.mpr hround)]
        simp [hi]
    · rw [List.getElem?_eq_none (by simpa using hi), List.getElem?_eq_none (by omega)]

section Sums
variable [IsStrictOrderedRing K]

theorem sum_floor_le (exact : List K) :
    ((exact.map Int.floor).sum : K) ≤ exact.sum ∧
      exact.sum ≤ ((exact.map Int.floor).sum : K) + exact.length := by
  induction exact with
  | nil => simp
  | cons x exact ih =>
    obtain ⟨hle, hge⟩ := ih
    have hfloor := Int.floor_le x
    have hlt := Int.lt_floor_add_one x
    rw [List.map_cons, List.sum_cons, List.sum_cons, List.length_cons, Int.cast_add, Nat.cast_add,
      Nat.cast_one]
    constructor
    · exact add_le_add hfloor hle
    · linarith

/-- It is enough that the shares sum to less than one more or less than the total. -/
theorem apportions_of_sum {exact : List K} {total : Int} (hlow : (total : K) - 1 < exact.sum)
    (hhigh : exact.sum < total + 1) : Apportions exact total := by
  obtain ⟨hle, hge⟩ := sum_floor_le exact
  have hle' : (exact.map Int.floor).sum < total + 1 := by exact_mod_cast hle.trans_lt hhigh
  have hge' : total - 1 < (exact.map Int.floor).sum + exact.length := by
    exact_mod_cast hlow.trans_le hge
  exact ⟨by omega, by omega⟩

end Sums

end Remainder

end TmuxccDriver.Lib
