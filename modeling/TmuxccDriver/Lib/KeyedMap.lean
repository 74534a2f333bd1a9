import Mathlib.Data.List.Nodup
import Mathlib.Data.List.Basic
import TmuxccDriver.Lib.Run

/-!
# Insertion-ordered maps of records

A JavaScript `Map` whose values carry their own key. Iteration is in the order of the
first insertion; setting a key that is present keeps its place. No two values have the
same key, and that is a field of the structure.

Results:
1. `get?_eq_some`: a lookup finds exactly the member with the key.
2. `get?_set`, `get?_delete`, `get?_mapValues`, `get?_ofList_map`: what a lookup sees after
   each operation. `OrderedSet.mem_set`, `OrderedSet.mem_delete`: the same for a set.
3. `foldl_filterMap_at`: folding messages made from the values, one for each value at
   most, acts on the slot of a key as the one message made from that key's value.
4. `exec_flatMap_at`: the same for messages that a slot may refuse.
5. `mapValues_set`: a map over the values commutes with setting one.
-/

namespace TmuxccDriver.Lib

variable {α β κ σ δ : Type}

structure KeyedMap (key : α → κ) where
  values : List α
  nodup : (values.map key).Nodup

namespace KeyedMap

variable {key : α → κ}

def empty : KeyedMap key := ⟨[], List.nodup_nil⟩

variable [DecidableEq κ]

def get? (m : KeyedMap key) (k : κ) : Option α := m.values.find? fun a => key a = k

def has (m : KeyedMap key) (k : κ) : Bool := (m.get? k).isSome

/-! ## Lookups -/

theorem get?_eq_some {m : KeyedMap key} {k : κ} {a : α} :
    m.get? k = some a ↔ a ∈ m.values ∧ key a = k := by
  constructor
  · intro h
    exact ⟨List.mem_of_find?_eq_some h, by simpa using List.find?_some h⟩
  · rintro ⟨hmem, rfl⟩
    obtain ⟨b, hb⟩ : ∃ b, m.get? (key a) = some b :=
      Option.isSome_iff_exists.mp (List.find?_isSome.mpr ⟨a, hmem, by simp⟩)
    have hkey : key b = key a := by simpa using List.find?_some hb
    rw [hb, List.inj_on_of_nodup_map m.nodup (List.mem_of_find?_eq_some hb) hmem hkey]

theorem get?_eq_none {m : KeyedMap key} {k : κ} :
    m.get? k = none ↔ ∀ a ∈ m.values, key a ≠ k := by
  simp [get?, List.find?_eq_none]

theorem get?_self {m : KeyedMap key} {a : α} (h : a ∈ m.values) : m.get? (key a) = some a :=
  get?_eq_some.mpr ⟨h, rfl⟩

theorem key_of_get? {m : KeyedMap key} {k : κ} {a : α} (h : m.get? k = some a) : key a = k :=
  (get?_eq_some.mp h).2

theorem mem_of_get? {m : KeyedMap key} {k : κ} {a : α} (h : m.get? k = some a) :
    a ∈ m.values :=
  (get?_eq_some.mp h).1

omit [DecidableEq κ] in
/-- No two values have the same key. -/
theorem eq_of_key {m : KeyedMap key} {a b : α} (ha : a ∈ m.values) (hb : b ∈ m.values)
    (h : key a = key b) : a = b :=
  List.inj_on_of_nodup_map m.nodup ha hb h

theorem has_iff {m : KeyedMap key} {k : κ} : m.has k = true ↔ ∃ a, m.get? k = some a := by
  simp [has, Option.isSome_iff_exists]

theorem has_iff_mem {m : KeyedMap key} {k : κ} : m.has k = true ↔ ∃ a ∈ m.values, key a = k := by
  simp only [has_iff, get?_eq_some]

theorem has_of_mem {m : KeyedMap key} {a : α} (h : a ∈ m.values) : m.has (key a) = true :=
  has_iff_mem.mpr ⟨a, h, rfl⟩

theorem has_eq_false {m : KeyedMap key} {k : κ} : m.has k = false ↔ m.get? k = none := by
  simp [has]

@[simp] theorem get?_empty (k : κ) : (empty : KeyedMap key).get? k = none := rfl

/-! ## Updates -/

/-- `map.set(key a, a)`. -/
def set (m : KeyedMap key) (a : α) : KeyedMap key :=
  if h : m.has (key a) = true then
    { values := m.values.map fun b => if key b = key a then a else b
      nodup := by
        have hkeys : (m.values.map fun b => if key b = key a then a else b).map key =
            m.values.map key := by
          rw [List.map_map]
          refine List.map_congr_left fun b _ => ?_
          show key (if key b = key a then a else b) = key b
          split
          · next hb => exact hb.symm
          · rfl
        rw [hkeys]
        exact m.nodup }
  else
    { values := m.values ++ [a]
      nodup := by
        have hnone := get?_eq_none.mp (has_eq_false.mp (by simpa using h))
        rw [List.map_append, List.map_singleton]
        refine List.nodup_append.mpr ⟨m.nodup, List.nodup_singleton _, ?_⟩
        rintro k hk _ hk' rfl
        obtain ⟨b, hb, rfl⟩ := List.mem_map.mp hk
        exact hnone b hb (List.mem_singleton.mp hk') }

/-- `map.delete(k)`. -/
def delete (m : KeyedMap key) (k : κ) : KeyedMap key :=
  { values := m.values.filter fun a => key a ≠ k
    nodup := m.nodup.sublist (List.filter_sublist.map key) }

/-- The entries that pass a test. -/
def filter (m : KeyedMap key) (p : α → Bool) : KeyedMap key :=
  { values := m.values.filter p
    nodup := m.nodup.sublist (List.filter_sublist.map key) }

/-- The map without its oldest entries. -/
def drop (m : KeyedMap key) (n : Nat) : KeyedMap key :=
  { values := m.values.drop n
    nodup := m.nodup.sublist ((List.drop_sublist n m.values).map key) }

theorem mem_delete {m : KeyedMap key} {a : α} {k : κ} :
    a ∈ (m.delete k).values ↔ a ∈ m.values ∧ key a ≠ k := by
  rw [delete, List.mem_filter, decide_eq_true_eq]

/-- A loop that sets every entry again under its own key. -/
def mapValues (m : KeyedMap key) (f : α → α) (hf : ∀ a, key (f a) = key a) : KeyedMap key :=
  { values := m.values.map f
    nodup := by
      have hkeys : (m.values.map f).map key = m.values.map key := by
        rw [List.map_map]
        exact List.map_congr_left fun a _ => hf a
      rw [hkeys]
      exact m.nodup }

/-- The map filled from an array, a later value replacing an earlier one. -/
def ofList (as : List α) : KeyedMap key := as.foldl set empty

theorem get?_set (m : KeyedMap key) (a : α) (k : κ) :
    (m.set a).get? k = if key a = k then some a else m.get? k := by
  unfold set
  split
  · next h =>
    show List.find? _ (m.values.map _) = _
    rw [List.find?_map]
    split
    · next hk =>
      obtain ⟨b, hb, hkey⟩ := has_iff_mem.mp h
      have hsome : m.values.find? (fun b => key b = key a) = some b :=
        get?_eq_some.mpr ⟨hb, hkey⟩
      have hcongr : ∀ b, ((fun a => decide (key a = k)) ∘ fun b => if key b = key a then a else b) b
          = decide (key b = key a) := by
        intro b
        rw [Function.comp_apply, ← hk]
        split
        · next hb => simp [hb]
        · rfl
      rw [funext hcongr, hsome]
      simp [hkey]
    · next hk =>
      have hcongr : ∀ b, ((fun a => decide (key a = k)) ∘ fun b => if key b = key a then a else b) b
          = decide (key b = k) := by
        intro b
        by_cases hb : key b = key a <;> simp [hb, hk]
      rw [funext hcongr]
      show Option.map _ (m.get? k) = m.get? k
      cases hget : m.get? k with
      | none => rfl
      | some b =>
        have hne : key b ≠ key a := fun hba => hk (hba ▸ key_of_get? hget)
        simp [hne]
  · next h =>
    have hnone := get?_eq_none.mp (has_eq_false.mp (by simpa using h))
    show List.find? _ (m.values ++ [a]) = _
    rw [List.find?_append]
    split
    · next hk =>
      subst hk
      have : m.values.find? (fun b => decide (key b = key a)) = none := by
        simpa [List.find?_eq_none] using hnone
      rw [this]
      simp
    · next hk =>
      show (m.get? k).or _ = m.get? k
      simp [hk]

theorem mem_iff_get? {m : KeyedMap key} {a : α} : a ∈ m.values ↔ m.get? (key a) = some a := by
  rw [get?_eq_some, and_iff_left rfl]

theorem mem_set {m : KeyedMap key} {a b : α} :
    b ∈ (m.set a).values ↔ b = a ∨ b ∈ m.values ∧ key b ≠ key a := by
  rw [mem_iff_get?, get?_set, mem_iff_get?]
  split
  · next h => simp [h, eq_comm]
  · next h =>
    constructor
    · exact fun hget => .inr ⟨hget, fun hkey => h hkey.symm⟩
    · rintro (rfl | ⟨hget, -⟩)
      · exact absurd rfl h
      · exact hget

theorem has_set (m : KeyedMap key) (a : α) (k : κ) :
    (m.set a).has k = (decide (key a = k) || m.has k) := by
  rw [has, get?_set]
  split
  · next h => simp [h]
  · next h => simp [h, has]

/-- A new key comes last. -/
theorem values_set_new {m : KeyedMap key} {a : α} (h : m.has (key a) = false) :
    (m.set a).values = m.values ++ [a] := by
  unfold set
  rw [dif_neg (by simp [h])]

/-- A known key keeps its place. -/
theorem values_set_old {m : KeyedMap key} {a b : α} (h : m.get? (key a) = some b) :
    ∃ before after, m.values = before ++ b :: after ∧
      (m.set a).values = before ++ a :: after := by
  have hkey := key_of_get? h
  obtain ⟨before, after, hsplit⟩ := List.append_of_mem (mem_of_get? h)
  have hnodup := m.nodup
  rw [hsplit, List.map_append, List.map_cons] at hnodup
  obtain ⟨-, hafter, hbefore⟩ := List.nodup_append.mp hnodup
  refine ⟨before, after, hsplit, ?_⟩
  have hother : ∀ l : List α, (∀ c ∈ l, key c ≠ key b) →
      l.map (fun c => if key c = key a then a else c) = l := by
    intro l hl
    refine (List.map_congr_left fun c hc => ?_).trans (List.map_id l)
    exact if_neg (hkey ▸ hl c hc)
  unfold set
  rw [dif_pos (has_iff.mpr ⟨b, h⟩)]
  show m.values.map _ = _
  rw [hsplit, List.map_append, List.map_cons, if_pos hkey, hother before, hother after]
  · exact fun c hc hsame => (List.nodup_cons.mp hafter).1 (hsame ▸ List.mem_map_of_mem hc)
  · exact fun c hc => hbefore _ (List.mem_map_of_mem hc) _ List.mem_cons_self

theorem length_set_le (m : KeyedMap key) (a : α) :
    (m.set a).values.length ≤ m.values.length + 1 := by
  unfold set
  split
  · exact Nat.le_trans (Nat.le_of_eq (List.length_map _)) (Nat.le_succ _)
  · exact Nat.le_of_eq List.length_append

/-- The other entries keep their places. -/
theorem mem_drop_set {m : KeyedMap key} {a b : α} {n : Nat} (h : b ∈ m.values.drop n)
    (hne : key b ≠ key a) : b ∈ (m.set a).values.drop n := by
  unfold set
  split
  · show b ∈ (m.values.map _).drop n
    rw [← List.map_drop]
    exact List.mem_map.mpr ⟨b, h, if_neg hne⟩
  · show b ∈ (m.values ++ [a]).drop n
    rw [List.drop_append]
    exact List.mem_append_left _ h

/-- A filter on the keys. -/
theorem get?_filter_key (m : KeyedMap key) (p : κ → Bool) (k : κ) :
    (m.filter fun a => p (key a)).get? k = if p k then m.get? k else none := by
  ext a
  rw [get?_eq_some, filter, List.mem_filter]
  split
  · next hp =>
    rw [get?_eq_some]
    exact ⟨fun h => ⟨h.1.1, h.2⟩, fun h => ⟨⟨h.1, h.2 ▸ hp⟩, h.2⟩⟩
  · next hp => exact iff_of_false (fun h => hp (h.2 ▸ h.1.2)) (by simp)

theorem get?_delete (m : KeyedMap key) (k' k : κ) :
    (m.delete k').get? k = if k = k' then none else m.get? k := by
  split
  · next h =>
    subst h
    refine get?_eq_none.mpr fun a ha => ?_
    simpa using (List.mem_filter.mp ha).2
  · next h =>
    show List.find? _ (m.values.filter _) = _
    rw [List.find?_filter]
    show List.find? _ m.values = List.find? _ m.values
    congr 1
    funext a
    by_cases ha : key a = k <;> simp [ha, h]

theorem get?_mapValues (m : KeyedMap key) (f : α → α) (hf : ∀ a, key (f a) = key a) (k : κ) :
    (m.mapValues f hf).get? k = (m.get? k).map f := by
  show List.find? _ (m.values.map f) = _
  rw [List.find?_map]
  have hcongr : ((fun a => decide (key a = k)) ∘ f) = fun a => decide (key a = k) := by
    funext a
    rw [Function.comp_apply, hf]
  rw [hcongr]
  rfl

theorem has_mapValues (m : KeyedMap key) (f : α → α) (hf : ∀ a, key (f a) = key a) (k : κ) :
    (m.mapValues f hf).has k = m.has k := by
  rw [has, has, get?_mapValues, Option.isSome_map]

omit [DecidableEq κ] in
theorem eq_of_values {m m' : KeyedMap key} (h : m.values = m'.values) : m = m' := by
  obtain ⟨values, nodup⟩ := m
  subst h
  rfl

theorem mapValues_set (m : KeyedMap key) (f : α → α) (hf : ∀ a, key (f a) = key a) (a : α) :
    (m.set a).mapValues f hf = (m.mapValues f hf).set (f a) := by
  have hhas : (m.mapValues f hf).has (key (f a)) = m.has (key a) := by
    rw [has_mapValues, hf]
  apply eq_of_values
  show (m.set a).values.map f = ((m.mapValues f hf).set (f a)).values
  unfold set
  by_cases h : m.has (key a) = true
  · rw [dif_pos h, dif_pos (hhas.trans h)]
    show (m.values.map _).map f = (m.values.map f).map _
    rw [List.map_map, List.map_map]
    refine List.map_congr_left fun b _ => ?_
    simp only [Function.comp_apply, hf]
    split <;> rfl
  · rw [dif_neg h, dif_neg (hhas ▸ h)]
    exact List.map_append

/-- Setting what is there already changes nothing. -/
theorem set_eq_self {m : KeyedMap key} {a : α} (h : m.get? (key a) = some a) : m.set a = m := by
  obtain ⟨before, after, hvalues, hset⟩ := values_set_old h
  exact eq_of_values (hset.trans hvalues.symm)

omit [DecidableEq κ] in
/-- A second map that does not see what the first one changes. -/
theorem mapValues_mapValues (m : KeyedMap key) {f g : α → α} (hf : ∀ a, key (f a) = key a)
    (hg : ∀ a, key (g a) = key a) (h : ∀ a, f (g a) = f a) :
    (m.mapValues g hg).mapValues f hf = m.mapValues f hf := by
  apply eq_of_values
  show (m.values.map g).map f = m.values.map f
  rw [List.map_map]
  exact List.map_congr_left fun a _ => h a

theorem get?_foldl_set (as : List α) (m : KeyedMap key) (hnodup : (as.map key).Nodup) (k : κ) :
    (as.foldl set m).get? k = (as.find? fun a => key a = k).or (m.get? k) := by
  induction as generalizing m with
  | nil => rfl
  | cons a as ih =>
    obtain ⟨ha, has⟩ := List.nodup_cons.mp hnodup
    rw [List.foldl_cons, ih _ has, get?_set]
    split
    · next hk =>
      have hnone : as.find? (fun b => decide (key b = k)) = none := by
        refine List.find?_eq_none.mpr fun b hb => ?_
        have hne : key b ≠ key a := fun h => ha (h ▸ List.mem_map_of_mem hb)
        simpa [← hk] using hne
      simp [hk, hnone]
    · next hk => simp [hk]

/-- A map filled from the distinct-keyed image of another map's values. -/
theorem get?_ofList_map {key' : β → κ} (m : KeyedMap key) (f : α → β)
    (hf : ∀ a, key' (f a) = key a) (k : κ) :
    (ofList (m.values.map f) : KeyedMap key').get? k = (m.get? k).map f := by
  have hkeys : (m.values.map f).map key' = m.values.map key := by
    rw [List.map_map]
    exact List.map_congr_left fun a _ => hf a
  rw [ofList, get?_foldl_set _ _ (by rw [hkeys]; exact m.nodup), List.find?_map]
  have hcongr : ((fun b => decide (key' b = k)) ∘ f) = fun a => decide (key a = k) := by
    funext a
    simp [hf]
  rw [hcongr, get?_empty, Option.or_none]
  rfl

/-! ## Sets -/

end KeyedMap

/-- A JavaScript `Set`: every value is its own key. -/
abbrev OrderedSet (α : Type) := KeyedMap (id : α → α)

namespace OrderedSet

variable [DecidableEq α] {m : OrderedSet α} {a b : α}

theorem mem_set : b ∈ (KeyedMap.set m a).values ↔ b = a ∨ b ∈ m.values := by
  rw [KeyedMap.mem_set]
  rcases eq_or_ne b a with rfl | hne
  · simp
  · simp [hne]

theorem mem_delete : b ∈ (KeyedMap.delete m a).values ↔ b ∈ m.values ∧ b ≠ a :=
  KeyedMap.mem_delete

end OrderedSet

namespace KeyedMap

variable {key : α → κ} [DecidableEq κ]

/-! ## Folding messages made from the values -/

theorem foldl_ignored {step : σ → δ → σ} {ds : List δ} (h : ∀ d ∈ ds, ∀ s, step s d = s) (s : σ) :
    ds.foldl step s = s := by
  induction ds generalizing s with
  | nil => rfl
  | cons d ds ih =>
    rw [List.foldl_cons, h d List.mem_cons_self]
    exact ih (fun d hd => h d (List.mem_cons_of_mem _ hd)) s

/-- `step` folds messages into a slot. If no message made from another key's value
touches the slot of `k`, folding all messages is folding the one of `k`. -/
theorem foldl_filterMap_at (m : KeyedMap key) (message : α → Option δ) (step : σ → δ → σ) (k : κ)
    (hother : ∀ a ∈ m.values, key a ≠ k → ∀ d, message a = some d → ∀ s, step s d = s) (s : σ) :
    (m.values.filterMap message).foldl step s = ((m.get? k).bind message).toList.foldl step s := by
  obtain ⟨values, nodup⟩ := m
  show _ = ((List.find? _ values).bind message).toList.foldl step s
  induction values generalizing s with
  | nil => rfl
  | cons a as ih =>
    obtain ⟨ha, has⟩ := List.nodup_cons.mp nodup
    have ih' := fun s => ih s has fun b hb => hother b (List.mem_cons_of_mem _ hb)
    by_cases hk : key a = k
    · have hnone : as.find? (fun b => decide (key b = k)) = none := by
        refine List.find?_eq_none.mpr fun b hb => ?_
        have hne : key b ≠ key a := fun h => ha (h ▸ List.mem_map_of_mem hb)
        simpa [← hk] using hne
      rw [hnone] at ih'
      cases hmsg : message a with
      | none => simpa [List.filterMap_cons, hmsg, hk] using ih' s
      | some d => simpa [List.filterMap_cons, hmsg, hk] using ih' (step s d)
    · cases hmsg : message a with
      | none => simpa [List.filterMap_cons, hmsg, hk] using ih' s
      | some d =>
        have hskip := hother a List.mem_cons_self hk d hmsg s
        simpa [List.filterMap_cons, hmsg, hk, hskip] using ih' s

/-! ## Running messages made from the values -/

theorem exec_ignored {step : σ → δ → Option σ} {ds : List δ} {s : σ}
    (h : ∀ d ∈ ds, step s d = some s) : exec step s ds = some s := by
  induction ds with
  | nil => rfl
  | cons d ds ih =>
    rw [exec_cons, h d List.mem_cons_self]
    exact ih fun d hd => h d (List.mem_cons_of_mem _ hd)

/-- If no message made from another key's value touches the slot of `k`, running all messages is
running those of `k`. -/
theorem exec_flatMap_at (m : KeyedMap key) (messages : α → List δ) (step : σ → δ → Option σ) (k : κ)
    (hother : ∀ a ∈ m.values, key a ≠ k → ∀ d ∈ messages a, ∀ s, step s d = some s) (s : σ) :
    exec step s (m.values.flatMap messages) =
      ((m.get? k).map fun a => exec step s (messages a)).getD (some s) := by
  cases hget : m.get? k with
  | none =>
    refine exec_ignored fun d hd => ?_
    obtain ⟨a, ha, hmem⟩ := List.mem_flatMap.mp hd
    exact hother a ha (get?_eq_none.mp hget a ha) d hmem s
  | some a =>
    obtain ⟨before, after, hsplit⟩ := List.append_of_mem (mem_of_get? hget)
    have hkey := key_of_get? hget
    have hnodup := m.nodup
    rw [hsplit, List.map_append, List.map_cons] at hnodup
    obtain ⟨-, hafter, hbefore⟩ := List.nodup_append.mp hnodup
    have hskip : ∀ l : List α, (∀ b ∈ l, b ∈ m.values) → (∀ b ∈ l, key b ≠ key a) →
        ∀ s, exec step s (l.flatMap messages) = some s := by
      intro l hl hne s
      refine exec_ignored fun d hd => ?_
      obtain ⟨b, hb, hmem⟩ := List.mem_flatMap.mp hd
      exact hother b (hl b hb) (hkey ▸ hne b hb) d hmem s
    have hrest : ∀ s, exec step s (after.flatMap messages) = some s := by
      refine hskip after (fun b hb => hsplit ▸ by simp [hb]) fun b hb hsame => ?_
      exact (List.nodup_cons.mp hafter).1 (hsame ▸ List.mem_map_of_mem hb)
    have hfront : exec step s (before.flatMap messages) = some s := by
      refine hskip before (fun b hb => hsplit ▸ by simp [hb]) (fun b hb => ?_) s
      exact hbefore _ (List.mem_map_of_mem hb) _ List.mem_cons_self
    rw [hsplit, List.flatMap_append, List.flatMap_cons, exec_append, hfront, Option.bind_some,
      exec_append]
    cases hown : exec step s (messages a) with
    | none => simp [hown]
    | some s' => simpa [hown] using hrest s'

end KeyedMap

end TmuxccDriver.Lib
