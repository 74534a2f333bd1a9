import TmuxccDriver.Lib.Program
import TmuxccDriver.Parser.LayoutString

/-!
# Layout strings, both ways

`parseLayout` and `dumpLayout` of `parser/layout-string.ts`. A comma behind a leaf starts a
pane id or the next sibling; `Follows` is what can stand behind a cell, and in each of its
cases the parser takes the comma for what it was written for.

Results:
1. `parseCell_dumpCell`: a cell is read back from its text, whatever follows it.
2. `parse_sound`: what a cell was read from is its text, if no number starts with a zero.
3. `dumpChecksum_eq`: the same for the checksum.
4. `layout_round_trip`: trees from their strings, and strings from their trees.
-/

namespace TmuxccDriver.Parser
open TmuxccDriver.Lib

/-! ## Trees and strings -/

structure Geometry.NonNegative (g : Geometry) : Prop where
  width : 0 ≤ g.width
  height : 0 ≤ g.height
  x : 0 ≤ g.x
  y : 0 ≤ g.y

/-- A tree of numbers that are not negative, and of splits that are not empty. -/
inductive Proper : LayoutCell → Prop
  | leaf {g : Geometry} (hg : g.NonNegative) (paneId : Option Nat) : Proper (.leaf g paneId)
  | split {g : Geometry} (hg : g.NonNegative) (orientation : Orientation)
      {children : List LayoutCell} (hne : children ≠ [])
      (hchildren : ∀ child ∈ children, Proper child) : Proper (.split orientation g children)

/-- No number starts with a zero but zero itself; `inNumber` tells that a digit came before. -/
def noLeadingZeros (inNumber : Bool) : List Char → Bool
  | [] => true
  | c :: s => (inNumber || c ≠ '0' || !s.head?.any Char.isDigit) && noLeadingZeros c.isDigit s

/-- What tmux prints: numbers as `%u`, and the checksum as `%04x`. -/
structure Canonical (s : List Char) : Prop where
  checksum : ∀ c ∈ s.take 4, ¬('A' ≤ c ∧ c ≤ 'F')
  numbers : noLeadingZeros false (s.drop 5) = true

/-! ## Trees from their strings -/

/-- The text of a number that is not negative. -/
theorem repr_toList {z : Int} (hz : 0 ≤ z) : z.repr.toList = Nat.toDigits 10 z.toNat := by
  obtain ⟨n, rfl⟩ := Int.eq_ofNat_of_zero_le hz
  exact Nat.toList_repr

theorem isDigit_toDigits {n : Nat} : ∀ c ∈ Nat.toDigits 10 n, c.isDigit = true :=
  fun _ hc => Nat.isDigit_of_mem_toDigits (by decide) (by decide) hc

theorem readUint_toDigits (n : Nat) {rest : List Char}
    (hrest : rest.head?.any Char.isDigit = false) :
    readUint (Nat.toDigits 10 n ++ rest) = some (n, rest) := by
  have htake : (Nat.toDigits 10 n ++ rest).takeWhile Char.isDigit = Nat.toDigits 10 n := by
    rw [List.takeWhile_append_of_pos isDigit_toDigits]
    cases rest with
    | nil => simp
    | cons c rest => simp_all
  have hdrop : (Nat.toDigits 10 n ++ rest).dropWhile Char.isDigit = rest := by
    rw [List.dropWhile_append_of_pos isDigit_toDigits]
    cases rest with
    | nil => simp
    | cons c rest => simp_all
  unfold readUint
  rw [htake, hdrop]
  cases hdigits : Nat.toDigits 10 n with
  | nil => exact absurd hdigits Nat.toDigits_ne_nil
  | cons d ds =>
    dsimp only
    rw [← hdigits, natOfDigits_toDigits]

theorem expectUint_repr (what : String) {z : Int} (hz : 0 ≤ z) {rest : List Char}
    (hrest : rest.head?.any Char.isDigit = false) :
    expectUint what (z.repr.toList ++ rest) = .ok (z.toNat, rest) := by
  rw [expectUint, repr_toList hz, readUint_toDigits _ hrest]

theorem expectChar_cons (ch : Char) (rest : List Char) : expectChar ch (ch :: rest) = .ok rest := by
  simp [expectChar]

theorem parseGeometry_dumpGeometry {g : Geometry} (hg : g.NonNegative) {rest : List Char}
    (hrest : rest.head?.any Char.isDigit = false) :
    parseGeometry (dumpGeometry g ++ rest) = .ok (g, rest) := by
  simp only [parseGeometry, dumpGeometry, List.append_assoc, List.cons_append]
  rw [expectUint_repr _ hg.width (by rfl)]
  simp only [bind, Except.bind]
  rw [expectChar_cons]
  dsimp only
  rw [expectUint_repr _ hg.height (by rfl)]
  dsimp only
  rw [expectChar_cons]
  dsimp only
  rw [expectUint_repr _ hg.x (by rfl)]
  dsimp only
  rw [expectChar_cons]
  dsimp only
  rw [expectUint_repr _ hg.y hrest]
  dsimp only
  rw [Int.toNat_of_nonneg hg.width, Int.toNat_of_nonneg hg.height, Int.toNat_of_nonneg hg.x,
    Int.toNat_of_nonneg hg.y]
  rfl

/-- What can stand behind a cell. -/
inductive Follows : List Char → Prop
  | eof : Follows []
  | close (orientation : Orientation) (s : List Char) : Follows (orientation.closeBracket :: s)
  | sibling (width : Nat) (s : List Char) : Follows (',' :: (Nat.toDigits 10 width ++ 'x' :: s))

theorem Follows.head {rest : List Char} (h : Follows rest) :
    rest.head?.any Char.isDigit = false ∧ rest.head? ≠ some 'x' := by
  cases h with
  | eof => simp
  | close orientation s => cases orientation <;> exact ⟨rfl, by simp [Orientation.closeBracket]⟩
  | sibling width s => exact ⟨rfl, by simp⟩

theorem readLeafPaneId_none {rest : List Char} (h : Follows rest) :
    readLeafPaneId rest = (none, rest) := by
  cases h with
  | eof => rfl
  | close orientation s => cases orientation <;> rfl
  | sibling width s =>
    rw [readLeafPaneId, readUint_toDigits _ (by rfl)]
    simp

theorem readLeafPaneId_some (paneId : Nat) {rest : List Char} (h : Follows rest) :
    readLeafPaneId (',' :: (Nat.toDigits 10 paneId ++ rest)) = (some paneId, rest) := by
  rw [readLeafPaneId, readUint_toDigits _ h.head.1]
  simp [h.head.2]

/-- The parser reads the cell back from its text. -/
def RoundTrips (cell : LayoutCell) : Prop :=
  ∀ fuel rest, 2 * (dumpCell cell ++ rest).length + 1 ≤ fuel → Follows rest →
    parseCell fuel (dumpCell cell ++ rest) = .ok (cell, rest)

/-- The text of a cell starts with its width. -/
theorem dumpCell_eq {cell : LayoutCell} (h : Proper cell) :
    ∃ width s, dumpCell cell = Nat.toDigits 10 width ++ 'x' :: s := by
  cases h with
  | @leaf g hg paneId =>
    refine ⟨g.width.toNat, ?_⟩
    cases paneId <;> simp [dumpCell, dumpGeometry, repr_toList hg.width]
  | @split g hg orientation children hne hchildren =>
    exact ⟨g.width.toNat, by simp [dumpCell, dumpGeometry, repr_toList hg.width]⟩

/-- The next sibling, behind a comma, can stand behind a cell. -/
theorem follows_intercalate {cell : LayoutCell} (h : Proper cell) (cells : List LayoutCell)
    (s : List Char) : Follows (',' :: ([','].intercalate (dumpCells (cell :: cells)) ++ s)) := by
  obtain ⟨width, t, hcell⟩ := dumpCell_eq h
  cases cells with
  | nil =>
    rw [dumpCells, dumpCells, List.intercalate_singleton, hcell, List.append_assoc]
    exact .sibling width _
  | cons next rest =>
    rw [dumpCells, dumpCells, List.intercalate_cons_cons, hcell, List.append_assoc,
      List.append_assoc, List.append_assoc]
    exact .sibling width _

theorem parseChildren_dumpCells {children : List LayoutCell} (hne : children ≠ [])
    (hproper : ∀ child ∈ children, Proper child) (h : ∀ child ∈ children, RoundTrips child)
    (orientation : Orientation) (s : List Char) (fuel : Nat)
    (hfuel : 2 * ([','].intercalate (dumpCells children) ++ orientation.closeBracket :: s).length
      + 2 ≤ fuel) :
    parseChildren fuel ([','].intercalate (dumpCells children) ++ orientation.closeBracket :: s) =
      .ok (children, orientation.closeBracket :: s) := by
  induction children generalizing fuel with
  | nil => exact absurd rfl hne
  | cons child children ih =>
    obtain ⟨fuel, rfl⟩ := Nat.exists_eq_add_one.mpr (show 0 < fuel by omega)
    have hchild := h child List.mem_cons_self
    cases children with
    | nil =>
      rw [dumpCells, dumpCells, List.intercalate_singleton] at hfuel ⊢
      rw [parseChildren, hchild fuel _ (by omega) (.close orientation s)]
      cases orientation <;> rfl
    | cons next rest =>
      have hfollows := follows_intercalate (hproper next (by simp)) rest
        (orientation.closeBracket :: s)
      have hrest :=
        fun hfuel => ih (by simp) (fun c hc => hproper c (List.mem_cons_of_mem _ hc)) (fun c hc =>
        h c (List.mem_cons_of_mem _ hc)) fuel hfuel
      rw [dumpCells, dumpCells, List.intercalate_cons_cons, ← dumpCells, List.append_assoc,
        List.append_assoc, List.singleton_append] at hfuel ⊢
      rw [parseChildren, hchild fuel _ (by omega) hfollows]
      rw [List.length_append, List.length_cons] at hfuel
      have hchildrenRead := hrest (by omega)
      simp [bind, Except.bind, pure, Except.pure, hchildrenRead]

/-- A cell is read back, whatever follows it. -/
theorem parseCell_dumpCell {cell : LayoutCell} (h : Proper cell) : RoundTrips cell := by
  induction h with
  | @leaf g hg paneId =>
    intro fuel rest hfuel hfollows
    obtain ⟨fuel, rfl⟩ := Nat.exists_eq_add_one.mpr (show 0 < fuel by omega)
    cases paneId with
    | none =>
      rw [dumpCell, parseCell, parseGeometry_dumpGeometry hg hfollows.head.1]
      have hread := readLeafPaneId_none hfollows
      cases hfollows with
      | eof => rfl
      | close orientation s => cases orientation <;> rfl
      | sibling width s => simp [bind, Except.bind, pure, Except.pure, hread]
    | some paneId =>
      have hread := readLeafPaneId_some paneId hfollows
      rw [dumpCell, parseCell, List.append_assoc, parseGeometry_dumpGeometry hg (by rfl)]
      simp [bind, Except.bind, pure, Except.pure, hread]
  | @split g hg orientation children hne hchildren ih =>
    intro fuel rest hfuel hfollows
    obtain ⟨fuel, rfl⟩ := Nat.exists_eq_add_one.mpr (show 0 < fuel by omega)
    have hread := parseChildren_dumpCells hne hchildren ih orientation rest fuel
    rw [dumpCell, List.append_assoc, List.append_assoc, List.singleton_append,
      List.cons_append] at hfuel ⊢
    rw [List.length_append, List.length_cons] at hfuel
    rw [parseCell, parseGeometry_dumpGeometry hg (by cases orientation <;> rfl)]
    have hchildrenRead := hread (by omega)
    cases orientation <;> rw [Orientation.closeBracket] at hchildrenRead <;>
      simp [Orientation.openBracket, Orientation.closeBracket, expectChar, hchildrenRead, bind,
        Except.bind, pure, Except.pure]

/-! ## Strings from their trees -/

/-- What a parser took is the text `t`, and no number of the rest starts with a zero. -/
def Took (s t rest : List Char) : Prop := s = t ++ rest ∧ noLeadingZeros false rest = true

theorem noLeadingZeros_tail {inNumber : Bool} {c : Char} {s : List Char}
    (h : noLeadingZeros inNumber (c :: s) = true) (hc : c.isDigit = false) :
    noLeadingZeros false s = true := by
  rw [noLeadingZeros, Bool.and_eq_true, hc] at h
  exact h.2

theorem noLeadingZeros_dropWhile {inNumber : Bool} {s : List Char}
    (h : noLeadingZeros inNumber s = true) :
    noLeadingZeros false (s.dropWhile Char.isDigit) = true := by
  induction s generalizing inNumber with
  | nil => rfl
  | cons c s ih =>
    rw [noLeadingZeros, Bool.and_eq_true] at h
    rw [List.dropWhile_cons]
    split
    · exact ih h.2
    · next hc =>
      have hne : c ≠ '0' := by
        rintro rfl
        exact hc rfl
      simpa [noLeadingZeros, hne] using h.2

/-- A number that starts with a zero is zero. -/
theorem takeWhile_zero {s ds : List Char} (hs : noLeadingZeros false s = true)
    (h : s.takeWhile Char.isDigit = '0' :: ds) : ds = [] := by
  cases s with
  | nil => cases h
  | cons c s =>
    rw [List.takeWhile_cons] at h
    split at h
    · cases h
      cases s with
      | nil => rfl
      | cons c' s =>
        rw [noLeadingZeros, Bool.and_eq_true] at hs
        have hc' : c'.isDigit = false := by simpa using hs.1
        rw [List.takeWhile_cons_of_neg (by simp [hc'])]
    · cases h

theorem readUint_sound {s rest : List Char} {n : Nat} (h : readUint s = some (n, rest))
    (hs : noLeadingZeros false s = true) : Took s (Nat.toDigits 10 n) rest := by
  unfold readUint at h
  split at h
  · cases h
  · next d ds hdigits =>
    cases h
    refine ⟨?_, noLeadingZeros_dropWhile hs⟩
    have hzero : (d :: ds).head? = some '0' → (d :: ds).length = 1 := by
      intro hhead
      cases hhead
      rw [takeWhile_zero hs hdigits]
      rfl
    have hall : ∀ c ∈ d :: ds, c.isDigit = true := by
      rw [← hdigits]
      exact List.all_eq_true.mp List.all_takeWhile
    rw [toDigits_natOfDigits (by simp) hall hzero, ← hdigits, List.takeWhile_append_dropWhile]

theorem expectUint_sound {what : String} {s rest : List Char} {n : Nat}
    (h : expectUint what s = .ok (n, rest)) (hs : noLeadingZeros false s = true) :
    Took s (n : Int).repr.toList rest := by
  unfold expectUint at h
  split at h
  · cases h
  · next read hread =>
    cases h
    rw [repr_toList (Int.natCast_nonneg n)]
    exact readUint_sound hread hs

theorem expectChar_sound {ch : Char} {s rest : List Char} (h : expectChar ch s = .ok rest)
    (hch : ch.isDigit = false) (hs : noLeadingZeros false s = true) : Took s [ch] rest := by
  obtain rfl := expectChar_ok h
  exact ⟨rfl, noLeadingZeros_tail hs hch⟩

theorem parseGeometry_sound {s rest : List Char} {g : Geometry}
    (h : parseGeometry s = .ok (g, rest)) (hs : noLeadingZeros false s = true) :
    Took s (dumpGeometry g) rest := by
  unfold parseGeometry at h
  obtain ⟨⟨width, s₁⟩, hwidth, h⟩ := except_bind_eq_ok h
  obtain ⟨s₂, hx₂, h⟩ := except_bind_eq_ok h
  obtain ⟨⟨height, s₃⟩, hheight, h⟩ := except_bind_eq_ok h
  obtain ⟨s₄, hx₄, h⟩ := except_bind_eq_ok h
  obtain ⟨⟨x, s₅⟩, hx, h⟩ := except_bind_eq_ok h
  obtain ⟨s₆, hx₆, h⟩ := except_bind_eq_ok h
  obtain ⟨⟨y, s₇⟩, hy, h⟩ := except_bind_eq_ok h
  cases h
  obtain ⟨rfl, hs₁⟩ := expectUint_sound hwidth hs
  obtain ⟨rfl, hs₂⟩ := expectChar_sound hx₂ (by rfl) hs₁
  obtain ⟨rfl, hs₃⟩ := expectUint_sound hheight hs₂
  obtain ⟨rfl, hs₄⟩ := expectChar_sound hx₄ (by rfl) hs₃
  obtain ⟨rfl, hs₅⟩ := expectUint_sound hx hs₄
  obtain ⟨rfl, hs₆⟩ := expectChar_sound hx₆ (by rfl) hs₅
  obtain ⟨rfl, hs₇⟩ := expectUint_sound hy hs₆
  exact ⟨by simp [dumpGeometry], hs₇⟩

/-- The text of a leaf's pane id. -/
theorem readLeafPaneId_sound {s : List Char} (g : Geometry) (hs : noLeadingZeros false s = true) :
    Took (dumpGeometry g ++ s) (dumpCell (.leaf g (readLeafPaneId s).1)) (readLeafPaneId s).2 := by
  unfold readLeafPaneId
  split
  · next rest =>
    split
    · exact ⟨rfl, hs⟩
    · next id after hread =>
      split
      · exact ⟨rfl, hs⟩
      · obtain ⟨rfl, hafter⟩ := readUint_sound hread (noLeadingZeros_tail hs rfl)
        exact ⟨by simp [dumpCell], hafter⟩
  · exact ⟨rfl, hs⟩

/-- The text of what was parsed is what was taken. -/
theorem parse_sound (fuel : Nat) :
    (∀ s cell rest, parseCell fuel s = .ok (cell, rest) → noLeadingZeros false s = true →
      Took s (dumpCell cell) rest) ∧
    ∀ s children rest, parseChildren fuel s = .ok (children, rest) →
      noLeadingZeros false s = true →
      children ≠ [] ∧ Took s ([','].intercalate (dumpCells children)) rest := by
  induction fuel with
  | zero => exact ⟨fun _ _ _ h => (by cases h), fun _ _ _ h => (by cases h)⟩
  | succ fuel ih =>
    obtain ⟨ihCell, ihChildren⟩ := ih
    constructor
    · intro s cell rest h hs
      unfold parseCell at h
      obtain ⟨⟨g, s₁⟩, hg, hrest⟩ := except_bind_eq_ok h
      obtain ⟨rfl, hs₁⟩ := parseGeometry_sound hg hs
      dsimp only at hrest
      split at hrest
      · next s₂ =>
        obtain ⟨⟨children, s₃⟩, hchildren, hrest⟩ := except_bind_eq_ok hrest
        obtain ⟨s₄, hclose, hrest⟩ := except_bind_eq_ok hrest
        cases hrest
        obtain ⟨-, rfl, hs₃⟩ := ihChildren _ _ _ hchildren (noLeadingZeros_tail hs₁ rfl)
        obtain ⟨rfl, hs₄⟩ := expectChar_sound hclose rfl hs₃
        exact ⟨by simp [dumpCell, Orientation.openBracket, Orientation.closeBracket], hs₄⟩
      · next s₂ =>
        obtain ⟨⟨children, s₃⟩, hchildren, hrest⟩ := except_bind_eq_ok hrest
        obtain ⟨s₄, hclose, hrest⟩ := except_bind_eq_ok hrest
        cases hrest
        obtain ⟨-, rfl, hs₃⟩ := ihChildren _ _ _ hchildren (noLeadingZeros_tail hs₁ rfl)
        obtain ⟨rfl, hs₄⟩ := expectChar_sound hclose rfl hs₃
        exact ⟨by simp [dumpCell, Orientation.openBracket, Orientation.closeBracket], hs₄⟩
      · cases hrest
        exact readLeafPaneId_sound g hs₁
    · intro s children rest h hs
      unfold parseChildren at h
      obtain ⟨⟨child, s₁⟩, hchild, hrest⟩ := except_bind_eq_ok h
      obtain ⟨rfl, hs₁⟩ := ihCell _ _ _ hchild hs
      dsimp only at hrest
      split at hrest
      · next s₂ =>
        obtain ⟨⟨others, s₃⟩, hothers, hrest⟩ := except_bind_eq_ok hrest
        cases hrest
        obtain ⟨hne, rfl, hs₃⟩ := ihChildren _ _ _ hothers (noLeadingZeros_tail hs₁ rfl)
        refine ⟨by simp, ?_, hs₃⟩
        rw [dumpCells, List.intercalate_cons_of_ne_nil]
        · simp
        · cases others with
          | nil => exact absurd rfl hne
          | cons => simp [dumpCells]
      · cases hrest
        refine ⟨by simp, ?_, hs₁⟩
        rw [dumpCells, dumpCells, List.intercalate_singleton]

/-! ## The checksum -/

theorem layoutChecksum_lt (body : List Char) : layoutChecksum body < 0x10000 := by
  unfold layoutChecksum
  induction body using List.reverseRecOn with
  | nil => decide
  | append_singleton body c ih =>
    rw [List.foldl_concat, checksumStep]
    exact Nat.lt_succ_of_le Nat.and_le_right

/-- One more hexadecimal digit. -/
theorem toDigits_sixteen (n : Nat) : Nat.toDigits 16 n =
    if n < 0x10 then [Nat.digitChar n]
    else Nat.toDigits 16 (n / 0x10) ++ [Nat.digitChar (n % 0x10)] := by
  split
  · next h => exact Nat.toDigits_of_lt_base h
  · next h => exact Nat.toDigits_of_base_le (by decide) (Nat.le_of_not_lt h)

theorem dumpChecksum_eq {csum : Nat} (h : csum < 0x10000) :
    dumpChecksum csum = [Nat.digitChar (csum / 0x10 / 0x10 / 0x10),
      Nat.digitChar (csum / 0x10 / 0x10 % 0x10), Nat.digitChar (csum / 0x10 % 0x10),
      Nat.digitChar (csum % 0x10)] := by
  have hpad : Nat.digitChar 0 = '0' := rfl
  unfold dumpChecksum
  rw [toDigits_sixteen csum]
  split
  · next hlt =>
    rw [Nat.div_eq_of_lt hlt, Nat.mod_eq_of_lt hlt]
    rfl
  · rw [toDigits_sixteen (csum / 0x10)]
    split
    · next hlt =>
      rw [Nat.div_eq_of_lt hlt, Nat.mod_eq_of_lt hlt]
      rfl
    · rw [toDigits_sixteen (csum / 0x10 / 0x10)]
      split
      · next hlt =>
        rw [Nat.div_eq_of_lt hlt, Nat.mod_eq_of_lt hlt]
        rfl
      · rw [Nat.toDigits_of_lt_base (by omega)]
        rfl

theorem hexDigitVal_digitChar {n : Nat} (h : n < 16) :
    isHexDigit (Nat.digitChar n) = true ∧ hexDigitVal (Nat.digitChar n) = n := by
  decide +revert

theorem digitChar_hexDigitVal {c : Char} (hhex : isHexDigit c = true)
    (hlower : ¬('A' ≤ c ∧ c ≤ 'F')) :
    hexDigitVal c < 16 ∧ Nat.digitChar (hexDigitVal c) = c := by
  cases hdigit : c.isDigit with
  | true =>
    obtain ⟨hlt, hchar⟩ := digitChar_toNat_sub hdigit
    rw [hexDigitVal, if_pos hdigit]
    exact ⟨by omega, hchar⟩
  | false =>
    have hrange : 'a' ≤ c ∧ c ≤ 'f' := by
      simp only [isHexDigit, hdigit, Bool.false_or, Bool.or_eq_true, Bool.and_eq_true,
        decide_eq_true_eq] at hhex
      exact hhex.resolve_right hlower
    have hlow : 0x61 ≤ c.toNat := hrange.1
    have hhigh : c.toNat ≤ 0x66 := hrange.2
    have hall : ∀ n ∈ List.range' 0x61 6, hexDigitVal (Char.ofNat n) < 16 ∧
        Nat.digitChar (hexDigitVal (Char.ofNat n)) = Char.ofNat n := by decide
    have hmem := hall c.toNat (List.mem_range'_1.mpr ⟨hlow, by omega⟩)
    rwa [Char.ofNat_toNat] at hmem

/-- The value of hexadecimal digits, as `parseLayout` reads it. -/
abbrev hexValue (cs : List Char) : Nat := cs.foldl (fun n c => 16 * n + hexDigitVal c) 0

theorem hexValue_dumpChecksum {csum : Nat} (h : csum < 0x10000) :
    (dumpChecksum csum).all isHexDigit = true ∧ hexValue (dumpChecksum csum) = csum := by
  have hval := fun n (hn : n < 16) => (hexDigitVal_digitChar hn).2
  have hhex := fun n (hn : n < 16) => (hexDigitVal_digitChar hn).1
  have hfirst : csum / 0x10 / 0x10 / 0x10 < 16 := by omega
  have hmod : ∀ n : Nat, n % 0x10 < 16 := fun n => Nat.mod_lt n (by decide)
  rw [dumpChecksum_eq h]
  constructor
  · simp [hhex, hfirst, hmod]
  · simp only [hexValue, List.foldl_cons, List.foldl_nil, hval _ hfirst, hval _ (hmod _)]
    omega

theorem dumpChecksum_hexValue {cs : List Char} (hlen : cs.length = 4)
    (hhex : ∀ c ∈ cs, isHexDigit c = true) (hlower : ∀ c ∈ cs, ¬('A' ≤ c ∧ c ≤ 'F')) :
    dumpChecksum (hexValue cs) = cs := by
  have hdigit : ∀ c ∈ cs, hexDigitVal c < 16 ∧ Nat.digitChar (hexDigitVal c) = c :=
    fun c hc => digitChar_hexDigitVal (hhex c hc) (hlower c hc)
  obtain ⟨a, b, c, d, rfl⟩ := List.length_eq_four.mp hlen
  obtain ⟨ha, hachar⟩ := hdigit a (by simp)
  obtain ⟨hb, hbchar⟩ := hdigit b (by simp)
  obtain ⟨hc, hcchar⟩ := hdigit c (by simp)
  obtain ⟨hd, hdchar⟩ := hdigit d (by simp)
  have hvalue : hexValue [a, b, c, d] =
      ((hexDigitVal a * 16 + hexDigitVal b) * 16 + hexDigitVal c) * 16 + hexDigitVal d := by
    simp only [hexValue, List.foldl_cons, List.foldl_nil]
    omega
  have hdiv : ∀ m v : Nat, v < 16 → (m * 16 + v) / 0x10 = m := by omega
  have hmod : ∀ m v : Nat, v < 16 → (m * 16 + v) % 0x10 = v := by omega
  rw [dumpChecksum_eq (by omega), hvalue, hdiv _ _ hd, hdiv _ _ hc, hdiv _ _ hb, hmod _ _ hd,
    hmod _ _ hc, hmod _ _ hb, hachar, hbchar, hcchar, hdchar]

/-! ## Both ways -/

/-- A checksum and a body that the descent takes as a whole. -/
theorem parseLayout_append {cs body : List Char} {root : LayoutCell} (hlen : cs.length = 4)
    (hhex : cs.all isHexDigit = true)
    (hroot : parseCell (2 * body.length + 1) body = .ok (root, [])) :
    parseLayout (cs ++ ',' :: body) = .ok ⟨hexValue cs, layoutChecksum body, root⟩ := by
  obtain ⟨a, b, c, d, rfl⟩ := List.length_eq_four.mp hlen
  have hdigits : ([a, b, c, d].any fun c => !isHexDigit c) = false := by
    simpa [List.all_eq_true] using hhex
  have htake : ([a, b, c, d] ++ ',' :: body).take 4 = [a, b, c, d] := rfl
  have hdrop : ([a, b, c, d] ++ ',' :: body).drop 5 = body := rfl
  unfold parseLayout
  rw [if_neg (by simp), htake, hdrop, if_neg (by simp [hdigits])]
  dsimp only
  rw [hroot]
  rfl

theorem parseLayout_dumpLayout {layout : ParsedLayout} (hproper : Proper layout.root) :
    parseLayout (dumpLayout layout) =
      .ok { layout with
        checksum := layoutChecksum (dumpCell layout.root)
        computedChecksum := layoutChecksum (dumpCell layout.root) } := by
  have hlt := layoutChecksum_lt (dumpCell layout.root)
  obtain ⟨hhex, hvalue⟩ := hexValue_dumpChecksum hlt
  have hlen : (dumpChecksum (layoutChecksum (dumpCell layout.root))).length = 4 := by
    rw [dumpChecksum_eq hlt]
    rfl
  have hread := parseCell_dumpCell hproper (2 * (dumpCell layout.root).length + 1) []
    (by rw [List.append_nil]) .eof
  rw [List.append_nil] at hread
  rw [dumpLayout, parseLayout_append hlen hhex hread, hvalue]

theorem dumpLayout_of_parseLayout {s : List Char} {layout : ParsedLayout}
    (hparse : parseLayout s = .ok layout) (hcanonical : Canonical s)
    (hchecksum : layout.checksum = layout.computedChecksum) : dumpLayout layout = s := by
  unfold parseLayout at hparse
  split at hparse
  · cases hparse
  · next hprefix =>
    split at hparse
    · cases hparse
    · next hhex =>
      obtain ⟨⟨root, rest⟩, hroot, hparse⟩ := except_bind_eq_ok hparse
      dsimp only at hparse
      split at hparse
      · cases hparse
      · next hrest =>
        cases hparse
        obtain rfl : rest = [] := not_not.mp hrest
        obtain ⟨hbody, -⟩ := (parse_sound _).1 _ _ _ hroot hcanonical.numbers
        rw [List.append_nil] at hbody
        rw [not_or, not_not, not_lt] at hprefix
        have hlen : (s.take 4).length = 4 := by
          rw [List.length_take, Nat.min_eq_left (by omega)]
        have hall : ∀ c ∈ s.take 4, isHexDigit c = true := by simpa using hhex
        have hcomma : s.drop 4 = ',' :: s.drop 5 := by
          rw [List.drop_eq_getElem_cons (by omega)]
          have hget := hprefix.2
          rw [List.getElem?_eq_getElem (by omega)] at hget
          rw [Option.some.inj hget]
        have hsum : layoutChecksum (dumpCell root) = hexValue (s.take 4) := by
          rw [← hbody]
          exact hchecksum.symm
        calc dumpLayout ⟨_, _, root⟩
            = dumpChecksum (hexValue (s.take 4)) ++ ',' :: s.drop 5 := by
              rw [dumpLayout, hsum, hbody]
          _ = s.take 4 ++ s.drop 4 := by
              rw [dumpChecksum_hexValue hlen hall hcanonical.checksum, hcomma]
          _ = s := List.take_append_drop 4 s

/-- A tree is read back from its string, and a string in tmux's form whose checksum is right
is written again from its tree. -/
theorem layout_round_trip :
    (∀ layout : ParsedLayout, Proper layout.root →
      parseLayout (dumpLayout layout) =
        .ok { layout with
          checksum := layoutChecksum (dumpCell layout.root)
          computedChecksum := layoutChecksum (dumpCell layout.root) }) ∧
    ∀ (s : List Char) (layout : ParsedLayout), parseLayout s = .ok layout → Canonical s →
      layout.checksum = layout.computedChecksum → dumpLayout layout = s :=
  ⟨fun _ hproper => parseLayout_dumpLayout hproper,
    fun _ _ hparse hcanonical hchecksum => dumpLayout_of_parseLayout hparse hcanonical hchecksum⟩

/-- A leaf without a pane id stands before a sibling, and one behind another. -/
def mixedCell : LayoutCell :=
  .split .horizontal ⟨159, 48, 0, 0⟩
    [.leaf ⟨79, 48, 0, 0⟩ none,
      .split .vertical ⟨79, 48, 80, 0⟩
        [.leaf ⟨79, 24, 80, 0⟩ (some 2), .leaf ⟨79, 23, 80, 25⟩ none]]

def mixedString : List Char :=
  "2ce3,159x48,0,0\x7b79x48,0,0,79x48,80,0[79x24,80,0,2,79x23,80,25]\x7d".toList

theorem proper_mixedCell : Proper mixedCell :=
  .split ⟨by decide, by decide, by decide, by decide⟩ _ (by simp)
    (List.forall_mem_cons.mpr ⟨.leaf ⟨by decide, by decide, by decide, by decide⟩ _,
      List.forall_mem_singleton.mpr (.split ⟨by decide, by decide, by decide, by decide⟩ _ (by simp)
        (List.forall_mem_cons.mpr ⟨.leaf ⟨by decide, by decide, by decide, by decide⟩ _,
          List.forall_mem_singleton.mpr
            (.leaf ⟨by decide, by decide, by decide, by decide⟩ _)⟩))⟩)

theorem layout_round_trip_mixed :
    parseLayout (dumpLayout ⟨0, 0, mixedCell⟩) = .ok ⟨0x2ce3, 0x2ce3, mixedCell⟩ ∧
      dumpLayout ⟨0x2ce3, 0x2ce3, mixedCell⟩ = mixedString := by
  have hsum : layoutChecksum (dumpCell mixedCell) = 0x2ce3 := by decide +kernel
  have hdump : dumpLayout ⟨0, 0, mixedCell⟩ = mixedString := by decide +kernel
  have hparse := layout_round_trip.1 ⟨0, 0, mixedCell⟩ proper_mixedCell
  rw [hsum] at hparse
  have hdigits : ∀ c ∈ mixedString.take 4, ¬('A' ≤ c ∧ c ≤ 'F') := by
    have htake : mixedString.take 4 = ['2', 'c', 'e', '3'] := by decide +kernel
    rw [htake]
    simp
  exact ⟨hparse, layout_round_trip.2 mixedString _ (hdump ▸ hparse)
    ⟨hdigits, by decide +kernel⟩ rfl⟩

end TmuxccDriver.Parser
