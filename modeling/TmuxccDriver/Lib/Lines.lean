import Mathlib.Data.List.Basic
import Mathlib.Data.List.Infix
import TmuxccDriver.Lib.Bytes

/-!
# Lines and decimal numbers

The text conventions every line protocol over bytes uses: lines terminated by LF,
lines separated by LF or by CR LF, and numbers in decimal.

Results:
1. `readLines_terminated`, `count_terminated`: lines without LF, each followed by LF, are
   read back as they were written, one for each LF.
2. `splitCrlf_join`: splitting what was joined gives the rows back.
3. `decimal_digits`: every byte of a decimal number is a digit.
-/

namespace TmuxccDriver.Lib

/-! ## Lines -/

/-- Every line followed by LF. -/
def terminated (lines : List Bytes) : Bytes := lines.flatMap (· ++ [LF])

@[simp] theorem terminated_nil : terminated [] = [] := rfl

@[simp] theorem terminated_cons (l : Bytes) (ls : List Bytes) :
    terminated (l :: ls) = l ++ LF :: terminated ls := by
  simp [terminated]

theorem terminated_append (ls ms : List Bytes) :
    terminated (ls ++ ms) = terminated ls ++ terminated ms := by
  simp [terminated]

/-- The lines a reader sees that stops each line at its LF; bytes after the last LF are
no line yet. -/
def readLines : Bytes → List Bytes
  | [] => []
  | b :: bs =>
    if b = LF then [] :: readLines bs
    else
      match readLines bs with
      | [] => []
      | l :: ls => (b :: l) :: ls

theorem readLines_append_lf (line : Bytes) (hline : LF ∉ line) (rest : Bytes) :
    readLines (line ++ LF :: rest) = line :: readLines rest := by
  induction line with
  | nil => simp [readLines]
  | cons b bs ih =>
    rw [List.mem_cons, not_or] at hline
    rw [List.cons_append, readLines, if_neg (Ne.symm hline.1), ih hline.2]

theorem readLines_terminated (lines : List Bytes) (hlines : ∀ l ∈ lines, LF ∉ l) :
    readLines (terminated lines) = lines := by
  induction lines with
  | nil => rfl
  | cons l ls ih =>
    rw [List.forall_mem_cons] at hlines
    rw [terminated_cons, readLines_append_lf l hlines.1, ih hlines.2]

theorem count_terminated (lines : List Bytes) (hlines : ∀ l ∈ lines, LF ∉ l) :
    (terminated lines).count LF = lines.length := by
  induction lines with
  | nil => rfl
  | cons l ls ih =>
    rw [List.forall_mem_cons] at hlines
    rw [terminated_cons, List.count_append, List.count_cons_self, ih hlines.2,
      List.count_eq_zero_of_not_mem hlines.1, Nat.zero_add, List.length_cons]

/-- Rows with `sep` between each two of them. -/
def joinWith (sep : Bytes) : List Bytes → Bytes
  | [] => []
  | [l] => l
  | l :: m :: ls => l ++ (sep ++ joinWith sep (m :: ls))

/-- `join("\n")`. -/
abbrev joinLf : List Bytes → Bytes := joinWith [LF]

/-- Put a byte at the front of the first row. -/
def consFirst (b : UInt8) : List Bytes → List Bytes
  | [] => [[b]]
  | r :: rs => (b :: r) :: rs

/-- `split("\r\n")`. -/
def splitCrlf : Bytes → List Bytes
  | [] => [[]]
  | [b] => [[b]]
  | b :: c :: bs =>
    if b = CR ∧ c = LF then [] :: splitCrlf bs else consFirst b (splitCrlf (c :: bs))

theorem joinLf_cons_cons (l m : Bytes) (ls : List Bytes) :
    joinLf (l :: m :: ls) = l ++ LF :: joinLf (m :: ls) := rfl

theorem joinWith_append_singleton (sep : Bytes) {rows : List Bytes} (hrows : rows ≠ [])
    (row : Bytes) : joinWith sep (rows ++ [row]) = joinWith sep rows ++ (sep ++ row) := by
  induction rows with
  | nil => exact absurd rfl hrows
  | cons r rs ih =>
    cases rs with
    | nil => rfl
    | cons q qs =>
      have hrest := ih (List.cons_ne_nil q qs)
      rw [List.cons_append, List.cons_append, joinWith, ← List.cons_append, hrest, joinWith]
      simp

/-- A CR that no LF follows starts no row end. -/
theorem splitCrlf_cons_of_head (b : UInt8) (bs : Bytes) (hbs : bs.head? ≠ some LF) :
    splitCrlf (b :: bs) = consFirst b (splitCrlf bs) := by
  cases bs with
  | nil => simp [splitCrlf, consFirst]
  | cons c cs =>
    have hc : c ≠ LF := fun h => hbs (by simp [h])
    simp [splitCrlf, hc]

theorem splitCrlf_append_crlf (row : Bytes) (hrow : LF ∉ row) (rest : Bytes) :
    splitCrlf (row ++ CR :: LF :: rest) = row :: splitCrlf rest := by
  induction row with
  | nil => simp [splitCrlf]
  | cons b bs ih =>
    have hbs : LF ∉ bs := fun h => hrow (List.mem_cons_of_mem _ h)
    have hhead : (bs ++ CR :: LF :: rest).head? ≠ some LF := by
      cases bs with
      | nil => simp [show CR ≠ LF by decide]
      | cons c cs =>
        have hc : c ≠ LF := fun h => hbs (h ▸ List.mem_cons_self)
        simpa using hc
    rw [List.cons_append, splitCrlf_cons_of_head b _ hhead, ih hbs]
    rfl

theorem splitCrlf_of_not_mem (row : Bytes) (hrow : LF ∉ row) : splitCrlf row = [row] := by
  induction row with
  | nil => rfl
  | cons b bs ih =>
    have hbs : LF ∉ bs := fun h => hrow (List.mem_cons_of_mem _ h)
    have hhead : bs.head? ≠ some LF := fun h => hbs (List.mem_of_head? h)
    rw [splitCrlf_cons_of_head b bs hhead, ih hbs]
    rfl

/-- Splitting what was joined gives the rows back, except that no rows at all read as one
empty row. -/
theorem splitCrlf_join (rows : List Bytes) (hrows : ∀ r ∈ rows, LF ∉ r) :
    splitCrlf (joinWith [CR, LF] rows) = if rows = [] then [[]] else rows := by
  induction rows with
  | nil => rfl
  | cons r rs ih =>
    have hr := hrows r List.mem_cons_self
    cases rs with
    | nil => simp [joinWith, splitCrlf_of_not_mem r hr]
    | cons q qs =>
      have hrest := ih fun x hx => hrows x (List.mem_cons_of_mem _ hx)
      rw [joinWith, List.cons_append, List.cons_append, List.nil_append,
        splitCrlf_append_crlf r hr, hrest]
      simp

/-! ## Decimal numbers -/

/-- A number in decimal, without leading zeros. -/
def decimal (n : Nat) : Bytes := (Nat.toDigits 10 n).map fun c => UInt8.ofNat c.toNat

/-- The byte of a digit character. -/
theorem toNat_digit {c : Char} (hc : c.isDigit) :
    (UInt8.ofNat c.toNat).toNat = c.toNat ∧ 0x30 ≤ c.toNat ∧ c.toNat ≤ 0x39 := by
  rw [Char.isDigit_iff_toNat] at hc
  have hlt : c.toNat < 256 := Nat.lt_of_le_of_lt hc.2 (by decide)
  exact ⟨by simp [Nat.mod_eq_of_lt hlt], hc.1, hc.2⟩

theorem digit_range {c : Char} (hc : c.isDigit) :
    0x30 ≤ UInt8.ofNat c.toNat ∧ UInt8.ofNat c.toNat ≤ 0x39 := by
  obtain ⟨heq, hlo, hhi⟩ := toNat_digit hc
  exact ⟨UInt8.le_iff_toNat_le.mpr (by rw [heq]; exact hlo),
    UInt8.le_iff_toNat_le.mpr (by rw [heq]; exact hhi)⟩

theorem decimal_digits (n : Nat) : ∀ b ∈ decimal n, 0x30 ≤ b ∧ b ≤ 0x39 := by
  intro b hb
  obtain ⟨c, hc, rfl⟩ := List.mem_map.mp hb
  exact digit_range (Nat.isDigit_of_mem_toDigits (by decide) (by decide) hc)

theorem decimal_ne_nil (n : Nat) : decimal n ≠ [] := by
  simp [decimal, Nat.toDigits_ne_nil]

end TmuxccDriver.Lib
