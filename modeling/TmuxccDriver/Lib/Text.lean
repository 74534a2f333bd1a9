import Mathlib.Data.List.Basic
import Mathlib.Data.List.TakeWhile
import TmuxccDriver.Lib.Lines

/-!
# Text

Strings that a program writes as lines of UTF-8: which of them are one line, how
numbers are written, and their bytes.

Results:
1. `lf_mem_utf8`: the encoding of a string has an LF exactly where the string has one.
2. `oneLine_intercalate`: a joined text is one line exactly when its parts are.
-/

namespace TmuxccDriver.Lib

/-! ## One line -/

/-- A string without LF. -/
def OneLine (s : String) : Prop := '\n' ∉ s.toList

instance (s : String) : Decidable (OneLine s) := inferInstanceAs (Decidable ('\n' ∉ s.toList))

@[simp] theorem oneLine_append (s t : String) : OneLine (s ++ t) ↔ OneLine s ∧ OneLine t := by
  simp [OneLine, not_or]

theorem oneLine_intercalate {sep : String} (hsep : OneLine sep) (parts : List String) :
    OneLine (sep.intercalate parts) ↔ ∀ p ∈ parts, OneLine p := by
  induction parts with
  | nil => simp [OneLine]
  | cons p ps ih =>
    cases ps with
    | nil => simp
    | cons q qs =>
      rw [String.intercalate_cons_cons, oneLine_append, oneLine_append, ih,
        List.forall_mem_cons (a := p)]
      simp only [hsep, and_true]

/-! ## Numbers -/

/-- A byte as two lowercase hexadecimal digits. -/
def hexByte (b : UInt8) : String :=
  String.ofList [Nat.digitChar (b.toNat / 16), Nat.digitChar (b.toNat % 16)]

/-- The value of a lowercase hexadecimal digit. -/
def hexValue (c : Char) : Nat := if c.isDigit then c.toNat - 0x30 else c.toNat - 0x57

theorem digitChar_ne_lf (n : Nat) : '\n' ≠ Nat.digitChar n := by
  rcases Nat.lt_or_ge n 16 with hlt | hge
  · decide +revert
  · rw [Nat.digitChar_eq_star.mpr hge]
    decide

@[simp] theorem oneLine_hexByte (b : UInt8) : OneLine (hexByte b) := by
  rw [OneLine, hexByte, String.toList_ofList]
  simp [digitChar_ne_lf]

@[simp] theorem oneLine_nat (n : Nat) : OneLine n.repr := by
  rw [OneLine, Nat.toList_repr]
  intro h
  have hdigit := Nat.isDigit_of_mem_toDigits (by decide) (by decide) h
  exact absurd hdigit (by decide)

@[simp] theorem oneLine_int (n : Int) : OneLine n.repr := by
  cases n with
  | ofNat m => exact oneLine_nat m
  | negSucc m => exact (oneLine_append _ _).mpr ⟨by simp [OneLine], oneLine_nat (m + 1)⟩

/-! ## Reading numbers -/

/-- The characters JavaScript's `trim`, `\s` and `parseInt` skip. -/
def isSpace (c : Char) : Bool :=
  [0x09, 0x0a, 0x0b, 0x0c, 0x0d, 0x20, 0xa0, 0x1680, 0x2028, 0x2029, 0x202f, 0x205f, 0x3000,
    0xfeff].contains c.toNat || (0x2000 ≤ c.toNat && c.toNat ≤ 0x200a)

/-- `trim`. -/
def trim (cs : List Char) : List Char :=
  ((cs.dropWhile isSpace).reverse.dropWhile isSpace).reverse

/-- The value of a list of decimal digits. -/
def natOfDigits (ds : List Char) : Nat := ds.foldl (fun n d => 10 * n + (d.toNat - 0x30)) 0

/-- `parseInt(s, 10)` of a sign-free text; `none` is `NaN`. -/
def parseDigits (cs : List Char) : Option Nat :=
  match cs.takeWhile Char.isDigit with
  | [] => none
  | d :: ds => some (natOfDigits (d :: ds))

/-- `parseInt(s, 10)`; `none` is `NaN`. -/
def parseInt (cs : List Char) : Option Int :=
  match cs.dropWhile isSpace with
  | '-' :: rest => (parseDigits rest).map fun n => -(n : Int)
  | '+' :: rest => (parseDigits rest).map Int.ofNat
  | rest => (parseDigits rest).map Int.ofNat

/-- Reading the decimal text of a number. -/
theorem natOfDigits_toDigits (n : Nat) : natOfDigits (Nat.toDigits 10 n) = n :=
  Nat.ofDigitChars_ten_toDigits

/-- A visible ASCII character. -/
theorem isSpace_of_visible {c : Char} (hlow : 0x21 ≤ c.toNat) (hhigh : c.toNat ≤ 0x7e) :
    isSpace c = false := by
  have hne : ∀ n ∈ [0x09, 0x0a, 0x0b, 0x0c, 0x0d, 0x20, 0xa0, 0x1680, 0x2028, 0x2029, 0x202f,
      0x205f, 0x3000, 0xfeff], c.toNat ≠ n := by
    rintro n hn rfl
    simp only [List.mem_cons, List.not_mem_nil, or_false] at hn
    omega
  have hrange : ¬(0x2000 ≤ c.toNat) := by omega
  rw [isSpace, List.contains_eq_mem, decide_eq_false fun hmem => hne _ hmem rfl,
    decide_eq_false hrange]
  rfl

theorem isSpace_of_isDigit {c : Char} (hc : c.isDigit) : isSpace c = false := by
  obtain ⟨hlow, hhigh⟩ := Char.isDigit_iff_toNat.mp hc
  exact isSpace_of_visible (le_trans (by decide) hlow) (le_trans hhigh (by decide))

theorem parseInt_toDigits (n : Nat) : parseInt (Nat.toDigits 10 n) = some (n : Int) := by
  have hall : ∀ d ∈ Nat.toDigits 10 n, d.isDigit = true := fun d hd =>
    Nat.isDigit_of_mem_toDigits (by decide) (by decide) hd
  have hdrop : (Nat.toDigits 10 n).dropWhile isSpace = Nat.toDigits 10 n := by
    rcases hdigits : Nat.toDigits 10 n with _ | ⟨d, ds⟩
    · rfl
    · have hd := isSpace_of_isDigit (hall d (by rw [hdigits]; exact List.mem_cons_self))
      rw [List.dropWhile_cons_of_neg (by simp [hd])]
  have hdigits : parseDigits (Nat.toDigits 10 n) = some n := by
    rw [parseDigits, List.takeWhile_eq_self_iff.mpr hall]
    split
    · next hnil => exact absurd hnil Nat.toDigits_ne_nil
    · next d ds hcons => rw [← hcons, natOfDigits_toDigits]
  rw [parseInt, hdrop]
  split
  · next rest hminus =>
    have hbad := hall '-' (by rw [hminus]; exact List.mem_cons_self)
    exact absurd hbad (by decide)
  · next rest hplus =>
    have hbad := hall '+' (by rw [hplus]; exact List.mem_cons_self)
    exact absurd hbad (by decide)
  · rw [hdigits]
    rfl

theorem natOfDigits_concat (ds : List Char) (d : Char) :
    natOfDigits (ds ++ [d]) = 10 * natOfDigits ds + (d.toNat - 0x30) := by
  simp [natOfDigits]

theorem digitChar_toNat_sub {d : Char} (hd : d.isDigit) :
    d.toNat - 0x30 < 10 ∧ Nat.digitChar (d.toNat - 0x30) = d := by
  obtain ⟨hlow, hhigh⟩ := Char.isDigit_iff_toNat.mp hd
  have hlow : 0x30 ≤ d.toNat := hlow
  have hhigh : d.toNat ≤ 0x39 := hhigh
  have hlt : d.toNat - 0x30 < 10 := by omega
  refine ⟨hlt, Char.toNat_inj.mp ?_⟩
  rw [Nat.toNat_digitChar_of_lt_ten hlt]
  omega

/-- Writing the number that digits without a leading zero tell. -/
theorem toDigits_natOfDigits {ds : List Char} (hne : ds ≠ []) (hdigits : ∀ d ∈ ds, d.isDigit)
    (hzero : ds.head? = some '0' → ds.length = 1) : Nat.toDigits 10 (natOfDigits ds) = ds := by
  induction ds using List.reverseRecOn with
  | nil => exact absurd rfl hne
  | append_singleton ds d ih =>
    obtain ⟨hlt, hchar⟩ := digitChar_toNat_sub (hdigits d (by simp))
    rw [natOfDigits_concat]
    rcases ds.eq_nil_or_concat with rfl | ⟨_, _, hds⟩
    · rw [natOfDigits, List.foldl_nil, Nat.mul_zero, Nat.zero_add, Nat.toDigits_of_lt_base hlt,
        hchar, List.nil_append]
    · have hhead : ds.head? ≠ some '0' := by
        intro hhead
        have hlen := hzero (by rw [List.head?_append, hhead]; rfl)
        simp [hds] at hlen
      have hrec : Nat.toDigits 10 (natOfDigits ds) = ds :=
        ih (by simp [hds]) (fun e he => hdigits e (by simp [he])) fun h => absurd h hhead
      have hpos : 0 < natOfDigits ds := by
        refine Nat.pos_of_ne_zero fun hz => hhead ?_
        rw [← hrec, hz]
        rfl
      rw [← Nat.toDigits_append_toDigits (by decide) hpos hlt, hrec, Nat.toDigits_of_lt_base hlt,
        hchar]

/-- Two numbers with the same decimal text are the same. -/
theorem repr_inj {m n : Nat} : m.repr = n.repr ↔ m = n := by
  refine ⟨fun h => ?_, congrArg _⟩
  have hdigits : Nat.toDigits 10 m = Nat.toDigits 10 n := by
    rw [← Nat.toList_repr, ← Nat.toList_repr, h]
  rw [← Nat.ofDigitChars_toDigits (b := 10) (n := m) (by decide) (by decide), hdigits,
    Nat.ofDigitChars_toDigits (by decide) (by decide)]

theorem int_repr_inj {m n : Int} : m.repr = n.repr ↔ m = n := by
  have hsign : ∀ k l : Nat, k.repr ≠ "-" ++ l.repr := by
    intro k l h
    have hmem : '-' ∈ k.repr.toList := by simp [h]
    rw [Nat.toList_repr] at hmem
    exact absurd (Nat.isDigit_of_mem_toDigits (by decide) (by decide) hmem) (by decide)
  refine ⟨fun h => ?_, congrArg _⟩
  cases m with
  | ofNat k =>
    cases n with
    | ofNat l => exact congrArg _ (repr_inj.mp h)
    | negSucc l => exact absurd h (hsign k (l + 1))
  | negSucc k =>
    cases n with
    | ofNat l => exact absurd h.symm (hsign l (k + 1))
    | negSucc l =>
      have htext : ("-" ++ (k + 1).repr).toList = ("-" ++ (l + 1).repr).toList :=
        congrArg String.toList h
      rw [String.toList_append, String.toList_append] at htext
      have hdigits : (k + 1).repr = (l + 1).repr :=
        String.toList_injective (List.append_cancel_left htext)
      exact congrArg _ (Nat.succ.inj (repr_inj.mp hdigits))

/-- The byte written as two hexadecimal digits. -/
def parseHexByte : List Char → Option UInt8
  | [hi, lo] => some (UInt8.ofNat (16 * hexValue hi + hexValue lo))
  | _ => none

theorem parseHexByte_hexByte (b : UInt8) : parseHexByte (hexByte b).toList = some b := by
  have hdigit : ∀ n < 16, hexValue (Nat.digitChar n) = n := by decide
  have hlt : b.toNat < 256 := b.toNat_lt
  rw [hexByte, String.toList_ofList, parseHexByte, hdigit _ (by omega), hdigit _ (by omega),
    Nat.div_add_mod, UInt8.ofNat_toNat]

/-! ## UTF-8 -/

/-- `new TextEncoder().encode(s)`. -/
def utf8 (s : String) : Bytes := s.toList.flatMap String.utf8EncodeChar

@[simp] theorem utf8_append (s t : String) : utf8 (s ++ t) = utf8 s ++ utf8 t := by
  simp [utf8]

theorem lf_eq_ofNat {n : Nat} (hn : n < 256) : LF = UInt8.ofNat n ↔ n = 10 := by
  rw [← UInt8.toNat_inj, UInt8.toNat_ofNat_of_lt' hn]
  exact eq_comm

/-- The bytes of a character past ASCII are all at least `0x80`. -/
theorem lf_mem_utf8EncodeChar (c : Char) : LF ∈ String.utf8EncodeChar c ↔ c = '\n' := by
  have hval : c = '\n' ↔ c.val.toNat = 10 := by
    rw [← Char.toNat_inj]
    rfl
  rw [hval, String.utf8EncodeChar]
  generalize c.val.toNat = v
  split
  · rw [List.mem_singleton, lf_eq_ofNat (by omega)]
  · split
    · rw [List.mem_cons, List.mem_singleton, lf_eq_ofNat (by omega), lf_eq_ofNat (by omega)]
      omega
    · split
      · rw [List.mem_cons, List.mem_cons, List.mem_singleton, lf_eq_ofNat (by omega),
          lf_eq_ofNat (by omega), lf_eq_ofNat (by omega)]
        omega
      · rw [List.mem_cons, List.mem_cons, List.mem_cons, List.mem_singleton,
          lf_eq_ofNat (by omega), lf_eq_ofNat (by omega), lf_eq_ofNat (by omega),
          lf_eq_ofNat (by omega)]
        omega

theorem lf_mem_utf8 (s : String) : LF ∈ utf8 s ↔ ¬OneLine s := by
  rw [utf8, List.mem_flatMap, OneLine, not_not]
  constructor
  · rintro ⟨c, hc, hlf⟩
    exact (lf_mem_utf8EncodeChar c).mp hlf ▸ hc
  · exact fun h => ⟨_, h, (lf_mem_utf8EncodeChar _).mpr rfl⟩

end TmuxccDriver.Lib
