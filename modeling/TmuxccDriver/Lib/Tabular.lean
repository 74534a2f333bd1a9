import TmuxccDriver.Lib.Utf8Decoder
import Mathlib.Data.List.DropRight
import Mathlib.Data.List.GetD
import Mathlib.Data.List.Forall2

/-!
# Tables

Rows that a program prints one to a line, with a TAB between two columns, and a reader that
trims the whole text, splits it into lines and each line into columns. The bytes reach the
reader in chunks that it decodes one by one.

Results:
1. `trim_col_trimEnd`, `col_trimEnd`: what trimming the last line does to its columns.
2. `exists_of_mangled_joinTab`: a mangled line has the mangled columns.
3. `ReadsRow`: what a reader of one kind of rows has to satisfy.
4. `rows_exact_iff`: the rows are read as they are exactly if their texts are fit for a table
   and no chunk ends within a character.
-/

namespace TmuxccDriver.Lib

/-! ## Trimming -/

/-- `trimEnd`. -/
def trimEnd (cs : List Char) : List Char := cs.rdropWhile isSpace

theorem trim_eq (cs : List Char) : trim cs = trimEnd (cs.dropWhile isSpace) := rfl

@[simp] theorem trimEnd_nil : trimEnd [] = [] := rfl

theorem trimEnd_concat_space {x : Char} (hx : isSpace x = true) (cs : List Char) :
    trimEnd (cs ++ [x]) = trimEnd cs := List.rdropWhile_concat_pos _ _ _ hx

theorem trimEnd_concat {x : Char} (hx : isSpace x = false) (cs : List Char) :
    trimEnd (cs ++ [x]) = cs ++ [x] :=
  List.rdropWhile_concat_neg _ _ _ (Bool.eq_false_iff.mp hx)

/-- Only what is behind the last character that is no space is trimmed. -/
theorem trimEnd_append {back : List Char} (hback : ∃ x ∈ back, isSpace x = false)
    (front : List Char) : trimEnd (front ++ back) = front ++ trimEnd back := by
  induction back using List.reverseRecOn with
  | nil =>
    obtain ⟨x, hx, _⟩ := hback
    exact absurd hx List.not_mem_nil
  | append_singleton back x ih =>
    rw [← List.append_assoc]
    cases hspace : isSpace x with
    | false => rw [trimEnd_concat hspace, trimEnd_concat hspace, List.append_assoc]
    | true =>
      rw [trimEnd_concat_space hspace, trimEnd_concat_space hspace]
      refine ih ?_
      obtain ⟨y, hy, hyspace⟩ := hback
      rcases List.mem_append.mp hy with hfront | hlast
      · exact ⟨y, hfront, hyspace⟩
      · rw [List.mem_singleton.mp hlast, hspace] at hyspace
        cases hyspace

theorem trim_concat_space {x : Char} (hx : isSpace x = true) (cs : List Char) :
    trim (cs ++ [x]) = trim cs := by
  rw [trim_eq, trim_eq, List.dropWhile_append]
  split
  · next hempty =>
    rw [List.isEmpty_iff.mp hempty, List.dropWhile_cons_of_pos hx, List.dropWhile_nil]
  · exact trimEnd_concat_space hx _

/-- Text without white space at either end. -/
def Trimmed (cs : List Char) : Prop := trim cs = cs

instance (cs : List Char) : Decidable (Trimmed cs) := inferInstanceAs (Decidable (_ = _))

theorem dropWhile_eq_self {p : Char → Bool} {cs : List Char} :
    cs.dropWhile p = cs ↔ ∀ x ∈ cs.head?, p x = false := by
  cases cs with
  | nil => simp
  | cons c cs =>
    constructor
    · intro h x hx
      cases hx
      rw [Bool.eq_false_iff]
      intro hp
      rw [List.dropWhile_cons_of_pos hp] at h
      have hle := (List.dropWhile_suffix p (l := cs)).length_le
      rw [h, List.length_cons] at hle
      exact Nat.lt_irrefl _ hle
    · intro h
      exact List.dropWhile_cons_of_neg (Bool.eq_false_iff.mp (h c rfl))

theorem trimEnd_eq_self {cs : List Char} :
    trimEnd cs = cs ↔ ∀ x ∈ cs.getLast?, isSpace x = false := by
  induction cs using List.reverseRecOn with
  | nil => simp
  | append_singleton cs x =>
    rw [List.getLast?_concat]
    cases hspace : isSpace x with
    | false => simp [trimEnd_concat hspace, hspace]
    | true =>
      rw [trimEnd_concat_space hspace]
      simp only [Option.mem_some_iff, forall_eq', hspace, Bool.true_eq_false, iff_false]
      intro h
      have hle := (List.rdropWhile_prefix isSpace cs).length_le
      rw [show cs.rdropWhile isSpace = cs ++ [x] from h, List.length_append] at hle
      exact Nat.not_succ_le_self _ hle

/-- What is in front of the white space stays. -/
theorem trimEnd_append_of_last {front : List Char}
    (hfront : ∃ x ∈ front.getLast?, isSpace x = false) (back : List Char) :
    trimEnd (front ++ back) = front ++ trimEnd back := by
  induction back using List.reverseRecOn with
  | nil =>
    obtain ⟨x, hx, hspace⟩ := hfront
    rw [List.append_nil, trimEnd_nil, List.append_nil, trimEnd_eq_self]
    intro y hy
    rw [Option.mem_def.mp hx] at hy
    rw [← Option.some.inj hy, hspace]
  | append_singleton back x ih =>
    rw [← List.append_assoc]
    cases hspace : isSpace x with
    | true => rw [trimEnd_concat_space hspace, trimEnd_concat_space hspace, ih]
    | false => rw [trimEnd_concat hspace, trimEnd_concat hspace, List.append_assoc]

/-- Neither end of the text is white space. -/
theorem trimmed_iff {cs : List Char} : Trimmed cs ↔
    (∀ x ∈ cs.head?, isSpace x = false) ∧ ∀ x ∈ cs.getLast?, isSpace x = false := by
  rw [← dropWhile_eq_self, ← trimEnd_eq_self, Trimmed, trim_eq]
  constructor
  · intro h
    have hdrop : cs.dropWhile isSpace = cs := by
      refine (List.dropWhile_suffix isSpace).eq_of_length_le ?_
      have hle := (List.rdropWhile_prefix isSpace (cs.dropWhile isSpace)).length_le
      rwa [show (cs.dropWhile isSpace).rdropWhile isSpace = cs from h] at hle
    rw [hdrop] at h
    exact ⟨hdrop, h⟩
  · rintro ⟨hdrop, htrim⟩
    rw [hdrop, htrim]

/-- What has been trimmed is trimmed. -/
theorem trimmed_trim (cs : List Char) : Trimmed (trim cs) := by
  rw [trimmed_iff, ← trimEnd_eq_self]
  constructor
  · obtain ⟨rest, hrest⟩ := List.rdropWhile_prefix isSpace (cs.dropWhile isSpace)
    have hrest : trim cs ++ rest = cs.dropWhile isSpace := hrest
    intro x hx
    refine dropWhile_eq_self.mp (List.dropWhile_idempotent isSpace cs) x ?_
    rw [← hrest, List.head?_append, Option.mem_def.mp hx]
    rfl
  · exact List.rdropWhile_idempotent isSpace (cs.dropWhile isSpace)

/-! ## Columns -/

/-- The columns of a line. -/
def joinTab (columns : List (List Char)) : List Char := ['\t'].intercalate columns

/-- A column of a line; a column that is not there is like an empty one. -/
def col (line : List Char) (i : Nat) : List Char := (line.splitOn '\t').getD i []

/-- Text that a column can carry. -/
def TabFree (cs : List Char) : Prop := '\t' ∉ cs

instance (cs : List Char) : Decidable (TabFree cs) := inferInstanceAs (Decidable (_ ∉ _))

theorem splitOn_joinTab {columns : List (List Char)} (hne : columns ≠ [])
    (htab : ∀ column ∈ columns, TabFree column) : (joinTab columns).splitOn '\t' = columns :=
  List.splitOn_intercalate _ htab hne

/-- The parts of a split text do not have the separator, and have no other characters. -/
theorem mem_of_mem_splitOn {sep : Char} {cs part : List Char} (hpart : part ∈ cs.splitOn sep) :
    ∀ x ∈ part, x ∈ cs ∧ x ≠ sep := by
  induction cs generalizing part with
  | nil =>
    rw [List.splitOn_nil, List.mem_singleton] at hpart
    rw [hpart]
    exact fun x hx => absurd hx List.not_mem_nil
  | cons c cs ih =>
    have hlater : ∀ part ∈ cs.splitOn sep, ∀ x ∈ part, x ∈ c :: cs ∧ x ≠ sep :=
      fun part hpart x hx => ⟨List.mem_cons_of_mem _ (ih hpart x hx).1, (ih hpart x hx).2⟩
    rw [List.splitOn_cons_eq_if_modifyHead] at hpart
    split at hpart
    · rcases List.mem_cons.mp hpart with rfl | hrest
      · exact fun x hx => absurd hx List.not_mem_nil
      · exact hlater part hrest
    · next hne =>
      cases hparts : cs.splitOn sep with
      | nil => exact absurd hparts (List.splitOn_ne_nil _ _)
      | cons first rest =>
        rw [hparts] at hpart hlater
        rcases List.mem_cons.mp hpart with rfl | hrest
        · intro x hx
          rcases List.mem_cons.mp hx with rfl | hx
          · exact ⟨List.mem_cons_self, by simpa using hne⟩
          · exact hlater first List.mem_cons_self x hx
        · exact hlater part (List.mem_cons_of_mem _ hrest)

/-- A column has the characters of the line, but for TAB. -/
theorem mem_of_mem_col {line : List Char} {i : Nat} : ∀ x ∈ col line i, x ∈ line ∧ x ≠ '\t' := by
  rw [col, List.getD_eq_getElem?_getD]
  cases hi : (line.splitOn '\t')[i]? with
  | none => exact fun x hx => absurd hx List.not_mem_nil
  | some column => exact mem_of_mem_splitOn (List.mem_of_getElem? hi)

theorem joinTab_append {front back : List (List Char)} (hfront : front ≠ []) (hback : back ≠ []) :
    joinTab (front ++ back) = joinTab front ++ '\t' :: joinTab back := by
  induction front with
  | nil => exact absurd rfl hfront
  | cons column front ih =>
    rcases front with _ | ⟨column', front⟩
    · obtain ⟨next, back, rfl⟩ := List.exists_cons_of_ne_nil hback
      rw [joinTab, joinTab, List.singleton_append, List.intercalate_cons_cons,
        List.intercalate_singleton]
      simp [joinTab]
    · have hrest := ih (List.cons_ne_nil _ _)
      rw [joinTab, joinTab] at hrest ⊢
      rw [List.cons_append, List.cons_append, List.intercalate_cons_cons,
        List.intercalate_cons_cons, ← List.cons_append, hrest]
      simp

/-- The last column of a longer line is longer. -/
theorem splitOn_concat {x : Char} (hx : x ≠ '\t') (cs : List Char) :
    ∃ front last, cs.splitOn '\t' = front ++ [last] ∧
      (cs ++ [x]).splitOn '\t' = front ++ [last ++ [x]] := by
  induction cs with
  | nil =>
    refine ⟨[], [], rfl, List.splitOn_eq_singleton fun hmem => hx ?_⟩
    exact (List.mem_singleton.mp hmem).symm
  | cons c cs ih =>
    obtain ⟨front, last, hcs, hmore⟩ := ih
    rw [List.cons_append, List.splitOn_cons_eq_if_modifyHead, List.splitOn_cons_eq_if_modifyHead,
      hcs, hmore]
    split
    · exact ⟨[] :: front, last, rfl, rfl⟩
    · rcases front with _ | ⟨first, front⟩
      · exact ⟨[], c :: last, rfl, rfl⟩
      · exact ⟨(c :: first) :: front, last, rfl, rfl⟩

theorem trim_col_concat {x : Char} (hx : isSpace x = true) (cs : List Char) (i : Nat) :
    trim (col (cs ++ [x]) i) = trim (col cs i) := by
  rcases eq_or_ne x '\t' with rfl | hne
  · rw [col, col, List.splitOn_append_cons_self, List.splitOn_nil]
    rcases Nat.lt_trichotomy i (cs.splitOn '\t').length with hlt | heq | hgt
    · rw [List.getD_append _ _ _ _ hlt]
    · rw [heq, List.getD_append_right _ _ _ _ (Nat.le_refl _)]
      simp
    · rw [List.getD_append_right _ _ _ _ hgt.le, List.getD_eq_default _ _ (by simp; omega),
        List.getD_eq_default _ _ hgt.le]
  · obtain ⟨front, last, hcs, hmore⟩ := splitOn_concat hne cs
    rw [col, col, hcs, hmore]
    rcases Nat.lt_trichotomy i front.length with hlt | heq | hgt
    · rw [List.getD_append _ _ _ _ hlt, List.getD_append _ _ _ _ hlt]
    · rw [heq, List.getD_append_right _ _ _ _ (Nat.le_refl _),
        List.getD_append_right _ _ _ _ (Nat.le_refl _), Nat.sub_self]
      exact trim_concat_space hx last
    · rw [List.getD_eq_default _ _ (by simp; omega), List.getD_eq_default _ _ (by simp; omega)]

/-- Trimming the end of a line changes its columns at their ends at most. -/
theorem trim_col_trimEnd (line : List Char) (i : Nat) :
    trim (col (trimEnd line) i) = trim (col line i) := by
  induction line using List.reverseRecOn with
  | nil => rfl
  | append_singleton line x ih =>
    cases hspace : isSpace x with
    | true => rw [trimEnd_concat_space hspace, ih, trim_col_concat hspace]
    | false => rw [trimEnd_concat hspace]

/-- Columns in front of others. -/
theorem col_append {front back : List Char} (hback : back = [] ∨ back.head? = some '\t') {i : Nat}
    (hi : i < (front.splitOn '\t').length) : col (front ++ back) i = col front i := by
  rcases back with _ | ⟨x, back⟩
  · rw [List.append_nil]
  · have hx : x = '\t' := by simpa using hback
    rw [col, col, hx, List.splitOn_append_cons_self, List.getD_append _ _ _ _ hi]

/-- Columns that end in something else than white space are not changed by trimming. -/
theorem col_trimEnd {front back : List Char} (hfront : ∃ x ∈ front.getLast?, isSpace x = false)
    (hback : back = [] ∨ back.head? = some '\t') {i : Nat}
    (hi : i < (front.splitOn '\t').length) :
    col (trimEnd (front ++ back)) i = col (front ++ back) i := by
  rw [trimEnd_append_of_last hfront]
  have hshort : trimEnd back = [] ∨ (trimEnd back).head? = some '\t' := by
    obtain ⟨rest, hrest⟩ := List.rdropWhile_prefix isSpace back
    have hrest : trimEnd back ++ rest = back := hrest
    rcases hend : trimEnd back with _ | ⟨x, xs⟩
    · exact .inl rfl
    · rw [hend] at hrest
      rw [← hrest] at hback
      simpa using hback
  rw [col_append hshort hi, col_append hback hi]

theorem col_joinTab {columns : List (List Char)} (hne : columns ≠ [])
    (htab : ∀ column ∈ columns, TabFree column) (i : Nat) :
    col (joinTab columns) i = columns.getD i [] := by
  rw [col, splitOn_joinTab hne htab]

theorem ne_nil_of_col {line : List Char} {i : Nat} (h : col line i ≠ []) : line ≠ [] := by
  rintro rfl
  rw [col, List.splitOn_nil] at h
  rcases i with _ | i
  · exact h rfl
  · exact h rfl

/-! ## Plain columns -/

/-- Visible ASCII. -/
def Plain (cs : List Char) : Prop := ∀ c ∈ cs, 0x20 < c.toNat ∧ c.toNat < 0x7f

instance (cs : List Char) : Decidable (Plain cs) := List.decidableBAll _ cs

theorem isSpace_of_plain {c : Char} (h : 0x20 < c.toNat ∧ c.toNat < 0x7f) : isSpace c = false := by
  obtain ⟨hlow, hhigh⟩ := h
  simp only [isSpace, List.contains_eq_mem, List.mem_cons, List.not_mem_nil, or_false,
    Bool.or_eq_false_iff, decide_eq_false_iff_not, Bool.and_eq_false_iff]
  omega

theorem Plain.tabFree {cs : List Char} (h : Plain cs) : TabFree cs := fun htab =>
  absurd (h _ htab).1 (by decide)

theorem Plain.oneLine {cs : List Char} (h : Plain cs) : '\n' ∉ cs := fun hbreak =>
  absurd (h _ hbreak).1 (by decide)

theorem Plain.trimmed {cs : List Char} (h : Plain cs) : Trimmed cs := by
  rw [trimmed_iff]
  exact ⟨fun x hx => isSpace_of_plain (h x (List.mem_of_mem_head? hx)),
    fun x hx => isSpace_of_plain (h x (List.mem_of_getLast? hx))⟩

theorem Plain.trimEnd {cs : List Char} (h : Plain cs) : trimEnd cs = cs :=
  trimEnd_eq_self.mpr fun x hx => isSpace_of_plain (h x (List.mem_of_getLast? hx))

theorem plain_toDigits (n : Nat) : Plain (Nat.toDigits 10 n) := by
  intro c hc
  have hdigit := Nat.isDigit_of_mem_toDigits (by decide) (by decide) hc
  obtain ⟨hlow, hhigh⟩ := Char.isDigit_iff_toNat.mp hdigit
  exact ⟨Nat.lt_of_lt_of_le (by decide) hlow, Nat.lt_of_le_of_lt hhigh (by decide)⟩

/-- Nothing plain is mangled. -/
theorem Mangled.eq_of_plain {cs ds : List Char} (h : Mangled cs ds) (hcs : Plain cs) : ds = cs :=
  h.eq_of_ascii fun c hc => Nat.lt_trans (hcs c hc).2 (by decide)

/-- A line ends as its last column does. -/
theorem getLast?_joinTab (front : List (List Char)) {last : List Char} (hlast : last ≠ []) :
    (joinTab (front ++ [last])).getLast? = last.getLast? := by
  rcases eq_or_ne front [] with rfl | hne
  · rw [List.nil_append, joinTab, List.intercalate_singleton]
  · rw [joinTab_append hne (List.cons_ne_nil last []), joinTab.eq_1 [last],
      List.intercalate_singleton, List.getLast?_append_of_ne_nil _ (List.cons_ne_nil _ _)]
    obtain ⟨c, cs, rfl⟩ := List.exists_cons_of_ne_nil hlast
    exact List.getLast?_cons_cons

/-- The columns up to a plain one are not changed by trimming the end of the line. -/
theorem col_trimEnd_joinTab {front : List (List Char)} {last : List Char}
    (htab : ∀ column ∈ front ++ [last], TabFree column) (hne : last ≠ []) (hplain : Plain last)
    (free : List (List Char)) {i : Nat} (hi : i ≤ front.length) :
    col (trimEnd (joinTab (front ++ [last] ++ free))) i =
      col (joinTab (front ++ [last] ++ free)) i := by
  have hend : ∃ x ∈ (joinTab (front ++ [last])).getLast?, isSpace x = false := by
    rw [getLast?_joinTab front hne]
    have hx := List.getLast?_eq_some_getLast hne
    exact ⟨_, hx, isSpace_of_plain (hplain _ (List.mem_of_getLast? hx))⟩
  have hsplit : (joinTab (front ++ [last])).splitOn '\t' = front ++ [last] :=
    splitOn_joinTab (by simp) htab
  have hback : ∃ back, joinTab (front ++ [last] ++ free) = joinTab (front ++ [last]) ++ back ∧
      (back = [] ∨ back.head? = some '\t') := by
    rcases eq_or_ne free [] with rfl | hfree
    · exact ⟨[], by rw [List.append_nil, List.append_nil], .inl rfl⟩
    · exact ⟨_, joinTab_append (by simp) hfree, .inr rfl⟩
  obtain ⟨back, hjoin, hback⟩ := hback
  rw [hjoin]
  refine col_trimEnd hend hback ?_
  rw [hsplit, List.length_append, List.length_singleton]
  exact Nat.lt_succ_of_le hi

/-- A line that ends in a plain column is not changed. -/
theorem trimEnd_joinTab (front : List (List Char)) {last : List Char} (hne : last ≠ [])
    (hplain : Plain last) : trimEnd (joinTab (front ++ [last])) = joinTab (front ++ [last]) := by
  rw [trimEnd_eq_self, getLast?_joinTab front hne]
  exact fun x hx => isSpace_of_plain (hplain x (List.mem_of_getLast? hx))

/-! ## Mangled columns -/

theorem Mangled.tabFree {cs ds : List Char} (h : Mangled cs ds) (hcs : TabFree cs) : TabFree ds :=
  fun htab => hcs (h.mem_of_mem (by decide) htab)

/-- A mangled line has the mangled columns. -/
theorem exists_of_mangled_joinTab {columns : List (List Char)} {line : List Char}
    (h : Mangled (joinTab columns) line) :
    ∃ columns', List.Forall₂ Mangled columns columns' ∧ line = joinTab columns' := by
  induction columns generalizing line with
  | nil =>
    cases h
    exact ⟨[], .nil, rfl⟩
  | cons column columns ih =>
    rcases columns with _ | ⟨next, columns⟩
    · rw [joinTab, List.intercalate_singleton] at h
      exact ⟨[line], .cons h .nil, by rw [joinTab, List.intercalate_singleton]⟩
    · have happend := joinTab_append (List.cons_ne_nil column []) (List.cons_ne_nil next columns)
      rw [List.singleton_append] at happend
      rw [happend] at h
      obtain ⟨front, back, rfl, hfront, hback⟩ := h.exists_of_append_cons (by decide)
      obtain ⟨columns', hall, rfl⟩ := ih hback
      rw [joinTab, List.intercalate_singleton] at hfront
      refine ⟨front :: columns', .cons hfront hall, ?_⟩
      have hne : columns' ≠ [] := by
        rintro rfl
        cases hall
      have hjoin := joinTab_append (List.cons_ne_nil front []) hne
      rw [List.singleton_append] at hjoin
      rw [hjoin, joinTab.eq_1 [front], List.intercalate_singleton]

/-- A mangled text ends as the text does, or in a replacement. -/
theorem Mangled.getLast {cs ds : List Char} (h : Mangled cs ds) :
    ∀ x ∈ ds.getLast?, x ∈ cs.getLast? ∨ x = REPLACEMENT := by
  have hends : ∀ {cs ds : List Char} (c : Char), Mangled cs ds → ds ≠ [] →
      (c :: cs).getLast? = cs.getLast? := by
    intro cs ds c h hne
    cases h with
    | nil => exact absurd rfl hne
    | keep d _ => exact List.getLast?_cons_cons
    | cut n _ _ => exact List.getLast?_cons_cons
  induction h with
  | nil => exact fun x hx => by cases hx
  | @keep c cs ds h ih =>
    rcases eq_or_ne ds [] with rfl | hne
    · cases h
      exact fun x hx => .inl hx
    · obtain ⟨d, ds', rfl⟩ := List.exists_cons_of_ne_nil hne
      rw [hends c h hne, List.getLast?_cons_cons]
      exact ih
  | @cut c n cs ds hc h ih =>
    intro x hx
    rcases eq_or_ne ds [] with rfl | hne
    · rw [List.append_nil] at hx
      exact .inr (List.eq_of_mem_replicate (List.mem_of_getLast? hx))
    · rw [List.getLast?_append_of_ne_nil _ hne] at hx
      rw [hends c h hne]
      exact ih x hx

/-- The ends of a trimmed text that is mangled are no white space. -/
theorem Mangled.trimmed {cs ds : List Char} (h : Mangled cs ds) (hcs : Trimmed cs) :
    Trimmed ds := by
  rw [trimmed_iff] at hcs ⊢
  obtain ⟨hhead, hlast⟩ := hcs
  constructor
  · cases h with
    | nil => exact fun x hx => by cases hx
    | keep c _ => exact fun x hx => hhead x hx
    | cut n _ _ =>
      intro x hx
      cases hx
      decide
  · intro x hx
    rcases h.getLast x hx with hsame | rfl
    · exact hlast x hsame
    · decide

/-! ## Rows -/

/-- How a program prints its rows. -/
def printed {ρ : Type*} (line : ρ → List Char) (rows : List ρ) : List Char :=
  rows.flatMap fun r => line r ++ ['\n']

/-- The whole text is trimmed, and its lines are read one by one. -/
def readRows {ω : Type*} (read : List Char → Option ω) (text : List Char) : List ω :=
  ((trim text).splitOn '\n').filterMap read

/-- What a reader of one kind of rows has to satisfy. `Fit` are the rows that a line can
carry. -/
structure ReadsRow {ρ ω : Type*} (line : ρ → List Char) (read : List Char → Option ω)
    (value : ρ → ω) (Fit : ρ → Prop) : Prop where
  head : ∀ r, ∃ c cs, line r = c :: cs ∧ c.toNat < 0x80 ∧ isSpace c = false
  blank : read [] = none
  oneLine : ∀ r, Fit r → '\n' ∉ line r
  exact : ∀ r l, Fit r → Mangled (line r) l → (read l = some (value r) ↔ l = line r)
  trimEnd : ∀ r l, Fit r → Mangled (line r) l → read (trimEnd l) = read l
  fit : ∀ r l, '\n' ∉ l → read l = some (value r) → Fit r

section Rows

variable {ρ ω : Type*} {line : ρ → List Char} {read : List Char → Option ω} {value : ρ → ω}
  {Fit : ρ → Prop}

/-- The mangled lines of a mangled table. -/
theorem exists_of_mangled_printed {rows : List ρ} {text : List Char}
    (h : Mangled (printed line rows) text) :
    ∃ ls, List.Forall₂ (fun r l => Mangled (line r) l) rows ls ∧ text = printed id ls := by
  induction rows generalizing text with
  | nil =>
    cases h
    exact ⟨[], .nil, rfl⟩
  | cons r rows ih =>
    have hcons : printed line (r :: rows) = line r ++ '\n' :: printed line rows := by
      simp [printed]
    rw [hcons] at h
    obtain ⟨front, back, rfl, hfront, hback⟩ := h.exists_of_append_cons (by decide)
    obtain ⟨ls, hall, rfl⟩ := ih hback
    exact ⟨front :: ls, .cons hfront hall, by simp [printed]⟩

theorem splitOn_printed {ls : List (List Char)} (hls : ∀ l ∈ ls, '\n' ∉ l) {last : List Char}
    (hlast : '\n' ∉ last) : (printed id ls ++ last).splitOn '\n' = ls ++ [last] := by
  induction ls with
  | nil => exact List.splitOn_eq_singleton hlast
  | cons l ls ih =>
    rw [List.forall_mem_cons] at hls
    have hcons : printed id (l :: ls) ++ last = l ++ '\n' :: (printed id ls ++ last) := by
      simp [printed]
    rw [hcons, List.splitOn_append_cons_self_of_not_mem hls.1, ih hls.2]
    rfl

/-- The lines of a table are read, the last of them trimmed. -/
theorem readRows_printed (h : ReadsRow line read value Fit) {rows : List ρ}
    {ls : List (List Char)} (hfit : ∀ r ∈ rows, Fit r)
    (hls : List.Forall₂ (fun r l => Mangled (line r) l) rows ls) :
    readRows read (printed id ls) = ls.filterMap read := by
  have hline : ∀ l ∈ ls, ∃ r, Fit r ∧ Mangled (line r) l := by
    induction hls with
    | nil => exact fun l hl => absurd hl List.not_mem_nil
    | cons hl _ ih =>
      rw [List.forall_mem_cons] at hfit
      exact List.forall_mem_cons.mpr ⟨⟨_, hfit.1, hl⟩, ih hfit.2⟩
  have hbreak : ∀ l ∈ ls, '\n' ∉ l := by
    intro l hl hmem
    obtain ⟨r, hr, hmangled⟩ := hline l hl
    exact h.oneLine r hr (hmangled.mem_of_mem (by decide) hmem)
  have hhead : ∀ l ∈ ls, ∃ c cs, l = c :: cs ∧ isSpace c = false := by
    intro l hl
    obtain ⟨r, -, hmangled⟩ := hline l hl
    obtain ⟨c, cs, hr, hascii, hspace⟩ := h.head r
    rw [hr] at hmangled
    cases hmangled with
    | keep _ _ => exact ⟨c, _, rfl, hspace⟩
    | cut n hc _ => exact absurd hascii (Nat.not_lt.mpr hc)
  have hfirst : ∀ x ∈ (printed id ls).head?, isSpace x = false := by
    rcases ls with _ | ⟨l, ls⟩
    · exact fun x hx => by cases hx
    · obtain ⟨c, cs, rfl, hspace⟩ := hhead l List.mem_cons_self
      intro x hx
      cases hx
      exact hspace
  rw [readRows, trim_eq, dropWhile_eq_self.mpr hfirst]
  rcases List.eq_nil_or_concat' ls with rfl | ⟨front, last, rfl⟩
  · rw [show printed id ([] : List (List Char)) = [] from rfl, trimEnd_nil, List.splitOn_nil,
      List.filterMap_cons_none h.blank]
  · have hlast : last ∈ front ++ [last] := List.mem_append_right _ (List.mem_singleton.mpr rfl)
    obtain ⟨c, cs, hc, hspace⟩ := hhead last hlast
    obtain ⟨r, hr, hmangled⟩ := hline last hlast
    have hprinted : printed id (front ++ [last]) = printed id front ++ (last ++ ['\n']) := by
      simp [printed]
    have hmem : c ∈ last ++ ['\n'] := by rw [hc]; exact List.mem_cons_self
    have hshort : '\n' ∉ trimEnd last := fun hmem =>
      hbreak last hlast ((List.rdropWhile_prefix isSpace last).mem hmem)
    rw [hprinted, trimEnd_append ⟨c, hmem, hspace⟩, trimEnd_concat_space (by decide),
      splitOn_printed (fun l hl => hbreak l (List.mem_append_left _ hl)) hshort,
      List.filterMap_append, List.filterMap_append, List.filterMap_cons, List.filterMap_cons,
      h.trimEnd r last hr hmangled]

/-- If as many lines are read as there are rows, every line is one of them. -/
theorem lines_of_filterMap_eq (h : ReadsRow line read value Fit) {rows : List ρ}
    {ls : List (List Char)} (hfit : ∀ r ∈ rows, Fit r)
    (hls : List.Forall₂ (fun r l => Mangled (line r) l) rows ls)
    (hread : ls.filterMap read = rows.map value) : ls = rows.map line := by
  induction hls with
  | nil => rfl
  | @cons r l rows ls hl hls ih =>
    rw [List.forall_mem_cons] at hfit
    cases hone : read l with
    | none =>
      rw [List.filterMap_cons_none hone] at hread
      have hle := List.length_filterMap_le read ls
      rw [hread, List.length_map, List.length_cons, hls.length_eq] at hle
      exact absurd hle (Nat.not_succ_le_self _)
    | some w =>
      rw [List.filterMap_cons_some hone, List.map_cons] at hread
      obtain ⟨hw, hrest⟩ := List.cons.inj hread
      rw [hw] at hone
      rw [(h.exact r l hfit.1 hl).mp hone, ih hfit.2 hrest, List.map_cons]

/-- The rows are read as they are exactly if all of them are fit for a line and no chunk ends
within a character. -/
theorem rows_exact_iff (h : ReadsRow line read value Fit) {rows : List ρ} {chunks : List Bytes}
    (hchunks : chunks.flatten = encode (printed line rows)) :
    readRows read (decodeChunks chunks) = rows.map value ↔
      (∀ r ∈ rows, Fit r) ∧ ∀ chunk ∈ chunks, Whole chunk := by
  have hlines : printed id (rows.map line) = printed line rows := by
    simp [printed, List.flatMap_map]
  constructor
  · intro heq
    have hfit : ∀ r ∈ rows, Fit r := by
      intro r hr
      have hmem : value r ∈ readRows read (decodeChunks chunks) := heq ▸ List.mem_map_of_mem hr
      obtain ⟨l, hl, hread⟩ := List.mem_filterMap.mp hmem
      exact h.fit r l (fun hbreak => (mem_of_mem_splitOn hl _ hbreak).2 rfl) hread
    obtain ⟨ls, hls, htext⟩ := exists_of_mangled_printed (mangled_decodeChunks hchunks)
    rw [htext, readRows_printed h hfit hls] at heq
    rw [lines_of_filterMap_eq h hfit hls heq, hlines] at htext
    exact ⟨hfit, (decodeChunks_eq_iff hchunks).mp htext⟩
  · rintro ⟨hfit, hwhole⟩
    have hsame : List.Forall₂ (fun r l => Mangled (line r) l) rows (rows.map line) :=
      List.forall₂_map_right_iff.mpr (List.forall₂_same.mpr fun r _ => Mangled.refl _)
    rw [(decodeChunks_eq_iff hchunks).mpr hwhole, ← hlines, readRows_printed h hfit hsame,
      List.filterMap_map, ← List.filterMap_eq_map]
    refine List.filterMap_congr fun r hr => ?_
    exact (h.exact r _ (hfit r hr) (Mangled.refl _)).mpr rfl

end Rows

end TmuxccDriver.Lib
