import Mathlib.Algebra.Order.BigOperators.Group.List
import TmuxccDriver.State.Bootstrap

/-!
# What the row codec keeps

The rows of a listing are read back as they were rendered, as long as their texts hold no
separator. A text with a line break in it tears its row: the parser then sees several
lines, and it reads a row again only when all but the first of them are blank, since a
blank line is skipped.

Results:
1. `length_splitOn`, `rowLines_body`: the parts of a split text, and the lines of a body
   row by row.
2. `parseLine_count`: a line that is accepted has all the tabs of its schema, so
   `readRow_torn` a torn row is never accepted.
3. `readRow_whole`, `readRow_cut`: a row without a break is read as itself, and one whose
   break has nothing behind it loses the break.
4. `exact_iff`: when a whole listing is read exactly or not at all.
5. `windows_roundTrip`, `panes_roundTrip`: rendered rows are read back.
-/

namespace TmuxccDriver.State
open TmuxccDriver.Lib

/-! ## Split texts -/

theorem length_splitOn (sep : Char) (cs : List Char) :
    (cs.splitOn sep).length = cs.count sep + 1 := by
  induction cs with
  | nil => simp
  | cons c cs ih =>
    rw [List.splitOn_cons_eq_if_modifyHead, List.count_cons]
    split
    · rw [List.length_cons, ih]
    · rw [List.length_modifyHead, ih]

theorem count_eq_sum_splitOn {sep c : Char} (hc : c ≠ sep) (cs : List Char) :
    cs.count c = ((cs.splitOn sep).map (List.count c)).sum := by
  induction cs with
  | nil => simp
  | cons d cs ih =>
    rw [List.splitOn_cons_eq_if_modifyHead]
    split
    next hd =>
      have hne : d ≠ c := fun h => hc (h ▸ eq_of_beq hd)
      rw [List.count_cons_of_ne hne, ih]
      simp
    next =>
      cases hparts : cs.splitOn sep with
      | nil => exact absurd hparts (List.splitOn_ne_nil sep cs)
      | cons part parts =>
        rw [hparts] at ih
        simp only [List.modifyHead_cons, List.map_cons, List.sum_cons, List.count_cons, ih]
        exact Nat.add_right_comm _ _ _

theorem count_intercalate {sep : Char} {parts : List (List Char)}
    (hparts : ∀ p ∈ parts, sep ∉ p) :
    ([sep].intercalate parts).count sep = parts.length - 1 := by
  cases parts with
  | nil => rfl
  | cons p ps =>
    have hsplit := List.splitOn_intercalate sep hparts (List.cons_ne_nil p ps)
    have hlength := length_splitOn sep ([sep].intercalate (p :: ps))
    rw [hsplit] at hlength
    exact (Nat.sub_eq_of_eq_add hlength).symm

theorem intercalate_concat (sep : Char) {parts : List (List Char)} (hparts : parts ≠ [])
    (last : List Char) :
    [sep].intercalate (parts ++ [last]) = [sep].intercalate parts ++ [sep] ++ last := by
  induction parts with
  | nil => exact absurd rfl hparts
  | cons part parts ih =>
    cases parts with
    | nil => simp [List.intercalate_cons_cons]
    | cons next rest =>
      rw [List.cons_append, List.cons_append, List.intercalate_cons_cons, ← List.cons_append,
        ih (List.cons_ne_nil _ _), List.intercalate_cons_cons]
      simp

namespace ReplyRow

/-! ## The lines of a body -/

/-- What is left of a line that `parse` skips. -/
def Blank (rawLine : List Char) : Prop := rawLine = [] ∨ rawLine = ['\r']

instance (rawLine : List Char) : Decidable (Blank rawLine) := inferInstanceAs (Decidable (_ ∨ _))

theorem stripCr_eq_nil_iff (rawLine : List Char) : stripCr rawLine = [] ↔ Blank rawLine := by
  unfold stripCr Blank
  split
  next hlast =>
    obtain ⟨front, rfl⟩ := List.getLast?_eq_some_iff.mp hlast
    simp
  next hlast =>
    constructor
    · exact Or.inl
    · rintro (h | rfl)
      · exact h
      · exact absurd rfl hlast

theorem count_stripCr {c : Char} (hc : c ≠ '\r') (rawLine : List Char) :
    (stripCr rawLine).count c = rawLine.count c := by
  unfold stripCr
  split
  next hlast =>
    obtain ⟨front, rfl⟩ := List.getLast?_eq_some_iff.mp hlast
    simp [List.count_cons_of_ne hc.symm]
  next => rfl

/-- The lines `parse` takes for rows. -/
def rowLines (cs : List Char) : List (List Char) :=
  ((cs.splitOn '\n').map stripCr).filter fun line => line ≠ []

/-- Each text followed by LF. -/
def bodyOf (texts : List (List Char)) : List Char := texts.flatMap (· ++ ['\n'])

/-- A row's line is followed by LF whatever the line holds, so the lines of a body are
the lines of its rows. -/
theorem rowLines_bodyOf (texts : List (List Char)) :
    rowLines (bodyOf texts) = texts.flatMap rowLines := by
  induction texts with
  | nil => simp [rowLines, bodyOf, stripCr]
  | cons cs texts ih =>
    have hbody : bodyOf (cs :: texts) = cs ++ '\n' :: bodyOf texts := by simp [bodyOf]
    rw [hbody, List.flatMap_cons, ← ih, rowLines, List.splitOn_append_cons_self, List.map_append,
      List.filter_append]
    rfl

/-- The text behind the first break is not blank. -/
def Torn (line : List Char) : Prop := ∃ rest ∈ (line.splitOn '\n').tail, ¬Blank rest

instance (line : List Char) : Decidable (Torn line) := inferInstanceAs (Decidable (∃ _ ∈ _, _))

/-- The text ends with a line break. -/
def EndsInBreak (line : List Char) : Prop :=
  line.getLast? = some '\n' ∨ line.getLast? = some '\r'

instance (line : List Char) : Decidable (EndsInBreak line) :=
  inferInstanceAs (Decidable (_ ∨ _))

/-- A break inside a text that does not end with one has something behind it. -/
theorem not_mem_of_not_torn {line : List Char} (htorn : ¬Torn line) (hend : ¬EndsInBreak line) :
    '\n' ∉ line := by
  intro hmem
  -- The last break: what is behind it is one line of the text.
  obtain ⟨back, front, hreverse, hback⟩ :=
    List.eq_append_cons_of_mem (List.mem_reverse.mpr hmem)
  have hline : line = front.reverse ++ '\n' :: back.reverse := by
    simpa using congrArg List.reverse hreverse
  have hsplit : line.splitOn '\n' = front.reverse.splitOn '\n' ++ [back.reverse] := by
    have hlast : '\n' ∉ back.reverse := by simpa using hback
    rw [hline, List.splitOn_append_cons_self, List.splitOn_eq_singleton hlast]
  have hrest : back.reverse ∈ (line.splitOn '\n').tail := by
    rw [hsplit, List.tail_append_of_ne_nil (List.splitOn_ne_nil _ _)]
    exact List.mem_append_right _ List.mem_cons_self
  refine hend ?_
  rcases not_not.mp fun hblank => htorn ⟨_, hrest, hblank⟩ with hblank | hblank
  · exact Or.inl (by rw [hline, hblank]; simp)
  · exact Or.inr (by rw [hline, hblank]; simp)

/-! ## Rows as they are listed -/

variable {ρ : Type}

/-- A row as tmux prints it: a text without a tab for each column, each of which the codec
of its column understands. The texts may hold line breaks. -/
structure Listed (row : ReplyRow ρ) where
  columns : List (List Char)
  value : ρ
  size_eq : columns.length = row.schema.size
  meaning : row.schema.decodeFields row.replyName columns = .ok value
  tabFree : ∀ column ∈ columns, '\t' ∉ column

namespace Listed

variable {row : ReplyRow ρ}

def line (r : Listed row) : List Char := ['\t'].intercalate r.columns

theorem count_line (r : Listed row) : r.line.count '\t' = row.schema.size - 1 := by
  rw [line, count_intercalate r.tabFree, r.size_eq]

/-- The last column, and the columns before it with the tab behind them. -/
theorem exists_last (r : Listed row) (hsize : 2 ≤ row.schema.size) :
    ∃ front last, r.columns = front ++ [last] ∧ front ≠ [] ∧
      front.length + 1 = row.schema.size ∧
      r.line = ['\t'].intercalate front ++ ['\t'] ++ last := by
  obtain ⟨columns, value, hlength, _, _⟩ := r
  rw [line]
  dsimp only
  cases columns using List.reverseRecOn with
  | nil =>
    rw [List.length_nil] at hlength
    omega
  | append_singleton front last =>
    rw [List.length_append, List.length_singleton] at hlength
    have hfront : front ≠ [] := fun h => by
      rw [h, List.length_nil] at hlength
      omega
    exact ⟨front, last, rfl, hfront, hlength, intercalate_concat '\t' hfront last⟩

end Listed

/-- The texts of the rows are printed one below the other. -/
def listing {row : ReplyRow ρ} (rows : List (Listed row)) : List Char :=
  bodyOf (rows.map Listed.line)

/-- The reply is refused, or it is read as the rows that were listed. -/
def Exact (row : ReplyRow ρ) (decode : Bytes → String) (rows : List (Listed row)) : Prop :=
  ∀ values, row.parse decode (utf8 (String.ofList (listing rows))) = .ok values →
    values = rows.map Listed.value

/-! ## One row -/

variable (row : ReplyRow ρ)

/-- The rows that the parser takes from the text of one row. -/
def readRow (cs : List Char) : Except ReplyCodecError (List ρ) :=
  (rowLines cs).mapM row.parseLine

theorem parseLine_count {line : List Char} {value : ρ} (hparse : row.parseLine line = .ok value) :
    line.count '\t' + 1 = row.schema.size := by
  simp only [parseLine] at hparse
  split at hparse
  · cases hparse
  next hcount =>
    rw [length_splitOn] at hcount
    exact not_not.mp hcount

theorem parseLine_columns {columns : List (List Char)} (hne : columns ≠ [])
    (hsize : columns.length = row.schema.size) (htab : ∀ column ∈ columns, '\t' ∉ column) :
    row.parseLine (['\t'].intercalate columns) =
      row.schema.decodeFields row.replyName columns := by
  rw [parseLine, List.splitOn_intercalate _ htab hne, if_neg (not_not.mpr hsize)]

/-- A row whose text has no break is read as itself. -/
theorem readRow_whole (r : Listed row) (hsize : 2 ≤ row.schema.size) (htorn : ¬Torn r.line)
    (hend : ¬EndsInBreak r.line) : row.readRow r.line = .ok [r.value] := by
  have hbreak : '\n' ∉ r.line := not_mem_of_not_torn htorn hend
  have hstrip : stripCr r.line = r.line := if_neg fun h => hend (Or.inr h)
  have htabs : r.line.count '\t' = row.schema.size - 1 := r.count_line
  have hne : r.line ≠ [] := fun h => by
    rw [h, List.count_nil] at htabs
    omega
  have hcolumns : r.columns ≠ [] := fun h => by
    have := r.size_eq
    rw [h, List.length_nil] at this
    omega
  have hlines : rowLines r.line = [r.line] := by
    simp [rowLines, List.splitOn_eq_singleton hbreak, hstrip, hne]
  rw [readRow, hlines, List.mapM_cons, List.mapM_nil, Listed.line,
    row.parseLine_columns hcolumns r.size_eq r.tabFree, r.meaning]
  rfl

theorem stripCr_mem_rowLines {cs part : List Char} (hpart : part ∈ cs.splitOn '\n')
    (hblank : ¬Blank part) : stripCr part ∈ rowLines cs := by
  have hne : stripCr part ≠ [] := (stripCr_eq_nil_iff part).not.mpr hblank
  exact List.mem_filter.mpr ⟨List.mem_map_of_mem hpart, decide_eq_true hne⟩

theorem exists_mapM_eq_ok_iff {ε α β : Type} {f : α → Except ε β} {as : List α} :
    (∃ bs, as.mapM f = .ok bs) ↔ ∀ a ∈ as, ∃ b, f a = .ok b := by
  induction as with
  | nil => exact iff_of_true ⟨[], rfl⟩ fun a ha => absurd ha List.not_mem_nil
  | cons a as ih =>
    rw [List.forall_mem_cons, ← ih, List.mapM_cons]
    cases hfirst : f a with
    | error e =>
      constructor
      · rintro ⟨bs, hbs⟩
        cases hbs
      · rintro ⟨⟨b, hb⟩, _⟩
        cases hb
    | ok b =>
      cases hrest : as.mapM f with
      | error e =>
        constructor
        · rintro ⟨bs, hbs⟩
          cases hbs
        · rintro ⟨_, bs, hbs⟩
          cases hbs
      | ok rest => exact iff_of_true ⟨_, rfl⟩ ⟨⟨b, rfl⟩, rest, rfl⟩

/-- Every part that is not blank would have to hold all the tabs of the row. -/
theorem count_part {cs part : List Char} {values : List ρ} (hread : row.readRow cs = .ok values)
    (hpart : part ∈ cs.splitOn '\n') (hblank : ¬Blank part) :
    part.count '\t' + 1 = row.schema.size := by
  obtain ⟨value, hvalue⟩ :=
    exists_mapM_eq_ok_iff.mp ⟨_, hread⟩ _ (stripCr_mem_rowLines hpart hblank)
  rw [← count_stripCr (by decide) part]
  exact row.parseLine_count hvalue

/-- The lines of one row share its tabs, so no two of them are rows of their own. -/
theorem readRow_torn (r : Listed row) (hsize : 2 ≤ row.schema.size) (htorn : Torn r.line)
    (hfirst : ∃ c cs, r.line = c :: cs ∧ c ≠ '\n' ∧ c ≠ '\r') :
    ∃ error, row.readRow r.line = .error error := by
  cases hread : row.readRow r.line with
  | error e => exact ⟨e, rfl⟩
  | ok values =>
    exfalso
    obtain ⟨rest, hrest, hblank⟩ := htorn
    obtain ⟨c, cs, hline, hlf, hcr⟩ := hfirst
    have htabs : r.line.count '\t' = row.schema.size - 1 := r.count_line
    rw [@count_eq_sum_splitOn '\n' '\t' (by decide)] at htabs
    cases hparts : r.line.splitOn '\n' with
    | nil => exact List.splitOn_ne_nil _ _ hparts
    | cons first others =>
      rw [hparts] at htabs hrest
      -- The first line begins with the row's first character.
      have hhead : ¬Blank first := by
        rw [hline, List.splitOn_cons_eq_if_modifyHead, if_neg (by simpa using hlf)] at hparts
        obtain ⟨part, parts, hcs⟩ := List.exists_cons_of_ne_nil (List.splitOn_ne_nil '\n' cs)
        rw [hcs, List.modifyHead_cons, List.cons.injEq] at hparts
        rw [← hparts.1]
        rintro (h | h)
        · cases h
        · exact hcr (List.cons.inj h).1
      have hcountFirst := row.count_part hread (hparts ▸ List.mem_cons_self) hhead
      have hcountRest := row.count_part hread (hparts ▸ List.mem_cons_of_mem _ hrest) hblank
      have hle : rest.count '\t' ≤ (others.map (List.count '\t')).sum :=
        List.single_le_sum (fun _ _ => Nat.zero_le _) _ (List.mem_map_of_mem hrest)
      rw [List.map_cons, List.sum_cons] at htabs
      omega

end ReplyRow

/-! ## The last column -/

/-- The text is taken as it is: no text is refused, and no two texts mean the same. -/
def FieldCodec.Verbatim {α : Type} (codec : FieldCodec α) : Prop :=
  (∀ raw, ∃ value, codec.decode raw = .ok value) ∧
    ∀ raw raw', codec.decode raw = codec.decode raw' → raw = raw'

namespace RowSchema

/-- The codec of the last column has this property. -/
def Last (P : {α : Type} → FieldCodec α → Prop) : {ρ : Type} → RowSchema ρ → Prop
  | _, .done => False
  | _, .field _ _ codec .done => P codec
  | _, .field _ _ _ (.field key fmt codec rest) => (RowSchema.field key fmt codec rest).Last P

/-- A row is decoded from its last column and the columns before it. -/
theorem decodeFields_last {P : {α : Type} → FieldCodec α → Prop} {ρ : Type} {schema : RowSchema ρ}
    (hP : schema.Last P) {replyName : String} {front : List (List Char)} {last : List Char}
    {value : ρ} (hsize : front.length + 1 = schema.size)
    (hvalue : schema.decodeFields replyName (front ++ [last]) = .ok value) :
    ∃ (α : Type) (codec : FieldCodec α) (rebuild : α → ρ) (v : α),
      P codec ∧ Function.Injective rebuild ∧ codec.decode last = .ok v ∧ value = rebuild v ∧
        ∀ other w, codec.decode other = .ok w →
          schema.decodeFields replyName (front ++ [other]) = .ok (rebuild w) := by
  induction schema generalizing front with
  | done => exact absurd hP id
  | @field α ρ key fmt codec rest ih =>
    cases rest with
    | done =>
      have hfront : front = [] := List.eq_nil_of_length_eq_zero (Nat.succ.inj hsize)
      subst hfront
      rw [List.nil_append, decodeFields, List.headD_cons] at hvalue
      cases hlast : codec.decode last with
      | error reason =>
        rw [hlast] at hvalue
        cases hvalue
      | ok v =>
        rw [hlast] at hvalue
        refine ⟨α, codec, fun v => (v, ()), v, hP, fun a b h => (Prod.mk.inj h).1, hlast,
          (Except.ok.inj hvalue).symm, fun other w hw => ?_⟩
        rw [List.nil_append, decodeFields, List.headD_cons, hw]
        rfl
    | field key' fmt' codec' rest' =>
      cases front with
      | nil => simp [size] at hsize
      | cons part front =>
        rw [List.cons_append, decodeFields, List.headD_cons, List.tail_cons] at hvalue
        cases hpart : codec.decode part with
        | error reason =>
          rw [hpart] at hvalue
          cases hvalue
        | ok first =>
          cases hfields : (RowSchema.field key' fmt' codec' rest').decodeFields replyName
              (front ++ [last]) with
          | error e =>
            rw [hpart, hfields] at hvalue
            cases hvalue
          | ok fields =>
            rw [hpart, hfields] at hvalue
            obtain ⟨β, codecLast, rebuild, v, hlast, hinj, hv, rfl, hother⟩ :=
              ih hP (Nat.succ.inj hsize) hfields
            refine ⟨β, codecLast, fun v => (first, rebuild v), v, hlast,
              fun a b h => hinj (Prod.mk.inj h).2, hv, (Except.ok.inj hvalue).symm,
              fun other w hw => ?_⟩
            rw [List.cons_append, decodeFields, List.headD_cons, List.tail_cons, hpart,
              hother other w hw]
            rfl

end RowSchema

namespace ReplyRow

variable {ρ : Type} (row : ReplyRow ρ)

theorem splitOn_append_of_not_mem {sep : Char} {front : List Char} (hfront : sep ∉ front)
    (back : List Char) :
    (front ++ back).splitOn sep = (back.splitOn sep).modifyHead (front ++ ·) := by
  induction front with
  | nil =>
    rw [List.nil_append]
    cases back.splitOn sep <;> rfl
  | cons c cs ih =>
    rw [List.mem_cons, not_or] at hfront
    have hc : ¬(c == sep) = true := by simpa using Ne.symm hfront.1
    rw [List.cons_append, List.splitOn_cons_eq_if_modifyHead, if_neg hc, ih hfront.2]
    cases back.splitOn sep <;> rfl

theorem stripCr_isPrefix (rawLine : List Char) : stripCr rawLine <+: rawLine := by
  unfold stripCr
  split
  · exact List.dropLast_prefix _
  · exact List.prefix_rfl

theorem getLast?_ne_of_stripCr {rawLine : List Char} (hstrip : stripCr rawLine = rawLine) :
    rawLine.getLast? ≠ some '\r' := by
  intro hlast
  obtain ⟨front, rfl⟩ := List.getLast?_eq_some_iff.mp hlast
  simp [stripCr] at hstrip

/-- The CR that is stripped from a row is one of its last column. -/
theorem stripCr_append {front : List Char} (hfront : front.getLast? = some '\t')
    (back : List Char) : stripCr (front ++ back) = front ++ stripCr back := by
  cases back using List.reverseRecOn with
  | nil => simp [stripCr, hfront]
  | append_singleton cs c =>
    unfold stripCr
    rw [← List.append_assoc, List.getLast?_concat, List.getLast?_concat]
    split
    · rw [List.dropLast_concat, List.dropLast_concat]
    · rw [List.append_assoc]

theorem exists_first_part (cs : List Char) :
    ∃ part parts, cs.splitOn '\n' = part :: parts ∧ part <+: cs ∧ (part = cs → '\n' ∉ cs) := by
  by_cases hmem : '\n' ∈ cs
  · obtain ⟨part, back, rfl, hpart⟩ := List.eq_append_cons_of_mem hmem
    refine ⟨part, _, List.splitOn_append_cons_self_of_not_mem hpart back,
      List.prefix_append _ _, fun h => ?_⟩
    exact absurd (List.self_eq_append_right.mp h) (List.cons_ne_nil _ _)
  · exact ⟨cs, [], List.splitOn_eq_singleton hmem, List.prefix_rfl, fun _ => hmem⟩

theorem count_tab_of_blank {cs : List Char} (hblank : ∀ part ∈ cs.splitOn '\n', Blank part) :
    cs.count '\t' = 0 := by
  rw [@count_eq_sum_splitOn '\n' '\t' (by decide)]
  refine List.sum_eq_zero fun n hn => ?_
  obtain ⟨part, hpart, rfl⟩ := List.mem_map.mp hn
  rcases hblank part hpart with rfl | rfl <;> rfl

/-- A break before the last column has the tab of that column behind it. -/
theorem not_mem_of_tab {front back : List Char} (htorn : ¬Torn (front ++ ['\t'] ++ back)) :
    '\n' ∉ front ++ ['\t'] := by
  intro hmem
  have hfront : '\n' ∈ front := by simpa using hmem
  obtain ⟨before, behind, rfl⟩ := List.append_of_mem hfront
  have hline : before ++ '\n' :: behind ++ ['\t'] ++ back =
      before ++ '\n' :: (behind ++ '\t' :: back) := by simp
  have htail : ∀ part ∈ (behind ++ '\t' :: back).splitOn '\n', Blank part := by
    refine fun part hpart => not_not.mp fun hblank => htorn ⟨part, ?_, hblank⟩
    rw [hline, List.splitOn_append_cons_self,
      List.tail_append_of_ne_nil (List.splitOn_ne_nil _ _)]
    exact List.mem_append_right _ hpart
  have hcount := count_tab_of_blank htail
  rw [List.count_append, List.count_cons_self] at hcount
  omega

/-- The one line of a row that is not torn: its last column up to the break. -/
theorem rowLines_cut {front last part : List Char} {parts : List (List Char)}
    (hfront : '\n' ∉ front ++ ['\t']) (hsplit : last.splitOn '\n' = part :: parts)
    (htorn : ¬Torn (front ++ ['\t'] ++ last)) :
    rowLines (front ++ ['\t'] ++ last) = [front ++ ['\t'] ++ stripCr part] := by
  have hlines : (front ++ ['\t'] ++ last).splitOn '\n' = (front ++ ['\t'] ++ part) :: parts := by
    rw [splitOn_append_of_not_mem hfront, hsplit, List.modifyHead_cons]
  have hblank : (parts.map stripCr).filter (fun line => line ≠ []) = [] := by
    refine List.filter_eq_nil_iff.mpr fun line hline => ?_
    obtain ⟨rest, hrest, rfl⟩ := List.mem_map.mp hline
    have hskipped : stripCr rest = [] := by
      rw [stripCr_eq_nil_iff]
      exact not_not.mp fun h => htorn ⟨rest, by rw [hlines]; exact hrest, h⟩
    simp [hskipped]
  rw [rowLines, hlines, List.map_cons, List.filter_cons, hblank, stripCr_append (by simp)]
  simp

/-- A break with nothing behind it is lost, and the row is read with what is left of its
last column. -/
theorem readRow_cut (r : Listed row) (hsize : 2 ≤ row.schema.size)
    (htext : row.schema.Last FieldCodec.Verbatim) (htorn : ¬Torn r.line) :
    ∃ value, row.readRow r.line = .ok [value] ∧ (value = r.value → ¬EndsInBreak r.line) := by
  obtain ⟨front, last, hcolumns, hfront, hlength, hline⟩ := r.exists_last hsize
  rw [hline] at htorn ⊢
  have hmeaning := r.meaning
  have htab := r.tabFree
  rw [hcolumns] at hmeaning htab
  have hprefix := not_mem_of_tab htorn
  obtain ⟨part, parts, hsplit, hpart, hwhole⟩ := exists_first_part last
  have htab' : ∀ column ∈ front ++ [stripCr part], '\t' ∉ column := by
    rw [List.forall_mem_append, List.forall_mem_singleton] at htab ⊢
    exact ⟨htab.1, fun h => htab.2 (((stripCr_isPrefix part).trans hpart).subset h)⟩
  have hparse := row.parseLine_columns (List.append_ne_nil_of_left_ne_nil hfront [stripCr part])
    (by simpa using hlength) htab'
  obtain ⟨α, codec, rebuild, v, hverbatim, hinj, hv, hvalue, hother⟩ :=
    RowSchema.decodeFields_last htext hlength hmeaning
  obtain ⟨v', hv'⟩ := hverbatim.1 (stripCr part)
  refine ⟨rebuild v', ?_, fun hsame => ?_⟩
  · rw [readRow, rowLines_cut hprefix hsplit htorn, List.mapM_cons, List.mapM_nil,
      ← intercalate_concat '\t' hfront, hparse, hother _ v' hv']
    rfl
  · -- Nothing was cut off: the column has no break, and no CR at its end.
    have hstrip : stripCr part = last :=
      hverbatim.2 _ _ (by rw [hv, hv', hinj (hsame.trans hvalue)])
    have hsamePart : part = last :=
      hpart.eq_of_length (le_antisymm hpart.length_le (hstrip ▸ (stripCr_isPrefix part).length_le))
    subst hsamePart
    have hcr := getLast?_ne_of_stripCr hstrip
    have hlf : part.getLast? ≠ some '\n' := fun h => hwhole rfl (List.mem_of_getLast? h)
    rw [EndsInBreak, List.getLast?_append, List.getLast?_concat]
    cases hend : part.getLast? with
    | none => simp
    | some c =>
      rw [hend] at hcr hlf
      rw [Option.some_or]
      exact not_or.mpr ⟨hlf, hcr⟩

/-! ## A listing -/

theorem mapM_flatMap_ok {texts : List (List Char)} {values : List ρ}
    (hrows : List.Forall₂ (fun cs value => row.readRow cs = .ok [value]) texts values) :
    (texts.flatMap rowLines).mapM row.parseLine = .ok values := by
  induction hrows with
  | nil => rfl
  | @cons cs value texts values hrow _ ih =>
    rw [readRow] at hrow
    rw [List.flatMap_cons, List.mapM_append, hrow, ih]
    rfl

theorem mapM_flatMap_error {texts : List (List Char)} {cs : List Char} (hcs : cs ∈ texts)
    {error : ReplyCodecError} (hrow : row.readRow cs = .error error) (values : List ρ) :
    (texts.flatMap rowLines).mapM row.parseLine ≠ .ok values := by
  intro hvalues
  have hlines := exists_mapM_eq_ok_iff.mp ⟨values, hvalues⟩
  obtain ⟨rows, hrows⟩ : ∃ rows, row.readRow cs = .ok rows :=
    exists_mapM_eq_ok_iff.mpr fun line hline => hlines line (List.mem_flatMap_of_mem hcs hline)
  rw [hrow] at hrows
  cases hrows

/-- The text begins with a character of the row, not with a line break. -/
def StartsPlain (line : List Char) : Prop :=
  ∃ c cs, line = c :: cs ∧ c ≠ '\n' ∧ c ≠ '\r'

section Listing

variable {row} {decode : Bytes → String} {rows : List (Listed row)}
  (hdecode : decode (utf8 (String.ofList (listing rows))) = String.ofList (listing rows))
include hdecode

theorem parse_listing : row.parse decode (utf8 (String.ofList (listing rows))) =
    ((rows.map Listed.line).flatMap rowLines).mapM row.parseLine := by
  rw [← rowLines_bodyOf, parse, hdecode, String.toList_ofList]
  rfl

/-- Rows without a break in their text are read back. -/
theorem parse_whole (hsize : 2 ≤ row.schema.size) (htorn : ∀ r ∈ rows, ¬Torn r.line)
    (hend : ∀ r ∈ rows, ¬EndsInBreak r.line) :
    row.parse decode (utf8 (String.ofList (listing rows))) = .ok (rows.map Listed.value) := by
  rw [parse_listing hdecode]
  refine row.mapM_flatMap_ok ?_
  rw [List.forall₂_map_left_iff, List.forall₂_map_right_iff, List.forall₂_same]
  exact fun r hr => row.readRow_whole r hsize (htorn r hr) (hend r hr)

theorem exact_of (hsize : 2 ≤ row.schema.size) (hfirst : ∀ r : Listed row, StartsPlain r.line)
    (hrows : (∃ r ∈ rows, Torn r.line) ∨ ∀ r ∈ rows, ¬EndsInBreak r.line) :
    row.Exact decode rows := by
  intro values hvalues
  by_cases htorn : ∃ r ∈ rows, Torn r.line
  · obtain ⟨r, hr, htorn⟩ := htorn
    obtain ⟨error, herror⟩ := row.readRow_torn r hsize htorn (hfirst r)
    rw [parse_listing hdecode] at hvalues
    exact absurd hvalues (row.mapM_flatMap_error (List.mem_map_of_mem hr) herror values)
  · have hend := hrows.resolve_left htorn
    rw [parse_whole hdecode hsize (fun r hr h => htorn ⟨r, hr, h⟩) hend] at hvalues
    exact (Except.ok.inj hvalues).symm

/-- A listing whose rows end in a free text is read exactly or not at all when some row is
torn, and otherwise when no row ends in a break. -/
theorem exact_iff (hsize : 2 ≤ row.schema.size) (hfirst : ∀ r : Listed row, StartsPlain r.line)
    (htext : row.schema.Last FieldCodec.Verbatim) :
    row.Exact decode rows ↔
      (∃ r ∈ rows, Torn r.line) ∨ ∀ r ∈ rows, ¬EndsInBreak r.line := by
  refine ⟨fun hexact => ?_, exact_of hdecode hsize hfirst⟩
  by_cases htorn : ∃ r ∈ rows, Torn r.line
  · exact Or.inl htorn
  · right
    -- Every row is read, each with what is left of its last column.
    have hcut : ∀ r : Listed row, ∃ value, r ∈ rows →
        row.readRow r.line = .ok [value] ∧ (value = r.value → ¬EndsInBreak r.line) := by
      intro r
      by_cases hr : r ∈ rows
      · obtain ⟨value, hvalue⟩ := row.readRow_cut r hsize htext fun h => htorn ⟨r, hr, h⟩
        exact ⟨value, fun _ => hvalue⟩
      · exact ⟨r.value, fun h => absurd h hr⟩
    choose cut hcut using hcut
    have hparse : row.parse decode (utf8 (String.ofList (listing rows))) =
        .ok (rows.map cut) := by
      rw [parse_listing hdecode]
      refine row.mapM_flatMap_ok ?_
      rw [List.forall₂_map_left_iff, List.forall₂_map_right_iff, List.forall₂_same]
      exact fun r hr => (hcut r hr).1
    have hsame := List.map_inj_left.mp (hexact _ hparse)
    exact fun r hr => (hcut r hr).2 (hsame r hr)

end Listing

end ReplyRow
end TmuxccDriver.State
