import TmuxccDriver.State.RowCodec

/-!
# The replies to list-windows and list-panes

A row of `list-windows` ends in a number, so a break in one of its names always has
something behind it and the reply is refused. A row of `list-panes` ends in the title of
the pane, and breaks at the end of a title have nothing behind them: the reply is read and
the title is shorter than it was.

Results:
1. `windowsRow_exact`: a window listing is read exactly or refused.
2. `WindowsReplyRow.carries`, `PanesReplyRow.carries`: the values the columns can carry.
3. `rowCodec_iff`: rendered rows are read back, and listings are read exactly or refused
   as long as no pane title ends in a break.
-/

namespace TmuxccDriver.State
open TmuxccDriver.Lib TmuxccDriver.Protocol ReplyRow

/-! ## What the listings begin and end with -/

theorem sigilId_decode_ok {sigil : Char} {raw : List Char} {n : Nat}
    (hdecode : (sigilId sigil).decode raw = .ok n) : raw.head? = some sigil := by
  simp only [sigilId] at hdecode
  split at hdecode
  next h => exact h.1
  next => cases hdecode

/-- A row whose first column is an id begins with the sigil of the id. -/
theorem head?_line {ρ : Type} {replyName key fmt : String} {sigil : Char} {rest : RowSchema ρ}
    (r : Listed (⟨replyName, .field key fmt (sigilId sigil) rest⟩ : ReplyRow (Nat × ρ))) :
    r.line.head? = some sigil := by
  obtain ⟨columns, value, hsize, hmeaning, _⟩ := r
  cases columns with
  | nil => simp [RowSchema.size] at hsize
  | cons first others =>
    rw [RowSchema.decodeFields, List.headD_cons] at hmeaning
    cases hfirst : (sigilId sigil).decode first with
    | error reason =>
      rw [hfirst] at hmeaning
      cases hmeaning
    | ok n =>
      have hhead := sigilId_decode_ok hfirst
      cases others with
      | nil => rwa [Listed.line, List.intercalate_singleton]
      | cons second others =>
        rw [Listed.line, List.intercalate_cons_cons, List.append_assoc, List.head?_append, hhead]
        rfl

theorem startsPlain_of_head? {line : List Char} {sigil : Char} (hhead : line.head? = some sigil)
    (hlf : sigil ≠ '\n') (hcr : sigil ≠ '\r') : StartsPlain line := by
  obtain ⟨cs, rfl⟩ := List.head?_eq_some_iff.mp hhead
  exact ⟨sigil, cs, rfl, hlf, hcr⟩

theorem isDigits_of_int {raw : List Char} {n : Nat} (hdecode : int.decode raw = .ok n) :
    isDigits raw := by
  simp only [int] at hdecode
  split at hdecode
  next h => exact h
  next => cases hdecode

/-- Only decimal digits are understood. -/
def FieldCodec.Digits {α : Type} (codec : FieldCodec α) : Prop :=
  ∀ raw value, codec.decode raw = .ok value → isDigits raw

theorem getLast?_isDigit {raw : List Char} (hraw : isDigits raw) :
    ∃ d, raw.getLast? = some d ∧ d.isDigit := by
  rw [isDigits, Bool.and_eq_true, List.all_eq_true] at hraw
  cases hlast : raw.getLast? with
  | none => simp [List.getLast?_eq_none_iff.mp hlast] at hraw
  | some d => exact ⟨d, rfl, hraw.2 d (List.mem_of_getLast? hlast)⟩

/-- A row that ends in a number does not end in a break. -/
theorem not_endsInBreak_of_digits {ρ : Type} {row : ReplyRow ρ}
    (hschema : row.schema.Last FieldCodec.Digits) (hsize : 2 ≤ row.schema.size)
    (r : Listed row) : ¬EndsInBreak r.line := by
  obtain ⟨front, last, hcolumns, _, hlength, hline⟩ := r.exists_last hsize
  have hmeaning := r.meaning
  rw [hcolumns] at hmeaning
  obtain ⟨α, codec, rebuild, v, hdigits, _, hv, _⟩ :=
    RowSchema.decodeFields_last hschema hlength hmeaning
  obtain ⟨d, hlast, hd⟩ := getLast?_isDigit (hdigits last v hv)
  rw [hline, EndsInBreak, List.getLast?_append, hlast, Option.some_or]
  rintro (h | h) <;> cases h <;> exact absurd hd (by decide)

theorem digits_windowsRow : WINDOWS_ROW.schema.Last FieldCodec.Digits :=
  fun _ _ h => isDigits_of_int h

theorem windowsRow_exact {decode : Bytes → String} {windows : List (Listed WINDOWS_ROW)}
    (hdecode : decode (utf8 (String.ofList (listing windows))) = String.ofList (listing windows)) :
    WINDOWS_ROW.Exact decode windows :=
  exact_of hdecode (by decide)
    (fun r => startsPlain_of_head? (head?_line r) (by decide) (by decide))
    (Or.inr fun r _ => not_endsInBreak_of_digits digits_windowsRow (by decide) r)

theorem verbatim_emptyAsUndefined_text : (emptyAsUndefined text).Verbatim := by
  constructor
  · intro raw
    simp only [emptyAsUndefined, text]
    split <;> exact ⟨_, rfl⟩
  · intro raw raw' hsame
    simp only [emptyAsUndefined, text] at hsame
    split at hsame <;> split at hsame <;> simp_all [Except.map, String.ofList_inj]

theorem panesRow_exact_iff {decode : Bytes → String} {panes : List (Listed PANES_ROW)}
    (hdecode : decode (utf8 (String.ofList (listing panes))) = String.ofList (listing panes)) :
    PANES_ROW.Exact decode panes ↔
      (∃ r ∈ panes, Torn r.line) ∨ ∀ r ∈ panes, ¬EndsInBreak r.line :=
  exact_iff hdecode (by decide)
    (fun r => startsPlain_of_head? (head?_line r) (by decide) (by decide))
    verbatim_emptyAsUndefined_text

/-! ## Values the columns can carry -/

/-- The text holds no separator. -/
def Plain (cs : List Char) : Prop := '\t' ∉ cs ∧ '\n' ∉ cs

/-- The text a value is written as holds no separator and is read as the value. -/
def FieldCodec.Carries {α : Type} (codec : FieldCodec α) (value : α) : Prop :=
  codec.decode (codec.encode value) = .ok value ∧ Plain (codec.encode value)

theorem plain_nil : Plain [] := ⟨List.not_mem_nil, List.not_mem_nil⟩

theorem plain_repr (n : Nat) : Plain n.repr.toList := by
  have hdigits : ∀ c ∈ n.repr.toList, c.isDigit := fun c hc =>
    Nat.isDigit_of_mem_toDigits (by decide) (by decide) (Nat.toList_repr ▸ hc)
  exact ⟨fun h => absurd (hdigits _ h) (by decide), fun h => absurd (hdigits _ h) (by decide)⟩

theorem isDigits_repr (n : Nat) : isDigits n.repr.toList := by
  rw [isDigits, Nat.toList_repr, Bool.and_eq_true, List.all_eq_true]
  refine ⟨?_, fun c hc => Nat.isDigit_of_mem_toDigits (by decide) (by decide) hc⟩
  cases hdigits : Nat.toDigits 10 n with
  | nil => exact absurd hdigits Nat.toDigits_ne_nil
  | cons d ds => rfl

theorem int_carries (n : Nat) : int.Carries n := by
  refine ⟨?_, plain_repr n⟩
  simp only [int, isDigits_repr, if_true]
  rw [Nat.toList_repr, natOfDigits_toDigits]

theorem sigilId_carries {sigil : Char} (htab : sigil ≠ '\t') (hlf : sigil ≠ '\n') (n : Nat) :
    (sigilId sigil).Carries n := by
  constructor
  · simp only [sigilId, List.head?_cons, List.tail_cons, isDigits_repr, and_self, if_true]
    rw [Nat.toList_repr, natOfDigits_toDigits]
  · have hplain := plain_repr n
    exact ⟨fun h => (List.mem_cons.mp h).elim (fun h => htab h.symm) hplain.1,
      fun h => (List.mem_cons.mp h).elim (fun h => hlf h.symm) hplain.2⟩

theorem flag01_carries (value : Bool) : flag01.Carries value := by
  cases value <;> exact ⟨rfl, by decide, by decide⟩

theorem text_carries {value : String} (hvalue : Plain value.toList) : text.Carries value :=
  ⟨congrArg Except.ok String.ofList_toList, hvalue⟩

/-- An empty value is taken for no value. -/
theorem emptyAsUndefined_carries {α : Type} {inner : FieldCodec α} {value : Option α}
    (hvalue : ∀ v ∈ value, inner.Carries v ∧ inner.encode v ≠ []) :
    (emptyAsUndefined inner).Carries value := by
  cases value with
  | none => exact ⟨rfl, plain_nil⟩
  | some v =>
    obtain ⟨hcarries, hne⟩ := hvalue v rfl
    refine ⟨?_, hcarries.2⟩
    simp only [emptyAsUndefined, Option.map_some, Option.getD_some, if_neg hne, hcarries.1]
    rfl

theorem detach_carries (value : Option DetachPolicy) :
    (optionalKeyword detachKeywords).Carries value := by
  rcases value with _ | _ | _ <;> exact ⟨by decide, by decide, by decide⟩

/-- The two names that stand for a mode of the model are no modes of tmux. -/
theorem paneMode_carries {mode : String} (hplain : Plain mode.toList) (hempty : mode ≠ "")
    (hcopy : mode ≠ "copy-mode") : paneMode.Carries mode := by
  simp only [FieldCodec.Carries, paneMode]
  split
  next h => exact ⟨by rw [h]; rfl, plain_nil⟩
  next =>
    split
    next h => exact ⟨by rw [h]; rfl, by decide, by decide⟩
    next =>
      have hne : mode.toList ≠ [] := fun h => hempty (String.toList_inj.mp h)
      rw [if_neg hne, if_neg fun h => hcopy (String.toList_inj.mp h), String.ofList_toList]
      exact ⟨rfl, hplain⟩

/-! ## Rendered rows -/

namespace RowSchema

/-- Every column carries its value. -/
def Carries : {ρ : Type} → RowSchema ρ → ρ → Prop
  | _, .done, _ => True
  | _, .field _ _ codec rest, row => codec.Carries row.1 ∧ rest.Carries row.2

variable {ρ : Type} {schema : RowSchema ρ} {value : ρ}

theorem length_encodeFields (schema : RowSchema ρ) (value : ρ) :
    (schema.encodeFields value).length = schema.size := by
  induction schema with
  | done => rfl
  | field key fmt codec rest ih => rw [encodeFields, List.length_cons, ih, size]

theorem decodeFields_encodeFields (hcarries : schema.Carries value) (replyName : String) :
    schema.decodeFields replyName (schema.encodeFields value) = .ok value := by
  induction schema with
  | done => rfl
  | field key fmt codec rest ih =>
    rw [encodeFields, decodeFields, List.headD_cons, List.tail_cons, hcarries.1.1, ih hcarries.2]
    rfl

theorem plain_encodeFields (hcarries : schema.Carries value) :
    ∀ column ∈ schema.encodeFields value, Plain column := by
  induction schema with
  | done => exact fun column h => absurd h List.not_mem_nil
  | field key fmt codec rest ih =>
    rw [encodeFields, List.forall_mem_cons]
    exact ⟨hcarries.1.2, ih hcarries.2⟩

end RowSchema

namespace ReplyRow

variable {ρ : Type} (row : ReplyRow ρ)

/-- `fixtureBody` of full rows. -/
def fixtureBody (rows : List ρ) : List Char := bodyOf (rows.map row.renderLine)

/-- What tmux prints for a row that the columns can carry. -/
def toListed (value : ρ) (hcarries : row.schema.Carries value) : Listed row where
  columns := row.schema.encodeFields value
  value
  size_eq := row.schema.length_encodeFields value
  meaning := RowSchema.decodeFields_encodeFields hcarries row.replyName
  tabFree column hcolumn := (RowSchema.plain_encodeFields hcarries column hcolumn).1

theorem not_mem_intercalate {c sep : Char} (hsep : c ≠ sep) {parts : List (List Char)}
    (hparts : ∀ part ∈ parts, c ∉ part) : c ∉ [sep].intercalate parts := by
  induction parts with
  | nil => exact List.not_mem_nil
  | cons part parts ih =>
    rw [List.forall_mem_cons] at hparts
    cases parts with
    | nil =>
      rw [List.intercalate_singleton]
      exact hparts.1
    | cons next rest =>
      rw [List.intercalate_cons_cons, List.mem_append, List.mem_append, List.mem_singleton]
      exact not_or.mpr ⟨not_or.mpr ⟨hparts.1, hsep⟩, ih hparts.2⟩

theorem not_torn_of_not_mem {line : List Char} (hline : '\n' ∉ line) : ¬Torn line := by
  rintro ⟨rest, hrest, _⟩
  rw [List.splitOn_eq_singleton hline] at hrest
  exact List.not_mem_nil hrest

theorem listing_toListed {rows : List ρ} (hcarries : ∀ v ∈ rows, row.schema.Carries v) :
    listing (rows.pmap row.toListed hcarries) = row.fixtureBody rows := by
  rw [listing, List.map_pmap, fixtureBody, ← List.pmap_eq_map]
  rfl

/-- Rows that the columns can carry are read back. -/
theorem parse_fixtureBody {decode : Bytes → String} {rows : List ρ}
    (hdecode : decode (utf8 (String.ofList (row.fixtureBody rows))) =
      String.ofList (row.fixtureBody rows))
    (hsize : 2 ≤ row.schema.size) (hcarries : ∀ v ∈ rows, row.schema.Carries v)
    (hend : ∀ v ∈ rows, (row.renderLine v).getLast? ≠ some '\r') :
    row.parse decode (utf8 (String.ofList (row.fixtureBody rows))) = .ok rows := by
  have hbreak : ∀ v ∈ rows, '\n' ∉ row.renderLine v := fun v hv =>
    not_mem_intercalate (by decide) fun column hcolumn =>
      (RowSchema.plain_encodeFields (hcarries v hv) column hcolumn).2
  have hvalues : (rows.pmap row.toListed hcarries).map Listed.value = rows := by
    rw [List.map_pmap]
    exact List.pmap_eq_self.mpr fun _ _ => rfl
  have hlines : ∀ r ∈ rows.pmap row.toListed hcarries, ∃ v ∈ rows, r.line = row.renderLine v := by
    intro r hr
    obtain ⟨v, hv, rfl⟩ := List.mem_pmap.mp hr
    exact ⟨v, hv, rfl⟩
  rw [← row.listing_toListed hcarries] at hdecode ⊢
  rw [parse_whole hdecode hsize ?_ ?_, hvalues]
  · intro r hr
    obtain ⟨v, hv, hline⟩ := hlines r hr
    exact hline ▸ not_torn_of_not_mem (hbreak v hv)
  · intro r hr
    obtain ⟨v, hv, hline⟩ := hlines r hr
    rw [hline]
    exact not_or.mpr ⟨fun h => hbreak v hv (List.mem_of_getLast? h), hend v hv⟩

end ReplyRow

/-! ## The two listings -/

/-- A window row the format can carry: no separator in its texts. -/
structure WindowsReplyRow.Carried (w : WindowsReplyRow) : Prop where
  sessionName : Plain w.sessionName.toList
  name : Plain w.name.toList
  layoutString : Plain w.layoutString.toList

/-- A pane row the format can carry: no separator in its texts, no empty text where an
empty column means none, a mode as it is read, and no CR that would be stripped. -/
structure PanesReplyRow.Carried (p : PanesReplyRow) : Prop where
  mode : Plain p.mode.toList
  mode_ne_empty : p.mode ≠ ""
  mode_ne_copy : p.mode ≠ "copy-mode"
  label : ∀ s ∈ p.label, Plain s.toList ∧ s ≠ ""
  icon : ∀ s ∈ p.icon, Plain s.toList ∧ s ≠ ""
  paneTitle : ∀ s ∈ p.paneTitle, Plain s.toList ∧ s ≠ ""
  title_end : ∀ s ∈ p.paneTitle, s.toList.getLast? ≠ some '\r'

def WindowsReplyRow.toFields (w : WindowsReplyRow) :
    Nat × String × Nat × String × String × Bool × Bool × Bool × Nat × Unit :=
  (w.tmuxSessionId, w.sessionName, w.tmuxWindowId, w.name, w.layoutString, w.active,
    w.synchronizePanes, w.monitorActivity, w.monitorSilence, ())

def PanesReplyRow.toFields (p : PanesReplyRow) :
    Nat × Nat × Nat × Nat × Nat × Bool × String × Bool × Option Nat × Option String ×
      Option DetachPolicy × Option String × Option String × Unit :=
  (p.tmuxPaneId, p.tmuxWindowId, p.tmuxSessionId, p.cols, p.rows, p.active, p.mode, p.dead,
    p.exitCode, p.label, p.detach, p.icon, p.paneTitle, ())

/-- `fixtureBody` of `WINDOWS_ROW`. -/
def windowsBody (rows : List WindowsReplyRow) : String :=
  String.ofList (WINDOWS_ROW.fixtureBody (rows.map WindowsReplyRow.toFields))

/-- `fixtureBody` of `PANES_ROW`. -/
def panesBody (rows : List PanesReplyRow) : String :=
  String.ofList (PANES_ROW.fixtureBody (rows.map PanesReplyRow.toFields))

theorem WindowsReplyRow.carries {w : WindowsReplyRow} (hw : w.Carried) :
    WINDOWS_ROW.schema.Carries w.toFields :=
  ⟨sigilId_carries (by decide) (by decide) _, text_carries hw.sessionName,
    sigilId_carries (by decide) (by decide) _, text_carries hw.name,
    text_carries hw.layoutString, flag01_carries _, flag01_carries _, flag01_carries _,
    int_carries _, trivial⟩

theorem emptyAsUndefined_text_carries {value : Option String}
    (hvalue : ∀ s ∈ value, Plain s.toList ∧ s ≠ "") : (emptyAsUndefined text).Carries value :=
  emptyAsUndefined_carries fun s hs =>
    ⟨text_carries (hvalue s hs).1, fun h => (hvalue s hs).2 (String.toList_inj.mp h)⟩

theorem emptyAsUndefined_int_carries (value : Option Nat) :
    (emptyAsUndefined int).Carries value :=
  emptyAsUndefined_carries fun n _ => ⟨int_carries n, fun h => by
    have hdigits := isDigits_repr n
    rw [show n.repr.toList = [] from h] at hdigits
    exact absurd hdigits (by decide)⟩

theorem PanesReplyRow.carries {p : PanesReplyRow} (hp : p.Carried) :
    PANES_ROW.schema.Carries p.toFields :=
  ⟨sigilId_carries (by decide) (by decide) _, sigilId_carries (by decide) (by decide) _,
    sigilId_carries (by decide) (by decide) _, int_carries _, int_carries _, flag01_carries _,
    paneMode_carries hp.mode hp.mode_ne_empty hp.mode_ne_copy, flag01_carries _,
    emptyAsUndefined_int_carries _, emptyAsUndefined_text_carries hp.label,
    detach_carries _, emptyAsUndefined_text_carries hp.icon,
    emptyAsUndefined_text_carries hp.paneTitle, trivial⟩

/-- A decoder that keeps every text, but for the mark `TextDecoder` drops at its front. -/
def Decodes (decode : Bytes → String) : Prop :=
  ∀ s : String, s.toList.head? ≠ some '\uFEFF' → decode (utf8 s) = s

theorem Decodes.listing {decode : Bytes → String} (hdecode : Decodes decode) {ρ : Type}
    {row : ReplyRow ρ} {sigil : Char} (hsigil : sigil ≠ '\uFEFF') {rows : List (Listed row)}
    (hhead : ∀ r ∈ rows, r.line.head? = some sigil) :
    decode (utf8 (String.ofList (listing rows))) = String.ofList (listing rows) := by
  refine hdecode _ ?_
  rw [String.toList_ofList]
  cases rows with
  | nil => exact nofun
  | cons r rest =>
    have hlisting : ReplyRow.listing (r :: rest) = r.line ++ '\n' :: ReplyRow.listing rest := by
      simp [ReplyRow.listing, bodyOf]
    rw [hlisting, List.head?_append, hhead r List.mem_cons_self, Option.some_or]
    exact fun h => hsigil (Option.some.inj h)

/-- Rendered window rows are read back. -/
theorem windows_roundTrip {decode : Bytes → String} (hdecode : Decodes decode)
    {rows : List WindowsReplyRow} (hrows : ∀ w ∈ rows, w.Carried) :
    parseWindows decode (utf8 (windowsBody rows)) = .ok rows := by
  have hcarries : ∀ v ∈ rows.map WindowsReplyRow.toFields, WINDOWS_ROW.schema.Carries v :=
    List.forall_mem_map.mpr fun w hw => WindowsReplyRow.carries (hrows w hw)
  have hbody := @Decodes.listing _ hdecode _ WINDOWS_ROW '$' (by decide)
    ((rows.map WindowsReplyRow.toFields).pmap WINDOWS_ROW.toListed hcarries)
    fun r _ => head?_line r
  rw [WINDOWS_ROW.listing_toListed hcarries] at hbody
  have hend : ∀ v ∈ rows.map WindowsReplyRow.toFields,
      (WINDOWS_ROW.renderLine v).getLast? ≠ some '\r' := fun v hv h =>
    not_endsInBreak_of_digits digits_windowsRow (by decide)
      (WINDOWS_ROW.toListed v (hcarries v hv)) (Or.inr h)
  rw [parseWindows, windowsBody, WINDOWS_ROW.parse_fixtureBody hbody (by decide) hcarries hend]
  exact congrArg Except.ok ((List.map_map ..).trans (List.map_id rows))

/-- A pane row ends with its title. -/
theorem getLast?_renderLine_panes (p : PanesReplyRow) :
    ∃ front, PANES_ROW.renderLine p.toFields =
      front ++ ['\t'] ++ (emptyAsUndefined text).encode p.paneTitle := by
  have hcolumns : PANES_ROW.schema.encodeFields p.toFields =
      (PANES_ROW.schema.encodeFields p.toFields).dropLast ++
        [(emptyAsUndefined text).encode p.paneTitle] := rfl
  exact ⟨_, (congrArg (List.intercalate ['\t']) hcolumns).trans
    (intercalate_concat '\t' (List.cons_ne_nil _ _) _)⟩

/-- Rendered pane rows are read back. -/
theorem panes_roundTrip {decode : Bytes → String} (hdecode : Decodes decode)
    {rows : List PanesReplyRow} (hrows : ∀ p ∈ rows, p.Carried) :
    parsePanes decode (utf8 (panesBody rows)) = .ok rows := by
  have hcarries : ∀ v ∈ rows.map PanesReplyRow.toFields, PANES_ROW.schema.Carries v :=
    List.forall_mem_map.mpr fun p hp => PanesReplyRow.carries (hrows p hp)
  have hbody := @Decodes.listing _ hdecode _ PANES_ROW '%' (by decide)
    ((rows.map PanesReplyRow.toFields).pmap PANES_ROW.toListed hcarries)
    fun r _ => head?_line r
  rw [PANES_ROW.listing_toListed hcarries] at hbody
  have hend : ∀ v ∈ rows.map PanesReplyRow.toFields,
      (PANES_ROW.renderLine v).getLast? ≠ some '\r' := by
    rw [List.forall_mem_map]
    intro p hp
    obtain ⟨front, hline⟩ := getLast?_renderLine_panes p
    rw [hline, List.getLast?_append, List.getLast?_concat]
    cases htitle : p.paneTitle with
    | none => exact by decide
    | some title =>
      have hcr := (hrows p hp).title_end title htitle
      rw [show (emptyAsUndefined text).encode (some title) = title.toList from rfl]
      cases hlast : title.toList.getLast? with
      | none => exact by decide
      | some c => rwa [hlast] at hcr
  rw [parsePanes, panesBody, PANES_ROW.parse_fixtureBody hbody (by decide) hcarries hend]
  exact congrArg Except.ok ((List.map_map ..).trans (List.map_id rows))

/-- Rendered rows are read back, and every window listing is read exactly or refused. A
pane listing is, unless a title ends in a break and nothing stands behind a break. -/
theorem rowCodec_iff (decode : Bytes → String) (hdecode : Decodes decode)
    (windowRows : List WindowsReplyRow) (paneRows : List PanesReplyRow)
    (windows : List (Listed WINDOWS_ROW)) (panes : List (Listed PANES_ROW)) :
    (((∀ w ∈ windowRows, w.Carried) →
        parseWindows decode (utf8 (windowsBody windowRows)) = .ok windowRows) ∧
      ((∀ p ∈ paneRows, p.Carried) →
        parsePanes decode (utf8 (panesBody paneRows)) = .ok paneRows) ∧
      WINDOWS_ROW.Exact decode windows ∧ PANES_ROW.Exact decode panes) ↔
    (∃ r ∈ panes, Torn r.line) ∨ ∀ r ∈ panes, ¬EndsInBreak r.line := by
  have hwindows := windowsRow_exact
    (@Decodes.listing _ hdecode _ WINDOWS_ROW '$' (by decide) windows fun r _ => head?_line r)
  rw [← panesRow_exact_iff
    (@Decodes.listing _ hdecode _ PANES_ROW '%' (by decide) panes fun r _ => head?_line r)]
  constructor
  · exact fun h => h.2.2.2
  · exact fun h => ⟨windows_roundTrip hdecode, panes_roundTrip hdecode, hwindows, h⟩

/-- A decoder of UTF-8. -/
def decodeUtf8 (bytes : Bytes) : String :=
  String.ofList ((bytes.toByteArray.utf8Decode?.map Array.toList).getD [])

theorem decodeUtf8_utf8 (s : String) : decodeUtf8 (utf8 s) = s := by
  have hbytes : (utf8 s).toByteArray = s.toList.utf8Encode := rfl
  rw [decodeUtf8, hbytes, List.utf8Decode?_utf8Encode]
  exact String.ofList_toList

/-- A pane whose title ends in a line break. -/
def brokenTitle : Listed PANES_ROW where
  columns := ["%1", "@1", "$0", "80", "24", "1", "", "0", "", "", "", "", "vim\n"].map String.toList
  value := (1, 1, 0, 80, 24, true, "normal", false, none, none, none, none, some "vim\n", ())
  size_eq := by decide
  meaning := by rfl
  tabFree := by decide

/-- The reply is accepted, and the title has lost its end. -/
theorem break_lost : ¬PANES_ROW.Exact decodeUtf8 [brokenTitle] := by
  have hbody := @Decodes.listing _ (fun s _ => decodeUtf8_utf8 s) _ PANES_ROW '%' (by decide)
    [brokenTitle] fun r _ => head?_line r
  rw [panesRow_exact_iff hbody]
  decide +kernel

/-- A pane whose title holds a line break with text behind it. -/
def tornTitle : Listed PANES_ROW where
  columns := ["%2", "@1", "$0", "80", "24", "0", "", "0", "", "", "", "", "a\nb"].map String.toList
  value := (2, 1, 0, 80, 24, false, "normal", false, none, none, none, none, some "a\nb", ())
  size_eq := by decide
  meaning := by rfl
  tabFree := by decide

theorem rowCodec_iff_tornTitle :
    PANES_ROW.Exact decodeUtf8 [tornTitle, brokenTitle] ∧ tornTitle.line.contains '\n' :=
  ⟨((rowCodec_iff decodeUtf8 (fun s _ => decodeUtf8_utf8 s) [] [] []
      [tornTitle, brokenTitle]).mpr (Or.inl ⟨tornTitle, by simp, by decide +kernel⟩)).2.2.2,
    by decide +kernel⟩

end TmuxccDriver.State
