import Mathlib.Data.List.Flatten
import Mathlib.Data.List.Perm.Basic
import Mathlib.Data.Multiset.AddSub
import TmuxccDriver.Lib.KeyedMap

/-!
# The merge of metrics expositions

`metrics-exposition.ts`: the text exposition of the server proxy and those of its sessions are
merged into one, with a `session` label in every sample of a session. A text is a list of
characters, and a parsed family carries the name that is its key in the code's map.

`Family` is what an exposition says: headers and samples, each well formed by construction.

Results:
1. `parseExposition_of_renders`: the parser reads the families of a text.
2. `injectSessionLabel_line`: the label goes first in the sample, and the rest stays.
3. `mergeMetricsText_of_renders`: the merged text, family by family.
4. `distinct_series`: when no series of it occurs twice.
5. `merge_exposition`: what the merged text is.
-/

namespace TmuxccDriver.Metrics.Exposition
open TmuxccDriver.Lib

/-! ## The code -/

structure SessionExposition where
  sessionId : List Char
  text : List Char

structure ParsedFamily where
  name : List Char
  help : Option (List Char)
  type : Option (List Char)
  samples : List (List Char)

abbrev Families := KeyedMap ParsedFamily.name

def helpPrefix : List Char := "# HELP ".toList
def typePrefix : List Char := "# TYPE ".toList

def sampleMetricName (line : List Char) : List Char :=
  let last := line.length
  let last := match line.idxOf? '{' with
    | some braceIdx => min last braceIdx
    | none => last
  let last := match line.idxOf? ' ' with
    | some spaceIdx => min last spaceIdx
    | none => last
  line.take last

structure Parser where
  families : Families
  current : Option (List Char)

namespace Parser

def ensure (p : Parser) (name : List Char) : ParsedFamily :=
  (p.families.get? name).getD ⟨name, none, none, []⟩

/-- `.split(" ")[0]` of what follows the prefix of a header. -/
def headerName (before line : List Char) : List Char :=
  ((line.drop before.length).splitOn ' ').headD []

def pushSample (p : Parser) (name line : List Char) : Parser :=
  let fam := p.ensure name
  { families := p.families.set { fam with samples := fam.samples ++ [line] }
    current := some name }

/-- One turn of the loop over the lines. -/
def line (p : Parser) (line : List Char) : Parser :=
  if line.length = 0 then p
  else if helpPrefix.isPrefixOf line then
    let name := headerName helpPrefix line
    { families := p.families.set { p.ensure name with help := some line }, current := some name }
  else if typePrefix.isPrefixOf line then
    let name := headerName typePrefix line
    { families := p.families.set { p.ensure name with type := some line }, current := some name }
  else if ['#'].isPrefixOf line then p
  else
    let sName := sampleMetricName line
    match p.current with
    | some current =>
      if current.isPrefixOf sName then p.pushSample current line else p.pushSample sName line
    | none => p.pushSample sName line

end Parser

def parseExposition (text : List Char) : Families :=
  ((text.splitOn '\n').foldl Parser.line ⟨.empty, none⟩).families

/-- `.replace(/c/g, replacement)`. -/
def replaceAll (c : Char) (replacement cs : List Char) : List Char :=
  cs.flatMap fun x => if x = c then replacement else [x]

def esc (sessionId : List Char) : List Char :=
  replaceAll '\n' ['\\', 'n'] (replaceAll '"' ['\\', '"'] (replaceAll '\\' ['\\', '\\'] sessionId))

def slice (cs : List Char) (first last : Nat) : List Char := (cs.take last).drop first

def injectSessionLabel (line sessionId : List Char) : List Char :=
  let label := "session=\"".toList ++ esc sessionId ++ ['"']
  match line.idxOf? '{' with
  | some braceIdx =>
    -- Without a brace that closes, `closeIdx` is -1, which a slice takes for the last place.
    let closeIdx := match (line.drop braceIdx).idxOf? '}' with
      | some i => braceIdx + i
      | none => line.length - 1
    let existing := slice line (braceIdx + 1) closeIdx
    let sep := if existing.length > 0 then [','] else []
    line.take (braceIdx + 1) ++ label ++ sep ++ existing ++ line.drop closeIdx
  | none =>
    match line.idxOf? ' ' with
    | none => line
    | some spaceIdx => line.take spaceIdx ++ '{' :: label ++ '}' :: line.drop spaceIdx

structure ParsedSession where
  sessionId : List Char
  families : Families

/-- The lines of `help` and `type`, where they are not null. -/
def ParsedFamily.header (fam : ParsedFamily) : List (List Char) :=
  fam.help.toList ++ fam.type.toList

/-- `familyOrder`; `seenFamily` has the same names. -/
def familyOrder (serverFamilies : Families) (parsedSessions : List ParsedSession) :
    List (List Char) :=
  parsedSessions.foldl (fun order ps =>
    ps.families.values.foldl (fun order fam =>
      if serverFamilies.has fam.name then order
      else if fam.name ∈ order then order
      else order ++ [fam.name]) order) []

structure Emission where
  out : List (List Char)
  emittedHeader : List (List Char)

/-- One turn of the loop over the sessions, for one family. -/
def Emission.fromSession (name : List Char) (e : Emission) (ps : ParsedSession) : Emission :=
  match ps.families.get? name with
  | none => e
  | some fam =>
    let e := if name ∈ e.emittedHeader then e
      else ⟨e.out ++ fam.header, name :: e.emittedHeader⟩
    { e with out := e.out ++ fam.samples.map (injectSessionLabel · ps.sessionId) }

/-- `out.join("\n") + "\n"`. -/
def joinLines (out : List (List Char)) : List Char := ['\n'].intercalate out ++ ['\n']

def mergeMetricsText (serverProxyText : List Char) (sessions : List SessionExposition) :
    List Char :=
  let serverFamilies := parseExposition serverProxyText
  let out := serverFamilies.values.flatMap fun fam => fam.header ++ fam.samples
  let parsedSessions := sessions.map fun s => ⟨s.sessionId, parseExposition s.text⟩
  let emission := (familyOrder serverFamilies parsedSessions).foldl
    (fun e name => parsedSessions.foldl (Emission.fromSession name) e) ⟨out, []⟩
  joinLines emission.out

/-! ## What an exposition says -/

def nameChar (c : Char) : Bool := c.isAlphanum || c == '_' || c == ':'

structure IsName (cs : List Char) : Prop where
  ne_nil : cs ≠ []
  chars : cs.all nameChar = true

structure Label where
  name : List Char
  value : List Char
  isName : IsName name
deriving DecidableEq

/-- A sample; `labels` is `none` where the line has no braces. A timestamp is part of the
value. -/
structure Sample where
  name : List Char
  labels : Option (List Label)
  value : List Char
  isName : IsName name
  oneLine : '\n' ∉ value
  unbraced : '{' ∉ value

/-- A family with at least one of its two headers. -/
structure Family where
  name : List Char
  help : Option (List Char)
  type : Option (List Char)
  samples : List Sample
  isName : IsName name
  headed : help.isSome ∨ type.isSome
  helpLine : ∀ doc ∈ help, '\n' ∉ doc
  typeLine : ∀ kind ∈ type, '\n' ∉ kind
  mine : ∀ s ∈ samples, name <+: s.name

def escapeChar : Char → List Char
  | '\\' => ['\\', '\\']
  | '"' => ['\\', '"']
  | '\n' => ['\\', 'n']
  | c => [c]

def Label.text (l : Label) : List Char :=
  l.name ++ "=\"".toList ++ l.value.flatMap escapeChar ++ ['"']

def labelsText : Option (List Label) → List Char
  | none => []
  | some labels => '{' :: [','].intercalate (labels.map Label.text) ++ ['}']

def Sample.line (s : Sample) : List Char := s.name ++ labelsText s.labels ++ ' ' :: s.value

namespace Family

def helpText (f : Family) : Option (List Char) :=
  f.help.map fun doc => helpPrefix ++ (f.name ++ ' ' :: doc)

def typeText (f : Family) : Option (List Char) :=
  f.type.map fun kind => typePrefix ++ (f.name ++ ' ' :: kind)

def header (f : Family) : List (List Char) := f.helpText.toList ++ f.typeText.toList

def lines (f : Family) : List (List Char) := f.header ++ f.samples.map Sample.line

end Family

/-- A blank line, or a comment that is no header. -/
def stray (line : List Char) : Bool :=
  line.length = 0 || ['#'].isPrefixOf line && !helpPrefix.isPrefixOf line &&
    !typePrefix.isPrefixOf line

/-- The text is an exposition of the families, with blank lines and comments anywhere. -/
structure Renders (text : List Char) (families : List Family) : Prop where
  lines : (text.splitOn '\n').filter (!stray ·) = families.flatMap Family.lines
  distinct : (families.map Family.name).Nodup

def sessionLabel (sessionId : List Char) : Label where
  name := "session".toList
  value := sessionId
  isName := ⟨by decide, by decide⟩

namespace Sample

def labelList (s : Sample) : List Label := s.labels.getD []

/-- A series is known by its name and its set of labels. -/
def series (s : Sample) : List Char × Multiset Label := (s.name, s.labelList)

def labelled (sessionId : List Char) (s : Sample) : Sample :=
  { s with labels := some (sessionLabel sessionId :: s.labelList) }

end Sample

/-! ## One line -/

theorem idxOf?_append {x : Char} {front : List Char} (hfront : x ∉ front) (back : List Char) :
    (front ++ back).idxOf? x = (back.idxOf? x).map (front.length + ·) := by
  induction front with
  | nil => simp
  | cons c front ih =>
    obtain ⟨hc, hrest⟩ := not_or.mp (mt List.mem_cons.mpr hfront)
    have hne : (c == x) = false := beq_false_of_ne (Ne.symm hc)
    rw [List.cons_append, List.idxOf?_cons, hne, ih hrest, List.length_cons]
    cases back.idxOf? x with
    | none => rfl
    | some i => simp [Nat.add_right_comm]

namespace IsName

variable {name : List Char}

theorem not_mem (h : IsName name) {c : Char} (hc : nameChar c = false) : c ∉ name := fun hmem =>
  absurd (List.all_eq_true.mp h.chars c hmem) (by simp [hc])

/-- A line that starts with a name is no comment. -/
theorem not_comment (h : IsName name) (rest : List Char) :
    ['#'].isPrefixOf (name ++ rest) = false := by
  cases name with
  | nil => exact absurd rfl h.ne_nil
  | cons c name =>
    have hne : c ≠ '#' := fun hc => h.not_mem (c := '#') rfl (hc ▸ List.mem_cons_self)
    simp [List.isPrefixOf, hne.symm]

/-- The name of a header line ends at the blank. -/
theorem headerName_eq (h : IsName name) (before rest : List Char) :
    Parser.headerName before (before ++ (name ++ ' ' :: rest)) = name := by
  rw [Parser.headerName, List.drop_left,
    List.splitOn_append_cons_self_of_not_mem (h.not_mem (c := ' ') rfl)]
  rfl

/-- The name of a sample line ends at the brace or the blank. -/
theorem sampleMetricName_eq (h : IsName name) {stop : Char} (hstop : stop = '{' ∨ stop = ' ')
    (rest : List Char) : sampleMetricName (name ++ stop :: rest) = name := by
  have hbrace := idxOf?_append (h.not_mem (c := '{') rfl) (stop :: rest)
  have hblank := idxOf?_append (h.not_mem (c := ' ') rfl) (stop :: rest)
  have htake : ∀ n, n = name.length → (name ++ stop :: rest).take n = name := by
    rintro n rfl
    exact List.take_left
  rw [List.idxOf?_cons] at hbrace hblank
  simp only [sampleMetricName]
  rw [hbrace, hblank]
  refine htake _ ?_
  rcases hstop with rfl | rfl
  · cases rest.idxOf? ' ' <;> simp
  · cases rest.idxOf? '{' <;> simp

end IsName

namespace Sample

/-- A sample line is its name up to a brace or a blank. -/
theorem line_split (s : Sample) :
    ∃ stop rest, (stop = '{' ∨ stop = ' ') ∧ s.line = s.name ++ stop :: rest := by
  unfold line
  cases s.labels with
  | none => exact ⟨' ', s.value, .inr rfl, by simp [labelsText]⟩
  | some labels => exact ⟨'{', _, .inl rfl, by rw [labelsText, List.append_assoc]; rfl⟩

end Sample

/-! ## The parser -/

theorem comment_of_help {line : List Char} (h : helpPrefix.isPrefixOf line = true) :
    ['#'].isPrefixOf line = true := by
  rw [List.isPrefixOf_iff_prefix] at h ⊢
  exact List.IsPrefix.trans (by decide) h

theorem comment_of_type {line : List Char} (h : typePrefix.isPrefixOf line = true) :
    ['#'].isPrefixOf line = true := by
  rw [List.isPrefixOf_iff_prefix] at h ⊢
  exact List.IsPrefix.trans (by decide) h

namespace Parser

theorem line_stray {line : List Char} (h : stray line = true) (p : Parser) : p.line line = p := by
  unfold Parser.line
  rw [stray, Bool.or_eq_true, Bool.and_eq_true, Bool.and_eq_true] at h
  rcases h with hblank | ⟨⟨hcomment, hhelp⟩, htype⟩
  · rw [if_pos (of_decide_eq_true hblank)]
  · rw [Bool.not_eq_true'] at hhelp htype
    rw [hhelp, htype, if_pos hcomment]
    split <;> rfl

theorem line_help (p : Parser) {name : List Char} (h : IsName name) (doc : List Char) :
    p.line (helpPrefix ++ (name ++ ' ' :: doc)) =
      { families := p.families.set
          { p.ensure name with help := some (helpPrefix ++ (name ++ ' ' :: doc)) }
        current := some name } := by
  have hhelp : helpPrefix.isPrefixOf (helpPrefix ++ (name ++ ' ' :: doc)) = true :=
    List.isPrefixOf_iff_prefix.mpr (List.prefix_append _ _)
  unfold Parser.line
  rw [if_neg (by simp), if_pos hhelp, h.headerName_eq]

theorem line_type (p : Parser) {name : List Char} (h : IsName name) (kind : List Char) :
    p.line (typePrefix ++ (name ++ ' ' :: kind)) =
      { families := p.families.set
          { p.ensure name with type := some (typePrefix ++ (name ++ ' ' :: kind)) }
        current := some name } := by
  have hhelp : helpPrefix.isPrefixOf (typePrefix ++ (name ++ ' ' :: kind)) = false := rfl
  have htype : typePrefix.isPrefixOf (typePrefix ++ (name ++ ' ' :: kind)) = true :=
    List.isPrefixOf_iff_prefix.mpr (List.prefix_append _ _)
  unfold Parser.line
  rw [if_neg (by simp), if_neg (by simp [hhelp]), if_pos htype, h.headerName_eq]

theorem line_sample (p : Parser) {name : List Char} (hcurrent : p.current = some name)
    {s : Sample} (hmine : name <+: s.name) : p.line s.line = p.pushSample name s.line := by
  obtain ⟨stop, rest, hstop, hline⟩ := s.line_split
  have hcomment : ['#'].isPrefixOf s.line = false := hline ▸ s.isName.not_comment _
  have hname : sampleMetricName s.line = s.name := hline ▸ s.isName.sampleMetricName_eq hstop rest
  unfold Parser.line
  rw [if_neg (by simp [hline]), if_neg (fun h => by simp [comment_of_help h] at hcomment),
    if_neg (fun h => by simp [comment_of_type h] at hcomment), if_neg (by simp [hcomment])]
  simp only [hcurrent, hname]
  exact if_pos (List.isPrefixOf_iff_prefix.mpr hmine)

end Parser

namespace Family

/-- What the parser makes of a family. -/
def parsed (f : Family) : ParsedFamily :=
  ⟨f.name, f.helpText, f.typeText, f.samples.map Sample.line⟩

theorem header_parsed (f : Family) : f.parsed.header = f.header := rfl

end Family

namespace Parser

/-- `fam` is the latest family, after the families of `done`, and the samples go to it. -/
structure Open (p : Parser) (done : List ParsedFamily) (fam : ParsedFamily) : Prop where
  values : p.families.values = done ++ [fam]
  current : p.current = some fam.name

/-- A family that was not there yet comes last. -/
theorem open_new {p : Parser} {name : List Char}
    (hnew : name ∉ p.families.values.map ParsedFamily.name) (fam : ParsedFamily)
    (hname : fam.name = name) :
    Open ⟨p.families.set fam, some name⟩ p.families.values fam where
  values := KeyedMap.values_set_new <| KeyedMap.has_eq_false.mpr <| KeyedMap.get?_eq_none.mpr
    fun other hother heq => hnew (hname ▸ heq ▸ List.mem_map_of_mem hother)
  current := by rw [hname]

theorem ensure_new {p : Parser} {name : List Char}
    (hnew : name ∉ p.families.values.map ParsedFamily.name) :
    p.ensure name = ⟨name, none, none, []⟩ := by
  have hnone : p.families.get? name = none := KeyedMap.get?_eq_none.mpr
    fun other hother heq => hnew (heq ▸ List.mem_map_of_mem hother)
  rw [ensure, hnone]
  rfl

namespace Open

variable {p : Parser} {done : List ParsedFamily} {fam : ParsedFamily}

theorem ensure_eq (h : Open p done fam) : p.ensure fam.name = fam := by
  have hmem : fam ∈ p.families.values := h.values ▸ List.mem_append_right done List.mem_cons_self
  rw [ensure, KeyedMap.get?_self hmem]
  rfl

/-- A change of the latest family. -/
theorem update (h : Open p done fam) (fam' : ParsedFamily) (hname : fam'.name = fam.name) :
    Open ⟨p.families.set fam', some fam.name⟩ done fam' where
  values := by
    have hmem : fam ∈ p.families.values := h.values ▸ List.mem_append_right done List.mem_cons_self
    have hold : p.families.get? fam'.name = some fam := hname ▸ KeyedMap.get?_self hmem
    obtain ⟨before, after, hsplit, hset⟩ := KeyedMap.values_set_old hold
    have hlast : before = done ∧ after = [] := by
      have hnodup := h.values ▸ p.families.nodup
      rw [List.map_append] at hnodup
      have hfresh : fam ∉ done := fun hdone =>
        (List.disjoint_of_nodup_append hnodup) (List.mem_map_of_mem hdone) List.mem_cons_self
      have heq : done ++ fam :: [] = before ++ fam :: after := h.values.symm.trans hsplit
      obtain ⟨hbefore, -, hafter⟩ :=
        (List.append_cons_inj_of_notMem hfresh List.not_mem_nil).mp heq
      exact ⟨hbefore.symm, hafter.symm⟩
    rw [hset, hlast.1, hlast.2]
  current := by rw [hname]

/-- The samples of the latest family. -/
theorem samples (samples : List Sample) (h : Open p done fam)
    (hmine : ∀ s ∈ samples, fam.name <+: s.name) :
    Open ((samples.map Sample.line).foldl Parser.line p) done
      { fam with samples := fam.samples ++ samples.map Sample.line } := by
  induction samples generalizing p fam with
  | nil => simpa using h
  | cons s samples ih =>
    obtain ⟨hs, hrest⟩ := List.forall_mem_cons.mp hmine
    have hpush : Open (p.line s.line) done { fam with samples := fam.samples ++ [s.line] } := by
      rw [line_sample p h.current hs, pushSample, h.ensure_eq]
      exact h.update _ rfl
    have hlater := ih hpush hrest
    rwa [List.append_assoc] at hlater

end Open

variable {p : Parser} {f : Family}

/-- The headers of a family open it. -/
theorem open_header (hnew : f.name ∉ p.families.values.map ParsedFamily.name) :
    Open (f.header.foldl Parser.line p) p.families.values { f.parsed with samples := [] } := by
  have hheaded := f.headed
  unfold Family.header Family.parsed Family.helpText Family.typeText
  cases hhelp : f.help with
  | none =>
    obtain ⟨kind, hkind⟩ := Option.isSome_iff_exists.mp (hheaded.resolve_left (by simp [hhelp]))
    simp only [hkind, Option.map_none, Option.map_some, Option.toList_none, Option.toList_some,
      List.nil_append, List.foldl_cons, List.foldl_nil]
    rw [line_type p f.isName, ensure_new hnew]
    exact open_new hnew _ rfl
  | some doc =>
    have hopen : Open (p.line (helpPrefix ++ (f.name ++ ' ' :: doc))) p.families.values
        ⟨f.name, some (helpPrefix ++ (f.name ++ ' ' :: doc)), none, []⟩ := by
      rw [line_help p f.isName, ensure_new hnew]
      exact open_new hnew _ rfl
    cases f.type with
    | none => exact hopen
    | some kind =>
      simp only [Option.map_some, Option.toList_some, List.cons_append, List.nil_append,
        List.foldl_cons, List.foldl_nil]
      rw [line_type _ f.isName, hopen.ensure_eq]
      exact hopen.update _ rfl

theorem open_lines (hnew : f.name ∉ p.families.values.map ParsedFamily.name) :
    Open (f.lines.foldl Parser.line p) p.families.values f.parsed := by
  rw [Family.lines, List.foldl_append]
  exact (open_header hnew).samples f.samples f.mine

/-- The families of a text, one after the other. -/
theorem values_foldl (families : List Family) (p : Parser)
    (hnodup : (p.families.values.map ParsedFamily.name ++ families.map Family.name).Nodup) :
    ((families.flatMap Family.lines).foldl Parser.line p).families.values =
      p.families.values ++ families.map Family.parsed := by
  induction families generalizing p with
  | nil => simp
  | cons f families ih =>
    rw [List.map_cons, List.append_cons] at hnodup
    have hnew : f.name ∉ p.families.values.map ParsedFamily.name := fun hmem =>
      List.disjoint_of_nodup_append (List.Nodup.of_append_left hnodup) hmem List.mem_cons_self
    have hopen := open_lines hnew
    rw [List.flatMap_cons, List.foldl_append, ih, hopen.values, List.map_cons,
      List.append_assoc]
    · rfl
    · rw [hopen.values, List.map_append]
      exact hnodup

/-- Stray lines change nothing. -/
theorem foldl_filter (ls : List (List Char)) (p : Parser) :
    (ls.filter (!stray ·)).foldl Parser.line p = ls.foldl Parser.line p := by
  induction ls generalizing p with
  | nil => rfl
  | cons l ls ih =>
    cases hstray : stray l with
    | true => rw [List.filter_cons_of_neg (by simp [hstray]), ih, List.foldl_cons,
        line_stray hstray]
    | false => rw [List.filter_cons_of_pos (by simp [hstray]), List.foldl_cons, ih,
        List.foldl_cons]

end Parser

/-- The parser reads the families of a text. -/
theorem parseExposition_of_renders {text : List Char} {families : List Family}
    (h : Renders text families) :
    (parseExposition text).values = families.map Family.parsed := by
  rw [parseExposition, ← Parser.foldl_filter, h.lines]
  exact Parser.values_foldl families ⟨.empty, none⟩ h.distinct

/-! ## The session label -/

/-- The three passes escape every character once. -/
theorem esc_eq (sessionId : List Char) : esc sessionId = sessionId.flatMap escapeChar := by
  unfold esc replaceAll
  rw [List.flatMap_assoc, List.flatMap_assoc]
  refine List.flatMap_congr fun c _ => ?_
  by_cases hslash : c = '\\'
  · rw [hslash]
    rfl
  by_cases hquote : c = '"'
  · rw [hquote]
    rfl
  by_cases hbreak : c = '\n'
  · rw [hbreak]
    rfl
  rw [escapeChar.eq_4 c hslash hquote hbreak]
  simp [hslash, hquote, hbreak]

theorem text_sessionLabel (sessionId : List Char) :
    (sessionLabel sessionId).text = "session=\"".toList ++ esc sessionId ++ ['"'] := by
  rw [esc_eq]
  rfl

/-- The text of some labels starts with a name, not with the brace that closes them. -/
theorem idxOf?_brace (labels : List Label) (rest : List Char) :
    ∃ j, ([','].intercalate (labels.map Label.text) ++ '}' :: rest).idxOf? '}' = some j ∧
      (0 < j ↔ labels ≠ []) := by
  cases labels with
  | nil => exact ⟨0, rfl, by simp⟩
  | cons l labels =>
    obtain ⟨first, name, hname⟩ := List.exists_cons_of_ne_nil l.isName.ne_nil
    have hne : (first == '}') = false := beq_false_of_ne fun heq =>
      l.isName.not_mem (c := '}') rfl (hname ▸ heq ▸ List.mem_cons_self)
    obtain ⟨more, hmore⟩ : ∃ more,
        [','].intercalate ((l :: labels).map Label.text) ++ '}' :: rest =
          first :: (more ++ '}' :: rest) := by
      rw [List.map_cons, Label.text, hname]
      cases labels with
      | nil => exact ⟨_, by rw [List.map_nil, List.intercalate_singleton]; rfl⟩
      | cons l' labels => exact ⟨_, by rw [List.map_cons, List.intercalate_cons_cons]; rfl⟩
    obtain ⟨j, hj⟩ : ∃ j, (more ++ '}' :: rest).idxOf? '}' = some j :=
      Option.ne_none_iff_exists'.mp fun hnone =>
        List.idxOf?_eq_none_iff.mp hnone (List.mem_append_right _ List.mem_cons_self)
    refine ⟨j + 1, ?_, by simp⟩
    rw [hmore, List.idxOf?_cons, hne, hj]
    rfl

/-- The label goes between the first brace and what follows it. -/
theorem injectSessionLabel_braces {name rest : List Char} (hname : '{' ∉ name) {j : Nat}
    (hj : rest.idxOf? '}' = some j) (sessionId : List Char) :
    injectSessionLabel (name ++ '{' :: rest) sessionId =
      name ++ '{' :: ((sessionLabel sessionId).text ++ (if 0 < j then [','] else []) ++ rest) := by
  have hbrace : (name ++ '{' :: rest).idxOf? '{' = some name.length := by
    rw [idxOf?_append hname, List.idxOf?_cons]
    rfl
  have hclose : ('{' :: rest).idxOf? '}' = some (j + 1) := by
    rw [List.idxOf?_cons, hj]
    rfl
  have hlt : j < rest.length := (List.idxOf?_eq_some_iff.mp hj).1
  have hdrop : ∀ n, (name ++ '{' :: rest).drop (name.length + (n + 1)) = rest.drop n := fun n => by
    rw [List.drop_append, List.drop_eq_nil_of_le (Nat.le_add_right _ _), Nat.add_sub_cancel_left]
    rfl
  have hexisting : slice (name ++ '{' :: rest) (name.length + 1) (name.length + (j + 1)) =
      rest.take j := by
    rw [slice, List.drop_take, hdrop 0, List.drop_zero]
    congr 1
    rw [Nat.add_sub_add_left, Nat.add_sub_cancel]
  have hlength : (rest.take j).length = j := List.length_take_of_le (Nat.le_of_lt hlt)
  have htake : (name ++ '{' :: rest).take (name.length + 1) = name ++ ['{'] := by
    rw [List.take_append, List.take_of_length_le (Nat.le_add_right _ _),
      Nat.add_sub_cancel_left]
    rfl
  unfold injectSessionLabel
  simp only [hbrace, List.drop_left, hclose, hexisting, hlength, htake, hdrop]
  rw [text_sessionLabel]
  simp only [List.append_assoc, List.cons_append, List.nil_append, List.take_append_drop]

/-- The label goes first in the sample, and the rest stays. -/
theorem injectSessionLabel_line (s : Sample) (sessionId : List Char) :
    injectSessionLabel s.line sessionId = (s.labelled sessionId).line := by
  unfold Sample.line Sample.labelled Sample.labelList
  have hbrace := s.isName.not_mem (c := '{') rfl
  have hblank := s.isName.not_mem (c := ' ') rfl
  cases s.labels with
  | none =>
    have hno : (s.name ++ ' ' :: s.value).idxOf? '{' = none := by
      rw [List.idxOf?_eq_none_iff, List.mem_append, List.mem_cons, not_or, not_or]
      exact ⟨hbrace, by decide, s.unbraced⟩
    have hat : (s.name ++ ' ' :: s.value).idxOf? ' ' = some s.name.length := by
      rw [idxOf?_append hblank, List.idxOf?_cons]
      rfl
    simp only [injectSessionLabel, labelsText, List.append_nil, hno, hat, List.take_left,
      List.drop_left, Option.getD_none, List.map_cons, List.map_nil,
      List.intercalate_singleton, text_sessionLabel]
    simp
  | some labels =>
    obtain ⟨j, hj, hfirst⟩ := idxOf?_brace labels (' ' :: s.value)
    have hline : s.name ++ labelsText (some labels) ++ ' ' :: s.value =
        s.name ++ '{' ::
          ([','].intercalate (labels.map Label.text) ++ '}' :: ' ' :: s.value) := by
      simp [labelsText]
    rw [hline, injectSessionLabel_braces hbrace hj]
    cases labels with
    | nil =>
      have hnone : ¬0 < j := fun h => hfirst.mp h rfl
      simp [hnone, labelsText]
    | cons l labels =>
      rw [if_pos (hfirst.mpr (List.cons_ne_nil _ _))]
      simp [labelsText]

/-! ## The sources of a merge -/

/-- A text with the families that it is an exposition of. -/
structure Source where
  text : List Char
  families : List Family
  renders : Renders text families

structure SessionSource where
  sessionId : List Char
  source : Source

/-- A family as one session tells it. -/
structure Told where
  sessionId : List Char
  family : Family

namespace Told

def name (t : Told) : List Char := t.family.name

/-- The samples, with the label of the session. -/
def samples (t : Told) : List Sample := t.family.samples.map (·.labelled t.sessionId)

end Told

namespace SessionSource

def exposition (s : SessionSource) : SessionExposition := ⟨s.sessionId, s.source.text⟩

def told (s : SessionSource) : List Told := s.source.families.map (⟨s.sessionId, ·⟩)

def parsed (s : SessionSource) : ParsedSession := ⟨s.sessionId, parseExposition s.source.text⟩

end SessionSource

/-- The family of a session with those of the same name, its headers first. -/
def Told.gather (told : List Told) (t : Told) : Family :=
  { t.family with
    samples := (told.filter (·.name = t.name)).flatMap Told.samples
    mine := by
      intro s hs
      obtain ⟨other, hother, hs⟩ := List.mem_flatMap.mp hs
      obtain ⟨sample, hsample, rfl⟩ := List.mem_map.mp hs
      have hname : other.family.name = t.family.name :=
        of_decide_eq_true (List.mem_filter.mp hother).2
      exact hname ▸ other.family.mine sample hsample }

/-! ## The order of the families -/

/-- One turn of the loop that makes the order. -/
def orderStep (serverFamilies : Families) (order : List (List Char)) (name : List Char) :
    List (List Char) :=
  if serverFamilies.has name then order else if name ∈ order then order else order ++ [name]

theorem familyOrder_eq (serverFamilies : Families) (sessions : List SessionSource) :
    familyOrder serverFamilies (sessions.map SessionSource.parsed) =
      ((sessions.flatMap SessionSource.told).map Told.name).foldl
        (orderStep serverFamilies) [] := by
  rw [familyOrder, List.foldl_map, List.map_flatMap, List.foldl_flatMap]
  congr 1
  funext order s
  show s.parsed.families.values.foldl _ order = _
  rw [SessionSource.parsed, parseExposition_of_renders s.source.renders, SessionSource.told,
    List.map_map, List.foldl_map, List.foldl_map]
  rfl

theorem mem_orderStep {serverFamilies : Families} {order : List (List Char)}
    {first name : List Char} :
    name ∈ orderStep serverFamilies order first ↔
      name ∈ order ∨ name = first ∧ serverFamilies.has name = false := by
  unfold orderStep
  split
  · next hhas =>
    refine ⟨.inl, fun h => h.resolve_right ?_⟩
    rintro ⟨rfl, hfree⟩
    exact absurd hhas (by simp [hfree])
  · next hfree =>
    rw [Bool.not_eq_true] at hfree
    split
    · next hold =>
      refine ⟨.inl, fun h => h.elim id ?_⟩
      rintro ⟨rfl, -⟩
      exact hold
    · rw [List.mem_append, List.mem_singleton]
      refine or_congr_right ⟨?_, And.left⟩
      rintro rfl
      exact ⟨rfl, hfree⟩

theorem mem_order {serverFamilies : Families} {name : List Char} (names order : List (List Char)) :
    name ∈ names.foldl (orderStep serverFamilies) order ↔
      name ∈ order ∨ name ∈ names ∧ serverFamilies.has name = false := by
  induction names generalizing order with
  | nil => simp
  | cons first names ih =>
    rw [List.foldl_cons, ih, mem_orderStep, List.mem_cons, or_assoc, or_and_right]

theorem nodup_order (serverFamilies : Families) (names : List (List Char))
    {order : List (List Char)} (h : order.Nodup) :
    (names.foldl (orderStep serverFamilies) order).Nodup := by
  refine foldl_keeps (P := List.Nodup) h fun name order _ h => ?_
  unfold orderStep
  split
  · exact h
  · split
    · exact h
    · next hnew => exact h.append (List.nodup_singleton name) (by simpa using hnew)

/-! ## The loops that write -/

/-- One turn of the loop over the sessions, for a family that the session has. -/
def emitTold (e : Emission) (t : Told) : Emission :=
  let e := if t.name ∈ e.emittedHeader then e
    else ⟨e.out ++ t.family.header, t.name :: e.emittedHeader⟩
  { e with out := e.out ++ t.samples.map Sample.line }

/-- With distinct names a name picks one family at most. -/
theorem filter_eq_find? {families : List Family} (h : (families.map Family.name).Nodup)
    (name : List Char) :
    families.filter (·.name = name) = (families.find? (·.name = name)).toList := by
  induction families with
  | nil => rfl
  | cons f families ih =>
    obtain ⟨hfirst, hrest⟩ := List.nodup_cons.mp h
    rw [List.filter_cons, List.find?_cons]
    by_cases hname : f.name = name
    · have hnone : families.filter (·.name = name) = [] := List.filter_eq_nil_iff.mpr
        fun other hother heq =>
          hfirst (List.mem_map.mpr ⟨other, hother, (of_decide_eq_true heq).trans hname.symm⟩)
      simp [hname, hnone]
    · simp only [hname, decide_false, Bool.false_eq_true, if_false]
      exact ih hrest

/-- A session has at most one family of a name. -/
theorem fromSession_parsed (name : List Char) (e : Emission) (s : SessionSource) :
    Emission.fromSession name e s.parsed = (s.told.filter (·.name = name)).foldl emitTold e := by
  have hget : s.parsed.families.get? name =
      (s.source.families.find? (·.name = name)).map Family.parsed := by
    rw [KeyedMap.get?, SessionSource.parsed, parseExposition_of_renders s.source.renders,
      List.find?_map]
    rfl
  have hone : s.source.families.filter (·.name = name) =
      (s.source.families.find? (·.name = name)).toList :=
    filter_eq_find? s.source.renders.distinct name
  have htold : s.told.filter (·.name = name) =
      (s.source.families.filter (·.name = name)).map (⟨s.sessionId, ·⟩) := by
    rw [SessionSource.told, List.filter_map]
    rfl
  rw [htold, hone, Emission.fromSession, hget]
  cases hfind : s.source.families.find? (·.name = name) with
  | none => rfl
  | some f =>
    have hname : f.name = name := by simpa using List.find?_some hfind
    have hsamples : f.parsed.samples.map (injectSessionLabel · s.parsed.sessionId) =
        (Told.samples ⟨s.sessionId, f⟩).map Sample.line := by
      rw [Family.parsed, Told.samples, List.map_map, List.map_map]
      exact List.map_congr_left fun sample _ => injectSessionLabel_line sample s.sessionId
    simp only [Option.map_some, Option.toList_some, List.map_cons, List.map_nil, List.foldl_cons,
      List.foldl_nil, emitTold, Told.name, hname, hsamples, Family.header_parsed]

/-- The families of one name. -/
theorem foldl_fromSession (name : List Char) (e : Emission) (sessions : List SessionSource) :
    (sessions.map SessionSource.parsed).foldl (Emission.fromSession name) e =
      ((sessions.flatMap SessionSource.told).filter (·.name = name)).foldl emitTold e := by
  rw [List.foldl_map, List.filter_flatMap, List.foldl_flatMap]
  congr 1
  funext e s
  exact fromSession_parsed name e s

/-- Once the headers are written, the samples follow. -/
theorem foldl_emitted {name : List Char} {ts : List Told} (hts : ∀ t ∈ ts, t.name = name)
    {e : Emission} (h : name ∈ e.emittedHeader) :
    ts.foldl emitTold e =
      { e with out := e.out ++ (ts.flatMap Told.samples).map Sample.line } := by
  induction ts generalizing e with
  | nil => simp
  | cons t ts ih =>
    obtain ⟨ht, hrest⟩ := List.forall_mem_cons.mp hts
    have hstep : emitTold e t = { e with out := e.out ++ t.samples.map Sample.line } := by
      simp only [emitTold, ht, if_pos h]
    rw [List.foldl_cons, hstep, List.flatMap_cons, List.map_append, ← List.append_assoc]
    exact ih hrest h

/-- The first family of a name writes its headers, and the samples of all of them follow. -/
theorem foldl_first {told : List Told} {t : Told} {e : Emission}
    (hfirst : told.find? (·.name = t.name) = some t) (hnew : t.name ∉ e.emittedHeader) :
    (told.filter (·.name = t.name)).foldl emitTold e =
      ⟨e.out ++ (t.gather told).lines, t.name :: e.emittedHeader⟩ := by
  obtain ⟨rest, hrest⟩ : ∃ rest, told.filter (·.name = t.name) = t :: rest :=
    List.head?_eq_some_iff.mp (List.head?_filter.trans hfirst)
  have hall : ∀ other ∈ rest, other.name = t.name := by
    intro other hother
    have hmem : other ∈ told.filter (·.name = t.name) := by
      rw [hrest]
      exact List.mem_cons_of_mem t hother
    exact of_decide_eq_true (List.mem_filter.mp hmem).2
  have hlines : (t.gather told).lines =
      t.family.header ++ ((t :: rest).flatMap Told.samples).map Sample.line := by
    rw [← hrest]
    rfl
  have hstep : emitTold e t = ⟨e.out ++ t.family.header ++ t.samples.map Sample.line,
      t.name :: e.emittedHeader⟩ := by
    simp only [emitTold, if_neg hnew]
  rw [hrest, List.foldl_cons, hstep, foldl_emitted hall List.mem_cons_self, hlines,
    List.flatMap_cons, List.map_append]
  simp only [List.append_assoc]

/-- The families of the given names, each gathered from all who tell it. -/
def gathered (told : List Told) (order : List (List Char)) : List Family :=
  order.filterMap fun name => (told.find? (·.name = name)).map (Told.gather told)

theorem gathered_cons {told : List Told} {name : List Char} (order : List (List Char))
    (h : name ∈ told.map Told.name) :
    ∃ t ∈ told, t.name = name ∧ told.find? (·.name = t.name) = some t ∧
      gathered told (name :: order) = t.gather told :: gathered told order := by
  obtain ⟨other, hother, heq⟩ := List.mem_map.mp h
  obtain ⟨t, ht⟩ : ∃ t, told.find? (·.name = name) = some t :=
    Option.isSome_iff_exists.mp (List.find?_isSome.mpr ⟨other, hother, by simpa using heq⟩)
  have hname : t.name = name := by simpa using List.find?_some ht
  refine ⟨t, List.mem_of_find?_eq_some ht, hname, hname ▸ ht, ?_⟩
  rw [gathered, List.filterMap_cons, ht]
  rfl

/-- The loop over the order writes family after family. -/
theorem foldl_order {told : List Told} {order : List (List Char)} {e : Emission}
    (hnodup : order.Nodup) (htold : ∀ name ∈ order, name ∈ told.map Told.name)
    (hnew : ∀ name ∈ order, name ∉ e.emittedHeader) :
    (order.foldl (fun e name => (told.filter (·.name = name)).foldl emitTold e) e).out =
      e.out ++ (gathered told order).flatMap Family.lines := by
  induction order generalizing e with
  | nil => simp [gathered]
  | cons name order ih =>
    obtain ⟨hfirst, hrest⟩ := List.nodup_cons.mp hnodup
    obtain ⟨hmem, hlater⟩ := List.forall_mem_cons.mp htold
    obtain ⟨hname, hothers⟩ := List.forall_mem_cons.mp hnew
    obtain ⟨t, -, rfl, hfind, hcons⟩ := gathered_cons order hmem
    rw [List.foldl_cons, foldl_first hfind hname, ih hrest hlater, hcons, List.flatMap_cons,
      List.append_assoc]
    intro other hother hold
    rcases List.mem_cons.mp hold with rfl | hold
    · exact hfirst hother
    · exact hothers other hother hold

/-- The names that the server does not have, in the order of the code. -/
def mergedOrder (server : Source) (sessions : List SessionSource) : List (List Char) :=
  ((sessions.flatMap SessionSource.told).map Told.name).foldl
    (orderStep (parseExposition server.text)) []

theorem has_server (server : Source) {name : List Char} :
    (parseExposition server.text).has name = true ↔ name ∈ server.families.map Family.name := by
  rw [KeyedMap.has_iff_mem, parseExposition_of_renders server.renders]
  simp [Family.parsed]

theorem mem_mergedOrder {server : Source} {sessions : List SessionSource} {name : List Char} :
    name ∈ mergedOrder server sessions ↔
      name ∈ (sessions.flatMap SessionSource.told).map Told.name ∧
        name ∉ server.families.map Family.name := by
  rw [mergedOrder, mem_order, ← has_server, Bool.not_eq_true]
  simp

theorem nodup_mergedOrder (server : Source) (sessions : List SessionSource) :
    (mergedOrder server sessions).Nodup :=
  nodup_order _ _ List.nodup_nil

theorem told_mergedOrder (server : Source) (sessions : List SessionSource) :
    ∀ name ∈ mergedOrder server sessions,
      name ∈ (sessions.flatMap SessionSource.told).map Told.name :=
  fun _ hname => (mem_mergedOrder.mp hname).1

/-- The families of the sessions that the server does not have. -/
def sessionFamilies (server : Source) (sessions : List SessionSource) : List Family :=
  gathered (sessions.flatMap SessionSource.told) (mergedOrder server sessions)

/-- The merged text, family by family. -/
theorem mergeMetricsText_of_renders (server : Source) (sessions : List SessionSource) :
    mergeMetricsText server.text (sessions.map SessionSource.exposition) =
      joinLines ((server.families ++ sessionFamilies server sessions).flatMap Family.lines) := by
  have hparsed : (sessions.map SessionSource.exposition).map
      (fun s => (⟨s.sessionId, parseExposition s.text⟩ : ParsedSession)) =
        sessions.map SessionSource.parsed := by
    rw [List.map_map]
    rfl
  have hserver : (parseExposition server.text).values.flatMap
      (fun fam => fam.header ++ fam.samples) = server.families.flatMap Family.lines := by
    rw [parseExposition_of_renders server.renders, List.flatMap_map]
    rfl
  simp only [mergeMetricsText, hparsed, hserver, familyOrder_eq, foldl_fromSession]
  rw [← mergedOrder, foldl_order (nodup_mergedOrder server sessions)
    (told_mergedOrder server sessions) fun _ _ => List.not_mem_nil, List.flatMap_append]
  rfl

/-- Grouping by a key keeps every entry once. -/
theorem perm_flatMap_filter {α κ : Type} [DecidableEq κ] {key : α → κ} {as : List α} {ks : List κ}
    (hnodup : ks.Nodup) (hcover : ∀ a ∈ as, key a ∈ ks) :
    (ks.flatMap fun k => as.filter (key · = k)).Perm as := by
  induction ks generalizing as with
  | nil =>
    have hnil : as = [] := List.eq_nil_iff_forall_not_mem.mpr fun a ha =>
      List.not_mem_nil (hcover a ha)
    rw [hnil]
    exact .nil
  | cons k ks ih =>
    obtain ⟨hk, hks⟩ := List.nodup_cons.mp hnodup
    have hrest : (ks.flatMap fun k' => (as.filter (key · ≠ k)).filter (key · = k')).Perm
        (as.filter (key · ≠ k)) := by
      refine ih hks fun a ha => ?_
      obtain ⟨hmem, hne⟩ := List.mem_filter.mp ha
      exact (List.mem_cons.mp (hcover a hmem)).resolve_left (of_decide_eq_true hne)
    have hsame : (ks.flatMap fun k' => (as.filter (key · ≠ k)).filter (key · = k')) =
        ks.flatMap fun k' => as.filter (key · = k') := by
      refine List.flatMap_congr fun k' hk' => ?_
      rw [List.filter_filter]
      refine List.filter_congr fun a _ => ?_
      have hne : k' ≠ k := fun h => hk (h ▸ hk')
      by_cases ha : key a = k' <;> simp [ha, hne]
    rw [List.flatMap_cons]
    rw [hsame] at hrest
    refine (hrest.append_left _).trans ?_
    simpa using List.filter_append_perm (fun a => decide (key a = k)) as

/-! ## The families of the merge -/

section Families

variable (server : Source) (sessions : List SessionSource)

theorem names_gathered {told : List Told} {order : List (List Char)}
    (h : ∀ name ∈ order, name ∈ told.map Told.name) :
    (gathered told order).map Family.name = order := by
  induction order with
  | nil => rfl
  | cons name order ih =>
    obtain ⟨hfirst, hrest⟩ := List.forall_mem_cons.mp h
    obtain ⟨t, -, hname, -, hcons⟩ := gathered_cons order hfirst
    rw [hcons, List.map_cons, ih hrest, ← hname]
    rfl

theorem names_sessionFamilies :
    (sessionFamilies server sessions).map Family.name = mergedOrder server sessions :=
  names_gathered (told_mergedOrder server sessions)

theorem distinct_merged :
    ((server.families ++ sessionFamilies server sessions).map Family.name).Nodup := by
  rw [List.map_append, names_sessionFamilies]
  exact server.renders.distinct.append (nodup_mergedOrder server sessions)
    fun name hserver hsession => (mem_mergedOrder.mp hsession).2 hserver

/-- Every family of the sessions is gathered from the first that tells it. -/
theorem mem_gathered {told : List Told} {order : List (List Char)} {f : Family}
    (h : f ∈ gathered told order) :
    ∃ t, told.find? (·.name = t.name) = some t ∧ f = t.gather told := by
  obtain ⟨name, -, hname⟩ := List.mem_filterMap.mp h
  obtain ⟨t, ht, rfl⟩ := Option.map_eq_some_iff.mp hname
  have htold : t.name = name := by simpa using List.find?_some ht
  exact ⟨t, htold ▸ ht, rfl⟩

/-- The families that the server does not have, as the sessions tell them. -/
def unowned : List Told :=
  (sessions.flatMap SessionSource.told).filter (·.name ∉ server.families.map Family.name)

theorem samples_gathered {told : List Told} {order : List (List Char)}
    (h : ∀ name ∈ order, name ∈ told.map Told.name) :
    (gathered told order).flatMap Family.samples =
      (order.flatMap fun name => told.filter (·.name = name)).flatMap Told.samples := by
  induction order with
  | nil => rfl
  | cons name order ih =>
    obtain ⟨hfirst, hrest⟩ := List.forall_mem_cons.mp h
    obtain ⟨t, -, rfl, -, hcons⟩ := gathered_cons order hfirst
    rw [hcons, List.flatMap_cons, ih hrest, List.flatMap_cons, List.flatMap_append]
    rfl

/-- Every sample of a family that the server does not have is there once. -/
theorem samples_sessionFamilies :
    ((sessionFamilies server sessions).flatMap Family.samples).Perm
      ((unowned server sessions).flatMap Told.samples) := by
  rw [sessionFamilies, samples_gathered (told_mergedOrder server sessions)]
  refine List.Perm.flatMap_right _ ?_
  have hsame : ∀ name ∈ mergedOrder server sessions,
      (sessions.flatMap SessionSource.told).filter (·.name = name) =
        (unowned server sessions).filter (·.name = name) := by
    intro name hname
    rw [unowned, List.filter_filter]
    refine List.filter_congr fun t _ => ?_
    have hfree := (mem_mergedOrder.mp hname).2
    by_cases ht : t.name = name
    · rw [ht, decide_eq_true hfree, Bool.and_true]
    · rw [decide_eq_false ht, Bool.false_and]
  rw [List.flatMap_congr hsame]
  refine perm_flatMap_filter (nodup_mergedOrder server sessions) fun t ht => ?_
  obtain ⟨hmem, hfree⟩ := List.mem_filter.mp ht
  exact mem_mergedOrder.mpr ⟨List.mem_map_of_mem hmem, of_decide_eq_true hfree⟩

end Families

/-! ## The merged text as an exposition -/

theorem not_mem_escapeChar (c : Char) : '\n' ∉ escapeChar c := by
  unfold escapeChar
  split
  · decide
  · decide
  · decide
  · next hbreak => simpa using Ne.symm hbreak

theorem Label.oneLine (l : Label) : '\n' ∉ l.text := by
  have hvalue : '\n' ∉ l.value.flatMap escapeChar := fun h => by
    obtain ⟨c, -, hc⟩ := List.mem_flatMap.mp h
    exact not_mem_escapeChar c hc
  have hname := l.isName.not_mem (c := '\n') rfl
  simp [text, hvalue, hname]

theorem labelsText_oneLine (labels : Option (List Label)) : '\n' ∉ labelsText labels := by
  cases labels with
  | none => exact List.not_mem_nil
  | some labels =>
    have hjoined : '\n' ∉ [','].intercalate (labels.map Label.text) := by
      induction labels with
      | nil => exact List.not_mem_nil
      | cons l labels ih =>
        cases labels with
        | nil => simpa using l.oneLine
        | cons l' labels =>
          rw [List.map_cons] at ih
          rw [List.map_cons, List.map_cons, List.intercalate_cons_cons]
          simp [l.oneLine, ih]
    simp [labelsText, hjoined]

/-- The lines of a family are lines, and the parser takes each of them. -/
theorem Family.line_ok (f : Family) : ∀ l ∈ f.lines, '\n' ∉ l ∧ stray l = false := by
  have hname := f.isName.not_mem (c := '\n') rfl
  intro l hl
  simp only [Family.lines, Family.header, Family.helpText, Family.typeText, List.mem_append,
    Option.mem_toList, Option.map_eq_some_iff, List.mem_map] at hl
  rcases hl with (⟨doc, hdoc, rfl⟩ | ⟨kind, hkind, rfl⟩) | ⟨s, -, rfl⟩
  · have hline := f.helpLine doc hdoc
    exact ⟨by simp [helpPrefix, hname, hline], rfl⟩
  · have hline := f.typeLine kind hkind
    exact ⟨by simp [typePrefix, hname, hline], rfl⟩
  · have hsample := s.isName.not_mem (c := '\n') rfl
    refine ⟨by simp [Sample.line, hsample, labelsText_oneLine, s.oneLine], ?_⟩
    obtain ⟨stop, rest, -, hline⟩ := s.line_split
    rw [stray, hline, s.isName.not_comment]
    simp

theorem renders_joinLines {families : List Family} (h : (families.map Family.name).Nodup) :
    Renders (joinLines (families.flatMap Family.lines)) families where
  lines := by
    have hall : ∀ l ∈ families.flatMap Family.lines, '\n' ∉ l ∧ stray l = false := fun l hl => by
      obtain ⟨f, -, hf⟩ := List.mem_flatMap.mp hl
      exact f.line_ok l hf
    generalize families.flatMap Family.lines = ls at hall
    have hkept : ls.filter (!stray ·) = ls :=
      List.filter_eq_self.mpr fun l hl => by simp [(hall l hl).2]
    rw [joinLines, List.splitOn_append_cons_self, List.filter_append]
    cases ls with
    | nil => rfl
    | cons l ls =>
      rw [List.splitOn_intercalate _ (fun l hl => (hall l hl).1) (List.cons_ne_nil _ _), hkept]
      exact List.append_nil _
  distinct := h

/-! ## Series -/

/-- No sample has a label that is named as the one the merge adds. -/
def Source.Unlabelled (src : Source) : Prop :=
  ∀ f ∈ src.families, ∀ s ∈ f.samples, ∀ l ∈ s.labelList, l.name ≠ "session".toList

/-- No series occurs twice. -/
def DistinctSeries (families : List Family) : Prop :=
  ((families.flatMap Family.samples).map Sample.series).Nodup

theorem Sample.series_labelled (s : Sample) (sessionId : List Char) :
    (s.labelled sessionId).series = (s.series.1, sessionLabel sessionId ::ₘ s.series.2) := rfl

namespace SessionSource

theorem samples_told (s : SessionSource) :
    s.told.flatMap Told.samples =
      (s.source.families.flatMap Family.samples).map (·.labelled s.sessionId) := by
  rw [told, List.flatMap_map, List.map_flatMap]
  rfl

/-- The series of one session stay distinct. -/
theorem distinct_told {s : SessionSource} (h : DistinctSeries s.source.families) :
    ((s.told.flatMap Told.samples).map Sample.series).Nodup := by
  have hseries : ((s.told.flatMap Told.samples).map Sample.series) =
      ((s.source.families.flatMap Family.samples).map Sample.series).map
        fun series => (series.1, sessionLabel s.sessionId ::ₘ series.2) := by
    rw [samples_told, List.map_map, List.map_map]
    rfl
  rw [hseries]
  refine h.map fun a b hab => ?_
  obtain ⟨hname, hlabels⟩ := Prod.mk.inj hab
  exact Prod.ext hname (Multiset.cons_inj_right _ |>.mp hlabels)

/-- Each series has the label of the session and no other label of that name. -/
theorem session_of_mem {s : SessionSource} (h : s.source.Unlabelled) {series}
    (hmem : series ∈ (s.told.flatMap Told.samples).map Sample.series) :
    ∀ id, sessionLabel id ∈ series.2 ↔ id = s.sessionId := by
  rw [samples_told, List.map_map] at hmem
  obtain ⟨sample, hsample, rfl⟩ := List.mem_map.mp hmem
  obtain ⟨f, hf, hsample⟩ := List.mem_flatMap.mp hsample
  intro id
  rw [Function.comp_apply, Sample.series_labelled, Multiset.mem_cons]
  have hown : sessionLabel id ∉ sample.series.2 := fun hl =>
    h f hf sample hsample _ hl rfl
  constructor
  · exact fun hid => congrArg Label.value (hid.resolve_right hown)
  · rintro rfl
    exact .inl rfl

end SessionSource

/-- The sessions apart, and each of them from the server, by the label. -/
theorem distinct_series (server : Source) (sessions : List SessionSource)
    (hserver : server.Unlabelled ∧ DistinctSeries server.families)
    (hsessions : ∀ s ∈ sessions, s.source.Unlabelled ∧ DistinctSeries s.source.families)
    (hids : (sessions.map SessionSource.sessionId).Nodup) :
    DistinctSeries (server.families ++ sessionFamilies server sessions) := by
  have htold : (((sessions.flatMap SessionSource.told).flatMap Told.samples).map
      Sample.series).Nodup := by
    rw [List.flatMap_assoc, List.map_flatMap, List.nodup_flatMap]
    refine ⟨fun s hs => SessionSource.distinct_told (hsessions s hs).2, ?_⟩
    refine (List.pairwise_map.mp hids).imp_of_mem fun {s s'} hs hs' hne series hmem hmem' => hne ?_
    have hown := (SessionSource.session_of_mem (hsessions s hs).1 hmem s.sessionId).mpr rfl
    exact (SessionSource.session_of_mem (hsessions s' hs').1 hmem' _).mp hown
  have hsub : (((unowned server sessions).flatMap Told.samples).map Sample.series).Sublist
      (((sessions.flatMap SessionSource.told).flatMap Told.samples).map Sample.series) :=
    (List.filter_sublist.flatMap Told.samples).map _
  have hperm := (samples_sessionFamilies server sessions).map Sample.series
  rw [DistinctSeries, List.flatMap_append, List.map_append]
  refine hserver.2.append (hperm.nodup_iff.mpr (htold.sublist hsub)) ?_
  intro series hmem hown
  obtain ⟨sample, hsample, rfl⟩ := List.mem_map.mp hmem
  obtain ⟨f, hf, hsample⟩ := List.mem_flatMap.mp hsample
  have hall := hsub.subset (hperm.subset hown)
  rw [List.flatMap_assoc, List.map_flatMap] at hall
  obtain ⟨s, hs, hlabelled⟩ := List.mem_flatMap.mp hall
  have hlabel := (SessionSource.session_of_mem (hsessions s hs).1 hlabelled s.sessionId).mpr rfl
  exact hserver.1 f hf sample hsample _ hlabel rfl

/-- The families of the sessions that the merge puts after those of the server. -/
structure IsMerge (server : Source) (sessions : List SessionSource) (own : List Family) :
    Prop where
  text : mergeMetricsText server.text (sessions.map SessionSource.exposition) =
    joinLines ((server.families ++ own).flatMap Family.lines)
  distinct : ((server.families ++ own).map Family.name).Nodup
  header : ∀ f ∈ own, ∃ t, (sessions.flatMap SessionSource.told).find? (·.name = f.name) = some t ∧
    f.header = t.family.header
  samples : ∀ f ∈ own, f.samples =
    ((sessions.flatMap SessionSource.told).filter (·.name = f.name)).flatMap Told.samples
  once : (own.flatMap Family.samples).Perm ((unowned server sessions).flatMap Told.samples)

/-- The merged text is an exposition of the server's families and of those of the sessions, each
name once. What it has of the sessions is every sample of a family that the server does not have,
once and with its label; and it has no series twice if no source has, and none has the label. -/
theorem merge_exposition (server : Source) (sessions : List SessionSource) :
    ∃ own, IsMerge server sessions own ∧
      Renders (mergeMetricsText server.text (sessions.map SessionSource.exposition))
        (server.families ++ own) ∧
      (server.Unlabelled ∧ DistinctSeries server.families →
        (∀ s ∈ sessions, s.source.Unlabelled ∧ DistinctSeries s.source.families) →
          (sessions.map SessionSource.sessionId).Nodup →
            DistinctSeries (server.families ++ own)) := by
  have hdistinct := distinct_merged server sessions
  have htext := mergeMetricsText_of_renders server sessions
  refine ⟨sessionFamilies server sessions, ?_, ?_, distinct_series server sessions⟩
  · refine ⟨htext, hdistinct, fun f hf => ?_, fun f hf => ?_,
      samples_sessionFamilies server sessions⟩
    · obtain ⟨t, ht, rfl⟩ := mem_gathered hf
      exact ⟨t, ht, rfl⟩
    · obtain ⟨t, -, rfl⟩ := mem_gathered hf
      rfl
  · rw [htext]
    exact renders_joinLines hdistinct

/-- `h_count` as a sample of the histogram `h` of the server, which has the label already. -/
def counted : Family where
  name := "h".toList
  help := none
  type := some "histogram".toList
  samples := [⟨"h_count".toList, some [sessionLabel "s1".toList], "3".toList,
    ⟨by decide, by decide⟩, by decide, by decide⟩]
  isName := ⟨by decide, by decide⟩
  headed := by decide
  helpLine := by decide
  typeLine := by decide
  mine := by decide

/-- `h_count` as a counter of the session. -/
def counter : Family where
  name := "h_count".toList
  help := none
  type := some "counter".toList
  samples := [⟨"h_count".toList, none, "4".toList, ⟨by decide, by decide⟩, by decide, by decide⟩]
  isName := ⟨by decide, by decide⟩
  headed := by decide
  helpLine := by decide
  typeLine := by decide
  mine := by decide

def sourceOf (f : Family) : Source :=
  ⟨joinLines ([f].flatMap Family.lines), [f], renders_joinLines (List.nodup_singleton f.name)⟩

/-- What the merge of the two says. -/
def counts : List Family :=
  [counted, Told.gather [⟨"s1".toList, counter⟩] ⟨"s1".toList, counter⟩]

/-- A label of the server's own named `session` makes a series of the session occur twice. -/
theorem own_label_not_distinct :
    ¬∀ (server : Source) (sessions : List SessionSource) (families : List Family),
      DistinctSeries server.families → (∀ s ∈ sessions, DistinctSeries s.source.families) →
        (sessions.map SessionSource.sessionId).Nodup →
          Renders (mergeMetricsText server.text (sessions.map SessionSource.exposition)) families →
            DistinctSeries families := by
  intro hall
  have hmerged : mergeMetricsText (sourceOf counted).text
      [⟨"s1".toList, (sourceOf counter).text⟩] = joinLines (counts.flatMap Family.lines) := by
    decide +kernel
  have hrenders : Renders _ counts := hmerged ▸ renders_joinLines (by decide)
  have hdistinct := hall (sourceOf counted) [⟨"s1".toList, sourceOf counter⟩] counts
    (List.nodup_singleton _) (List.forall_mem_singleton.mpr (List.nodup_singleton _))
    (List.nodup_singleton _) hrenders
  exact (List.nodup_cons.mp hdistinct).1 (List.mem_singleton.mpr rfl)

end TmuxccDriver.Metrics.Exposition
