import Mathlib.Data.List.TakeWhile
import TmuxccDriver.Lib.Bytes

/-!
# OSC sequences in a byte stream

What a whole stream of pane bytes consists of, whatever machine reads it: plain bytes
and complete OSC strings, and at the end perhaps an unfinished escape. An OSC string
is `ESC ]`, a body and the first BEL or `ESC \` after it; its number is the run of
digits at the start of the body, and it is one only if a `;`, a terminator or an ESC
follows the digits.

Results:
1. `segments_append`: a stream may be cut anywhere; what was unfinished at the cut is
   read again together with the rest.
2. `segments_bytes`: segments and unfinished bytes together are the stream.
-/

namespace TmuxccDriver.Parser.Osc
open TmuxccDriver.Lib

/-! ## Segments -/

abbrev BEL : UInt8 := 0x07
/-- `]`. -/
abbrev OSC : UInt8 := 0x5d
/-- `;`. -/
abbrev SEMI : UInt8 := 0x3b

/-- The two string terminators. -/
inductive StringEnd
  | bel
  | st
deriving DecidableEq, Repr

def StringEnd.bytes : StringEnd → Bytes
  | bel => [BEL]
  | st => [ESC, BACKSLASH]

/-- A piece of the stream that is complete. -/
inductive Segment
  | plain (b : UInt8)
  | osc (body : Bytes) (ending : StringEnd)
deriving DecidableEq, Repr

def Segment.bytes : Segment → Bytes
  | plain b => [b]
  | osc body ending => ESC :: OSC :: (body ++ ending.bytes)

def isDigit (b : UInt8) : Bool := 0x30 ≤ b && b ≤ 0x39

/-- The body up to the first terminator, the terminator, and what follows. -/
def cutString : Bytes → Option (Bytes × StringEnd × Bytes)
  | [] => none
  | [b] => if b = BEL then some ([], .bel, []) else none
  | b :: c :: cs =>
    if b = BEL then some ([], .bel, c :: cs)
    else if b = ESC ∧ c = BACKSLASH then some ([], .st, cs)
    else (cutString (c :: cs)).map fun (body, ending, rest) => (b :: body, ending, rest)

/-- The byte after the digits makes `ESC ]` the start of a string. -/
def continues (b : UInt8) : Bool := b = SEMI || b = BEL || b = ESC

/-- The first complete segment, and what follows it. -/
def firstSegment : Bytes → Option (Segment × Bytes)
  | [] => none
  | b :: bs =>
    if b ≠ ESC then some (.plain b, bs)
    else
      match bs with
      | [] => none
      | c :: cs =>
        if c ≠ OSC then some (.plain ESC, c :: cs)
        else
          match cs.dropWhile isDigit with
          | [] => none
          | d :: _ =>
            if continues d then
              (cutString cs).map fun (body, ending, rest) => (.osc body ending, rest)
            else some (.plain ESC, c :: cs)

/-! ## Title sequences -/

/-- The value of a run of digits; `NaN` when there is none. -/
def parseInt (digits : Bytes) : Option Nat :=
  if digits = [] then none else some (digits.foldl (fun n b => n * 10 + (b.toNat - 0x30)) 0)

/-- OSC 0 and OSC 2 set the window title. -/
def isTitleNumber (digits : Bytes) : Bool := parseInt digits = some 0 || parseInt digits = some 2

/-- The text after the number and the `;`. -/
def titleText (body : Bytes) : Option Bytes :=
  if isTitleNumber (body.takeWhile isDigit) then
    match body.dropWhile isDigit with
    | [] => none
    | b :: text => if b = SEMI then some text else none
  else none

/-- A body that is a title number and nothing else. -/
def isBareTitle (body : Bytes) : Bool :=
  isTitleNumber body && (body.dropWhile isDigit).isEmpty

/-- What a stream without its title sequences shows of a segment. -/
def Segment.shown : Segment → Bytes
  | plain b => [b]
  | osc body ending =>
    if (titleText body).isSome || isBareTitle body then [] else (osc body ending).bytes

/-- The title text a segment carries. -/
def Segment.title : Segment → Option Bytes
  | plain _ => none
  | osc body _ => titleText body

/-! ## Reading segments -/

theorem cutString_bytes {bs body rest : Bytes} {ending : StringEnd}
    (h : cutString bs = some (body, ending, rest)) : bs = body ++ (ending.bytes ++ rest) := by
  induction bs generalizing body with
  | nil => cases h
  | cons b bs ih =>
    cases bs with
    | nil =>
      simp only [cutString] at h
      split at h
      · next hb =>
        cases h
        simp [StringEnd.bytes, hb]
      · cases h
    | cons c cs =>
      simp only [cutString] at h
      split at h
      · next hb =>
        cases h
        simp [StringEnd.bytes, hb]
      · split at h
        · next hb =>
          cases h
          simp [StringEnd.bytes, hb]
        · obtain ⟨⟨body', ending', rest'⟩, hcut, heq⟩ := Option.map_eq_some_iff.mp h
          obtain ⟨rfl, rfl, rfl⟩ : b :: body' = body ∧ ending' = ending ∧ rest' = rest := by
            simpa using heq
          rw [ih hcut]
          rfl

theorem cutString_append {bs body rest : Bytes} {ending : StringEnd}
    (h : cutString bs = some (body, ending, rest)) (more : Bytes) :
    cutString (bs ++ more) = some (body, ending, rest ++ more) := by
  induction bs generalizing body with
  | nil => cases h
  | cons b bs ih =>
    cases bs with
    | nil =>
      simp only [cutString] at h
      split at h
      · next hb =>
        cases h
        cases more with
        | nil => simp [cutString, hb]
        | cons m ms => simp [cutString, hb]
      · cases h
    | cons c cs =>
      simp only [cutString] at h
      simp only [List.cons_append, cutString]
      split at h
      · next hb =>
        cases h
        rw [if_pos hb]
        rfl
      · next hb =>
        rw [if_neg hb]
        split at h
        · next hst =>
          cases h
          rw [if_pos hst]
        · next hst =>
          obtain ⟨⟨body', ending', rest'⟩, hcut, heq⟩ := Option.map_eq_some_iff.mp h
          obtain ⟨rfl, rfl, rfl⟩ : b :: body' = body ∧ ending' = ending ∧ rest' = rest := by
            simpa using heq
          rw [if_neg hst, ← List.cons_append, ih hcut]
          rfl

/-- One more byte after a body without a terminator. -/
theorem cutString_snoc {body : Bytes} (h : cutString body = none) (b : UInt8) :
    cutString (body ++ [b]) =
      if b = BEL then some (body, .bel, [])
      else if b = BACKSLASH ∧ body.getLast? = some ESC then some (body.dropLast, .st, [])
      else none := by
  induction body with
  | nil =>
    by_cases hb : b = BEL
    · simp [cutString, hb]
    · simp [cutString, hb]
  | cons a as ih =>
    cases as with
    | nil =>
      simp only [cutString] at h
      split at h
      · cases h
      · next ha =>
        simp only [List.cons_append, List.nil_append, cutString, if_neg ha]
        by_cases hb : b = BEL
        · simp [hb, show BEL ≠ BACKSLASH by decide]
        · by_cases hst : a = ESC ∧ b = BACKSLASH
          · simp [hst, show BACKSLASH ≠ BEL by decide]
          · have hst' : ¬(b = BACKSLASH ∧ [a].getLast? = some ESC) := by
              rintro ⟨rfl, hlast⟩
              exact hst ⟨by simpa using hlast, rfl⟩
            rw [if_neg hst, if_neg hb, if_neg hst', if_neg hb]
            rfl
    | cons c cs =>
      simp only [cutString] at h
      split at h
      · cases h
      · next ha =>
        split at h
        · cases h
        · next hst =>
          have hnone : cutString (c :: cs) = none := by simpa using h
          have hrest := ih hnone
          rw [List.cons_append] at hrest
          simp only [List.cons_append, cutString, if_neg ha, if_neg hst, hrest,
            List.getLast?_cons_cons]
          by_cases hb : b = BEL
          · simp [hb]
          · by_cases hlast : b = BACKSLASH ∧ (c :: cs).getLast? = some ESC
            · simp only [if_neg hb, if_pos hlast, Option.map_some, List.dropLast_cons_cons]
            · simp only [if_neg hb, if_neg hlast, Option.map_none]

theorem firstSegment_bytes {bs rest : Bytes} {seg : Segment}
    (h : firstSegment bs = some (seg, rest)) : bs = seg.bytes ++ rest := by
  unfold firstSegment at h
  split at h
  · cases h
  · next b bs =>
    split at h
    · cases h
      rfl
    · next hb =>
      have hesc : b = ESC := by simpa using hb
      split at h
      · cases h
      · next c cs =>
        split at h
        · cases h
          rw [hesc]
          rfl
        · next hc =>
          have hosc : c = OSC := by simpa using hc
          split at h
          · cases h
          · split at h
            · obtain ⟨⟨body, ending, rest'⟩, hcut, heq⟩ := Option.map_eq_some_iff.mp h
              obtain ⟨rfl, rfl⟩ : Segment.osc body ending = seg ∧ rest' = rest := by
                simpa using heq
              rw [hesc, hosc, cutString_bytes hcut]
              simp [Segment.bytes]
            · cases h
              rw [hesc]
              rfl

theorem firstSegment_append {bs rest : Bytes} {seg : Segment}
    (h : firstSegment bs = some (seg, rest)) (more : Bytes) :
    firstSegment (bs ++ more) = some (seg, rest ++ more) := by
  unfold firstSegment at h
  split at h
  · cases h
  · next b bs =>
    split at h
    · next hb =>
      cases h
      simp [firstSegment, hb]
    · next hb =>
      split at h
      · cases h
      · next c cs =>
        split at h
        · next hc =>
          cases h
          simp [firstSegment, show b = ESC by simpa using hb, hc]
        · next hc =>
          split at h
          · cases h
          · next d ds hd =>
            have hd' : (cs ++ more).dropWhile isDigit = d :: (ds ++ more) := by
              rw [List.dropWhile_append, hd]
              rfl
            simp only [List.cons_append, firstSegment, if_neg hb, if_neg hc, hd']
            split at h
            · next hcont =>
              obtain ⟨⟨body, ending, rest'⟩, hcut, heq⟩ := Option.map_eq_some_iff.mp h
              obtain ⟨rfl, rfl⟩ : Segment.osc body ending = seg ∧ rest' = rest := by
                simpa using heq
              rw [if_pos hcont, cutString_append hcut]
              rfl
            · next hcont =>
              cases h
              rw [if_neg hcont]
              rfl

theorem Segment.bytes_length_pos (seg : Segment) : 0 < seg.bytes.length := by
  cases seg with
  | plain b => simp [Segment.bytes]
  | osc body ending => simp [Segment.bytes]

theorem firstSegment_length {bs rest : Bytes} {seg : Segment}
    (h : firstSegment bs = some (seg, rest)) : rest.length < bs.length := by
  have hpos := seg.bytes_length_pos
  rw [firstSegment_bytes h, List.length_append]
  omega

/-- The complete segments of a stream, and the unfinished bytes at its end. -/
def segments (bs : Bytes) : List Segment × Bytes :=
  match h : firstSegment bs with
  | none => ([], bs)
  | some (seg, rest) =>
    have : rest.length < bs.length := firstSegment_length h
    (seg :: (segments rest).1, (segments rest).2)
termination_by bs.length

theorem segments_of_none {bs : Bytes} (h : firstSegment bs = none) : segments bs = ([], bs) := by
  rw [segments]
  split
  · rfl
  · next seg rest hsome =>
    rw [h] at hsome
    cases hsome

theorem segments_of_some {bs rest : Bytes} {seg : Segment}
    (h : firstSegment bs = some (seg, rest)) :
    segments bs = (seg :: (segments rest).1, (segments rest).2) := by
  rw [segments]
  split
  · next hnone =>
    rw [h] at hnone
    cases hnone
  · next seg' rest' hsome =>
    rw [h] at hsome
    cases hsome
    rfl

/-- A stream may be cut anywhere. -/
theorem segments_append (bs more : Bytes) :
    segments (bs ++ more) =
      ((segments bs).1 ++ (segments ((segments bs).2 ++ more)).1,
        (segments ((segments bs).2 ++ more)).2) := by
  induction hn : bs.length using Nat.strongRecOn generalizing bs with
  | ind n ih =>
    cases h : firstSegment bs with
    | none =>
      rw [segments_of_none h]
      rfl
    | some found =>
      obtain ⟨seg, rest⟩ := found
      have hrest := ih rest.length (by rw [← hn]; exact firstSegment_length h) rest rfl
      rw [segments_of_some h, segments_of_some (firstSegment_append h more), hrest]
      rfl

theorem segments_bytes (bs : Bytes) :
    (segments bs).1.flatMap Segment.bytes ++ (segments bs).2 = bs := by
  induction hn : bs.length using Nat.strongRecOn generalizing bs with
  | ind n ih =>
    cases h : firstSegment bs with
    | none =>
      rw [segments_of_none h]
      rfl
    | some found =>
      obtain ⟨seg, rest⟩ := found
      have hrest := ih rest.length (by rw [← hn]; exact firstSegment_length h) rest rfl
      rw [segments_of_some h, List.flatMap_cons, List.append_assoc, hrest, ← firstSegment_bytes h]

theorem segments_esc : segments [ESC] = ([], [ESC]) := segments_of_none rfl

theorem firstSegment_plain {b : UInt8} (hb : b ≠ ESC) (bs : Bytes) :
    firstSegment (b :: bs) = some (.plain b, bs) := by
  simp [firstSegment, hb]

theorem segments_plain (bs : Bytes) (hbs : ∀ b ∈ bs, b ≠ ESC) :
    segments bs = (bs.map .plain, []) := by
  induction bs with
  | nil => exact segments_of_none rfl
  | cons b bs ih =>
    rw [segments_of_some (firstSegment_plain (hbs b List.mem_cons_self) bs),
      ih fun c hc => hbs c (List.mem_cons_of_mem _ hc)]
    rfl

/-- `ESC ]` and a body whose digits are followed by something a string allows. -/
def Opens (body : Bytes) : Prop := ∃ d ds, body.dropWhile isDigit = d :: ds ∧ continues d = true

theorem firstSegment_opens {body : Bytes} (h : Opens body) :
    firstSegment (ESC :: OSC :: body) =
      (cutString body).map fun (text, ending, rest) => (.osc text ending, rest) := by
  obtain ⟨d, ds, hd, hcont⟩ := h
  simp [firstSegment, hd, hcont]

theorem segments_unterminated {body : Bytes} (h : Opens body) (hcut : cutString body = none) :
    segments (ESC :: OSC :: body) = ([], ESC :: OSC :: body) :=
  segments_of_none (by rw [firstSegment_opens h, hcut]; rfl)

theorem segments_terminated {bytes body : Bytes} {ending : StringEnd} (h : Opens bytes)
    (hcut : cutString bytes = some (body, ending, [])) :
    segments (ESC :: OSC :: bytes) = ([.osc body ending], []) := by
  have hfirst : firstSegment (ESC :: OSC :: bytes) = some (.osc body ending, []) := by
    rw [firstSegment_opens h, hcut]
    rfl
  rw [segments_of_some hfirst, segments_of_none rfl]

/-- Digits alone may still become a string. -/
theorem segments_digits {ds : Bytes} (hds : ∀ b ∈ ds, isDigit b = true) :
    segments (ESC :: OSC :: ds) = ([], ESC :: OSC :: ds) := by
  refine segments_of_none ?_
  have hdrop : ds.dropWhile isDigit = [] := List.dropWhile_eq_nil_iff.mpr hds
  simp [firstSegment, hdrop]

theorem dropWhile_digits {ds : Bytes} (hds : ∀ b ∈ ds, isDigit b = true) {b : UInt8}
    (hb : isDigit b = false) (rest : Bytes) : (ds ++ b :: rest).dropWhile isDigit = b :: rest := by
  rw [List.dropWhile_append_of_pos hds, List.dropWhile_cons_of_neg (by simp [hb])]

theorem takeWhile_digits {ds : Bytes} (hds : ∀ b ∈ ds, isDigit b = true) {b : UInt8}
    (hb : isDigit b = false) (rest : Bytes) : (ds ++ b :: rest).takeWhile isDigit = ds := by
  rw [List.takeWhile_append_of_pos hds, List.takeWhile_cons_of_neg (by simp [hb]), List.append_nil]

/-- A body either is all digits or has a first byte that is none. -/
theorem digits_or_split (body : Bytes) :
    (∀ b ∈ body, isDigit b = true) ∨ ∃ ds b rest, body = ds ++ b :: rest ∧
      (∀ c ∈ ds, isDigit c = true) ∧ isDigit b = false := by
  cases h : body.dropWhile isDigit with
  | nil => exact .inl (List.dropWhile_eq_nil_iff.mp h)
  | cons b rest =>
    refine .inr ⟨body.takeWhile isDigit, b, rest, ?_, fun c hc => List.mem_takeWhile_imp hc, ?_⟩
    · rw [← h, List.takeWhile_append_dropWhile]
    · have hhead := List.head_dropWhile_not (l := body) (p := isDigit) (by simp [h])
      simpa [h] using hhead

theorem cutString_digits {ds : Bytes} (hds : ∀ b ∈ ds, isDigit b = true) : cutString ds = none := by
  have hne : ∀ b, isDigit b = true → b ≠ BEL ∧ b ≠ ESC := by
    intro b hb
    refine ⟨?_, ?_⟩
    · rintro rfl
      exact absurd hb (by decide)
    · rintro rfl
      exact absurd hb (by decide)
  induction ds with
  | nil => rfl
  | cons b bs ih =>
    have hb := hne b (hds b List.mem_cons_self)
    cases bs with
    | nil => simp [cutString, hb.1]
    | cons c cs =>
      have hrest := ih fun x hx => hds x (List.mem_cons_of_mem _ hx)
      simp [cutString, hb.1, hb.2, hrest]

theorem Opens.snoc {body : Bytes} (h : Opens body) (b : UInt8) : Opens (body ++ [b]) := by
  obtain ⟨d, ds, hd, hcont⟩ := h
  refine ⟨d, ds ++ [b], ?_, hcont⟩
  rw [List.dropWhile_append, hd]
  rfl

/-- A byte after the number and what follows it does not make the body a title. -/
theorem titleText_snoc {body : Bytes} (h : Opens body) (b : UInt8) :
    (titleText (body ++ [b])).isSome = (titleText body).isSome := by
  obtain ⟨d, ds, hd, hcont⟩ := h
  rcases digits_or_split body with hall | ⟨ns, c, rest, rfl, hns, hc⟩
  · rw [List.dropWhile_eq_nil_iff.mpr hall] at hd
    cases hd
  · have hcut : ns ++ c :: rest ++ [b] = ns ++ c :: (rest ++ [b]) := by simp
    rw [hcut]
    simp only [titleText, takeWhile_digits hns hc, dropWhile_digits hns hc]
    by_cases hnum : isTitleNumber ns = true
    · by_cases hsemi : c = SEMI
      · simp [hnum, hsemi]
      · simp [hnum, hsemi]
    · simp [hnum]

theorem titleText_digits {ds : Bytes} (hds : ∀ b ∈ ds, isDigit b = true) : titleText ds = none := by
  simp [titleText, List.dropWhile_eq_nil_iff.mpr hds]

theorem titleText_digits_cons {ds : Bytes} (hds : ∀ b ∈ ds, isDigit b = true) {b : UInt8}
    (hb : isDigit b = false) (rest : Bytes) :
    titleText (ds ++ b :: rest) = if isTitleNumber ds && b = SEMI then some rest else none := by
  rw [titleText, takeWhile_digits hds hb, dropWhile_digits hds hb]
  by_cases hnum : isTitleNumber ds = true
  · simp [hnum]
  · simp [hnum]

/-- The unfinished bytes of a stream begin no complete segment. -/
theorem segments_pending (bs : Bytes) : segments (segments bs).2 = ([], (segments bs).2) := by
  induction hn : bs.length using Nat.strongRecOn generalizing bs with
  | ind n ih =>
    cases h : firstSegment bs with
    | none =>
      rw [segments_of_none h]
      exact segments_of_none h
    | some found =>
      obtain ⟨seg, rest⟩ := found
      have hrest := ih rest.length (by rw [← hn]; exact firstSegment_length h) rest rfl
      rw [segments_of_some h]
      exact hrest

/-- The bytes of a stream with its title sequences removed. -/
def shown (stream : Bytes) : Bytes := (segments stream).1.flatMap Segment.shown

theorem shown_append (before more : Bytes) :
    shown (before ++ more) = shown before ++ shown ((segments before).2 ++ more) := by
  rw [shown, segments_append, List.flatMap_append, shown, shown]

end TmuxccDriver.Parser.Osc
