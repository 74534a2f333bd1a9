import TmuxccDriver.Parser.NotifyScanner

/-!
# The notification scanner and the escape grammar

The bells and notifications of a whole stream of pane bytes: a BEL outside strings is a
bell; `ESC` and an introducer open a string, which a BEL or `ESC \` ends, which any
other ESC aborts, and which is ignored when it is too long. An ESC that aborts a string
starts a sequence of its own.

`grammarMachine` reads the same grammar byte by byte, and keeps for each string whether
the scanner can see it: the scanner drops an ESC that aborts a string it is reading, and
leaves a string that grows too long.

Results:
1. `output_grammarMachine`: the machine reports what the grammar says.
2. `tracks_step`: the state of the scanner is determined by that of the machine.
3. `scan_grammar_iff`: the scanner reports what the grammar says at every point of a
   stream, whatever the chunks, exactly if every step is `ReportedAlike`.
-/

namespace TmuxccDriver.Parser
open TmuxccDriver.Lib Osc

/-! ## The grammar -/

inductive StringKind
  | osc
  /-- DCS, SOS, PM or APC. -/
  | other
deriving DecidableEq, Repr

/-- What a byte after an ESC opens. -/
def introduces (b : UInt8) : Option StringKind :=
  if b = OSC then some .osc else if introducesString b then some .other else none

/-- A byte that neither ends nor aborts a string. -/
def inBody (b : UInt8) : Bool := b ≠ BEL && b ≠ ESC

section
variable (decode : Bytes → String)

/-- What a complete string reports. -/
def report (kind : StringKind) (body : Bytes) : List PaneNotifyDetection :=
  if MAX_OSC_BYTES < body.length then []
  else
    match kind with
    | .osc => (parseOscContent (PaneNotifyScanner.decodeUtf8 decode body)).toList
    | .other => []

/-- The detections of a stream. -/
def detections : Bytes → List PaneNotifyDetection
  | [] => []
  | b :: bs =>
    if b = BEL then BELL_DETECTION :: detections bs
    else if b ≠ ESC then detections bs
    else
      match bs with
      | [] => []
      | c :: cs =>
        match introduces c with
        | none => detections (c :: cs)
        | some kind =>
          match h : cs.dropWhile inBody with
          | [] => []
          | e :: after =>
            have : after.length < cs.length := by
              have hle := (List.dropWhile_suffix inBody (l := cs)).length_le
              rw [h] at hle
              exact hle
            if e = BEL then report decode kind (cs.takeWhile inBody) ++ detections after
            else
              match hafter : after with
              | [] => []
              | d :: more =>
                have : more.length + 1 = after.length := by rw [hafter]; rfl
                if d = BACKSLASH then report decode kind (cs.takeWhile inBody) ++ detections more
                else detections (ESC :: d :: more)
termination_by bs => bs.length
decreasing_by
  all_goals
    simp only [List.length_cons]
    omega

end

/-! ## The grammar byte by byte -/

inductive GrammarState
  | ground
  | esc
  /-- In a string; `seen` tells whether the scanner noticed its introducer. -/
  | string (kind : StringKind) (body : Bytes) (seen : Bool)
  /-- After an ESC in a string. -/
  | stringEsc (kind : StringKind) (body : Bytes) (seen : Bool)
deriving DecidableEq, Repr

/-- The scanner is reading the string. -/
def tracked (body : Bytes) (seen : Bool) : Bool := seen && body.length ≤ MAX_OSC_BYTES

/-- A byte outside strings. -/
def grammarGround (b : UInt8) : GrammarState × List PaneNotifyDetection :=
  if b = BEL then (.ground, [BELL_DETECTION])
  else if b = ESC then (.esc, [])
  else (.ground, [])

/-- A byte after an ESC that is no ST; `seen` is for the string it may open. -/
def grammarEsc (b : UInt8) (seen : Bool) : GrammarState × List PaneNotifyDetection :=
  match introduces b with
  | some kind => (.string kind [] seen, [])
  | none => grammarGround b

section
variable (decode : Bytes → String)

def grammarStep : GrammarState → UInt8 → GrammarState × List PaneNotifyDetection
  | .ground, b => grammarGround b
  | .esc, b => grammarEsc b true
  | .string kind body seen, b =>
    if b = BEL then (.ground, report decode kind body)
    else if b = ESC then (.stringEsc kind body seen, [])
    else (.string kind (body ++ [b]) seen, [])
  | .stringEsc kind body seen, b =>
    if b = BACKSLASH then (.ground, report decode kind body)
    -- the scanner misses the ESC that aborts a string it is reading
    else grammarEsc b (!tracked body seen)

def grammarMachine : Transducer GrammarState UInt8 PaneNotifyDetection := ⟨grammarStep decode⟩

end

section
variable {decode : Bytes → String}

/-! ## The machine reads the grammar -/

theorem detections_bel (bs : Bytes) :
    detections decode (BEL :: bs) = BELL_DETECTION :: detections decode bs := by
  rw [detections.eq_def]
  rfl

theorem detections_plain {b : UInt8} (hbel : b ≠ BEL) (hesc : b ≠ ESC) (bs : Bytes) :
    detections decode (b :: bs) = detections decode bs := by
  rw [detections.eq_def]
  simp only [if_neg hbel, if_pos hesc]

theorem detections_esc {c : UInt8} (h : introduces c = none) (cs : Bytes) :
    detections decode (ESC :: c :: cs) = detections decode (c :: cs) := by
  rw [detections, if_neg (by decide), if_neg (by decide)]
  simp only [h]

/-- A string from its introducer on. -/
theorem detections_string {c : UInt8} {kind : StringKind} (h : introduces c = some kind)
    (cs : Bytes) :
    detections decode (ESC :: c :: cs) =
      match cs.dropWhile inBody with
      | [] => []
      | e :: after =>
        if e = BEL then report decode kind (cs.takeWhile inBody) ++ detections decode after
        else
          match after with
          | [] => []
          | d :: more =>
            if d = BACKSLASH then
              report decode kind (cs.takeWhile inBody) ++ detections decode more
            else detections decode (ESC :: d :: more) := by
  rw [detections, if_neg (by decide), if_neg (by decide)]
  simp only [h]
  split
  · rename_i hdrop
    simp only [hdrop]
  · rename_i e after hdrop
    simp only [hdrop]
    cases after with
    | nil => rfl
    | cons d more => rfl

/-- Whether the scanner can see a string does not matter to what it reports. -/
theorem output_seen (bs : Bytes) :
    (∀ kind body seen seen', (grammarMachine decode).output (.string kind body seen) bs =
        (grammarMachine decode).output (.string kind body seen') bs) ∧
      ∀ kind body seen seen', (grammarMachine decode).output (.stringEsc kind body seen) bs =
        (grammarMachine decode).output (.stringEsc kind body seen') bs := by
  induction bs with
  | nil => exact ⟨fun _ _ _ _ => rfl, fun _ _ _ _ => rfl⟩
  | cons b bs ih =>
    refine ⟨fun kind body seen seen' => ?_, fun kind body seen seen' => ?_⟩
    · rw [Transducer.output_cons, Transducer.output_cons]
      by_cases hbel : b = BEL
      · simp [grammarMachine, grammarStep, hbel]
      · by_cases hesc : b = ESC
        · have hne : ESC ≠ BEL := by decide
          simpa [grammarMachine, grammarStep, hesc, hne] using ih.2 kind body seen seen'
        · simpa [grammarMachine, grammarStep, hbel, hesc] using ih.1 kind (body ++ [b]) seen seen'
    · rw [Transducer.output_cons, Transducer.output_cons]
      by_cases hst : b = BACKSLASH
      · simp [grammarMachine, grammarStep, hst]
      · cases hintro : introduces b with
        | none => simp [grammarMachine, grammarStep, hst, grammarEsc, hintro]
        | some kind' =>
          simpa [grammarMachine, grammarStep, hst, grammarEsc, hintro] using
            ih.1 kind' [] (!tracked body seen) (!tracked body seen')

/-- The body of a string is collected. -/
theorem run_body (kind : StringKind) (body : Bytes) (seen : Bool) {bs : Bytes}
    (hbs : ∀ b ∈ bs, inBody b) :
    (grammarMachine decode).run (.string kind body seen) bs =
      (.string kind (body ++ bs) seen, []) := by
  induction bs generalizing body with
  | nil => simp
  | cons b bs ih =>
    obtain ⟨hb, hbs⟩ := List.forall_mem_cons.mp hbs
    obtain ⟨hbel, hesc⟩ : b ≠ BEL ∧ b ≠ ESC := by simpa [inBody] using hb
    have hstep : (grammarMachine decode).step (.string kind body seen) b =
        (.string kind (body ++ [b]) seen, []) := by
      simp [grammarMachine, grammarStep, hbel, hesc]
    rw [Transducer.run_cons_silent _ hstep, ih _ hbs, List.append_assoc, List.singleton_append]

/-- After an ESC in a string that is no ST, the grammar is where a fresh ESC leaves it. -/
theorem output_abort (kind : StringKind) (body : Bytes) (seen : Bool) {d : UInt8}
    (hd : d ≠ BACKSLASH) (more : Bytes) :
    (grammarMachine decode).output (.stringEsc kind body seen) (d :: more) =
      (grammarMachine decode).output .ground (ESC :: d :: more) := by
  have hground : (grammarMachine decode).output .ground (ESC :: d :: more) =
      (grammarMachine decode).output .esc (d :: more) := rfl
  rw [hground, Transducer.output_cons, Transducer.output_cons]
  cases hintro : introduces d with
  | none => simp [grammarMachine, grammarStep, hd, grammarEsc, hintro]
  | some kind' =>
    simpa [grammarMachine, grammarStep, hd, grammarEsc, hintro] using
      (output_seen more).1 kind' [] (!tracked body seen) true

theorem output_string (kind : StringKind) (cs : Bytes) :
    (grammarMachine decode).output (.string kind [] true) cs =
      match cs.dropWhile inBody with
      | [] => []
      | e :: after =>
        if e = BEL then
          report decode kind (cs.takeWhile inBody) ++ (grammarMachine decode).output .ground after
        else
          match after with
          | [] => []
          | d :: more =>
            if d = BACKSLASH then
              report decode kind (cs.takeWhile inBody) ++
                (grammarMachine decode).output .ground more
            else (grammarMachine decode).output .ground (ESC :: d :: more) := by
  have hbody := @run_body decode kind [] true (cs.takeWhile inBody)
    fun b hb => List.mem_takeWhile_imp hb
  rw [List.nil_append] at hbody
  have hcut : (grammarMachine decode).output (.string kind [] true) cs =
      (grammarMachine decode).output (.string kind (cs.takeWhile inBody) true)
        (cs.dropWhile inBody) := by
    have hrun := Transducer.run_append_silent _ hbody (cs.dropWhile inBody)
    rw [List.takeWhile_append_dropWhile] at hrun
    exact congrArg Prod.snd hrun
  rw [hcut]
  cases hdrop : cs.dropWhile inBody with
  | nil => rfl
  | cons e after =>
    have he : ¬inBody e := by
      have hhead := List.head_dropWhile_not (l := cs) (p := inBody) (by simp [hdrop])
      simpa [hdrop] using hhead
    by_cases hbel : e = BEL
    · subst hbel
      rfl
    · obtain rfl : e = ESC := by
        by_contra hesc
        exact he (by simp [inBody, hbel, hesc])
      have hescape : (grammarMachine decode).output
          (.string kind (cs.takeWhile inBody) true) (ESC :: after) =
          (grammarMachine decode).output (.stringEsc kind (cs.takeWhile inBody) true) after := rfl
      rw [hescape]
      simp only [if_neg hbel]
      cases after with
      | nil => rfl
      | cons d more =>
        by_cases hst : d = BACKSLASH
        · subst hst
          rfl
        · simp only [if_neg hst]
          exact output_abort kind _ true hst more

/-- The machine reports what the grammar says. -/
theorem output_grammarMachine (bs : Bytes) :
    (grammarMachine decode).output .ground bs = detections decode bs := by
  induction hn : bs.length using Nat.strongRecOn generalizing bs with
  | ind n ih =>
    subst hn
    cases bs with
    | nil => simp [detections]
    | cons b bs =>
      by_cases hbel : b = BEL
      · subst hbel
        rw [detections_bel, ← ih bs.length (by simp) bs rfl]
        rfl
      by_cases hesc : b = ESC
      · subst hesc
        cases bs with
        | nil =>
          simp [detections, hbel, grammarMachine, grammarStep, grammarGround,
            Transducer.output_cons]
        | cons c cs =>
          have hground : (grammarMachine decode).output .ground (ESC :: c :: cs) =
              (grammarMachine decode).output .esc (c :: cs) := rfl
          rw [hground, Transducer.output_cons]
          cases hintro : introduces c with
          | none =>
            rw [detections_esc hintro, ← ih (c :: cs).length (by simp) (c :: cs) rfl,
              Transducer.output_cons]
            simp [grammarMachine, grammarStep, grammarEsc, hintro]
          | some kind =>
            have hopen : (grammarMachine decode).step .esc c = (.string kind [] true, []) := by
              simp [grammarMachine, grammarStep, grammarEsc, hintro]
            rw [hopen, detections_string hintro, List.nil_append, output_string]
            have hlength := (List.dropWhile_suffix inBody (l := cs)).length_le
            cases hdrop : cs.dropWhile inBody with
            | nil => rfl
            | cons e after =>
              rw [hdrop, List.length_cons] at hlength
              have hafter := ih after.length (by simp; omega) after rfl
              cases after with
              | nil => simp [hafter]
              | cons d more =>
                rw [List.length_cons] at hlength
                have hmore := ih more.length (by simp; omega) more rfl
                have habort := ih (ESC :: d :: more).length (by simp; omega) (ESC :: d :: more) rfl
                simp only [hafter, hmore, habort]
      · rw [detections_plain hbel hesc, ← ih bs.length (by simp) bs rfl, Transducer.output_cons]
        simp [grammarMachine, grammarStep, grammarGround, hbel, hesc]

/-! ## The scanner against the machine -/

/-- Where the scanner stands when the grammar stands somewhere: what it cannot see it
takes for plain bytes. -/
inductive Tracks : PaneNotifyScanner → GrammarState → Prop
  | ground {buf : Bytes} {strLen : Nat} : Tracks ⟨.idle, buf, strLen⟩ .ground
  | esc {buf : Bytes} {strLen : Nat} : Tracks ⟨.esc, buf, strLen⟩ .esc
  | osc {body : Bytes} {strLen : Nat} (h : body.length ≤ MAX_OSC_BYTES) :
      Tracks ⟨.osc, body, strLen⟩ (.string .osc body true)
  | oscEsc {body : Bytes} {strLen : Nat} (h : body.length ≤ MAX_OSC_BYTES) :
      Tracks ⟨.oscEsc, body, strLen⟩ (.stringEsc .osc body true)
  | str {body buf : Bytes} (h : body.length ≤ MAX_OSC_BYTES) :
      Tracks ⟨.str, buf, body.length⟩ (.string .other body true)
  | strEsc {body buf : Bytes} (h : body.length ≤ MAX_OSC_BYTES) :
      Tracks ⟨.strEsc, buf, body.length⟩ (.stringEsc .other body true)
  | unseen {kind : StringKind} {body buf : Bytes} {seen : Bool} {strLen : Nat}
      (h : tracked body seen = false) : Tracks ⟨.idle, buf, strLen⟩ (.string kind body seen)
  | unseenEsc {kind : StringKind} {body buf : Bytes} {seen : Bool} {strLen : Nat}
      (h : tracked body seen = false) : Tracks ⟨.esc, buf, strLen⟩ (.stringEsc kind body seen)

variable (decode) in
/-- The steps on which the scanner reports what the grammar does: no BEL directly after an
ESC outside strings, and a string the scanner cannot see ends neither in a BEL nor with a
report. -/
def ReportedAlike : GrammarState → UInt8 → Prop
  | .ground, _ => True
  | .esc, b => b ≠ BEL
  | .string _ body seen, b => b = BEL → tracked body seen
  | .stringEsc kind body seen, b =>
    tracked body seen ∨ b ≠ BEL ∧ (b = BACKSLASH → report decode kind body = [])

instance : ∀ (t : GrammarState) (b : UInt8), Decidable (ReportedAlike decode t b)
  | .ground, _ => .isTrue trivial
  | .esc, b => inferInstanceAs (Decidable (b ≠ BEL))
  | .string _ body seen, b => inferInstanceAs (Decidable (b = BEL → tracked body seen))
  | .stringEsc kind body seen, b =>
    inferInstanceAs
      (Decidable (tracked body seen ∨ b ≠ BEL ∧ (b = BACKSLASH → report decode kind body = [])))

theorem introduces_cases (b : UInt8) :
    (b = OSC ∧ introduces b = some .osc) ∨
    (b ≠ OSC ∧ introducesString b ∧ introduces b = some .other) ∨
    (b ≠ OSC ∧ ¬introducesString b ∧ introduces b = none) := by
  by_cases hosc : b = OSC
  · exact .inl ⟨hosc, if_pos hosc⟩
  · by_cases hstr : introducesString b
    · exact .inr (.inl ⟨hosc, hstr, by rw [introduces, if_neg hosc, if_pos hstr]⟩)
    · exact .inr (.inr ⟨hosc, hstr, by rw [introduces, if_neg hosc, if_neg hstr]⟩)

/-- An introducer is a plain byte outside strings. -/
theorem ne_of_introduces {b : UInt8} {kind : StringKind} (h : introduces b = some kind) :
    b ≠ BEL ∧ b ≠ ESC := by
  refine ⟨?_, ?_⟩
  · rintro rfl
    cases h
  · rintro rfl
    cases h

theorem tracked_of_le {body : Bytes} (h : body.length ≤ MAX_OSC_BYTES) : tracked body true := by
  simp [tracked, h]

/-- A string the scanner cannot see stays out of its sight. -/
theorem tracked_snoc {body : Bytes} {seen : Bool} (h : tracked body seen = false) (b : UInt8) :
    tracked (body ++ [b]) seen = false := by
  simp only [tracked, Bool.and_eq_false_iff, decide_eq_false_iff_not] at h ⊢
  exact h.imp id fun hlen => by simp; omega

theorem tracked_unseen (body : Bytes) : tracked body false = false := rfl

theorem report_of_le {body : Bytes} (h : body.length ≤ MAX_OSC_BYTES) :
    report decode .osc body =
        (parseOscContent (PaneNotifyScanner.decodeUtf8 decode body)).toList ∧
      report decode .other body = [] := by
  rw [report, report, if_neg (Nat.not_lt.mpr h), if_neg (Nat.not_lt.mpr h)]
  exact ⟨rfl, rfl⟩

theorem report_ne_bell (kind : StringKind) (body : Bytes) :
    [BELL_DETECTION] ≠ report decode kind body := by
  unfold report
  split
  · simp
  · cases kind with
    | other => simp
    | osc =>
      intro h
      cases hparse : parseOscContent (PaneNotifyScanner.decodeUtf8 decode body) with
      | none => simp [hparse] at h
      | some d =>
        rw [hparse, Option.toList_some, List.singleton_inj] at h
        exact kind_ne_bell hparse h.symm

/-- A byte processed from `IDLE` is a byte on the ground. -/
theorem scanIdle_ground (s : PaneNotifyScanner) (b : UInt8) :
    Tracks (s.scanIdle b).1 (grammarGround b).1 ∧ (s.scanIdle b).2 = (grammarGround b).2 := by
  rw [PaneNotifyScanner.scanIdle, grammarGround]
  split
  · exact ⟨.ground, rfl⟩
  split
  · exact ⟨.esc, rfl⟩
  · exact ⟨.ground, rfl⟩

/-- A byte after the ESC that aborts a string the scanner was reading. -/
theorem scanIdle_abort (s : PaneNotifyScanner) (b : UInt8) :
    Tracks (s.scanIdle b).1 (grammarEsc b false).1 ∧
      (s.scanIdle b).2 = (grammarEsc b false).2 := by
  cases hintro : introduces b with
  | none =>
    rw [grammarEsc, hintro]
    exact scanIdle_ground s b
  | some kind =>
    obtain ⟨hbel, hesc⟩ := ne_of_introduces hintro
    rw [PaneNotifyScanner.scanIdle, if_neg hbel, if_neg hesc, grammarEsc, hintro]
    exact ⟨.unseen (tracked_unseen []), rfl⟩

/-- A byte after an ESC that the scanner has noticed. -/
theorem scanByte_esc (buf : Bytes) (strLen : Nat) (b : UInt8) :
    Tracks (PaneNotifyScanner.scanByte decode ⟨.esc, buf, strLen⟩ b).1 (grammarEsc b true).1 ∧
      ((PaneNotifyScanner.scanByte decode ⟨.esc, buf, strLen⟩ b).2 = (grammarEsc b true).2 ↔
        b ≠ BEL) := by
  obtain ⟨rfl, hintro⟩ | ⟨hosc, hstr, hintro⟩ | ⟨hosc, hstr, hintro⟩ := introduces_cases b
  · rw [grammarEsc, hintro]
    exact ⟨.osc (Nat.zero_le _), iff_of_true rfl (by decide)⟩
  · have hstep :
        PaneNotifyScanner.scanByte decode ⟨.esc, buf, strLen⟩ b = (⟨.str, buf, 0⟩, []) := by
      simp [PaneNotifyScanner.scanByte, hosc, hstr]
    rw [hstep, grammarEsc, hintro]
    exact ⟨@Tracks.str [] buf (Nat.zero_le _), iff_of_true rfl (ne_of_introduces hintro).1⟩
  · rw [grammarEsc, hintro]
    by_cases hesc : b = ESC
    · subst hesc
      exact ⟨.esc, iff_of_true rfl (by decide)⟩
    · have hstep : PaneNotifyScanner.scanByte decode ⟨.esc, buf, strLen⟩ b =
          (⟨.idle, buf, strLen⟩, []) := by
        simp [PaneNotifyScanner.scanByte, hosc, hstr, hesc]
      rw [hstep, grammarGround]
      by_cases hbel : b = BEL
      · simp only [if_pos hbel]
        exact ⟨.ground, iff_of_false (by simp) (not_not_intro hbel)⟩
      · simp only [if_neg hbel, if_neg hesc]
        exact ⟨.ground, iff_of_true trivial hbel⟩

/-- A byte of a string the scanner is reading. -/
theorem tracks_reading {s : PaneNotifyScanner} {kind : StringKind} {body : Bytes} (b : UInt8)
    (h : Tracks s (.string kind body true)) (hlen : body.length ≤ MAX_OSC_BYTES) :
    Tracks (s.scanByte decode b).1 (grammarStep decode (.string kind body true) b).1 ∧
      (s.scanByte decode b).2 = (grammarStep decode (.string kind body true) b).2 := by
  obtain ⟨hosc, hother⟩ := @report_of_le decode body hlen
  have hlong : MAX_OSC_BYTES ≤ body.length → tracked (body ++ [b]) true = false := by
    intro hge
    simp [tracked]
    omega
  cases h with
  | unseen htracked =>
    rw [tracked_of_le hlen] at htracked
    cases htracked
  | osc =>
    simp only [PaneNotifyScanner.scanByte, grammarStep]
    split
    · exact ⟨.ground, hosc.symm⟩
    split
    · exact ⟨.oscEsc hlen, rfl⟩
    rename_i hbel hesc
    split
    · rename_i hge
      rw [PaneNotifyScanner.scanIdle, if_neg hbel, if_neg hesc]
      exact ⟨.unseen (hlong hge), rfl⟩
    · exact ⟨.osc (by simp; omega), rfl⟩
  | str =>
    simp only [PaneNotifyScanner.scanByte, grammarStep]
    split
    · exact ⟨.ground, hother.symm⟩
    split
    · exact ⟨.strEsc hlen, rfl⟩
    split
    · exact ⟨.unseen (hlong (by omega)), rfl⟩
    · have hnext : body.length + 1 = (body ++ [b]).length := by simp
      rw [hnext]
      exact ⟨.str (by simp; omega), rfl⟩

/-- A byte after an ESC in a string the scanner is reading. -/
theorem tracks_readingEsc {s : PaneNotifyScanner} {kind : StringKind} {body : Bytes} (b : UInt8)
    (h : Tracks s (.stringEsc kind body true)) (hlen : body.length ≤ MAX_OSC_BYTES) :
    Tracks (s.scanByte decode b).1 (grammarStep decode (.stringEsc kind body true) b).1 ∧
      (s.scanByte decode b).2 = (grammarStep decode (.stringEsc kind body true) b).2 := by
  obtain ⟨hosc, hother⟩ := @report_of_le decode body hlen
  have htrue := tracked_of_le hlen
  cases h with
  | unseenEsc htracked =>
    rw [htrue] at htracked
    cases htracked
  | oscEsc =>
    simp only [PaneNotifyScanner.scanByte, grammarStep]
    split
    · exact ⟨.ground, hosc.symm⟩
    · rw [htrue]
      exact scanIdle_abort _ b
  | strEsc =>
    simp only [PaneNotifyScanner.scanByte, grammarStep]
    split
    · exact ⟨.ground, hother.symm⟩
    · rw [htrue]
      exact scanIdle_abort _ b

theorem tracks_step {s : PaneNotifyScanner} {t : GrammarState} (h : Tracks s t) (b : UInt8) :
    Tracks (s.scanByte decode b).1 (grammarStep decode t b).1 ∧
      ((s.scanByte decode b).2 = (grammarStep decode t b).2 ↔ ReportedAlike decode t b) := by
  have hread : ∀ {kind : StringKind} {body : Bytes}, Tracks s (.string kind body true) →
      body.length ≤ MAX_OSC_BYTES →
      Tracks (s.scanByte decode b).1 (grammarStep decode (.string kind body true) b).1 ∧
        ((s.scanByte decode b).2 = (grammarStep decode (.string kind body true) b).2 ↔
          ReportedAlike decode (.string kind body true) b) := by
    intro kind body hs hlen
    obtain ⟨hnext, hout⟩ := @tracks_reading decode s kind body b hs hlen
    exact ⟨hnext, iff_of_true hout fun _ => tracked_of_le hlen⟩
  have hreadEsc : ∀ {kind : StringKind} {body : Bytes}, Tracks s (.stringEsc kind body true) →
      body.length ≤ MAX_OSC_BYTES →
      Tracks (s.scanByte decode b).1 (grammarStep decode (.stringEsc kind body true) b).1 ∧
        ((s.scanByte decode b).2 = (grammarStep decode (.stringEsc kind body true) b).2 ↔
          ReportedAlike decode (.stringEsc kind body true) b) := by
    intro kind body hs hlen
    obtain ⟨hnext, hout⟩ := @tracks_readingEsc decode s kind body b hs hlen
    exact ⟨hnext, iff_of_true hout (.inl (tracked_of_le hlen))⟩
  have hs := h
  cases h with
  | ground =>
    obtain ⟨hnext, hout⟩ := scanIdle_ground ⟨.idle, _, _⟩ b
    exact ⟨hnext, iff_of_true hout trivial⟩
  | esc => exact scanByte_esc _ _ b
  | osc hlen => exact hread hs hlen
  | oscEsc hlen => exact hreadEsc hs hlen
  | str hlen => exact hread hs hlen
  | strEsc hlen => exact hreadEsc hs hlen
  | @unseen kind body buf seen strLen htracked =>
    -- to the scanner the string is plain text: its BEL is a bell
    simp only [PaneNotifyScanner.scanByte, PaneNotifyScanner.scanIdle, grammarStep, ReportedAlike,
      htracked]
    by_cases hbel : b = BEL
    · simp only [if_pos hbel]
      exact ⟨.ground, iff_of_false (report_ne_bell kind body) fun h => by simpa using h hbel⟩
    · by_cases hesc : b = ESC
      · simp only [if_neg hbel, if_pos hesc]
        exact ⟨.unseenEsc htracked, iff_of_true trivial fun h => absurd h hbel⟩
      · simp only [if_neg hbel, if_neg hesc]
        exact ⟨.unseen (tracked_snoc htracked b), iff_of_true trivial fun h => absurd h hbel⟩
  | @unseenEsc kind body buf seen strLen htracked =>
    by_cases hst : b = BACKSLASH
    · subst hst
      have hstep : PaneNotifyScanner.scanByte decode ⟨.esc, buf, strLen⟩ BACKSLASH =
          (⟨.idle, buf, strLen⟩, []) := rfl
      have hgrammar : grammarStep decode (.stringEsc kind body seen) BACKSLASH =
          (.ground, report decode kind body) := rfl
      rw [hstep, hgrammar, ReportedAlike, htracked]
      refine ⟨.ground, ?_⟩
      simp only
        [Bool.false_eq_true, false_or, forall_const, eq_comm (a := ([] : List PaneNotifyDetection))]
      exact ⟨fun h => ⟨by decide, h⟩, fun h => h.2⟩
    · obtain ⟨hnext, hout⟩ := @scanByte_esc decode buf strLen b
      have hgrammar : grammarStep decode (.stringEsc kind body seen) b = grammarEsc b true := by
        rw [grammarStep, if_neg hst, htracked, Bool.not_false]
      rw [hgrammar, ReportedAlike, htracked]
      exact ⟨hnext, hout.trans ⟨fun h => .inr ⟨h, fun h' => absurd h' hst⟩,
        fun h => (h.resolve_left (by simp)).1⟩⟩

end

/-! ## Streams -/

/-- What the scanner reports for a list of chunks. -/
def scanAll (decode : Bytes → String) (chunks : List Bytes) : List PaneNotifyDetection :=
  (pushAll (PaneNotifyScanner.scan decode) .init chunks).2

/-- At every point of a stream, whatever the chunks, the scanner has reported what the
grammar says of the bytes so far, exactly if every step is reported alike. -/
theorem scan_grammar_iff (decode : Bytes → String) (stream : Bytes) :
    (∀ chunks : List Bytes, chunks.flatten <+: stream →
        scanAll decode chunks = detections decode chunks.flatten) ↔
      (grammarMachine decode).Meets (ReportedAlike decode) .ground stream := by
  have hagree : (∀ done, done <+: stream →
      (PaneNotifyScanner.loop decode).output .init done =
        (grammarMachine decode).output .ground done) ↔ _ :=
    Transducer.outputs_agree_iff (fun s t b (h : Tracks s t) => (tracks_step h b).1)
      (fun s t b h => (tracks_step h b).2) .ground stream
  rw [← hagree]
  have hchunks : ∀ chunks, scanAll decode chunks =
      (PaneNotifyScanner.loop decode).output .init chunks.flatten :=
    fun chunks => (PaneNotifyScanner.scan_realises decode).out_pushAll .init chunks
  constructor
  · intro hall done hdone
    have hone := hall [done] (by simpa using hdone)
    rw [hchunks, List.flatten_singleton] at hone
    rw [output_grammarMachine]
    exact hone
  · intro hall chunks hprefix
    rw [hchunks, ← output_grammarMachine]
    exact hall chunks.flatten hprefix

/-- An OSC 9 is aborted by the ESC of the next one: the scanner drops that ESC, loses the
notification and takes its BEL for a bell. A BEL directly after an ESC is lost. -/
theorem scan_phantom_bell :
    (scanAll fromCharCodes [ESC :: ascii "]9;x" ++ ESC :: ascii "]9;hi" ++ [BEL]] =
        [BELL_DETECTION] ∧
      detections fromCharCodes (ESC :: ascii "]9;x" ++ ESC :: ascii "]9;hi" ++ [BEL]) =
        [desktopNotification ['h', 'i']]) ∧
    scanAll fromCharCodes [[ESC, BEL]] = [] ∧
      detections fromCharCodes [ESC, BEL] = [BELL_DETECTION] := by
  rw [← output_grammarMachine, ← output_grammarMachine]
  decide +kernel

end TmuxccDriver.Parser
