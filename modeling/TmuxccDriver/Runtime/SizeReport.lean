import TmuxccDriver.Lib.Run
import TmuxccDriver.Parser.Commands
import TmuxccDriver.State.Model

/-!
# The size reporter

`createSizeReporter` of `runtime/size-report.ts`: the ledger of the window sizes that were
reported to tmux. A window is known by its tmux number; the conversion of its id is an option of
the code. The model changes outside and `onModelChange` is called at once.

What was reported, and which windows have left the model, is kept beside the state of the code.

Results:
1. `openReport`: the report of a window that is still good, by the history alone.
2. `Flushing.window`: what one window of the loop keeps.
3. `flush_spec`: what a flush keeps and reaches.
4. `size_ledger`: the ledger after any run.
-/

namespace TmuxccDriver.Runtime.SizeReport
open TmuxccDriver.Lib TmuxccDriver.Protocol TmuxccDriver.State

/-! ## The reporter -/

structure WindowSize where
  cols : Nat
  rows : Nat
deriving DecidableEq

structure LedgerEntry where
  winNum : Int
  size : WindowSize

abbrev Ledger := KeyedMap LedgerEntry.winNum

/-- A command that was sent, or a window that left the model. -/
inductive LogEntry
  | sent (winNum : Int) (size : WindowSize)
  | left (winNum : Int)
deriving DecidableEq

structure SizeReporter where
  model : SessionModel
  participating : Bool := false
  ledger : Ledger := .empty
  batches : List (List String) := []
  log : List LogEntry := []

def currentDims (win : Window) : Option WindowSize :=
  win.layout.map fun layout => ⟨layout.cols, layout.rows⟩

section Code
variable (toTmuxWindow : WindowId → Int)

/-- The numbers of the windows of a model, the set `live` of `flush`. -/
def live (model : SessionModel) : List Int :=
  model.windows.values.map fun win => toTmuxWindow win.windowId

/-- What the loop of `flush` has so far: the ledger and the commands of the batch. -/
structure Batch where
  ledger : Ledger
  cmds : List (Int × WindowSize) := []

def Batch.entries (out : Batch) : List LogEntry := out.cmds.map fun cmd => .sent cmd.1 cmd.2

def Batch.texts (out : Batch) : List String :=
  out.cmds.map fun cmd => Parser.refreshClientWindowSize cmd.1 cmd.2.cols cmd.2.rows

/-- The size to report for a window, if any. -/
def desired (override : Option (Int × WindowSize)) (ledger : Ledger) (win : Window) :
    Option WindowSize :=
  let winNum := toTmuxWindow win.windowId
  match override with
  | some (num, size) =>
    if num = winNum then some size
    else if ledger.has winNum then none
    else currentDims win
  | none => if ledger.has winNum then none else currentDims win

def Batch.report (out : Batch) (winNum : Int) (size : WindowSize) : Batch :=
  { ledger := out.ledger.set ⟨winNum, size⟩, cmds := out.cmds ++ [(winNum, size)] }

/-- One window of the loop. -/
def flushWindow (override : Option (Int × WindowSize)) (out : Batch) (win : Window) : Batch :=
  let winNum := toTmuxWindow win.windowId
  match desired toTmuxWindow override out.ledger win with
  | none => out
  | some size =>
    match out.ledger.get? winNum with
    | some prev => if prev.size = size then out else out.report winNum size
    | none => out.report winNum size

namespace SizeReporter
variable (s : SizeReporter)

def flush (override : Option (Int × WindowSize)) : SizeReporter :=
  let out := s.model.windows.values.foldl (flushWindow toTmuxWindow override) { ledger := s.ledger }
  { s with
    ledger := out.ledger.filter fun entry => entry.winNum ∈ live toTmuxWindow s.model
    batches := if out.cmds.length > 0 then s.batches ++ [out.texts] else s.batches
    log := s.log ++ out.entries }

def reportForPane (paneId : PaneId) (cols rows : Nat) : SizeReporter :=
  match s.model.panes.get? paneId with
  | none => s
  | some pane =>
    if s.model.windows.has pane.windowId then
      { s with participating := true }.flush toTmuxWindow
        (some (toTmuxWindow pane.windowId, ⟨cols, rows⟩))
    else s

def onModelChange : SizeReporter :=
  if s.participating then s.flush toTmuxWindow none else s

end SizeReporter

/-! ## Runs -/

inductive Event
  | reportForPane (paneId : PaneId) (cols rows : Nat)
  | modelChange (model : SessionModel)

/-- The windows of `prev` that `next` does not have. -/
def leaving (prev next : SessionModel) : List LogEntry :=
  ((live toTmuxWindow prev).filter fun winNum => winNum ∉ live toTmuxWindow next).map .left

def SizeReporter.step (s : SizeReporter) : Event → SizeReporter
  | .reportForPane paneId cols rows => s.reportForPane toTmuxWindow paneId cols rows
  | .modelChange model =>
    { s with model, log := s.log ++ leaving toTmuxWindow s.model model }.onModelChange toTmuxWindow

def run (model : SessionModel) (events : List Event) : SizeReporter :=
  events.foldl (SizeReporter.step toTmuxWindow) { model }

end Code

/-- The call names a pane of the model, in a window of the model. -/
def Effective (model : SessionModel) : Event → Prop
  | .reportForPane paneId .. =>
    ∃ pane, model.panes.get? paneId = some pane ∧ model.windows.has pane.windowId
  | .modelChange _ => False

/-- The model that an event leaves. -/
def modelAfter (model : SessionModel) : Event → SessionModel
  | .modelChange model => model
  | .reportForPane .. => model

/-- Some call of the run named a pane and a window of the model that it found. -/
def Begun (model : SessionModel) (events : List Event) : Prop :=
  ∃ before e after, events = before ++ e :: after ∧ Effective (before.foldl modelAfter model) e

/-! ## The history of a window -/

/-- What an entry of the history makes of the open report of window `k`. -/
def reportAfter (k : Int) (report : Option WindowSize) : LogEntry → Option WindowSize
  | .sent winNum size => if winNum = k then some size else report
  | .left winNum => if winNum = k then none else report

/-- The last report of a window that has not left the model since. -/
def openReport (k : Int) (log : List LogEntry) : Option WindowSize :=
  log.foldl (reportAfter k) none

/-- The last report of a window. -/
def lastSent (k : Int) (log : List LogEntry) : Option WindowSize :=
  log.foldl (fun last entry =>
    match entry with
    | .sent winNum size => if winNum = k then some size else last
    | .left _ => last) none

/-- No report is the same as the one that is still open. -/
def Changes (log : List LogEntry) : Prop :=
  ∀ before k size after, log = before ++ .sent k size :: after → openReport k before ≠ some size

theorem openReport_append (k : Int) (log : List LogEntry) (entry : LogEntry) :
    openReport k (log ++ [entry]) = reportAfter k (openReport k log) entry := List.foldl_concat ..

/-- The last report is the open one. -/
theorem lastSent_of_open {k : Int} {log : List LogEntry} {size : WindowSize}
    (h : openReport k log = some size) : lastSent k log = some size := by
  induction log using List.reverseRecOn with
  | nil => cases h
  | append_singleton log entry ih =>
    rw [openReport_append] at h
    rw [lastSent, List.foldl_append]
    cases entry with
    | sent winNum z =>
      simp only [reportAfter] at h
      simp only [List.foldl_cons, List.foldl_nil]
      split
      · next hk => simpa [hk] using h
      · next hk => exact ih (by simpa [hk] using h)
    | left winNum =>
      simp only [reportAfter] at h
      simp only [List.foldl_cons, List.foldl_nil]
      split at h
      · cases h
      · exact ih h

namespace Changes
variable {log : List LogEntry}

theorem concat (h : Changes log) {entry : LogEntry}
    (hnew : ∀ k size, entry = .sent k size → openReport k log ≠ some size) :
    Changes (log ++ [entry]) := by
  intro before k size after hsplit
  rcases List.eq_nil_or_concat after with rfl | ⟨after, last, rfl⟩
  · obtain ⟨rfl, hlast⟩ := List.append_inj' hsplit rfl
    exact hnew k size (List.singleton_inj.mp hlast)
  · have hcut : log ++ [entry] = before ++ .sent k size :: after ++ [last] := by simpa using hsplit
    exact h before k size after (List.append_inj' hcut rfl).1

theorem append_left (h : Changes log) (nums : List Int) :
    Changes (log ++ nums.map .left) := by
  induction nums using List.reverseRecOn with
  | nil => simpa using h
  | append_singleton nums num ih =>
    rw [List.map_append, ← List.append_assoc]
    exact ih.concat fun k size hno => nomatch hno

end Changes

/-- Windows that leave close their reports. -/
theorem openReport_leave (k : Int) (log : List LogEntry) (nums : List Int) :
    openReport k (log ++ nums.map .left) = if k ∈ nums then none else openReport k log := by
  induction nums using List.reverseRecOn with
  | nil => simp
  | append_singleton nums num ih =>
    have hconcat :
        log ++ (nums ++ [num]).map .left = log ++ nums.map .left ++ [.left num] := by simp
    rw [hconcat, openReport_append, ih, reportAfter]
    rcases eq_or_ne num k with rfl | hne
    · simp
    · simp [hne, hne.symm]

/-! ## One flush -/

section Code
variable (toTmuxWindow : WindowId → Int)

/-- The loop of a flush: the ledger of the live windows is what the history says, with the batch
so far. -/
structure Flushing (nums : List Int) (log : List LogEntry) (out : Batch) : Prop where
  agrees : ∀ k ∈ nums, (out.ledger.get? k).map (·.size) = openReport k (log ++ out.entries)
  gone : ∀ k, k ∉ nums → openReport k (log ++ out.entries) = none
  changes : Changes (log ++ out.entries)

namespace Flushing
variable {toTmuxWindow} {nums : List Int} {log : List LogEntry} {out : Batch}

theorem report (h : Flushing nums log out) {winNum : Int} (hlive : winNum ∈ nums)
    {size : WindowSize} (hnew : ∀ prev, out.ledger.get? winNum = some prev → prev.size ≠ size) :
    Flushing nums log (out.report winNum size) := by
  have hlog :
      log ++ (out.report winNum size).entries = log ++ out.entries ++ [.sent winNum size] := by
    simp [Batch.report, Batch.entries]
  constructor
  · intro k hk
    rw [hlog, openReport_append, reportAfter, ← h.agrees k hk, Batch.report, KeyedMap.get?_set]
    split
    · rfl
    · rfl
  · intro k hk
    have hne : winNum ≠ k := fun heq => hk (heq ▸ hlive)
    rw [hlog, openReport_append, reportAfter, if_neg hne]
    exact h.gone k hk
  · rw [hlog]
    refine h.changes.concat fun k z heq => ?_
    cases heq
    rw [← h.agrees winNum hlive]
    intro hopen
    obtain ⟨prev, hprev, rfl⟩ := Option.map_eq_some_iff.mp hopen
    exact hnew prev hprev rfl

theorem window (h : Flushing nums log out) (override : Option (Int × WindowSize)) {win : Window}
    (hlive : toTmuxWindow win.windowId ∈ nums) :
    Flushing nums log (flushWindow toTmuxWindow override out win) := by
  unfold flushWindow
  simp only
  split
  · exact h
  · next size hsize =>
    split
    · next prev hprev =>
      split
      · exact h
      · next hdiffers =>
        exact h.report hlive fun prev' hprev' => by
          rw [hprev] at hprev'
          cases hprev'
          exact hdiffers
    · next hnone => exact h.report hlive fun prev hprev => by simp [hnone] at hprev

end Flushing

theorem has_report (out : Batch) (winNum k : Int) (size : WindowSize)
    (h : out.ledger.has k = true ∨ k = winNum) : (out.report winNum size).ledger.has k = true := by
  rw [Batch.report, KeyedMap.has_set]
  rcases h with hold | rfl
  · simp [hold]
  · simp

/-- A window of the loop is in the ledger afterwards if its layout is known, and no window falls
out of it. -/
theorem has_flushWindow (override : Option (Int × WindowSize)) (out : Batch) (win : Window)
    (k : Int)
    (h : out.ledger.has k = true ∨ k = toTmuxWindow win.windowId ∧ win.layout ≠ none) :
    (flushWindow toTmuxWindow override out win).ledger.has k = true := by
  unfold flushWindow
  simp only
  split
  · next hdesired =>
    -- nothing is wanted for a known layout only if the window is in the ledger
    rcases h with hold | ⟨rfl, hlayout⟩
    · exact hold
    · by_contra hmissing
      obtain ⟨layout, hlayout⟩ := Option.ne_none_iff_exists'.mp hlayout
      rcases override with _ | ⟨num, size⟩
      · simp [desired, hmissing, currentDims, hlayout] at hdesired
      · simp only [desired, hmissing, currentDims, hlayout] at hdesired
        split at hdesired
        · cases hdesired
        · cases hdesired
  · split
    · next prev hprev =>
      split
      · rcases h with hold | ⟨rfl, -⟩
        · exact hold
        · exact KeyedMap.has_iff.mpr ⟨prev, hprev⟩
      · exact has_report out _ k _ (h.imp_right And.left)
    · exact has_report out _ k _ (h.imp_right And.left)

/-- After the loop: the history agrees with the ledger, and the known layouts are in it. -/
theorem flush_loop (model : SessionModel) (override : Option (Int × WindowSize))
    (log : List LogEntry) (out : Batch) (h : Flushing (live toTmuxWindow model) log out) :
    Flushing (live toTmuxWindow model) log
        (model.windows.values.foldl (flushWindow toTmuxWindow override) out) ∧
      ∀ win ∈ model.windows.values, win.layout ≠ none →
        (model.windows.values.foldl (flushWindow toTmuxWindow override) out).ledger.has
          (toTmuxWindow win.windowId) = true := by
  refine foldl_done
    (P := fun (done : List Window) out => Flushing (live toTmuxWindow model) log out ∧
      ∀ win ∈ done, win.layout ≠ none → out.ledger.has (toTmuxWindow win.windowId) = true)
    ⟨h, fun win hwin => absurd hwin List.not_mem_nil⟩ fun done win out hmem ⟨hflushing, hdone⟩ => ?_
  refine ⟨hflushing.window override (List.mem_map_of_mem hmem), fun w hw hlayout => ?_⟩
  rcases List.mem_append.mp hw with hold | hnew
  · exact has_flushWindow toTmuxWindow override out win _ (Or.inl (hdone w hold hlayout))
  · obtain rfl := List.mem_singleton.mp hnew
    exact has_flushWindow toTmuxWindow override out w _ (Or.inr ⟨rfl, hlayout⟩)

/-- What holds of the reporter after every event. -/
structure Sound (s : SizeReporter) : Prop where
  agrees : ∀ k, (s.ledger.get? k).map (·.size) = openReport k s.log
  changes : Changes s.log
  keys : ∀ k, s.ledger.has k = true → k ∈ live toTmuxWindow s.model
  quiet : s.participating = false → ∀ k size, .sent k size ∉ s.log
  covered : s.participating = true → ∀ win ∈ s.model.windows.values, win.layout ≠ none →
    s.ledger.has (toTmuxWindow win.windowId) = true

variable {toTmuxWindow}

theorem get?_filter_live (ledger : Ledger) (nums : List Int) (k : Int) :
    (ledger.filter fun entry => entry.winNum ∈ nums).get? k =
      if k ∈ nums then ledger.get? k else none := by
  rw [KeyedMap.get?_filter_key ledger (fun winNum => decide (winNum ∈ nums))]
  simp

/-- A flush whose ledger is right on the live windows makes it right. -/
theorem flush_spec {s : SizeReporter} (hparticipating : s.participating = true)
    (h : Flushing (live toTmuxWindow s.model) s.log { ledger := s.ledger })
    (override : Option (Int × WindowSize)) :
    Sound toTmuxWindow (s.flush toTmuxWindow override) := by
  obtain ⟨hloop, hcovered⟩ := flush_loop toTmuxWindow s.model override s.log _ h
  constructor
  · intro k
    show (KeyedMap.get? (KeyedMap.filter _ _) k).map _ = _
    rw [get?_filter_live]
    split
    · next hk => exact hloop.agrees k hk
    · next hk => exact (hloop.gone k hk).symm
  · exact hloop.changes
  · intro k hk
    obtain ⟨entry, hentry, rfl⟩ := KeyedMap.has_iff_mem.mp hk
    exact of_decide_eq_true (List.mem_filter.mp hentry).2
  · intro hno
    exact absurd (hparticipating.symm.trans hno) (by simp)
  · intro _ win hwin hlayout
    have hlive : toTmuxWindow win.windowId ∈ live toTmuxWindow s.model := List.mem_map_of_mem hwin
    obtain ⟨entry, hentry⟩ := KeyedMap.has_iff.mp (hcovered win hwin hlayout)
    refine KeyedMap.has_iff.mpr ⟨entry, ?_⟩
    show KeyedMap.get? (KeyedMap.filter _ _) _ = _
    rw [get?_filter_live, if_pos hlive]
    exact hentry

namespace Sound
variable {s : SizeReporter}

/-- Before anything was sent no report is open. -/
theorem openReport_quiet {log : List LogEntry} (h : ∀ k size, .sent k size ∉ log) (k : Int) :
    openReport k log = none := by
  induction log using List.reverseRecOn with
  | nil => rfl
  | append_singleton log entry ih =>
    rw [openReport_append, ih fun k size hmem => h k size (List.mem_append_left _ hmem)]
    cases entry with
    | sent winNum size => exact absurd (List.mem_append_right _ List.mem_cons_self) (h winNum size)
    | left winNum => simp [reportAfter]

/-- The state that a report finds is ready for a flush. -/
theorem ready (h : Sound toTmuxWindow s) :
    Flushing (live toTmuxWindow s.model) s.log { ledger := s.ledger } where
  agrees k _ := by simpa [Batch.entries] using h.agrees k
  gone k hk := by
    have hmissing : s.ledger.get? k = none :=
      KeyedMap.has_eq_false.mp (by simpa using fun hhas => hk (h.keys k hhas))
    simpa [Batch.entries, hmissing] using (h.agrees k).symm
  changes := by simpa [Batch.entries] using h.changes

theorem reportForPane (h : Sound toTmuxWindow s) (paneId : PaneId) (cols rows : Nat) :
    Sound toTmuxWindow (s.reportForPane toTmuxWindow paneId cols rows) := by
  unfold SizeReporter.reportForPane
  split
  · exact h
  · split
    · exact flush_spec (s := { s with participating := true }) rfl h.ready _
    · exact h

theorem modelChange (h : Sound toTmuxWindow s) (model : SessionModel) :
    Sound toTmuxWindow (s.step toTmuxWindow (.modelChange model)) := by
  -- a window that is not in the new model has left, or had no report before
  have hgone : ∀ k, k ∉ live toTmuxWindow model →
      openReport k (s.log ++ leaving toTmuxWindow s.model model) = none := by
    intro k hk
    rw [leaving, openReport_leave]
    split
    · rfl
    · next hstays =>
      have hold : k ∉ live toTmuxWindow s.model := fun hold => hstays (by simp [hold, hk])
      have hmissing : s.ledger.get? k = none :=
        KeyedMap.has_eq_false.mp (by simpa using fun hhas => hold (h.keys k hhas))
      rw [← h.agrees k, hmissing]
      rfl
  have hkept : ∀ k ∈ live toTmuxWindow model,
      openReport k (s.log ++ leaving toTmuxWindow s.model model) = openReport k s.log := by
    intro k hk
    rw [leaving, openReport_leave, if_neg (by simp [hk])]
  have hchanges : Changes (s.log ++ leaving toTmuxWindow s.model model) :=
    h.changes.append_left _
  show Sound toTmuxWindow (SizeReporter.onModelChange toTmuxWindow
    { s with model, log := s.log ++ leaving toTmuxWindow s.model model })
  unfold SizeReporter.onModelChange
  split
  · next hparticipating =>
    refine flush_spec hparticipating ⟨fun k hk => ?_, fun k hk => ?_, ?_⟩ none
    · simpa [Batch.entries, hkept k hk] using h.agrees k
    · simpa [Batch.entries] using hgone k hk
    · simpa [Batch.entries] using hchanges
  · next hnot =>
    have hidle : s.participating = false := by simpa using hnot
    have hquiet := h.quiet hidle
    have hempty : ∀ k, s.ledger.get? k = none := by
      intro k
      have hagrees := h.agrees k
      rw [openReport_quiet hquiet] at hagrees
      exact Option.map_eq_none_iff.mp hagrees
    have hstill : ∀ k size, .sent k size ∉ s.log ++ leaving toTmuxWindow s.model model := by
      intro k size hmem
      rcases List.mem_append.mp hmem with hold | hnew
      · exact hquiet k size hold
      · obtain ⟨num, -, hno⟩ := List.mem_map.mp hnew
        cases hno
    constructor
    · intro k
      rw [openReport_quiet hstill, hempty]
      rfl
    · exact hchanges
    · intro k hk
      obtain ⟨entry, hentry⟩ := KeyedMap.has_iff.mp hk
      exact absurd ((hempty k).symm.trans hentry) (by simp)
    · exact fun _ => hstill
    · exact fun hyes => absurd hyes hnot

theorem step (h : Sound toTmuxWindow s) (e : Event) :
    Sound toTmuxWindow (s.step toTmuxWindow e) := by
  cases e with
  | reportForPane paneId cols rows => exact h.reportForPane paneId cols rows
  | modelChange model => exact h.modelChange model

end Sound

/-! ## Runs -/

section Runs
variable (toTmuxWindow : WindowId → Int)

theorem run_concat (model : SessionModel) (events : List Event) (e : Event) :
    run toTmuxWindow model (events ++ [e]) = (run toTmuxWindow model events).step toTmuxWindow e :=
  List.foldl_concat ..

theorem sound_run (model : SessionModel) (events : List Event) :
    Sound toTmuxWindow (run toTmuxWindow model events) := by
  induction events using List.reverseRecOn with
  | nil =>
    exact ⟨fun _ => rfl, fun before k size after hno => by simp [run] at hno,
      fun k hno => absurd hno (by simp [run, KeyedMap.has]), fun _ k size => by simp [run],
      fun hno => absurd hno (by simp [run])⟩
  | append_singleton events e ih =>
    rw [run_concat]
    exact ih.step e

theorem step_model (s : SizeReporter) (e : Event) :
    (s.step toTmuxWindow e).model = modelAfter s.model e := by
  cases e with
  | reportForPane paneId cols rows =>
    show (s.reportForPane toTmuxWindow paneId cols rows).model = s.model
    unfold SizeReporter.reportForPane
    split
    · rfl
    · split <;> rfl
  | modelChange model =>
    show (SizeReporter.onModelChange toTmuxWindow _).model = model
    unfold SizeReporter.onModelChange
    split <;> rfl

theorem step_participating (s : SizeReporter) (e : Event) :
    (s.step toTmuxWindow e).participating = true ↔
      s.participating = true ∨ Effective s.model e := by
  cases e with
  | reportForPane paneId cols rows =>
    show (s.reportForPane toTmuxWindow paneId cols rows).participating = true ↔ _
    unfold SizeReporter.reportForPane
    rw [Effective]
    split
    · next hnone => simp [hnone]
    · next pane hpane =>
      split
      · next hwindow => exact iff_of_true rfl (Or.inr ⟨pane, hpane, hwindow⟩)
      · next hwindow => simp [hpane, hwindow]
  | modelChange model =>
    show (SizeReporter.onModelChange toTmuxWindow _).participating = true ↔ _
    unfold SizeReporter.onModelChange
    split <;> simp_all [SizeReporter.flush, Effective]

theorem run_model (model : SessionModel) (events : List Event) :
    (run toTmuxWindow model events).model = events.foldl modelAfter model := by
  induction events using List.reverseRecOn with
  | nil => rfl
  | append_singleton events e ih => rw [run_concat, step_model, ih, List.foldl_append]; rfl

theorem begun_concat (model : SessionModel) (events : List Event) (e : Event) :
    Begun model (events ++ [e]) ↔
      Begun model events ∨ Effective (events.foldl modelAfter model) e := by
  constructor
  · rintro ⟨before, x, after, hsplit, heffective⟩
    rcases List.eq_nil_or_concat after with rfl | ⟨after, last, rfl⟩
    · obtain ⟨rfl, hlast⟩ := List.append_inj' hsplit rfl
      exact Or.inr (List.singleton_inj.mp hlast ▸ heffective)
    · have hcut : events ++ [e] = before ++ x :: after ++ [last] := by simpa using hsplit
      exact Or.inl ⟨before, x, after, (List.append_inj' hcut rfl).1, heffective⟩
  · rintro (⟨before, x, after, rfl, heffective⟩ | heffective)
    · exact ⟨before, x, after ++ [e], by simp, heffective⟩
    · exact ⟨events, e, [], rfl, heffective⟩

theorem participating_iff (model : SessionModel) (events : List Event) :
    (run toTmuxWindow model events).participating = true ↔ Begun model events := by
  induction events using List.reverseRecOn with
  | nil => simp [run, Begun]
  | append_singleton events e ih =>
    rw [run_concat, step_participating, ih, run_model, begun_concat]

/-- The command of an entry of the history. -/
def commandOf : LogEntry → Option String
  | .sent k size => some (Parser.refreshClientWindowSize k size.cols size.rows)
  | .left _ => none

/-- The batches are those of the history. -/
def Texts (s : SizeReporter) : Prop := s.batches.flatten = s.log.filterMap commandOf

theorem Texts.flush {s : SizeReporter} (h : Texts s) (override : Option (Int × WindowSize)) :
    Texts (s.flush toTmuxWindow override) := by
  have hentries : ∀ out : Batch, out.entries.filterMap commandOf = out.texts := by
    intro out
    rw [Batch.entries, Batch.texts, List.filterMap_map]
    exact List.filterMap_eq_map_iff_forall_eq_some.mpr fun cmd _ => rfl
  unfold Texts SizeReporter.flush
  rw [Texts] at h
  simp only [List.filterMap_append, hentries, ← h]
  split
  · simp
  · next hnone =>
    have hcmds := List.eq_nil_of_length_eq_zero (Nat.eq_zero_of_not_pos hnone)
    simp [Batch.texts, hcmds]

theorem texts_run (model : SessionModel) (events : List Event) :
    Texts (run toTmuxWindow model events) := by
  induction events using List.reverseRecOn with
  | nil => rfl
  | append_singleton events e ih =>
    rw [run_concat]
    cases e with
    | reportForPane paneId cols rows =>
      show Texts (SizeReporter.reportForPane toTmuxWindow _ paneId cols rows)
      unfold SizeReporter.reportForPane
      split
      · exact ih
      · split
        · exact Texts.flush toTmuxWindow ih _
        · exact ih
    | modelChange model =>
      show Texts (SizeReporter.onModelChange toTmuxWindow _)
      unfold SizeReporter.onModelChange
      have hleft : ∀ nums : List Int, (nums.map LogEntry.left).filterMap commandOf = [] :=
        fun nums => by simp [List.filterMap_map, Function.comp_def, commandOf]
      split
      · refine Texts.flush toTmuxWindow ?_ none
        rw [Texts, List.filterMap_append, leaving, hleft, List.append_nil]
        exact ih
      · rw [Texts, List.filterMap_append, leaving, hleft, List.append_nil]
        exact ih

end Runs

end Code

/-- After any run: before the first report for a pane of the model nothing was sent, and from
then on every window whose layout is known is in the ledger. The ledger has windows of the model
only, each with the size that was sent for it last; and no report repeats the last one of a
window that has stayed in the model. What was sent are the commands of the log. -/
theorem size_ledger (toTmuxWindow : WindowId → Int) (model : SessionModel) (events : List Event) :
    (¬Begun model events → ∀ k size, .sent k size ∉ (run toTmuxWindow model events).log) ∧
    (Begun model events → ∀ win ∈ (events.foldl modelAfter model).windows.values,
      win.layout ≠ none →
        (run toTmuxWindow model events).ledger.has (toTmuxWindow win.windowId) = true) ∧
    (∀ entry ∈ (run toTmuxWindow model events).ledger.values,
      ∃ win ∈ (events.foldl modelAfter model).windows.values,
        toTmuxWindow win.windowId = entry.winNum) ∧
    (∀ entry ∈ (run toTmuxWindow model events).ledger.values,
      lastSent entry.winNum (run toTmuxWindow model events).log = some entry.size) ∧
    Changes (run toTmuxWindow model events).log ∧
    Texts (run toTmuxWindow model events) := by
  have hsound := sound_run toTmuxWindow model events
  rw [← run_model toTmuxWindow, ← participating_iff toTmuxWindow]
  refine ⟨fun hidle => hsound.quiet (by simpa using hidle), hsound.covered, fun entry hentry => ?_,
    fun entry hentry => ?_, hsound.changes, texts_run toTmuxWindow model events⟩
  · exact List.mem_map.mp (hsound.keys _ (KeyedMap.has_of_mem hentry))
  · refine lastSent_of_open ?_
    rw [← hsound.agrees, KeyedMap.get?_self hentry]
    rfl

/-- One window of one pane. -/
def shell : Window where
  windowId := ⟨"w1"⟩
  sessionId := ⟨"s1"⟩
  name := "zsh"
  paneIds := [⟨"p1"⟩]
  activePaneId := some ⟨"p1"⟩
  layout := some ⟨80, 24, .pane ⟨"p1"⟩ ⟨0, 0, 80, 24⟩⟩
  synchronizePanes := false
  monitorActivity := true
  monitorSilence := 0

def oneWindow : SessionModel := { emptyModel with windows := .ofList [shell] }

/-- A first call for a pane that is gone does not report the window of the model. -/
theorem vanished_pane_not_covered :
    ¬∀ (toTmuxWindow : WindowId → Int) (model : SessionModel) (events : List Event),
      (∃ paneId cols rows, .reportForPane paneId cols rows ∈ events) →
        ∀ win ∈ (events.foldl modelAfter model).windows.values, win.layout ≠ none →
          (run toTmuxWindow model events).ledger.has (toTmuxWindow win.windowId) = true := by
  intro hall
  have hhas := hall (fun _ => 1) oneWindow [.reportForPane ⟨"p9"⟩ 100 30]
    ⟨_, _, _, List.mem_cons_self⟩ shell (by decide) (by decide)
  exact absurd hhas (by decide)

end TmuxccDriver.Runtime.SizeReport
