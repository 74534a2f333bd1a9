import TmuxccDriver.Parser.Notifications

/-!
# Notifications on the control channel

`onNotification` of the pipeline, behind the tokenizer and the correlator: what the driver hears of
what tmux writes, with commands, replies and cancellations anywhere between, and chunks cut
anywhere.

Results:
1. `notified_push`: the correlator hands on every notification and nothing else.
2. `notifications_heard_of_run`: the events of a run are those that tmux wrote.
-/

namespace TmuxccDriver.Parser.Notifications
open TmuxccDriver.Lib

/-! ## What the driver hears -/

/-- The notifications among tokens. -/
def notesIn (tokens : List ControlToken) : List NotificationToken :=
  tokens.filterMap fun
    | .notification keyword rawLine => some ⟨keyword, rawLine⟩
    | _ => none

/-- What `onNotification` is called with. -/
def notified (effects : List Effect) : List NotificationToken :=
  effects.filterMap fun
    | .notify keyword rawLine => some ⟨keyword, rawLine⟩
    | _ => none

/-- What the handler hears in one action. -/
def heard (w : Channel) : ChannelAction → List NotificationToken
  | .token =>
    match w.queue with
    | [] => []
    | t :: _ => notified (w.corr.push t).2
  | _ => []

/-- What the handler hears in a run. -/
def heardAlong (w : Channel) : List ChannelAction → List NotificationToken
  | [] => []
  | a :: as =>
    heard w a ++
      match w.step a with
      | none => []
      | some w' => heardAlong w' as

/-- The notification that tmux writes in an action. -/
def noteOf : ChannelAction → Option NotificationLine
  | .notify note => some note
  | _ => none

/-- What the tokenizer makes of its line. -/
def tokensOf (note : NotificationLine) : List NotificationToken :=
  notesIn (lineTokenizer.step .outside note.line).2

/-- Only a notification reaches the handler, whatever the correlator waits for. -/
theorem notified_push (corr : CommandCorrelator) (t : ControlToken) :
    notified (corr.push t).2 = notesIn [t] := by
  have hreject (corr : CommandCorrelator) (err : Error) :
      notified (corr.rejectOldest err).2 = [] := by
    unfold CommandCorrelator.rejectOldest
    split <;> rfl
  have hclose (number : Nat) (ok : Bool) : notified (corr.closeBlock number ok).2 = [] := by
    unfold CommandCorrelator.closeBlock
    split
    · rfl
    · split
      · exact hreject _ _
      · split
        · rfl
        · split
          · rfl
          · dsimp only
            split
            · rfl
            · split
              · split <;> rfl
              · rfl
  cases t with
  | blockBegin guard =>
    show notified (corr.handleBegin guard).2 = []
    unfold CommandCorrelator.handleBegin
    rcases corr.inFlight with _ | opened
    · dsimp only
      split <;> rfl
    · dsimp only
      split
      · exact hreject _ _
      · exact hreject _ _
  | blockEnd guard => exact hclose _ _
  | blockError guard => exact hclose _ _
  | _ => rfl

theorem notesIn_append (ts us : List ControlToken) :
    notesIn (ts ++ us) = notesIn ts ++ notesIn us :=
  List.filterMap_append ..

/-- A block holds no notification. -/
theorem notesIn_block (block : Block) : notesIn block.tokens = [] := by
  have hbody (rows : List Bytes) : notesIn (rows.map .blockBody) = [] := by
    rw [notesIn, List.filterMap_map]
    exact List.filterMap_eq_nil_iff.mpr fun _ _ => rfl
  have hend : notesIn [block.terminator.token block.guard] = [] := by
    cases block.terminator <;> rfl
  show notesIn ([.blockBegin block.guard] ++ block.rows.map .blockBody ++
    [block.terminator.token block.guard]) = []
  rw [notesIn_append, notesIn_append, hbody, hend]
  rfl

section Runs

variable {w w' : Channel}

theorem ahead_after (w : Channel) (result : CommandCorrelator × List Effect) :
    (w.after result).ahead = w.ahead := by
  have hperform : ∀ (effects : List Effect) (w : Channel),
      (effects.foldl Channel.perform w).queue = w.queue ∧
        (effects.foldl Channel.perform w).tok = w.tok ∧
        (effects.foldl Channel.perform w).wire = w.wire := by
    intro effects
    induction effects with
    | nil => exact fun _ => ⟨rfl, rfl, rfl⟩
    | cons effect effects ih =>
      intro w
      obtain ⟨hqueue, htok, hwire⟩ := ih (w.perform effect)
      cases effect <;> exact ⟨hqueue, htok, hwire⟩
  obtain ⟨hqueue, htok, hwire⟩ := hperform result.2 w
  unfold Channel.ahead Channel.after
  rw [hqueue, htok, hwire]

/-- More whole lines on the wire. -/
theorem ahead_emit {read : Nat} (h : Slots w read) {bytes : Bytes}
    {tokens : List ControlToken} (hhead : bytes.head? = some PERCENT)
    (hrun : byteTokenizer.run (.atLine .outside) bytes = (.atLine .outside, tokens)) :
    { w with wire := w.wire ++ bytes }.ahead = w.ahead ++ tokens := by
  obtain ⟨rest, rfl⟩ : ∃ rest, bytes = PERCENT :: rest := by
    cases bytes with
    | nil => cases hhead
    | cons b rest => exact ⟨rest, by rw [Option.some.inj hhead]⟩
  have hready : byteTokenizer.run (byteTokenizer.final w.tok.abs w.wire) (PERCENT :: rest) =
      (.atLine .outside, tokens) := by
    rcases h.ready with hr | hr
    · rw [hr]
      exact hrun
    · rw [hr, ← hrun]
      exact Transducer.run_cons_congr byteTokenizer rfl rest
  simp only [Channel.ahead, Transducer.output_append, List.append_assoc]
  rw [Transducer.output, Transducer.output, hready]

/-- What is heard now or is still to come is what was to come before, and what tmux writes now. -/
theorem heard_step (h : Inv w) {a : ChannelAction} (ha : a.Admissible)
    (hstep : w.step a = some w') :
    heard w a ++ notesIn w'.ahead = notesIn w.ahead ++ (noteOf a).toList.flatMap tokensOf := by
  obtain ⟨⟨read, hslots⟩, -⟩ := h
  cases a with
  | send command =>
    cases hstep
    rw [ahead_after]
    simp [heard, noteOf]
  | sendBatch commands =>
    cases hstep
    rw [ahead_after]
    simp [heard, noteOf]
  | cancelOldest count err =>
    cases hstep
    show [] ++ notesIn (w.after (w.corr.cancelOldest count err)).ahead = _
    rw [ahead_after]
    simp [noteOf]
  | reply block =>
    simp only [Channel.step] at hstep
    split at hstep <;> cases hstep
    show [] ++ notesIn { w with wire := w.wire ++ block.bytes }.ahead = _
    rw [ahead_emit hslots rfl (block.run_bytes ha), notesIn_append, notesIn_block]
    simp [noteOf]
  | startup block =>
    simp only [Channel.step] at hstep
    split at hstep <;> cases hstep
    rw [ahead_emit hslots rfl (block.run_bytes ha), notesIn_append, notesIn_block]
    simp [heard, noteOf]
  | notify note =>
    cases hstep
    have hrun := run_line .outside note.line note.reads
    rw [note.not_begin] at hrun
    have hhead : (note.line ++ [LF]).head? = some PERCENT := by
      rw [List.head?_append, note.head_eq]
      rfl
    rw [ahead_emit hslots hhead hrun, notesIn_append]
    simp [heard, noteOf, tokensOf]
  | chunk n =>
    have hcut : w.wire.take n ++ w.wire.drop n = w.wire := List.take_append_drop n w.wire
    have hnext : w' = { w with
        tok := (w.tok.push (w.wire.take n)).1
        queue := w.queue ++ (w.tok.push (w.wire.take n)).2
        wire := w.wire.drop n } := (Option.some.inj hstep).symm
    have hsame : w'.ahead = w.ahead := by
      rw [hnext]
      simp only [Channel.ahead]
      rw [push_realises.out_push, push_realises.abs_push, List.append_assoc,
        ← Transducer.output_append, hcut]
    rw [hsame]
    simp [heard, noteOf]
  | token =>
    simp only [Channel.step] at hstep
    split at hstep
    · cases hstep
    · next t ts hqueue =>
      cases hstep
      have hahead : w.ahead = [t] ++ { w with queue := ts }.ahead := by
        simp [Channel.ahead, hqueue]
      rw [ahead_after, hahead, notesIn_append, ← notified_push w.corr t]
      simp [heard, hqueue, noteOf]

/-- A run: what was heard, and what is still to come. -/
theorem heardAlong_run {as : List ChannelAction} (h : Inv w) (has : ∀ a ∈ as, a.Admissible)
    (hrun : exec Channel.step w as = some w') :
    heardAlong w as ++ notesIn w'.ahead =
      notesIn w.ahead ++ (as.filterMap noteOf).flatMap tokensOf := by
  induction as generalizing w with
  | nil =>
    cases hrun
    simp [heardAlong]
  | cons a as ih =>
    obtain ⟨ha, has⟩ := List.forall_mem_cons.mp has
    obtain ⟨w₁, hstep, hrest⟩ := Option.bind_eq_some_iff.mp hrun
    have hlater := ih (Channel.step_inv w a w₁ h ha hstep) has hrest
    have hnow := heard_step h ha hstep
    simp only [heardAlong, hstep]
    rw [List.append_assoc, hlater, ← List.append_assoc, hnow, List.append_assoc,
      ← List.flatMap_append]
    cases hnote : noteOf a <;> simp [hnote]

end Runs

/-- The lines that tmux wrote become one token each. -/
theorem tokensOf_written {notes : List Notification} {lines : List NotificationLine}
    (hnotes : ∀ n ∈ notes, n.WellFormed)
    (hwritten : lines.map (·.line) = notes.map Notification.line) :
    lines.flatMap tokensOf = notes.map Notification.token := by
  induction notes generalizing lines with
  | nil => rw [List.map_eq_nil_iff.mp hwritten]; rfl
  | cons n notes ih =>
    obtain ⟨hn, hrest⟩ := List.forall_mem_cons.mp hnotes
    rcases lines with _ | ⟨line, lines⟩
    · cases hwritten
    · obtain ⟨hline, hlines⟩ := List.cons.inj hwritten
      have hline : line.line = n.line := hline
      rw [List.flatMap_cons, ih hrest hlines, tokensOf, hline, Notification.step_line hn]
      rfl

/-- In every run of the channel, the handler of notifications hears those that tmux wrote, as what
they say and in order, and all of them once the stream is read: not a line of a reply, and nothing
twice. -/
theorem notifications_heard_of_run (decode : Bytes → String) (dcs : Bool)
    (actions : List ChannelAction) (notes : List Notification) (w : Channel)
    (hactions : ∀ a ∈ actions, a.Admissible) (hnotes : ∀ n ∈ notes, n.WellFormed)
    (hwritten : (actions.filterMap noteOf).map (·.line) = notes.map Notification.line)
    (hrun : exec Channel.step (Channel.start dcs) actions = some w) :
    let events := (heardAlong (Channel.start dcs) actions).map (parseNotification decode)
    events <+: notes.map (Notification.event decode) ∧
      (w.wire = [] → w.queue = [] → events = notes.map (Notification.event decode)) := by
  have hstart : notesIn (Channel.start dcs).ahead = [] := by cases dcs <;> rfl
  have hrun := heardAlong_run (Channel.inv_start dcs) hactions hrun
  have htokens : (actions.filterMap noteOf).flatMap tokensOf = notes.map Notification.token :=
    tokensOf_written hnotes hwritten
  rw [hstart, List.nil_append, htokens] at hrun
  have hparsed : notes.map (Notification.event decode) =
      (notes.map Notification.token).map (parseNotification decode) := by
    rw [List.map_map]
    exact List.map_congr_left fun n hn => (n.parseNotification_token decode (hnotes n hn)).symm
  intro events
  rw [hparsed, ← hrun, List.map_append]
  refine ⟨List.prefix_append _ _, fun hwire hqueue => ?_⟩
  have hnothing : w.ahead = [] := by
    rw [Channel.ahead, hwire, hqueue]
    rfl
  rw [hnothing]
  simp [notesIn, events]

/-- A window is renamed. -/
def renamed : Notification := .windowRenamed 1 (ascii "a b") false

theorem renamed_wellFormed : renamed.WellFormed := (by decide : clean (ascii "a b") = true)

/-- tmux's answer to `list-windows`, with a row that looks like a notification. -/
def listed : Block := ⟨⟨1, 2, 1⟩, [ascii "%window-close @1"], .ok, by decide⟩

/-- The window is renamed before tmux answers, and everything is read. -/
def renamedRun : List ChannelAction :=
  [.send (ascii "list-windows"), .notify (renamed.asLine renamed_wellFormed), .reply listed,
    .chunk 100, .token, .token, .token, .token]

/-- The channel after the chunk. -/
def renamedRead : Channel :=
  let read := ControlTokenizer.init.push ((renamed.line ++ LF :: listed.bytes).take 100)
  ⟨⟨[⟨0, none, false⟩], none, 1⟩, read.1, read.2, ascii "list-windows" ++ [LF], [], [listed], [],
    []⟩

theorem notifications_heard_of_renamed :
    ∃ w, exec Channel.step (Channel.start false) renamedRun = some w ∧
      (heardAlong (Channel.start false) renamedRun).map (parseNotification fromCharCodes) =
        [.windowRenamed 1 "a b" false] := by
  have htokens : renamedRead.queue = [.notification "window-renamed" renamed.line,
      .blockBegin ⟨1, 2, 1⟩, .blockBody (ascii "%window-close @1"), .blockEnd ⟨1, 2, 1⟩] := by
    show (ControlTokenizer.init.push _).2 = _
    rw [push_realises.out_push]
    decide
  have hread : { renamedRead with queue := renamedRead.queue } = renamedRead := rfl
  rw [htokens] at hread
  have hrun : exec Channel.step (Channel.start false) renamedRun =
      exec Channel.step renamedRead [.token, .token, .token, .token] := rfl
  rw [← hread] at hrun
  have hadmissible : ∀ a ∈ renamedRun, a.Admissible := by decide
  have hnotes : ∀ n ∈ [renamed], n.WellFormed :=
    List.forall_mem_singleton.mpr renamed_wellFormed
  have hheard := fun w hrun => notifications_heard_of_run fromCharCodes false renamedRun [renamed] w
    hadmissible hnotes rfl hrun
  rw [hrun] at hheard ⊢
  exact ⟨_, rfl, (hheard _ rfl).2 rfl rfl⟩

end TmuxccDriver.Parser.Notifications
