import TmuxccDriver.System.OutputPath

/-!
# What a handler gets of a pane's output

The runs of `OutputPath`, read from their ends: what tmux has written for a pane, and what one
handler of one client was called with.

Results:
1. `kept_step`: the steps of the demux at which a transport misses nothing of a pane.
2. `Inv.relays`: a handler is called with frames of its pane that were sent, in that order, each at
   most once; and those of the demux are what the sniffer lets through of what tmux has written.
3. `output_reaches_handler`: when nothing is on its way any more, the handler has got all of it.
-/

namespace TmuxccDriver.System.OutputPath
open TmuxccDriver.Lib TmuxccDriver.Protocol TmuxccDriver.Transport
open TmuxccDriver.Parser (OscTitleSniffer)
open TmuxccDriver.Parser.Notifications
open TmuxccDriver.Runtime (OutputDemux MAX_PENDING_BYTES_PER_PANE framesTo framesTo_append)
open TmuxccDriver.Runtime.Demux (chunksOf chunksOf_append chunksOf_singleton WellStaged)
open TmuxccDriver.Client.PaneStream (bytesOf)

/-! ## Nothing dropped at the demux -/

section Demux

variable {T : Type} [DecidableEq T]

/-- The steps at which a transport misses nothing of a pane: no output while the pane is paused or
the transport is away, and nothing thrown away that waits for it. -/
def Keeps (transport : T) (paneId : PaneId) (d : OutputDemux T) :
    Runtime.Demux.Event T → Prop
  | .append q bytes => q = paneId → bytes ≠ [] →
    if paneId ∈ d.knownPanes then paneId ∉ d.pausedPanes ∧ transport ∈ d.transports.values
    else d.pendingFanoutBytes paneId + bytes.length ≤ MAX_PENDING_BYTES_PER_PANE
  | .notifyPaneClosed q => q = paneId → d.waiting transport paneId = []
  | .detachTransport t => t = transport → d.queued transport paneId = []
  | .runMicrotask => paneId ∈ (d.microtasks.head?).map Prod.fst →
    paneId ∈ d.knownPanes ∧ paneId ∉ d.pausedPanes ∧ transport ∈ d.transports.values
  | _ => True

/-- The bytes of chunks, one after the other. -/
def content (chunks : List Runtime.Chunk) : Bytes := chunks.flatMap (·.bytes)

@[simp] theorem content_append (xs ys : List Runtime.Chunk) :
    content (xs ++ ys) = content xs ++ content ys :=
  List.flatMap_append

variable {t : T} {p : PaneId} {d d' : OutputDemux T} {frames : List (Runtime.DataFrame T)}

theorem kept_append (h : WellStaged d) {q : PaneId} {chunk : Runtime.Chunk}
    (hline : chunk.bytes ≠ [] → q ∈ d.knownPanes → q ∉ d.pausedPanes →
      d.transports.values ≠ [] → d.flushing q = [])
    (hkeeps : Keeps t p d (.append q chunk.bytes)) :
    content (framesTo t p (d.append q chunk).2 ++ (d.append q chunk).1.waiting t p) =
      content (d.waiting t p ++ chunksOf p [(q, chunk)]) := by
  rw [chunksOf_singleton]
  rcases d.append_cases q chunk with ⟨hpair, hdropped⟩ | ⟨hpair, hbytes, hknown, hpaused, hsome⟩ |
    ⟨hpair, -⟩
  · rw [hpair, Runtime.framesTo_nil, List.nil_append, content_append]
    by_cases hq : q = p
    · have hempty : chunk.bytes = [] := by
        by_contra hbytes
        have hkept := hkeeps hq hbytes
        subst hq
        rcases hdropped with hnone | ⟨hknown, haway⟩ | ⟨hunknown, hfull⟩
        · exact hbytes hnone
        · rw [if_pos hknown] at hkept
          rcases haway with hpaused | hnone
          · exact hkept.1 hpaused
          · exact absurd (hnone ▸ hkept.2) List.not_mem_nil
        · rw [if_neg hunknown] at hkept
          exact absurd hfull (Nat.not_lt.mpr hkept)
      simp [hq, content, hempty]
    · simp [hq, content]
  · obtain ⟨hydrating, hfan⟩ := d.fanOut_frame q chunk
    have hmoves := d.fanOut_moves q p chunk t
    have hrest : (d.fanOut q chunk).1.waiting t p = (d.fanOut q chunk).1.queued t p ++
        (d.flushing p ++ d.pendingFanout p) := by rw [hfan]; rfl
    rw [hpair, hrest, ← List.append_assoc, hmoves]
    by_cases hq : q = p
    · subst hq
      have hkept := hkeeps rfl hbytes
      rw [if_pos hknown] at hkept
      -- The chunk is last in line: nothing is staged or to be flushed.
      rw [OutputDemux.waiting, hline hbytes hknown hpaused hsome, h.drained q hknown,
        if_pos ⟨hkept.2, rfl⟩, if_pos rfl]
      simp
    · rw [if_neg fun hto => hq hto.2, if_neg hq, List.append_nil, List.append_nil]
      rfl
  · rw [hpair]
    show content (d.queued t p ++ (d.flushing p ++ if p = q then
      d.pendingFanout p ++ [chunk] else d.pendingFanout p)) = _
    rw [OutputDemux.waiting]
    rcases eq_or_ne p q with rfl | hne
    · simp
    · simp [hne, hne.symm]

theorem kept_runMicrotask (hrun : d.runMicrotask = some (d', frames))
    (hkeeps : Keeps t p d .runMicrotask) :
    framesTo t p frames ++ d'.waiting t p = d.waiting t p := by
  obtain ⟨q, chunks, rest, htasks, hcases⟩ := d.runMicrotask_cases hrun
  have hown (hq : q = p) :
      p ∈ d.knownPanes ∧ p ∉ d.pausedPanes ∧ t ∈ d.transports.values :=
    hkeeps (by rw [htasks, hq]; rfl)
  rcases hcases with ⟨rfl, rfl, hdropped⟩ | ⟨hfan, -⟩
  · have hother : q ≠ p := by
      intro hq
      obtain ⟨hknown, hpaused, ht⟩ := hown hq
      subst hq
      rcases hdropped with hunknown | hpaused' | hnone
      · exact hunknown hknown
      · exact hpaused hpaused'
      · exact absurd (hnone ▸ ht) List.not_mem_nil
    show d.queued t p ++ (_ ++ d.pendingFanout p) = d.queued t p ++ (d.flushing p ++ _)
    rw [Runtime.Demux.flushing_cons htasks p, if_neg hother, List.nil_append]
  · have hmoves := OutputDemux.fanOutAll_moves { d with microtasks := rest } q p chunks t
    obtain ⟨hydrating, hframe⟩ := OutputDemux.fanOutAll_frame { d with microtasks := rest } q chunks
    rw [hfan] at hframe hmoves
    have hrest : d'.waiting t p = d'.queued t p ++
        (OutputDemux.flushing { d with microtasks := rest } p ++ d.pendingFanout p) := by
      rw [show d' = _ from hframe]
      rfl
    rw [hrest, ← List.append_assoc, hmoves, OutputDemux.waiting,
      Runtime.Demux.flushing_cons htasks p, List.append_assoc, List.append_assoc]
    by_cases hq : q = p
    · rw [if_pos ⟨(hown hq).2.2, hq⟩, if_pos hq]
      rfl
    · rw [if_neg fun hto => hq hto.2, if_neg hq]
      rfl

/-- A step at which nothing is missed. -/
theorem kept_perform (h : WellStaged d) {count : Nat} {event : Runtime.Demux.Event T}
    (hperform : Runtime.Demux.perform d count event = some (d', frames))
    (hline : ∀ q bytes, event = .append q bytes → bytes ≠ [] → q ∈ d.knownPanes →
      q ∉ d.pausedPanes → d.transports.values ≠ [] → d.flushing q = [])
    (hkeeps : Keeps t p d event) :
    content (framesTo t p frames ++ d'.waiting t p) =
      content (d.waiting t p ++ chunksOf p (Runtime.Demux.given count event)) := by
  cases event with
  | append q bytes =>
    have hpair : d.append q ⟨count, bytes⟩ = (d', frames) := Option.some.inj hperform
    have hbytes : Keeps t p d (.append q (⟨count, bytes⟩ : Runtime.Chunk).bytes) := hkeeps
    have hkept := kept_append h (hline q bytes rfl) hbytes
    rwa [hpair] at hkept
  | notifyPaneBound q =>
    cases hperform
    rw [Runtime.Demux.notifyPaneBound_moves]
    simp [Runtime.Demux.given]
  | notifyPaneClosed q =>
    cases hperform
    by_cases hq : q = p
    · have hnone := hkeeps hq
      have hclosed := Runtime.Demux.notifyPaneClosed_moves d q p t
      rw [hnone, List.sublist_nil] at hclosed
      simp [hnone, hclosed, Runtime.Demux.given]
    · have hsame : (d.notifyPaneClosed q).waiting t p = d.waiting t p := by
        show (if p = q then none else d.hydrating t p).getD [] ++
          (d.flushing p ++ if p = q then [] else d.pendingFanout p) = _
        rw [if_neg (Ne.symm hq), if_neg (Ne.symm hq)]
        rfl
      simp [hsame, Runtime.Demux.given]
  | detachTransport t' =>
    cases hperform
    have hqueued : (d.detachTransport t').queued t p = d.queued t p := by
      show (if t = t' then none else d.hydrating t p).getD [] = d.queued t p
      split
      · next ht => rw [hkeeps ht.symm]; rfl
      · rfl
    have hsame : (d.detachTransport t').waiting t p = d.waiting t p := by
      rw [OutputDemux.waiting, hqueued]
      rfl
    simp [hsame, Runtime.Demux.given]
  | beginPaneHydration t' q =>
    cases hperform
    rw [Runtime.Demux.beginPaneHydration_moves]
    simp [Runtime.Demux.given]
  | endPaneHydration t' q =>
    have hpair : d.endPaneHydration t' q = (d', frames) := Option.some.inj hperform
    have hmoves := Runtime.Demux.endPaneHydration_moves d t' t q p
    rw [hpair] at hmoves
    rw [hmoves]
    simp [Runtime.Demux.given]
  | runMicrotask =>
    rw [kept_runMicrotask hperform hkeeps]
    simp [Runtime.Demux.given]
  | attachTransport _ | unsubscribe _ | pausePane _ | resumePane _ =>
    cases hperform
    simp only [Runtime.framesTo_nil, Runtime.Demux.given,
      Runtime.Demux.chunksOf_nil, List.nil_append, List.append_nil]
    rfl

/-- What was sent to the transport for the pane, and what waits for it, is all that was appended
for the pane. -/
def Kept (transport : T) (paneId : PaneId) (r : Runtime.Demux.Run T) : Prop :=
  content (framesTo transport paneId r.sent ++ r.demux.waiting transport paneId) =
    content (chunksOf paneId r.appended)

theorem kept_step {r r' : Runtime.Demux.Run T} {event : Runtime.Demux.Event T}
    (hline : Runtime.Demux.InLine r) (hok : ¬Runtime.Demux.Overtakes r event)
    (hkeeps : Keeps t p r.demux event) (h : Kept t p r)
    (hstep : Runtime.Demux.step r event = some r') : Kept t p r' := by
  obtain ⟨⟨d', frames⟩, hperform, rfl⟩ := Option.map_eq_some_iff.mp hstep
  have hmoved := kept_perform hline.staged hperform (fun q bytes hevent hbytes hq hpaused hts => by
    subst hevent
    exact not_not.mp fun hne => hok ⟨hbytes, hq, hpaused, hts, hne⟩) hkeeps
  unfold Kept at h ⊢
  show content (framesTo t p (r.sent ++ frames) ++ d'.waiting t p) =
    content (chunksOf p (r.appended ++ _))
  rw [framesTo_append, chunksOf_append, List.append_assoc, content_append, hmoved, content_append,
    ← List.append_assoc, ← content_append, h, ← content_append]

end Demux

/-! ## Picks -/

/-- Entries picked at growing places. -/
theorem picks_sublist {α : Type} (xs : List α) {places : List Nat} (h : places.Pairwise (· < ·)) :
    (places.filterMap fun n => xs[n]?).Sublist xs := by
  suffices hbelow : ∀ k, (∀ n ∈ places, n < k) →
      (places.filterMap fun n => xs[n]?).Sublist (xs.take k) by
    rcases List.eq_nil_or_concat' places with rfl | ⟨before, n, rfl⟩
    · exact List.nil_sublist _
    · refine (hbelow (n + 1) fun m hm => ?_).trans (List.take_sublist _ _)
      rcases List.mem_append.mp hm with hm | hm
      · exact Nat.lt_succ_of_lt ((List.pairwise_append.mp h).2.2 m hm n
          (List.mem_singleton.mpr rfl))
      · rw [List.mem_singleton.mp hm]
        exact Nat.lt_succ_self n
  induction places using List.reverseRecOn with
  | nil => exact fun _ _ => List.nil_sublist _
  | append_singleton places n ih =>
    intro k hk
    obtain ⟨hplaces, -, hlast⟩ := List.pairwise_append.mp h
    have hbefore := ih hplaces n fun m hm => hlast m hm n (List.mem_singleton.mpr rfl)
    have hn : n + 1 ≤ k := hk n (List.mem_append_right _ (List.mem_singleton.mpr rfl))
    have hone : [n].filterMap (fun m => xs[m]?) = xs[n]?.toList := by
      cases hx : xs[n]? <;> simp [hx]
    rw [List.filterMap_append, hone]
    refine (List.Sublist.append_right hbefore _).trans ?_
    rw [← List.take_add_one]
    exact (List.take_prefix_take_left hn).sublist

/-! ## The ends of the way -/

section Ends

variable {T Msg η : Type}

namespace World

variable (w : World T Msg η)

/-- What tmux has written for a pane. -/
def writtenFor (utf8Slice : Bytes → String) (paneId : PaneId) : List Bytes :=
  ofPane paneId (printedIn utf8Slice (w.written.flatMap tokensOf))

/-- The frames that were sent for a pane, those of a hydration among them. -/
def framesFor (paneId : PaneId) : List Bytes :=
  ofPane paneId (w.sent.filterMap fun s => s.item.frame)

/-- The frames that the demux has sent for a pane. -/
def liveFrames (paneId : PaneId) : List Bytes :=
  (ofPane paneId (w.sent.filterMap Sent.live?)).map (·.bytes)

/-- What a handler was called with for a pane. -/
def calls [DecidableEq η] (paneId : PaneId) (handler : η) : List Bytes :=
  ((w.consumer.panes paneId).delivered.filter fun call => call.1 = handler).map (·.2.bytes)

end World

/-- What holds at any time. -/
structure Relays [DecidableEq T] [DecidableEq η] (S : Setup T Msg) (w : World T Msg η)
    (paneId : PaneId) (handler : η) : Prop where
  /-- The sniffer of the pane is given what tmux has written for it, in that order. -/
  fed : ofPane paneId (w.feeds.filterMap Feed.output?) <+: w.writtenFor S.utf8Slice paneId
  /-- What the sniffer lets through is sent in that order, each chunk at most once. -/
  live : (w.liveFrames paneId).Sublist (strip S.titleDecode paneId w.feeds).2
  /-- The handler is called with frames of the pane, in the order they were sent, each at most
  once; of a frame that had to wait for a handler perhaps with its end only. -/
  called : ∃ frames, frames.Sublist (w.framesFor paneId) ∧
    List.Forall₂ (· <:+ ·) (w.calls paneId handler) frames

end Ends

section Results

variable {T Msg η : Type} [DecidableEq T] [DecidableEq η] {S : Setup T Msg} {w : World T Msg η}

theorem printedIn_mono (utf8Slice : Bytes → String) {xs ys : List Parser.NotificationToken}
    (h : xs <+: ys) : printedIn utf8Slice xs <+: printedIn utf8Slice ys :=
  h.filterMap _

theorem Inv.fed (h : Inv S w) (p : PaneId) :
    ofPane p (w.feeds.filterMap Feed.output?) <+: w.writtenFor S.utf8Slice p := by
  rw [h.feeds]
  refine ofPane_mono p (printedIn_mono _ ?_)
  rw [← h.heard]
  exact (List.take_prefix _ _).trans (List.prefix_append _ _)

theorem Inv.chunks_live (h : Inv S w) (p : PaneId) :
    ofPane p (w.sent.filterMap Sent.live?) = framesTo S.transport p w.demux.sent := by
  rw [h.live, ofPane_liveOf]

theorem Inv.live_sublist (h : Inv S w) (p : PaneId) :
    (w.liveFrames p).Sublist (strip S.titleDecode p w.feeds).2 := by
  rw [World.liveFrames, h.chunks_live, h.stripped]
  exact ((List.sublist_append_left _ _).trans (h.demux.in_line S.transport p)).map _

omit [DecidableEq T] [DecidableEq η] in
theorem filterMap_data (items : List (Item Msg)) :
    (items.filter fun item => planeOf item = .data).filterMap Item.frame =
      items.filterMap Item.frame := by
  rw [List.filterMap_filter]
  refine List.filterMap_congr fun item _ => ?_
  cases item <;> rfl

/-- The pane streams were given the first of the frames that were sent. -/
theorem Inv.pushes_first (h : Inv S w) (hsendable : Sendable S.codec w.sent) :
    pushLog w.consumer <+: w.sent.filterMap fun s => s.item.frame := by
  obtain ⟨units, hitems, -, hdelivering, -⟩ := h.carries hsendable
  obtain ⟨done, todo, rfl, hdone, -⟩ := hdelivering.progress
  have hdispatched : w.socket.dispatched.map Prod.snd <+: w.sent.map Sent.item := by
    rw [hdone, ← hitems, List.map_append]
    exact List.prefix_append _ _
  have harrived : w.connection.data.arrived.filterMap Item.frame <+:
      (w.sent.map Sent.item).filterMap Item.frame := by
    rw [h.arrived, filterMap_data]
    exact (((List.take_prefix _ _).map _).trans hdispatched).filterMap _
  have hdelivered : (w.connection.deliveries .data).filterMap (fun a => a.message.frame) <+:
      w.connection.data.arrived.filterMap Item.frame := by
    have hprefix := (h.good.delivered .data).1.filterMap fun arrival => arrival.message.frame
    rwa [filterMap_numbered Item.frame] at hprefix
  rw [List.filterMap_map] at harrived
  rw [h.pushed]
  exact (((List.take_prefix _ _).filterMap _).trans hdelivered).trans harrived

/-- The bytes of a push. -/
def pushBytes (pushes : List (Client.PaneStream.Push PaneId η)) (number : Nat) : Bytes :=
  ((pushes[number]?).map (·.bytes)).getD []

omit [DecidableEq η] in
theorem ofPane_picks {pushes : List (Client.PaneStream.Push PaneId η)} {p : PaneId}
    {calls : List (η × Client.PaneStream.Chunk)}
    (h : ∀ call ∈ calls, ∃ push, pushes[call.2.number]? = some push ∧ push.pane = p) :
    ofPane p (((calls.map (·.2.number)).filterMap fun n => pushes[n]?).map
        fun push => (push.pane, push.bytes)) =
      calls.map fun call => pushBytes pushes call.2.number := by
  induction calls with
  | nil => rfl
  | cons call calls ih =>
    obtain ⟨⟨push, hpush, hpane⟩, hcalls⟩ := List.forall_mem_cons.mp h
    rw [List.map_cons, List.filterMap_cons_some hpush, List.map_cons, List.map_cons, ← ih hcalls]
    simp [ofPane, pushBytes, hpush, hpane]

theorem Inv.called (h : Inv S w) (hsendable : Sendable S.codec w.sent) (p : PaneId) (handler : η) :
    ∃ frames, frames.Sublist (w.framesFor p) ∧
      List.Forall₂ (· <:+ ·) (w.calls p handler) frames := by
  have hdelivers := h.sound.delivers
  have hplaces := hdelivers.ordered p handler
  have hgenuine : ∀ call ∈ (w.consumer.panes p).delivered.filter (fun call => call.1 = handler),
      ∃ push, w.consumer.pushes[call.2.number]? = some push ∧ push.pane = p ∧
        call.2.bytes <:+ push.bytes := fun call hcall =>
    hdelivers.genuine p call (List.mem_filter.mp hcall).1
  refine ⟨((w.consumer.panes p).delivered.filter fun call => call.1 = handler).map fun call =>
    pushBytes w.consumer.pushes call.2.number, ?_, ?_⟩
  · refine List.Sublist.trans ?_ (ofPane_sublist p (h.pushes_first hsendable).sublist)
    have hpicks := ofPane_sublist p ((picks_sublist w.consumer.pushes hplaces).map
      fun push => (push.pane, push.bytes))
    rwa [Client.PaneStream.PaneStreamConsumer.deliveries, ofPane_picks fun call hcall =>
      (hgenuine call hcall).imp fun _ hpush => ⟨hpush.1, hpush.2.1⟩] at hpicks
  · rw [World.calls, List.forall₂_map_left_iff, List.forall₂_map_right_iff, List.forall₂_same]
    intro call hcall
    obtain ⟨push, hpush, -, hsuffix⟩ := hgenuine call hcall
    simpa [pushBytes, hpush] using hsuffix

theorem Inv.relays (h : Inv S w) (hsendable : Sendable S.codec w.sent) (p : PaneId) (handler : η) :
    Relays S w p handler where
  fed := h.fed p
  live := h.live_sublist p
  called := h.called hsendable p handler

/-! ## Nothing on its way -/

/-- Nothing of a pane is on its way to the handlers of the client. -/
structure Quiet (S : Setup T Msg) (w : World T Msg η) (paneId : PaneId) : Prop where
  tmux : w.channel.wire = [] ∧ w.channel.queue = []
  dispatched : w.read = w.heard.length
  demux : w.demux.demux.waiting S.transport paneId = []
  wire : w.onWire = []
  socket : w.socket.closed = false ∧ w.socket.scheduled = 0
  handed : w.handed = w.socket.dispatched.length
  connection : w.connection.data.handler ≠ none ∧ w.connection.frames = []
  pushed : w.consumer.pushes.length = (w.connection.deliveries .data).length
  returned : w.consumer.frames = []

/-- A handler that was there for every frame of a pane, or found those that came before it in a
buffer that had room for them. -/
def Subscribed (S : Setup T Msg) (w : World T Msg η) (paneId : PaneId) (handler : η) : Prop :=
  ∀ number push, w.consumer.pushes[number]? = some push → push.pane = paneId →
    handler ∈ push.targets ∨ ∃ window ∈ (w.consumer.panes paneId).windows,
      window.handler = handler ∧ ⟨number, push.bytes⟩ ∈ window.pushed ∧
        (bytesOf window.pushed).length ≤ S.capBytes

/-- The steps at which the client misses output of a pane. -/
def Misses (S : Setup T Msg) (paneId : PaneId) (w : World T Msg η) (event : Event T Msg η) : Prop :=
  ∃ e ∈ w.demuxEvent S event, ¬Keeps S.transport paneId w.demux.demux e

/-- What the demux does in a step. -/
theorem demux_step {w' : World T Msg η} {event : Event T Msg η} (hstep : step S w event = some w') :
    (∃ e ∈ w.demuxEvent S event, Runtime.Demux.step w.demux e = some w'.demux) ∨
      w'.demux = w.demux := by
  have hdemux {fed : World T Msg η} {e : Runtime.Demux.Event T}
      (hmoved : fed.stepDemux S e = some w') (hsame : fed.demux = w.demux) :
      Runtime.Demux.step w.demux e = some w'.demux := by
    obtain ⟨demux, hdemux, rfl⟩ := Option.map_eq_some_iff.mp hmoved
    exact hsame ▸ hdemux
  have hconnection {e : Client.Connection.Event Unit (Item Msg)}
      (hmoved : w.stepConnection e = some w') : w'.demux = w.demux := by
    obtain ⟨_, -, rfl⟩ := Option.map_eq_some_iff.mp hmoved
    rfl
  have hpanes {e : Client.PaneStream.Event PaneId η} (hmoved : w.stepPanes S e = some w') :
      w'.demux = w.demux := by
    obtain ⟨_, -, rfl⟩ := Option.map_eq_some_iff.mp hmoved
    rfl
  cases event with
  | tmux action =>
    obtain ⟨_, -, rfl⟩ := Option.map_eq_some_iff.mp hstep
    exact .inr rfl
  | dispatch =>
    simp only [step] at hstep
    split at hstep
    · rcases houtput : w.nextOutput S with _ | output
      · rw [houtput] at hstep
        cases hstep
        exact .inr rfl
      · rw [houtput] at hstep
        -- the sniffer strips the payload first, and the demux is given the rest
        refine .inl ⟨.append output.1 (w.sniff S output).2.passthrough, ?_, hdemux hstep rfl⟩
        rw [World.demuxEvent, houtput]
        rfl
    · cases hstep
  | demux e =>
    cases e with
    | append => cases hstep
    | _ => exact .inl ⟨_, rfl, hdemux hstep rfl⟩
  | forget | replay | control =>
    cases hstep
    exact .inr rfl
  | read n =>
    cases hstep
    exact .inr rfl
  | immediate =>
    obtain ⟨_, -, rfl⟩ := Option.map_eq_some_iff.mp hstep
    exact .inr rfl
  | hand =>
    simp only [step] at hstep
    split at hstep
    · split at hstep
      · cases hstep
        exact .inr rfl
      · obtain ⟨_, -, rfl⟩ := Option.map_eq_some_iff.mp hstep
        exact .inr rfl
    · cases hstep
  | connection e =>
    cases e with
    | arrives => cases hstep
    | _ => exact .inr (hconnection hstep)
  | push =>
    simp only [step] at hstep
    split at hstep
    · cases hstep
    · exact .inr (hpanes hstep)
  | panes e =>
    cases e with
    | push => cases hstep
    | _ => exact .inr (hpanes hstep)

theorem kept_of_run {dcs : Bool} {events : List (Event T Msg η)} {p : PaneId}
    (hok : Along (step S) (Orderly S) (start T Msg η dcs) events)
    (hkeeps : Along (step S) (fun w event => ¬Misses S p w event) (start T Msg η dcs) events)
    (hrun : exec (step S) (start T Msg η dcs) events = some w) :
    Kept S.transport p w.demux := by
  refine (exec_invariant (P := fun w : World T Msg η => Inv S w ∧ Kept S.transport p w.demux)
    (C := fun w event => Orderly S w event ∧ ¬Misses S p w event)
    (fun w event w' h hmeets hstep => ⟨h.1.step hmeets.1 hstep, ?_⟩) ⟨inv_start dcs, rfl⟩
    (along_and hok hkeeps) hrun).2
  rcases demux_step hstep with ⟨e, hevent, hdemux⟩ | hsame
  · have hkept : Keeps S.transport p w.demux.demux e := by
      by_contra hnot
      exact hmeets.2 ⟨e, hevent, hnot⟩
    exact kept_step h.1.demux (hmeets.1.demux e hevent) hkept h.2 hdemux
  · rw [hsame]
    exact h.2

/-! ## Everything has arrived -/

theorem Inv.fed_all (h : Inv S w) {p : PaneId} (hquiet : Quiet S w p) :
    ofPane p (w.feeds.filterMap Feed.output?) = w.writtenFor S.utf8Slice p := by
  have hahead : w.channel.ahead = [] := by
    rw [Parser.Channel.ahead, hquiet.tmux.1, hquiet.tmux.2]
    rfl
  have hheard : w.heard = w.written.flatMap tokensOf := by
    rw [← h.heard, hahead]
    exact (List.append_nil _).symm
  rw [h.feeds, hquiet.dispatched, List.take_length, hheard, World.writtenFor]

theorem Inv.live_all (h : Inv S w) {p : PaneId} (hquiet : Quiet S w p)
    (hkept : Kept S.transport p w.demux) :
    (w.liveFrames p).flatten = (strip S.titleDecode p w.feeds).2.flatten := by
  rw [Kept, hquiet.demux, List.append_nil] at hkept
  rw [World.liveFrames, h.chunks_live, h.stripped, ← List.flatMap_def, ← List.flatMap_def]
  exact hkept

theorem Inv.pushes_all (h : Inv S w) {p : PaneId} (hsendable : Sendable S.codec w.sent)
    (hquiet : Quiet S w p) : pushLog w.consumer = w.sent.filterMap fun s => s.item.frame := by
  obtain ⟨units, hitems, hencodes, hdelivering, hsettled⟩ := h.carries hsendable
  rw [hquiet.wire] at hdelivering
  have hdispatched : w.socket.dispatched.map Prod.snd = w.sent.map Sent.item := by
    rw [hdelivering.all_dispatched hencodes hsettled hquiet.socket.1 hquiet.socket.2, hitems]
  have hdelivered := (h.good.delivered .data).2 hquiet.connection.1 hquiet.connection.2
  have harrived : w.connection.data.arrived =
      (w.sent.map Sent.item).filter fun item => planeOf item = .data := by
    rw [h.arrived, hquiet.handed, List.take_length, hdispatched]
  rw [h.pushed, hquiet.pushed, List.take_length, hdelivered, filterMap_numbered Item.frame]
  show w.connection.data.arrived.filterMap Item.frame = _
  rw [harrived, filterMap_data, List.filterMap_map]
  rfl

/-- The chunk of a push as a handler gets it whole. -/
def wholeChunk (entry : Client.PaneStream.Push PaneId η × Nat) : Client.PaneStream.Chunk :=
  ⟨entry.2, entry.1.bytes⟩

theorem Inv.calls_all (h : Inv S w) {p : PaneId} {handler : η} (hquiet : Quiet S w p)
    (hsubscribed : Subscribed S w p handler) :
    w.calls p handler = ofPane p (pushLog w.consumer) := by
  have hdelivers := h.sound.delivers
  have hnoFrame {frame} (hframe : frame ∈ w.consumer.frames) : False := by
    rw [hquiet.returned] at hframe
    cases hframe
  let called := ((w.consumer.panes p).delivered.filter fun call => call.1 = handler).map Prod.snd
  let pushed := (w.consumer.pushes.zipIdx.filter fun entry => entry.1.pane = p).map wholeChunk
  have hordered : called.Pairwise fun a b => a.number < b.number := by
    refine List.pairwise_map.mp ?_
    rw [List.map_map]
    exact hdelivers.ordered p handler
  have hpushed : pushed.Pairwise fun a b => a.number < b.number := by
    have hplaces : (w.consumer.pushes.zipIdx.map Prod.snd).Pairwise (· < ·) := by
      rw [List.zipIdx_map_snd]
      exact List.pairwise_lt_range'
    exact List.pairwise_map.mpr ((List.pairwise_map.mp hplaces).filter _)
  -- Every push of the pane has reached the handler.
  have hreached : ∀ chunk ∈ pushed, chunk ∈ called := by
    intro chunk hchunk
    obtain ⟨⟨push, number⟩, hentry, rfl⟩ := List.mem_map.mp hchunk
    obtain ⟨hentry, hpane⟩ := List.mem_filter.mp hentry
    have hpush := List.mem_zipIdx_iff_getElem?.mp hentry
    have hpane : push.pane = p := of_decide_eq_true hpane
    suffices hcall : (handler, ⟨number, push.bytes⟩) ∈ (w.consumer.panes p).delivered from
      List.mem_map.mpr ⟨_, List.mem_filter.mpr ⟨hcall, decide_eq_true rfl⟩, rfl⟩
    rcases hsubscribed number push hpush hpane with htarget |
      ⟨window, hwindow, rfl, hmem, hroom⟩
    · rcases hdelivers.complete number push hpush handler htarget with hcall | ⟨next, hframe⟩
      · exact hpane ▸ hcall
      · exact (hnoFrame hframe).elim
    · have hgiven := (hdelivers.given p window hwindow).whole hroom
      rcases hdelivers.flushed p window hwindow _ (hgiven ▸ hmem) with hcall | ⟨rest, hframe, -⟩
      · exact hcall
      · exact (hnoFrame hframe).elim
  have hsame : ∀ chunk ∈ called, chunk ∈ pushed := by
    intro chunk hchunk
    obtain ⟨call, hcall, rfl⟩ := List.mem_map.mp hchunk
    obtain ⟨push, hpush, hpane, -⟩ := hdelivers.genuine p call (List.mem_filter.mp hcall).1
    have hentry : wholeChunk (push, call.2.number) ∈ pushed :=
      List.mem_map.mpr ⟨_, List.mem_filter.mpr ⟨List.mem_zipIdx_iff_getElem?.mpr hpush,
        decide_eq_true hpane⟩, rfl⟩
    -- The handler has one call with this number.
    have hnumbers : (called.map (·.number)).Nodup :=
      List.pairwise_map.mpr (hordered.imp Nat.ne_of_lt)
    exact List.inj_on_of_nodup_map hnumbers (hreached _ hentry) hchunk rfl ▸ hentry
  have hnodup {chunks : List Client.PaneStream.Chunk}
      (hgrowing : chunks.Pairwise fun a b => a.number < b.number) : chunks.Nodup :=
    hgrowing.imp fun hlt heq => absurd (congrArg _ heq) (Nat.ne_of_lt hlt)
  have heq : called = pushed := by
    refine List.Perm.eq_of_pairwise (fun a b _ _ hab hba => absurd hab (Nat.lt_asymm hba)) hordered
      hpushed ?_
    exact (List.perm_ext_iff_of_nodup (hnodup hordered) (hnodup hpushed)).mpr fun chunk =>
      ⟨hsame chunk, hreached chunk⟩
  calc w.calls p handler = called.map (·.bytes) := (List.map_map ..).symm
    _ = pushed.map (·.bytes) := by rw [heq]
    _ = ((w.consumer.pushes.zipIdx.map Prod.fst).filter fun push => push.pane = p).map
        (·.bytes) := by
      rw [List.map_map, List.filter_map, List.map_map]
      rfl
    _ = ofPane p (pushLog w.consumer) := by
      rw [List.zipIdx_map_fst, ofPane, pushLog, List.filter_map, List.map_map]
      rfl

/-! ## Titles -/

theorem strip_eq_feedAll {titleDecode : Bytes → String} {p : PaneId} {feeds : List Feed}
    (hkept : .forget p ∉ feeds) :
    strip titleDecode p feeds =
      ((OscTitleSniffer.feedAll titleDecode .init (ofPane p (feeds.filterMap Feed.output?))).1,
        (OscTitleSniffer.feedAll titleDecode .init (ofPane p (feeds.filterMap Feed.output?))).2.map
          Parser.OscSniffResult.passthrough) := by
  induction feeds using List.reverseRecOn with
  | nil => rfl
  | append_singleton feeds feed ih =>
    have hbefore := ih fun hmem => hkept (List.mem_append_left _ hmem)
    rw [strip_concat, hbefore, List.filterMap_append, ofPane_append]
    cases feed with
    | output q decoded =>
      by_cases hq : q = p
      · have hone : ofPane p ([Feed.output q decoded].filterMap Feed.output?) = [decoded] := by
          simp [ofPane, Feed.output?, hq]
        rw [hone, OscTitleSniffer.feedAll_snoc, stripFeed, if_pos hq, List.map_append]
        rfl
      · have hnone : ofPane p ([Feed.output q decoded].filterMap Feed.output?) = [] := by
          simp [ofPane, Feed.output?, hq]
        rw [hnone, stripFeed, if_neg hq, List.append_nil]
    | forget q =>
      have hq : q ≠ p := fun heq =>
        hkept (List.mem_append_right _ (List.mem_singleton.mpr (heq ▸ rfl)))
      have hnone : ofPane p ([Feed.forget q].filterMap Feed.output?) = [] := rfl
      rw [hnone, stripFeed, if_neg hq, List.append_nil]

/-- Chunks that the sniffer reads as they are meant. -/
structure TitlesRead (chunks : List Bytes) : Prop where
  limit : OscTitleSniffer.BelowLimit chunks.flatten
  ok : ∀ before chunk, before ++ [chunk] <+: chunks →
    OscTitleSniffer.ChunkOk before.flatten chunk

theorem TitlesRead.dropLast {chunks : List Bytes} {chunk : Bytes}
    (h : TitlesRead (chunks ++ [chunk])) : TitlesRead chunks where
  limit pre hpre := h.limit pre <| hpre.trans <| by
    rw [List.flatten_append]
    exact List.prefix_append _ _
  ok before next hnext := h.ok before next (hnext.trans (List.prefix_append _ _))

theorem TitlesRead.law (titleDecode : Bytes → String) {chunks : List Bytes}
    (h : TitlesRead chunks) : OscTitleSniffer.PassthroughLaw titleDecode chunks := by
  induction chunks using List.reverseRecOn with
  | nil => exact OscTitleSniffer.law_nil titleDecode
  | append_singleton chunks chunk ih =>
    exact (OscTitleSniffer.law_snoc_iff titleDecode chunks chunk h.limit (ih h.dropLast)).mpr
      (h.ok chunks chunk (List.prefix_refl _))

/-- What is let through is the stream without its titles. -/
theorem TitlesRead.passthrough (titleDecode : Bytes → String) {chunks : List Bytes}
    (h : TitlesRead chunks) :
    ((OscTitleSniffer.feedAll titleDecode .init chunks).2.map
      Parser.OscSniffResult.passthrough).flatten = Parser.Osc.shown chunks.flatten := by
  have hlaw := (h.law titleDecode).bytes
  rw [(OscTitleSniffer.feedAll_represents titleDecode chunks h.limit).pending_eq,
    List.append_left_inj] at hlaw
  rw [← List.flatMap_def, hlaw]

omit [DecidableEq T] [DecidableEq η] in
/-- Without a hydration the frames of a pane are those of the demux. -/
theorem framesFor_live {p : PaneId} (hnone : ∀ bytes, .replay p bytes ∉ w.sent) :
    w.framesFor p = w.liveFrames p := by
  unfold World.framesFor World.liveFrames
  generalize w.sent = sent at hnone
  induction sent with
  | nil => rfl
  | cons s sent ih =>
    have hrest := ih fun bytes hmem => hnone bytes (List.mem_cons_of_mem _ hmem)
    cases s with
    | live q chunk =>
      show ofPane p ((q, chunk.bytes) :: _) = (ofPane p ((q, chunk) :: _)).map _
      rw [ofPane_cons, ofPane_cons, hrest, List.map_append]
      by_cases hq : q = p
      · rw [if_pos hq, if_pos hq]
        rfl
      · rw [if_neg hq, if_neg hq]
        rfl
    | replay q bytes =>
      have hq : q ≠ p := fun heq => hnone bytes (heq ▸ List.mem_cons_self)
      show ofPane p ((q, bytes) :: _) = _
      rw [ofPane_cons, if_neg hq, hrest]
      rfl
    | control msg => exact hrest

/-- What holds when a client that has missed nothing has got everything. -/
structure Complete (S : Setup T Msg) (w : World T Msg η) (paneId : PaneId) (handler : η) :
    Prop where
  fed : ofPane paneId (w.feeds.filterMap Feed.output?) = w.writtenFor S.utf8Slice paneId
  live : (w.liveFrames paneId).flatten = (strip S.titleDecode paneId w.feeds).2.flatten
  called : w.calls paneId handler = w.framesFor paneId
  /-- End to end: the bytes that the pane has printed, without its titles. -/
  shown : (∀ bytes, .replay paneId bytes ∉ w.sent) → .forget paneId ∉ w.feeds →
    TitlesRead (w.writtenFor S.utf8Slice paneId) →
      (w.calls paneId handler).flatten =
        Parser.Osc.shown (w.writtenFor S.utf8Slice paneId).flatten

theorem Inv.complete (h : Inv S w) (hsendable : Sendable S.codec w.sent) {p : PaneId} {handler : η}
    (hkept : Kept S.transport p w.demux) (hquiet : Quiet S w p)
    (hsubscribed : Subscribed S w p handler) : Complete S w p handler := by
  have hcalled : w.calls p handler = w.framesFor p := by
    rw [h.calls_all hquiet hsubscribed, h.pushes_all hsendable hquiet, World.framesFor]
  refine ⟨h.fed_all hquiet, h.live_all hquiet hkept, hcalled, fun hreplay hforget hread => ?_⟩
  rw [hcalled, framesFor_live hreplay, h.live_all hquiet hkept, strip_eq_feedAll hforget,
    h.fed_all hquiet]
  exact hread.passthrough S.titleDecode

/-- The output of a pane on its way from tmux to a handler of a client, in every run of orderly
steps. A handler is called with what the pane has printed, in that order and nothing of it twice,
whatever else is on the channel, the demux and the socket. And when the client has missed nothing
and nothing is on its way, it has been called with all of it: byte for byte what the pane has
printed, without its titles. -/
theorem output_reaches_handler (S : Setup T Msg) (dcs : Bool) (events : List (Event T Msg η))
    (w : World T Msg η) (p : PaneId) (handler : η)
    (hok : Along (step S) (Orderly S) (start T Msg η dcs) events)
    (hrun : exec (step S) (start T Msg η dcs) events = some w)
    (hsendable : Sendable S.codec w.sent) :
    Relays S w p handler ∧
      (Along (step S) (fun w event => ¬Misses S p w event) (start T Msg η dcs) events →
        Quiet S w p → Subscribed S w p handler → Complete S w p handler) := by
  have hinv := inv_of_run hok hrun
  exact ⟨hinv.relays hsendable p handler, fun hkeeps hquiet hsubscribed =>
    hinv.complete hsendable (kept_of_run hok hkeeps hrun) hquiet hsubscribed⟩

end Results

/-! ## A prompt -/

instance {T : Type} [DecidableEq T] (t : T) (p : PaneId) (d : OutputDemux T) :
    DecidablePred (Keeps t p d)
  | .append q bytes => inferInstanceAs (Decidable (q = p → bytes ≠ [] →
      if p ∈ d.knownPanes then p ∉ d.pausedPanes ∧ t ∈ d.transports.values
      else d.pendingFanoutBytes p + bytes.length ≤ MAX_PENDING_BYTES_PER_PANE))
  | .notifyPaneClosed q => inferInstanceAs (Decidable (q = p → d.waiting t p = []))
  | .detachTransport t' => inferInstanceAs (Decidable (t' = t → d.queued t p = []))
  | .runMicrotask => inferInstanceAs (Decidable (p ∈ (d.microtasks.head?).map Prod.fst →
      p ∈ d.knownPanes ∧ p ∉ d.pausedPanes ∧ t ∈ d.transports.values))
  | .notifyPaneBound _ | .attachTransport _ | .unsubscribe _ | .pausePane _ | .resumePane _
  | .beginPaneHydration _ _ | .endPaneHydration _ _ => isTrue trivial

/-- The handshake leaves the control plane to the connection after its first message. -/
def handsOver (dispatched : List (Handler × Item String)) : Reaction Handler :=
  if dispatched.length = 1 then { onControl := some .connection } else {}

def editor : Setup String String where
  transport := "editor"
  codec := plainCodec
  react := handsOver
  utf8Slice := fromCharCodes
  titleDecode := fromCharCodes
  capBytes := 16

/-- The shell sets its title and prints a prompt. -/
def prompt : Notification := .output 1 (ascii "\x1b]0;sh\x07$ ")

/-- The client connects, and tmux writes the line. -/
def connecting : List (Event String String String) :=
  [.control "\x7b\x7d", .read 100, .hand, .connection .connect, .connection .ready,
    .connection .returns, .connection (.onData ()), .panes (.onPaneOutput ⟨"p1"⟩ "view"),
    .demux (.attachTransport "editor"), .demux (.notifyPaneBound ⟨"p1"⟩),
    .tmux (.notify (prompt.asLine trivial))]

/-- The line goes to the view. -/
def printing : List (Event String String String) :=
  [.tmux .token, .dispatch, .read 7, .read 100, .hand, .push, .panes .returns]

def connected : World String String String :=
  (exec (step editor) (start String String String false) connecting).get (by decide +kernel)

/-- The driver has read the line. -/
def lineRead : World String String String :=
  { connected with
    channel := { connected.channel with
      tok := (connected.channel.tok.push (connected.channel.wire.take 100)).1
      queue := [.notification "output" prompt.line]
      wire := [] } }

theorem step_connected : step editor connected (.tmux (.chunk 100)) = some lineRead := by
  have hread : (connected.channel.tok.push (connected.channel.wire.take 100)).2 =
      [.notification "output" prompt.line] := by
    rw [Parser.push_realises.out_push]
    decide +kernel
  have hqueue : connected.channel.queue = [] := by decide +kernel
  have hwire : connected.channel.wire.drop 100 = [] := by decide +kernel
  rw [step_chunk hread, hqueue, hwire]
  rfl

/-- What has become of the line. -/
structure Printed (w : World String String String) : Prop where
  quiet : Quiet editor w ⟨"p1"⟩
  sent : w.sent = [.control "\x7b\x7d", .live ⟨"p1"⟩ ⟨0, ascii "$ "⟩]
  feeds : w.feeds = [.output ⟨"p1"⟩ (ascii "\x1b]0;sh\x07$ ")]
  pushes : w.consumer.pushes = [⟨⟨"p1"⟩, ascii "$ ", ["view"]⟩]
  written : w.writtenFor fromCharCodes ⟨"p1"⟩ = [ascii "\x1b]0;sh\x07$ "]

theorem exec_printing : ∃ w, exec (step editor) lineRead printing = some w ∧ Printed w := by
  have hrun : (exec (step editor) lineRead printing).any (fun w => decide (
      ((w.channel.wire = [] ∧ w.channel.queue = []) ∧ w.read = w.heard.length ∧
        w.demux.demux.waiting "editor" ⟨"p1"⟩ = [] ∧ w.onWire = [] ∧
        (w.socket.closed = false ∧ w.socket.scheduled = 0) ∧
        w.handed = w.socket.dispatched.length ∧
        (w.connection.data.handler ≠ none ∧ w.connection.frames = []) ∧
        w.consumer.pushes.length = (w.connection.deliveries .data).length ∧
        w.consumer.frames = []) ∧
      w.sent = [.control "\x7b\x7d", .live ⟨"p1"⟩ ⟨0, ascii "$ "⟩] ∧
      w.feeds = [.output ⟨"p1"⟩ (ascii "\x1b]0;sh\x07$ ")] ∧
      w.consumer.pushes = [⟨⟨"p1"⟩, ascii "$ ", ["view"]⟩] ∧
      w.writtenFor fromCharCodes ⟨"p1"⟩ = [ascii "\x1b]0;sh\x07$ "])) = true := by
    decide +kernel
  obtain ⟨w, hw, hfacts⟩ := (Option.any_eq_true _ _).mp hrun
  obtain ⟨⟨htmux, hread, hdemux, hwire, hsocket, hhanded, hconnection, hpushed, hreturned⟩, hsent,
    hfeeds, hpushes, hwritten⟩ := of_decide_eq_true hfacts
  exact ⟨w, hw, ⟨htmux, hread, hdemux, hwire, hsocket, hhanded, hconnection, hpushed, hreturned⟩,
    hsent, hfeeds, hpushes, hwritten⟩

theorem titlesRead_prompt : TitlesRead [ascii "\x1b]0;sh\x07$ "] := by
  have hsegments : Parser.Osc.segments (ascii "\x1b]0;sh\x07$ ") =
      ([.osc (ascii "0;sh") .bel, .plain 0x24, .plain 0x20], []) := by
    have htitle : Parser.Osc.firstSegment (ascii "\x1b]0;sh\x07$ ") =
        some (.osc (ascii "0;sh") .bel, ascii "$ ") := by decide +kernel
    rw [Parser.Osc.segments_of_some htitle,
      Parser.Osc.segments_plain (ascii "$ ") (by decide +kernel)]
    rfl
  have hnone : Parser.Osc.segments [] = ([], []) := Parser.Osc.segments_of_none rfl
  refine ⟨OscTitleSniffer.belowLimit_of_length (by decide +kernel), fun before chunk hpre => ?_⟩
  obtain ⟨rfl, rfl⟩ : before = [] ∧ chunk = ascii "\x1b]0;sh\x07$ " := by
    rcases before with _ | ⟨first, rest⟩
    · exact ⟨rfl, (List.cons_prefix_cons.mp hpre).1⟩
    · have hlen := hpre.length_le
      simp at hlen
  refine ⟨?_, ?_, ?_, ?_⟩
  · rw [List.flatten_nil, hnone, List.nil_append, hsegments]
    decide
  · rw [List.flatten_nil, hnone, List.nil_append, hsegments]
    decide
  · rw [List.flatten_nil, hnone, List.nil_append, Parser.Osc.shown, hsegments]
    decide
  · rw [List.flatten_nil, hnone]
    decide

/-- The prompt is shown, and the title is not. -/
theorem output_reaches_handler_prompt :
    ∃ w, exec (step editor) (start String String String false)
        (connecting ++ .tmux (.chunk 100) :: printing) = some w ∧
      (w.calls ⟨"p1"⟩ "view").flatten = Parser.Osc.shown (ascii "\x1b]0;sh\x07$ ") := by
  obtain ⟨w, hprinting, hprinted⟩ := exec_printing
  have hconnecting : exec (step editor) (start String String String false) connecting =
      some connected := (Option.some_get _).symm
  have hrun : exec (step editor) (start String String String false)
      (connecting ++ .tmux (.chunk 100) :: printing) = some w := by
    rw [exec_append, hconnecting, Option.bind_some, exec_cons, step_connected, Option.bind_some]
    exact hprinting
  have halong {C : World String String String → Event String String String → Prop}
      (hfirst : Along (step editor) C (start String String String false) connecting)
      (hchunk : C connected (.tmux (.chunk 100)))
      (hrest : Along (step editor) C lineRead printing) :
      Along (step editor) C (start String String String false)
        (connecting ++ .tmux (.chunk 100) :: printing) := by
    refine (along_append (step editor)).mpr ⟨hfirst, fun s hs => ?_⟩
    obtain rfl := Option.some.inj (hconnecting.symm.trans hs)
    refine ⟨hchunk, fun s hs => ?_⟩
    obtain rfl := Option.some.inj (step_connected.symm.trans hs)
    exact hrest
  have horderly : Along (step editor) (Orderly editor) (start String String String false)
      (connecting ++ .tmux (.chunk 100) :: printing) :=
    along_mono (fun _ _ => orderly_of_steady)
      (halong (C := fun w event => steady w event = true) (by decide +kernel) rfl
        (by decide +kernel))
  have hkeeps : Along (step editor) (fun w event => ¬Misses editor ⟨"p1"⟩ w event)
      (start String String String false) (connecting ++ .tmux (.chunk 100) :: printing) := by
    refine along_mono (fun w event hkept => ?_) (halong (C := fun w event =>
      ∀ e ∈ w.demuxEvent editor event, Keeps "editor" ⟨"p1"⟩ w.demux.demux e)
      (by decide +kernel) (fun _ h => (by cases h)) (by decide +kernel))
    rintro ⟨e, he, hmisses⟩
    exact hmisses (hkept e he)
  have hsendable : Sendable editor.codec w.sent := by
    rw [hprinted.sent, Sendable]
    simp only [List.forall_mem_cons, List.not_mem_nil, false_imp_iff, implies_true, and_true,
      Sent.item, Item.Fits, Item.ReadsBack, Item.Parses, Item.decoded]
    decide
  have hsubscribed : Subscribed editor w ⟨"p1"⟩ "view" := by
    intro number push hpush _
    rw [hprinted.pushes] at hpush
    obtain rfl : push = ⟨⟨"p1"⟩, ascii "$ ", ["view"]⟩ :=
      List.mem_singleton.mp (List.mem_of_getElem? hpush)
    exact .inl List.mem_cons_self
  have hcomplete := (output_reaches_handler editor false _ w ⟨"p1"⟩ "view" horderly hrun
    hsendable).2 hkeeps hprinted.quiet hsubscribed
  have hreplay : ∀ bytes, .replay ⟨"p1"⟩ bytes ∉ w.sent := by
    intro bytes
    rw [hprinted.sent]
    simp
  have hshown := hcomplete.shown hreplay (by rw [hprinted.feeds]; decide)
  rw [show w.writtenFor editor.utf8Slice ⟨"p1"⟩ = _ from hprinted.written] at hshown
  exact ⟨w, hrun, hshown titlesRead_prompt⟩

end TmuxccDriver.System.OutputPath
