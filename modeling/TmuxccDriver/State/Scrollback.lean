import Mathlib.Data.List.DropRight
import TmuxccDriver.Lib.Bytes
import TmuxccDriver.Lib.KeyedMap
import TmuxccDriver.Protocol.SessionProxyControl

/-!
# The scrollback store

`createPaneBufferStore` of `state/scrollback.ts`: for each pane the chunks of its latest output
and the running sum of their lengths, cut down to the cap by whole chunks and by a part of the
oldest one.

Results:
1. `evict_spec`: the loop that cuts a buffer down keeps its end.
2. `copyChunks_eq`: the chunks fill the array that `getContents` allocates.
3. `Holds.step`: what one call keeps.
4. `scrollback_contents`: the contents and the size after any calls.
-/

namespace TmuxccDriver.State.Scrollback
open TmuxccDriver.Lib TmuxccDriver.Protocol

/-! ## The store -/

structure PaneBuffer where
  chunks : List Bytes := []
  totalBytes : Nat := 0

/-- An entry of the map `buffers`. -/
structure PaneEntry where
  paneId : PaneId
  buf : PaneBuffer

structure PaneBufferStore where
  capBytes : Nat
  buffers : KeyedMap PaneEntry.paneId := .empty

/-- The loop of `evict`. What it takes off the sum is never more than the sum. -/
def evict (capBytes : Nat) (buf : PaneBuffer) : PaneBuffer :=
  if capBytes < buf.totalBytes then
    match _hchunks : buf.chunks with
    | [] => buf
    | first :: rest =>
      let excess := buf.totalBytes - capBytes
      if first.length ≤ excess then
        evict capBytes { chunks := rest, totalBytes := buf.totalBytes - first.length }
      else
        evict capBytes
          { chunks := first.drop excess :: rest, totalBytes := buf.totalBytes - excess }
  else buf
termination_by (buf.chunks.length, buf.totalBytes)
decreasing_by
  · simp [Prod.lex_def, _hchunks]
  · simp only [Prod.lex_def, _hchunks, List.length_cons]
    exact Or.inr ⟨trivial, by omega⟩

/-- `Uint8Array.prototype.set`, which throws where the source does not fit. -/
def setBytes (out chunk : Bytes) (offset : Nat) : Option Bytes :=
  if offset + chunk.length ≤ out.length then
    some (out.take offset ++ chunk ++ out.drop (offset + chunk.length))
  else none

/-- The loop of `getContents` over the chunks. -/
def copyChunks (out : Bytes) (offset : Nat) : List Bytes → Option Bytes
  | [] => some out
  | chunk :: chunks =>
    (setBytes out chunk offset).bind fun out => copyChunks out (offset + chunk.length) chunks

namespace PaneBufferStore
variable (store : PaneBufferStore)

/-- The buffer that `getOrCreate` returns. -/
def bufferOf (paneId : PaneId) : PaneBuffer :=
  match store.buffers.get? paneId with
  | some entry => entry.buf
  | none => {}

def append (paneId : PaneId) (bytes : Bytes) : PaneBufferStore :=
  if bytes.length = 0 then store
  else
    let buf := store.bufferOf paneId
    let pushed : PaneBuffer :=
      { chunks := buf.chunks ++ [bytes], totalBytes := buf.totalBytes + bytes.length }
    { store with
      buffers := store.buffers.set
        ⟨paneId, if store.capBytes < pushed.totalBytes then evict store.capBytes pushed
          else pushed⟩ }

def getContents (paneId : PaneId) : Option Bytes :=
  match store.buffers.get? paneId with
  | none => some []
  | some ⟨_, buf⟩ =>
    if buf.totalBytes = 0 then some []
    else
      match buf.chunks with
      | [only] => setBytes (List.replicate only.length 0) only 0
      | chunks => copyChunks (List.replicate buf.totalBytes 0) 0 chunks

def size (paneId : PaneId) : Nat :=
  match store.buffers.get? paneId with
  | some entry => entry.buf.totalBytes
  | none => 0

def drop (paneId : PaneId) : PaneBufferStore :=
  { store with buffers := store.buffers.delete paneId }

def clear : PaneBufferStore := { store with buffers := .empty }

end PaneBufferStore

/-! ## Runs -/

inductive Call
  | append (paneId : PaneId) (bytes : Bytes)
  | drop (paneId : PaneId)
  | clear

def PaneBufferStore.step (store : PaneBufferStore) : Call → PaneBufferStore
  | .append paneId bytes => store.append paneId bytes
  | .drop paneId => store.drop paneId
  | .clear => store.clear

/-- A new store after some calls. -/
def PaneBufferStore.run (capBytes : Nat) (calls : List Call) : PaneBufferStore :=
  calls.foldl step { capBytes }

/-- What a call makes of the output that a pane has had since its buffer was last removed. -/
def outputAfter (paneId : PaneId) (output : Bytes) : Call → Bytes
  | .append id bytes => if id = paneId then output ++ bytes else output
  | .drop id => if id = paneId then [] else output
  | .clear => []

/-- The output of a pane since the last call that removed its buffer. -/
def appended (paneId : PaneId) (calls : List Call) : Bytes := calls.foldl (outputAfter paneId) []

/-! ## One buffer -/

/-- The running sum is the length of the chunks together. -/
def PaneBuffer.Summed (buf : PaneBuffer) : Prop := buf.totalBytes = buf.chunks.flatten.length

/-- What is cut off before more is appended would be cut off afterwards. -/
theorem rtake_rtake_append (xs ys : Bytes) (n : Nat) :
    (xs.rtake n ++ ys).rtake n = (xs ++ ys).rtake n := by
  have hlen : (xs.drop (xs.length - n)).length = min xs.length n := by
    rw [List.length_drop]
    omega
  simp only [List.rtake, List.length_append, hlen, List.drop_append, List.drop_drop]
  congr 1
  · rcases Nat.le_total n xs.length with hn | hn
    · congr 1
      omega
    · rw [Nat.min_eq_left hn, Nat.sub_eq_zero_of_le hn, Nat.zero_add]
  · congr 1
    omega

theorem rtake_of_length_le {xs : Bytes} {n : Nat} (h : xs.length ≤ n) : xs.rtake n = xs := by
  rw [List.rtake, Nat.sub_eq_zero_of_le h, List.drop_zero]

/-- A whole chunk that is cut off is not in the part that is kept. -/
theorem rtake_append_of_excess {xs ys : Bytes} {n : Nat} (h : xs.length ≤ (xs ++ ys).length - n) :
    (xs ++ ys).rtake n = ys.rtake n := by
  rw [List.rtake, List.rtake, List.drop_append, List.drop_eq_nil_of_le h, List.nil_append,
    List.length_append]
  congr 1
  omega

theorem evict_cons {capBytes totalBytes : Nat} (h : capBytes < totalBytes) (first : Bytes)
    (rest : List Bytes) :
    evict capBytes ⟨first :: rest, totalBytes⟩ =
      if first.length ≤ totalBytes - capBytes then
        evict capBytes ⟨rest, totalBytes - first.length⟩
      else
        evict capBytes
          ⟨first.drop (totalBytes - capBytes) :: rest, totalBytes - (totalBytes - capBytes)⟩ := by
  rw [evict.eq_def, if_pos h]

/-- The loop keeps the end of the contents that fits the cap. -/
theorem evict_spec (capBytes : Nat) (buf : PaneBuffer) (h : buf.Summed) :
    (evict capBytes buf).chunks.flatten = buf.chunks.flatten.rtake capBytes ∧
      (evict capBytes buf).Summed := by
  induction buf using evict.induct capBytes with
  | case1 buf hover hchunks =>
    -- the sum is not over the cap when there are no chunks
    rw [PaneBuffer.Summed, hchunks] at h
    exact absurd hover (h ▸ Nat.not_lt_zero capBytes)
  | case2 buf hover first rest hchunks excess hwhole ih =>
    obtain ⟨chunks, totalBytes⟩ := buf
    obtain rfl : chunks = first :: rest := hchunks
    have hsum : totalBytes = first.length + rest.flatten.length := by
      rw [← List.length_append, ← List.flatten_cons]
      exact h
    have hrest : totalBytes - first.length = rest.flatten.length := by omega
    obtain ⟨hcontents, hsummed⟩ := ih hrest
    have hcut : first.length ≤ (first ++ rest.flatten).length - capBytes := by
      rw [List.length_append, ← hsum]
      exact hwhole
    rw [evict_cons hover, if_pos hwhole]
    refine ⟨?_, hsummed⟩
    rw [hcontents, List.flatten_cons, rtake_append_of_excess hcut]
  | case3 buf hover first rest hchunks excess hpart ih =>
    obtain ⟨chunks, totalBytes⟩ := buf
    obtain rfl : chunks = first :: rest := hchunks
    have hsum : totalBytes = first.length + rest.flatten.length := by
      rw [← List.length_append, ← List.flatten_cons]
      exact h
    have hexcess : excess = totalBytes - capBytes := rfl
    have hcap : capBytes < totalBytes := hover
    have hlen : (first.drop excess ++ rest.flatten).length = capBytes := by
      rw [List.length_append, List.length_drop]
      omega
    have hkept : totalBytes - excess = (first.drop excess ++ rest.flatten).length := by omega
    obtain ⟨hcontents, hsummed⟩ := ih hkept
    rw [evict_cons hover, if_neg hpart]
    refine ⟨?_, hsummed⟩
    -- exactly the excess is gone now, so that nothing more is cut off
    rw [hcontents, List.flatten_cons, List.flatten_cons, rtake_of_length_le hlen.le, List.rtake,
      List.length_append, ← hsum, List.drop_append_of_le_length (Nat.le_of_not_le hpart)]
  | case4 buf hfits =>
    rw [evict.eq_def, if_neg hfits]
    have hlen : buf.chunks.flatten.length ≤ capBytes := h ▸ Nat.le_of_not_lt hfits
    exact ⟨(rtake_of_length_le hlen).symm, h⟩

/-! ## Reading -/

theorem copyChunks_eq (chunks : List Bytes) (out : Bytes) (offset : Nat)
    (h : out.length = offset + chunks.flatten.length) :
    copyChunks out offset chunks = some (out.take offset ++ chunks.flatten) := by
  induction chunks generalizing out offset with
  | nil =>
    have hall : out.length ≤ offset := h.le
    rw [copyChunks, List.flatten_nil, List.append_nil, List.take_of_length_le hall]
  | cons chunk chunks ih =>
    rw [List.flatten_cons, List.length_append] at h
    have hfits : offset + chunk.length ≤ out.length := by omega
    have hfront : (out.take offset ++ chunk).length = offset + chunk.length := by
      rw [List.length_append, List.length_take]
      omega
    rw [copyChunks, setBytes, if_pos hfits, Option.bind_some, ih]
    · rw [List.take_left' hfront, List.flatten_cons, List.append_assoc]
    · rw [List.length_append, hfront, List.length_drop]
      omega

theorem PaneBufferStore.getContents_eq (store : PaneBufferStore) (paneId : PaneId)
    (h : (store.bufferOf paneId).Summed) :
    store.getContents paneId = some (store.bufferOf paneId).chunks.flatten := by
  unfold getContents
  unfold bufferOf at h ⊢
  cases hentry : store.buffers.get? paneId with
  | none => rfl
  | some entry =>
    obtain ⟨id, buf⟩ := entry
    rw [hentry] at h
    rw [PaneBuffer.Summed] at h
    have hcopy : ∀ chunks : List Bytes, buf.totalBytes = chunks.flatten.length →
        copyChunks (List.replicate buf.totalBytes 0) 0 chunks = some chunks.flatten := by
      intro chunks hchunks
      rw [copyChunks_eq _ _ _ (by rw [List.length_replicate, Nat.zero_add, hchunks])]
      rfl
    show (if buf.totalBytes = 0 then _ else _) = some buf.chunks.flatten
    split
    · next hzero =>
      rw [List.eq_nil_of_length_eq_zero (h.symm.trans hzero)]
    · split
      · next only honly =>
        rw [honly, setBytes, List.length_replicate, Nat.zero_add, if_pos le_rfl]
        simp
      · exact hcopy _ h

/-! ## One call -/

/-- The buffer of the pane is the end of this output. -/
structure Holds (store : PaneBufferStore) (paneId : PaneId) (output : Bytes) : Prop where
  contents : (store.bufferOf paneId).chunks.flatten = output.rtake store.capBytes
  summed : (store.bufferOf paneId).Summed

theorem bufferOf_set (store : PaneBufferStore) (entry : PaneEntry) (paneId : PaneId) :
    PaneBufferStore.bufferOf { store with buffers := store.buffers.set entry } paneId =
      if entry.paneId = paneId then entry.buf else store.bufferOf paneId := by
  simp only [PaneBufferStore.bufferOf, KeyedMap.get?_set]
  rcases eq_or_ne entry.paneId paneId with hid | hid
  · rw [if_pos hid, if_pos hid]
  · rw [if_neg hid, if_neg hid]

theorem bufferOf_drop (store : PaneBufferStore) (id paneId : PaneId) :
    (store.drop id).bufferOf paneId = if id = paneId then {} else store.bufferOf paneId := by
  simp only [PaneBufferStore.drop, PaneBufferStore.bufferOf, KeyedMap.get?_delete]
  rcases eq_or_ne id paneId with hid | hid
  · rw [if_pos hid, if_pos hid.symm]
  · rw [if_neg hid, if_neg hid.symm]

namespace Holds
variable {store : PaneBufferStore} {paneId : PaneId} {output : Bytes}

/-- The pane that is written to. -/
theorem append_self (h : Holds store paneId output) (bytes : Bytes) :
    Holds (store.append paneId bytes) paneId (output ++ bytes) := by
  unfold PaneBufferStore.append
  split
  · next hempty =>
    rw [List.eq_nil_of_length_eq_zero hempty, List.append_nil]
    exact h
  · extract_lets buf pushed
    have hpushed : pushed.Summed := by
      have hsummed : buf.totalBytes = buf.chunks.flatten.length := h.summed
      simp [PaneBuffer.Summed, pushed, hsummed]
    have hflat : pushed.chunks.flatten = output.rtake store.capBytes ++ bytes := by
      simp only [pushed, List.flatten_append, List.flatten_singleton]
      rw [h.contents]
    have hkept : pushed.chunks.flatten.rtake store.capBytes =
        (output ++ bytes).rtake store.capBytes := by
      rw [hflat, rtake_rtake_append]
    split
    · obtain ⟨hcontents, hsummed⟩ := evict_spec store.capBytes pushed hpushed
      constructor
      · rw [bufferOf_set, if_pos rfl]
        exact hcontents.trans hkept
      · rw [bufferOf_set, if_pos rfl]
        exact hsummed
    · next hfits =>
      have hlen : pushed.chunks.flatten.length ≤ store.capBytes :=
        hpushed ▸ Nat.le_of_not_lt hfits
      constructor
      · rw [bufferOf_set, if_pos rfl, ← hkept, rtake_of_length_le hlen]
      · rw [bufferOf_set, if_pos rfl]
        exact hpushed

/-- Another pane. -/
theorem append_other (h : Holds store paneId output) {id : PaneId} (hid : id ≠ paneId)
    (bytes : Bytes) : Holds (store.append id bytes) paneId output := by
  unfold PaneBufferStore.append
  split
  · exact h
  · constructor
    · rw [bufferOf_set, if_neg hid]
      exact h.contents
    · rw [bufferOf_set, if_neg hid]
      exact h.summed

theorem removed (h : store.bufferOf paneId = {}) : Holds store paneId [] where
  contents := by rw [h, List.rtake_nil]; rfl
  summed := by rw [h]; rfl

theorem step (h : Holds store paneId output) (call : Call) :
    Holds (store.step call) paneId (outputAfter paneId output call) := by
  cases call with
  | append id bytes =>
    rw [outputAfter]
    split
    · next hid => exact hid ▸ h.append_self bytes
    · next hid => exact h.append_other hid bytes
  | drop id =>
    have hbuf := bufferOf_drop store id paneId
    rw [outputAfter]
    split
    · next hid => exact removed (hbuf.trans (if_pos hid))
    · next hid =>
      rw [if_neg hid] at hbuf
      exact ⟨by rw [PaneBufferStore.step, hbuf]; exact h.contents,
        by rw [PaneBufferStore.step, hbuf]; exact h.summed⟩
  | clear => exact removed rfl

end Holds

/-! ## Runs -/

theorem holds_run (capBytes : Nat) (calls : List Call) (paneId : PaneId) :
    Holds (.run capBytes calls) paneId (appended paneId calls) := by
  induction calls using List.reverseRecOn with
  | nil => exact .removed rfl
  | append_singleton calls call ih =>
    rw [PaneBufferStore.run, appended, List.foldl_concat, List.foldl_concat]
    exact ih.step call

theorem step_capBytes (store : PaneBufferStore) (call : Call) :
    (store.step call).capBytes = store.capBytes := by
  cases call with
  | append id bytes =>
    show (store.append id bytes).capBytes = _
    unfold PaneBufferStore.append
    split <;> rfl
  | drop id => rfl
  | clear => rfl

theorem run_capBytes (capBytes : Nat) (calls : List Call) :
    (PaneBufferStore.run capBytes calls).capBytes = capBytes := by
  induction calls using List.reverseRecOn with
  | nil => rfl
  | append_singleton calls call ih =>
    rw [PaneBufferStore.run, List.foldl_concat, step_capBytes]
    exact ih

/-- After any calls the contents of a pane are the last `capBytes` bytes of what was appended
to it since its buffer was last removed, and its size is their length. -/
theorem scrollback_contents (capBytes : Nat) (calls : List Call) (paneId : PaneId) :
    (PaneBufferStore.run capBytes calls).getContents paneId =
        some ((appended paneId calls).rtake capBytes) ∧
      (PaneBufferStore.run capBytes calls).size paneId =
        ((appended paneId calls).rtake capBytes).length := by
  have hholds := holds_run capBytes calls paneId
  have hcontents := hholds.contents
  rw [run_capBytes] at hcontents
  rw [← hcontents, ← hholds.summed]
  refine ⟨PaneBufferStore.getContents_eq _ _ hholds.summed, ?_⟩
  rw [PaneBufferStore.size, PaneBufferStore.bufferOf]
  split <;> rfl

end TmuxccDriver.State.Scrollback
