import TmuxccDriver.Lib.Transducer
import TmuxccDriver.Lib.Text

/-!
# Decoding UTF-8 with replacement

The decoder that answers a malformed sequence with U+FFFD, one byte at a time, and what comes
of it when it is started anew on every chunk of a text: a character that lies in two chunks is
read as two replacement characters at least.

Results:
1. `run_char`, `run_part`: reading the bytes of a character, and less than all of them.
2. `Mangled`: a text in which some characters beyond ASCII have become several replacements.
3. `mangled_decodeChunks`: what is read chunk by chunk is a mangled form of what was written.
4. `decodeChunks_eq_iff`: it is the same text exactly if no chunk ends within a character.
-/

namespace TmuxccDriver.Lib

/-! ## The decoder -/

def REPLACEMENT : Char := Char.ofNat 0xfffd

/-- The bytes of a character that are still missing, what the others tell, and the bounds of
the next byte. -/
structure Utf8Decoder where
  codePoint : Nat := 0
  missing : Nat := 0
  lower : Nat := 0x80
  upper : Nat := 0xbf
deriving DecidableEq, Repr

namespace Utf8Decoder

/-- A byte between characters. -/
def start (b : UInt8) : Utf8Decoder × List Char :=
  let n := b.toNat
  if n < 0x80 then ({}, [Char.ofNat n])
  else if n < 0xc2 then ({}, [REPLACEMENT])
  else if n < 0xe0 then ({ codePoint := n % 0x20, missing := 1 }, [])
  else if n < 0xf0 then
    ({ codePoint := n % 0x10
       missing := 2
       lower := if n = 0xe0 then 0xa0 else 0x80
       upper := if n = 0xed then 0x9f else 0xbf }, [])
  else if n < 0xf5 then
    ({ codePoint := n % 0x08
       missing := 3
       lower := if n = 0xf0 then 0x90 else 0x80
       upper := if n = 0xf4 then 0x8f else 0xbf }, [])
  else ({}, [REPLACEMENT])

/-- A byte that does not go on with the character ends it, and is read again. -/
def feed (s : Utf8Decoder) (b : UInt8) : Utf8Decoder × List Char :=
  if s.missing = 0 then start b
  else if s.lower ≤ b.toNat ∧ b.toNat ≤ s.upper then
    let codePoint := s.codePoint * 0x40 + b.toNat % 0x40
    if s.missing = 1 then ({}, [Char.ofNat codePoint])
    else ({ codePoint, missing := s.missing - 1 }, [])
  else ((start b).1, REPLACEMENT :: (start b).2)

def machine : Transducer Utf8Decoder UInt8 Char := ⟨feed⟩

/-- The end of the input. -/
def flush (s : Utf8Decoder) : List Char := if s.missing = 0 then [] else [REPLACEMENT]

end Utf8Decoder

open Utf8Decoder

/-- The whole input is decoded at once. -/
def decodeLossy (bytes : Bytes) : List Char :=
  machine.output {} bytes ++ (machine.final {} bytes).flush

/-- Each chunk is decoded by itself. -/
def decodeChunks (chunks : List Bytes) : List Char := chunks.flatMap decodeLossy

/-- The bytes of a text. -/
def encode (cs : List Char) : Bytes := cs.flatMap String.utf8EncodeChar

@[simp] theorem encode_nil : encode [] = [] := rfl

theorem encode_cons (c : Char) (cs : List Char) :
    encode (c :: cs) = String.utf8EncodeChar c ++ encode cs := rfl

theorem encode_append (cs ds : List Char) : encode (cs ++ ds) = encode cs ++ encode ds :=
  List.flatMap_append

/-! ## Reading one character -/

/-- A byte that only goes on with a character. -/
def Continues (b : UInt8) : Prop := 0x80 ≤ b.toNat ∧ b.toNat < 0xc0

theorem feed_continues {b : UInt8} (h : Continues b) : feed {} b = ({}, [REPLACEMENT]) := by
  obtain ⟨hlow, hhigh⟩ := h
  simp only [feed, start, if_true]
  rw [if_neg (by omega), if_pos (by omega)]

/-- The bytes `lead :: rest` of a character lead from the start to the start, and only the last
of them emits it. -/
structure Spells (c : Char) (lead : UInt8) (rest : Bytes) : Prop where
  bytes : String.utf8EncodeChar c = lead :: rest
  continues : ∀ b ∈ rest, Continues b
  whole : machine.run {} (lead :: rest) = ({}, [c])
  part : ∀ front, front <+: rest → front ≠ rest →
    (machine.run {} (lead :: front)).2 = [] ∧ (machine.run {} (lead :: front)).1.missing ≠ 0

/-- What continuing bytes add to a code point. -/
def gather (n : Nat) (rest : Bytes) : Nat := rest.foldl (fun n b => n * 0x40 + b.toNat % 0x40) n

theorem feed_last {s : Utf8Decoder} {b : UInt8} (hmissing : s.missing = 1)
    (hb : s.lower ≤ b.toNat ∧ b.toNat ≤ s.upper) :
    feed s b = ({}, [Char.ofNat (gather s.codePoint [b])]) := by
  simp only [feed]
  rw [if_neg (by omega), if_pos hb, if_pos hmissing]
  rfl

theorem feed_more {s : Utf8Decoder} {b : UInt8} (hmissing : 1 < s.missing)
    (hb : s.lower ≤ b.toNat ∧ b.toNat ≤ s.upper) :
    feed s b = ({ codePoint := gather s.codePoint [b], missing := s.missing - 1 }, []) := by
  simp only [feed]
  rw [if_neg (by omega), if_pos hb, if_neg (by omega)]
  rfl

theorem bounds_of_continues {b : UInt8} (h : Continues b) : 0x80 ≤ b.toNat ∧ b.toNat ≤ 0xbf := by
  obtain ⟨hlow, hhigh⟩ := h
  exact ⟨hlow, by omega⟩

/-- The missing bytes complete the character. -/
theorem run_rest {s : Utf8Decoder} {b : UInt8} {rest : Bytes}
    (hmissing : s.missing = rest.length + 1) (hb : s.lower ≤ b.toNat ∧ b.toNat ≤ s.upper)
    (hrest : ∀ b ∈ rest, Continues b) :
    machine.run s (b :: rest) = ({}, [Char.ofNat (gather s.codePoint (b :: rest))]) := by
  induction rest generalizing s b with
  | nil =>
    have hfeed : machine.step s b = _ := feed_last hmissing hb
    rw [Transducer.run_cons, hfeed]
    rfl
  | cons b' rest ih =>
    have hlong : 1 < s.missing := by rw [hmissing, List.length_cons]; exact Nat.le_add_left _ _
    have hfeed : machine.step s b = _ := feed_more hlong hb
    rw [Transducer.run_cons_silent _ hfeed, ih (by simp [hmissing])
      (bounds_of_continues (hrest b' List.mem_cons_self))
      fun b hb => hrest b (List.mem_cons_of_mem _ hb)]
    rfl

/-- Less than the missing bytes do not. -/
theorem run_part {s : Utf8Decoder} {b : UInt8} {rest front : Bytes}
    (hmissing : s.missing = rest.length + 1) (hb : s.lower ≤ b.toNat ∧ b.toNat ≤ s.upper)
    (hrest : ∀ b ∈ rest, Continues b) (hfront : front <+: b :: rest) (hne : front ≠ b :: rest) :
    (machine.run s front).2 = [] ∧ (machine.run s front).1.missing ≠ 0 := by
  induction rest generalizing s b front with
  | nil =>
    rcases front with _ | ⟨b', front⟩
    · exact ⟨rfl, by simp [hmissing]⟩
    · obtain ⟨rfl, hnil⟩ := List.cons_prefix_cons.mp hfront
      rw [List.prefix_nil.mp hnil] at hne
      exact absurd rfl hne
  | cons b' rest ih =>
    rcases front with _ | ⟨b'', front⟩
    · exact ⟨rfl, by simp [hmissing]⟩
    · obtain ⟨rfl, hlater⟩ := List.cons_prefix_cons.mp hfront
      have hlong : 1 < s.missing := by rw [hmissing, List.length_cons]; exact Nat.le_add_left _ _
      have hfeed : machine.step s b'' = _ := feed_more hlong hb
      rw [Transducer.run_cons_silent _ hfeed]
      refine ih (by simp [hmissing]) (bounds_of_continues (hrest b' List.mem_cons_self))
        (fun b hb => hrest b (List.mem_cons_of_mem _ hb)) hlater fun heq => hne ?_
      rw [heq]

/-- A character beyond ASCII is spelt by a lead byte that announces the others. -/
theorem spells_of_lead {c : Char} {lead b : UInt8} {rest : Bytes} {s : Utf8Decoder}
    (hbytes : String.utf8EncodeChar c = lead :: b :: rest) (hstart : start lead = (s, []))
    (hmissing : s.missing = rest.length + 1) (hb : s.lower ≤ b.toNat ∧ b.toNat ≤ s.upper)
    (hrest : ∀ b' ∈ b :: rest, Continues b')
    (hvalue : gather s.codePoint (b :: rest) = c.toNat) : Spells c lead (b :: rest) := by
  have hfeed : machine.step {} lead = (s, []) := hstart
  have hlater := fun b' hb' => hrest b' (List.mem_cons_of_mem _ hb')
  refine ⟨hbytes, hrest, ?_, fun front hfront hne => ?_⟩
  · rw [Transducer.run_cons_silent _ hfeed, run_rest hmissing hb hlater, hvalue, Char.ofNat_toNat]
  · rw [Transducer.run_cons_silent _ hfeed]
    exact run_part hmissing hb hlater hfront hne

theorem toNat_ofNat_byte {n : Nat} (h : n < 256) : (UInt8.ofNat n).toNat = n :=
  UInt8.toNat_ofNat_of_lt' h

theorem continues_ofNat {n : Nat} (h : n < 0x40) : Continues (UInt8.ofNat (n + 0x80)) := by
  rw [Continues, toNat_ofNat_byte (by omega)]
  omega

theorem spells_two {c : Char} (hlow : 0x7f < c.toNat) (hhigh : c.toNat ≤ 0x7ff) :
    ∃ lead b rest, Spells c lead (b :: rest) := by
  have hbytes : String.utf8EncodeChar c =
      [UInt8.ofNat (c.toNat / 64 % 0x20 + 0xc0), UInt8.ofNat (c.toNat % 0x40 + 0x80)] := by
    rw [String.utf8EncodeChar.eq_1]
    change (if c.toNat ≤ 0x7f then _ else if c.toNat ≤ 0x7ff then _ else _) = _
    rw [if_neg (by omega), if_pos hhigh]
    rfl
  have hlead := toNat_ofNat_byte (n := c.toNat / 64 % 0x20 + 0xc0) (by omega)
  have hlast := toNat_ofNat_byte (n := c.toNat % 0x40 + 0x80) (by omega)
  have hstart : start (UInt8.ofNat (c.toNat / 64 % 0x20 + 0xc0)) =
      ({ codePoint := c.toNat / 64, missing := 1 }, []) := by
    simp only [start, hlead]
    rw [if_neg (by omega), if_neg (by omega), if_pos (by omega),
      show (c.toNat / 64 % 0x20 + 0xc0) % 0x20 = c.toNat / 64 by omega]
  refine ⟨_, _, _, spells_of_lead hbytes hstart rfl ?_ ?_ ?_⟩
  · rw [hlast]
    dsimp only
    omega
  · exact List.forall_mem_singleton.mpr (continues_ofNat (by omega))
  · simp only [gather, List.foldl_cons, List.foldl_nil, hlast]
    omega

theorem spells_three {c : Char} (hlow : 0x7ff < c.toNat) (hhigh : c.toNat ≤ 0xffff) :
    ∃ lead b rest, Spells c lead (b :: rest) := by
  have hvalid : c.toNat < 0xd800 ∨ 0xdfff < c.toNat :=
    c.valid.imp_right And.left
  have hbytes : String.utf8EncodeChar c =
      [UInt8.ofNat (c.toNat / 4096 % 0x10 + 0xe0), UInt8.ofNat (c.toNat / 64 % 0x40 + 0x80),
        UInt8.ofNat (c.toNat % 0x40 + 0x80)] := by
    rw [String.utf8EncodeChar.eq_1]
    change (if c.toNat ≤ 0x7f then _ else if c.toNat ≤ 0x7ff then _ else
      if c.toNat ≤ 0xffff then _ else _) = _
    rw [if_neg (by omega), if_neg (by omega), if_pos hhigh]
    rfl
  have hlead := toNat_ofNat_byte (n := c.toNat / 4096 % 0x10 + 0xe0) (by omega)
  have hmiddle := toNat_ofNat_byte (n := c.toNat / 64 % 0x40 + 0x80) (by omega)
  have hlast := toNat_ofNat_byte (n := c.toNat % 0x40 + 0x80) (by omega)
  have hstart : start (UInt8.ofNat (c.toNat / 4096 % 0x10 + 0xe0)) =
      ({ codePoint := c.toNat / 4096
         missing := 2
         lower := if c.toNat / 4096 % 0x10 + 0xe0 = 0xe0 then 0xa0 else 0x80
         upper := if c.toNat / 4096 % 0x10 + 0xe0 = 0xed then 0x9f else 0xbf }, []) := by
    simp only [start, hlead]
    rw [if_neg (by omega), if_neg (by omega), if_neg (by omega), if_pos (by omega),
      show (c.toNat / 4096 % 0x10 + 0xe0) % 0x10 = c.toNat / 4096 by omega]
  refine ⟨_, _, _, spells_of_lead hbytes hstart rfl ?_ ?_ ?_⟩
  · rw [hmiddle]
    dsimp only
    constructor <;> split <;> omega
  · exact List.forall_mem_cons.mpr ⟨continues_ofNat (by omega),
      List.forall_mem_singleton.mpr (continues_ofNat (by omega))⟩
  · simp only [gather, List.foldl_cons, List.foldl_nil, hmiddle, hlast]
    omega

theorem spells_four {c : Char} (hlow : 0xffff < c.toNat) :
    ∃ lead b rest, Spells c lead (b :: rest) := by
  have hvalid : c.toNat < 0x110000 := by
    rcases c.valid with hsmall | hlarge
    · have hsmall : c.toNat < 0xd800 := hsmall
      omega
    · exact hlarge.2
  have hbytes : String.utf8EncodeChar c =
      [UInt8.ofNat (c.toNat / 262144 % 0x08 + 0xf0), UInt8.ofNat (c.toNat / 4096 % 0x40 + 0x80),
        UInt8.ofNat (c.toNat / 64 % 0x40 + 0x80), UInt8.ofNat (c.toNat % 0x40 + 0x80)] := by
    rw [String.utf8EncodeChar.eq_1]
    change (if c.toNat ≤ 0x7f then _ else if c.toNat ≤ 0x7ff then _ else
      if c.toNat ≤ 0xffff then _ else _) = _
    rw [if_neg (by omega), if_neg (by omega), if_neg (by omega)]
    rfl
  have hlead := toNat_ofNat_byte (n := c.toNat / 262144 % 0x08 + 0xf0) (by omega)
  have hsecond := toNat_ofNat_byte (n := c.toNat / 4096 % 0x40 + 0x80) (by omega)
  have hthird := toNat_ofNat_byte (n := c.toNat / 64 % 0x40 + 0x80) (by omega)
  have hlast := toNat_ofNat_byte (n := c.toNat % 0x40 + 0x80) (by omega)
  have hstart : start (UInt8.ofNat (c.toNat / 262144 % 0x08 + 0xf0)) =
      ({ codePoint := c.toNat / 262144
         missing := 3
         lower := if c.toNat / 262144 % 0x08 + 0xf0 = 0xf0 then 0x90 else 0x80
         upper := if c.toNat / 262144 % 0x08 + 0xf0 = 0xf4 then 0x8f else 0xbf }, []) := by
    simp only [start, hlead]
    rw [if_neg (by omega), if_neg (by omega), if_neg (by omega), if_neg (by omega),
      if_pos (by omega), show (c.toNat / 262144 % 0x08 + 0xf0) % 0x08 = c.toNat / 262144 by omega]
  refine ⟨_, _, _, spells_of_lead hbytes hstart rfl ?_ ?_ ?_⟩
  · rw [hsecond]
    dsimp only
    constructor <;> split <;> omega
  · exact List.forall_mem_cons.mpr ⟨continues_ofNat (by omega),
      List.forall_mem_cons.mpr ⟨continues_ofNat (by omega),
        List.forall_mem_singleton.mpr (continues_ofNat (by omega))⟩⟩
  · simp only [gather, List.foldl_cons, List.foldl_nil, hsecond, hthird, hlast]
    omega

/-- A character beyond ASCII has a lead byte and at least one more. -/
theorem exists_spells {c : Char} (h : 0x80 ≤ c.toNat) :
    ∃ lead b rest, Spells c lead (b :: rest) := by
  rcases Nat.lt_or_ge 0xffff c.toNat with hfour | hthree
  · exact spells_four hfour
  · rcases Nat.lt_or_ge 0x7ff c.toNat with hthree' | htwo
    · exact spells_three hthree' hthree
    · exact spells_two h htwo

theorem utf8EncodeChar_ascii {c : Char} (h : c.toNat < 0x80) :
    String.utf8EncodeChar c = [UInt8.ofNat c.toNat] := by
  rw [String.utf8EncodeChar.eq_1]
  change (if c.toNat ≤ 0x7f then _ else _) = _
  rw [if_pos (Nat.le_of_lt_succ h)]
  rfl

theorem run_char (c : Char) : machine.run {} (String.utf8EncodeChar c) = ({}, [c]) := by
  rcases Nat.lt_or_ge c.toNat 0x80 with hascii | hbeyond
  · have hbyte := toNat_ofNat_byte (n := c.toNat) (by omega)
    have hfeed : machine.step {} (UInt8.ofNat c.toNat) = ({}, [c]) := by
      change feed {} _ = _
      simp only [feed, start, hbyte, if_true]
      rw [if_pos hascii, Char.ofNat_toNat]
    rw [utf8EncodeChar_ascii hascii, Transducer.run_cons, hfeed]
    rfl
  · obtain ⟨lead, b, rest, hspells⟩ := exists_spells hbeyond
    rw [hspells.bytes, hspells.whole]

theorem run_encode (cs : List Char) : machine.run {} (encode cs) = ({}, cs) := by
  induction cs with
  | nil => rfl
  | cons c cs ih =>
    have hfinal : machine.final {} (String.utf8EncodeChar c) = {} := congrArg Prod.fst (run_char c)
    have houtput : machine.output {} (String.utf8EncodeChar c) = [c] :=
      congrArg Prod.snd (run_char c)
    rw [encode_cons, Transducer.run_append, hfinal, houtput, Transducer.final, Transducer.output,
      ih]
    rfl

/-- A whole text in front is read as it is. -/
theorem decodeLossy_encode_append (cs : List Char) (bytes : Bytes) :
    decodeLossy (encode cs ++ bytes) = cs ++ decodeLossy bytes := by
  have hfinal : machine.final {} (encode cs) = {} := congrArg Prod.fst (run_encode cs)
  have houtput : machine.output {} (encode cs) = cs := congrArg Prod.snd (run_encode cs)
  rw [decodeLossy, decodeLossy, Transducer.final_append, Transducer.output_append, hfinal, houtput,
    List.append_assoc]

theorem decodeLossy_encode (cs : List Char) : decodeLossy (encode cs) = cs := by
  have h := decodeLossy_encode_append cs []
  rwa [List.append_nil, show decodeLossy [] = [] from rfl, List.append_nil] at h

/-- Two texts with the same bytes are the same. -/
theorem encode_inj {cs ds : List Char} (h : encode cs = encode ds) : cs = ds := by
  rw [← decodeLossy_encode cs, h, decodeLossy_encode]

/-- Bytes that go on with a character of the chunk before. -/
theorem decodeLossy_continues_append {rest : Bytes} (hrest : ∀ b ∈ rest, Continues b)
    (bytes : Bytes) :
    decodeLossy (rest ++ bytes) = List.replicate rest.length REPLACEMENT ++ decodeLossy bytes := by
  induction rest with
  | nil => rfl
  | cons b rest ih =>
    have hfeed : machine.step {} b = ({}, [REPLACEMENT]) :=
      feed_continues (hrest b List.mem_cons_self)
    have htail := ih fun b hb => hrest b (List.mem_cons_of_mem _ hb)
    rw [List.length_cons, List.replicate_succ, List.cons_append, List.cons_append, ← htail,
      decodeLossy, Transducer.final_cons, Transducer.output_cons, hfeed]
    rfl

/-- The begin of a character at the end of a chunk. -/
theorem Spells.decodeLossy_part {c : Char} {lead : UInt8} {rest front : Bytes}
    (h : Spells c lead rest) (hfront : front <+: rest) (hne : front ≠ rest) :
    decodeLossy (lead :: front) = [REPLACEMENT] := by
  obtain ⟨hout, hmissing⟩ := h.part front hfront hne
  have houtput : machine.output {} (lead :: front) = [] := hout
  rw [decodeLossy, houtput, List.nil_append, flush]
  exact if_neg hmissing

/-! ## Mangled texts -/

/-- A text in which some characters beyond ASCII have become two or more replacements. -/
inductive Mangled : List Char → List Char → Prop
  | nil : Mangled [] []
  | keep (c : Char) {cs ds : List Char} : Mangled cs ds → Mangled (c :: cs) (c :: ds)
  | cut {c : Char} (n : Nat) {cs ds : List Char} : 0x80 ≤ c.toNat → Mangled cs ds →
      Mangled (c :: cs) (List.replicate (n + 2) REPLACEMENT ++ ds)

namespace Mangled

variable {cs ds cs' ds' : List Char}

theorem refl (cs : List Char) : Mangled cs cs := by
  induction cs with
  | nil => exact .nil
  | cons c cs ih => exact .keep c ih

theorem append (h : Mangled cs ds) (h' : Mangled cs' ds') : Mangled (cs ++ cs') (ds ++ ds') := by
  induction h with
  | nil => exact h'
  | keep c _ ih => exact .keep c ih
  | cut n hc _ ih =>
    rw [List.cons_append, List.append_assoc]
    exact .cut n hc ih

theorem length_le (h : Mangled cs ds) : cs.length ≤ ds.length := by
  induction h with
  | nil => exact Nat.le_refl 0
  | keep c _ ih => exact Nat.succ_le_succ ih
  | cut n _ _ ih =>
    rw [List.length_cons, List.length_append, List.length_replicate]
    omega

theorem eq_of_length (h : Mangled cs ds) (hlength : cs.length = ds.length) : cs = ds := by
  induction h with
  | nil => rfl
  | keep c _ ih => rw [ih (Nat.succ.inj hlength)]
  | cut n _ h _ =>
    have hle := h.length_le
    rw [List.length_cons, List.length_append, List.length_replicate] at hlength
    omega

/-- ASCII text stays as it is. -/
theorem eq_of_ascii (h : Mangled cs ds) (hascii : ∀ c ∈ cs, c.toNat < 0x80) : ds = cs := by
  induction h with
  | nil => rfl
  | keep c _ ih => rw [ih fun c hc => hascii c (List.mem_cons_of_mem _ hc)]
  | cut n hc _ _ => exact absurd (hascii _ List.mem_cons_self) (Nat.not_lt.mpr hc)

/-- An ASCII character of the mangled text is one of the text. -/
theorem mem_of_mem {x : Char} (hx : x ≠ REPLACEMENT) (h : Mangled cs ds) (hmem : x ∈ ds) :
    x ∈ cs := by
  induction h with
  | nil => exact hmem
  | keep c _ ih =>
    rcases List.mem_cons.mp hmem with rfl | hrest
    · exact List.mem_cons_self
    · exact List.mem_cons_of_mem _ (ih hrest)
  | cut n _ _ ih =>
    rcases List.mem_append.mp hmem with hrep | hrest
    · exact absurd (List.eq_of_mem_replicate hrep) hx
    · exact List.mem_cons_of_mem _ (ih hrest)

/-- A mangled text is cut where the text was, at an ASCII character. -/
theorem exists_of_append_cons {x : Char} (hx : x.toNat < 0x80) {front back : List Char}
    (h : Mangled (front ++ x :: back) ds) :
    ∃ front' back', ds = front' ++ x :: back' ∧ Mangled front front' ∧ Mangled back back' := by
  induction front generalizing ds with
  | nil =>
    cases h with
    | keep _ hback => exact ⟨[], _, rfl, .nil, hback⟩
    | cut n hc _ => exact absurd hx (Nat.not_lt.mpr hc)
  | cons c front ih =>
    cases h with
    | keep _ hrest =>
      obtain ⟨front', back', rfl, hfront, hback⟩ := ih hrest
      exact ⟨c :: front', back', rfl, .keep c hfront, hback⟩
    | cut n hc hrest =>
      obtain ⟨front', back', rfl, hfront, hback⟩ := ih hrest
      exact ⟨_, back', (List.append_assoc _ _ _).symm, .cut n hc hfront, hback⟩

end Mangled

/-! ## Chunks -/

/-- Bytes that begin and end between characters. -/
def Whole (bytes : Bytes) : Prop := ∃ cs, bytes = encode cs

theorem utf8EncodeChar_ne_nil (c : Char) : String.utf8EncodeChar c ≠ [] :=
  List.ne_nil_of_length_pos (by rw [String.length_utf8EncodeChar]; exact c.utf8Size_pos)

/-- A text is cut between characters, or within one. -/
theorem cut_encode {chunk tail : Bytes} {cs : List Char} (h : chunk ++ tail = encode cs) :
    (∃ cs₁ cs₂, cs = cs₁ ++ cs₂ ∧ chunk = encode cs₁ ∧ tail = encode cs₂) ∨
      ∃ cs₁ c cs₂ lead front back, cs = cs₁ ++ c :: cs₂ ∧ 0x80 ≤ c.toNat ∧
        Spells c lead (front ++ back) ∧ back ≠ [] ∧ chunk = encode cs₁ ++ lead :: front ∧
        tail = back ++ encode cs₂ := by
  induction cs generalizing chunk with
  | nil =>
    obtain ⟨rfl, rfl⟩ := List.append_eq_nil_iff.mp h
    exact .inl ⟨[], [], rfl, rfl, rfl⟩
  | cons c cs ih =>
    rw [encode_cons] at h
    rcases List.append_eq_append_iff.mp h with ⟨back, hchar, htail⟩ | ⟨chunk', hchunk, hcs⟩
    · rcases chunk with _ | ⟨lead, front⟩
      · exact .inl ⟨[], c :: cs, rfl, rfl, by rw [encode_cons, hchar]; exact htail⟩
      rcases eq_or_ne back [] with rfl | hback
      · refine .inl ⟨[c], cs, rfl, ?_, htail⟩
        rw [List.append_nil] at hchar
        rw [encode_cons, encode_nil, List.append_nil, hchar]
      rcases Nat.lt_or_ge c.toNat 0x80 with hascii | hbeyond
      · -- one byte is not cut in two
        rw [utf8EncodeChar_ascii hascii, List.cons_append] at hchar
        have hnil := (List.cons.inj hchar).2.symm
        exact absurd (List.append_eq_nil_iff.mp hnil).2 hback
      · obtain ⟨lead', b, rest, hspells⟩ := exists_spells hbeyond
        have heq := hspells.bytes.symm.trans hchar
        rw [List.cons_append] at heq
        obtain ⟨rfl, hrest⟩ := List.cons.inj heq
        rw [hrest] at hspells
        exact .inr ⟨[], c, cs, lead', front, back, rfl, hbeyond, hspells, hback, rfl, htail⟩
    · rcases ih hcs.symm with ⟨cs₁, cs₂, rfl, rfl, htail⟩ |
        ⟨cs₁, d, cs₂, lead, front, back, rfl, hd, hspells, hback, rfl, htail⟩
      · exact .inl ⟨c :: cs₁, cs₂, rfl, hchunk, htail⟩
      · refine .inr ⟨c :: cs₁, d, cs₂, lead, front, back, rfl, hd, hspells, hback, ?_, htail⟩
        rw [hchunk, encode_cons, List.append_assoc]

/-- Induction on the chunks; `rest` is what is left of a character that was cut. -/
theorem mangled_of_rest {chunks : List Bytes} (rest : Bytes) {cs : List Char}
    (hrest : ∀ b ∈ rest, Continues b) (h : chunks.flatten = rest ++ encode cs) :
    ∃ ds, decodeChunks chunks = List.replicate rest.length REPLACEMENT ++ ds ∧ Mangled cs ds ∧
      (rest = [] → (∃ chunk ∈ chunks, ¬Whole chunk) → cs.length < ds.length) := by
  induction chunks generalizing rest cs with
  | nil =>
    obtain ⟨rfl, hcs⟩ := List.append_eq_nil_iff.mp h.symm
    rcases cs with _ | ⟨c, cs⟩
    · refine ⟨[], rfl, .nil, fun _ ⟨chunk, hchunk, _⟩ => ?_⟩
      exact absurd hchunk List.not_mem_nil
    · exact absurd (List.append_eq_nil_iff.mp hcs).1 (utf8EncodeChar_ne_nil c)
  | cons chunk chunks ih =>
    rw [List.flatten_cons] at h
    have hdecode : decodeChunks (chunk :: chunks) = decodeLossy chunk ++ decodeChunks chunks := rfl
    rcases List.append_eq_append_iff.mp h with ⟨rest', hsplit, htail⟩ | ⟨chunk', rfl, hcs⟩
    · -- the whole chunk goes on with the character
      have hparts : ∀ b, b ∈ chunk ∨ b ∈ rest' → Continues b := fun b hb =>
        hrest b (hsplit ▸ List.mem_append.mpr hb)
      obtain ⟨ds, hds, hmangled, hlong⟩ := ih rest' (fun b hb => hparts b (.inr hb)) htail
      have hchunk := decodeLossy_continues_append (fun b hb => hparts b (.inl hb)) []
      rw [List.append_nil, show decodeLossy [] = [] from rfl, List.append_nil] at hchunk
      refine ⟨ds, ?_, hmangled, fun hnil hcut => ?_⟩
      · rw [hdecode, hchunk, hds, hsplit, List.length_append, ← List.replicate_append_replicate,
          List.append_assoc]
      · rw [hsplit] at hnil
        obtain ⟨rfl, rfl⟩ := List.append_eq_nil_iff.mp hnil
        obtain ⟨part, hpart, hnot⟩ := hcut
        rcases List.mem_cons.mp hpart with rfl | hlater
        · exact absurd ⟨[], rfl⟩ hnot
        · exact hlong rfl ⟨part, hlater, hnot⟩
    · rw [hdecode, decodeLossy_continues_append hrest]
      rcases cut_encode hcs.symm with ⟨cs₁, cs₂, rfl, rfl, htail⟩ |
        ⟨cs₁, c, cs₂, lead, front, back, rfl, hc, hspells, hback, rfl, htail⟩
      · obtain ⟨ds, hds, hmangled, hlong⟩ := ih [] (by simp) (htail.trans (List.nil_append _).symm)
        rw [decodeLossy_encode, hds]
        refine ⟨cs₁ ++ ds, by simp, (Mangled.refl cs₁).append hmangled, fun hnil hcut => ?_⟩
        obtain ⟨part, hpart, hnot⟩ := hcut
        rcases List.mem_cons.mp hpart with rfl | hlater
        · rw [hnil] at hnot
          exact absurd ⟨cs₁, rfl⟩ hnot
        · rw [List.length_append, List.length_append]
          exact Nat.add_lt_add_left (hlong rfl ⟨part, hlater, hnot⟩) _
      · obtain ⟨ds, hds, hmangled, -⟩ :=
          ih back (fun b hb => hspells.continues b (List.mem_append_right _ hb)) htail
        have hpart : decodeLossy (lead :: front) = [REPLACEMENT] :=
          hspells.decodeLossy_part (List.prefix_append _ _) (by simpa using hback)
        obtain ⟨n, hn⟩ := Nat.exists_eq_add_of_le' (List.length_pos_of_ne_nil hback)
        rw [decodeLossy_encode_append, hpart, hds, hn]
        refine ⟨cs₁ ++ (List.replicate (n + 2) REPLACEMENT ++ ds), ?_,
          (Mangled.refl cs₁).append (.cut n hc hmangled), fun _ _ => ?_⟩
        · rw [List.replicate_succ (n := n + 1)]
          simp
        · have hle := hmangled.length_le
          rw [List.length_append, List.length_append, List.length_append, List.length_replicate,
            List.length_cons]
          omega

theorem mangled_decodeChunks {chunks : List Bytes} {cs : List Char}
    (h : chunks.flatten = encode cs) : Mangled cs (decodeChunks chunks) := by
  obtain ⟨ds, hds, hmangled, -⟩ :=
    mangled_of_rest [] (by simp) (h.trans (List.nil_append _).symm)
  rw [hds]
  exact hmangled

theorem decodeChunks_eq_iff {chunks : List Bytes} {cs : List Char}
    (h : chunks.flatten = encode cs) :
    decodeChunks chunks = cs ↔ ∀ chunk ∈ chunks, Whole chunk := by
  obtain ⟨ds, hds, -, hlong⟩ :=
    mangled_of_rest [] (by simp) (h.trans (List.nil_append _).symm)
  have hds : decodeChunks chunks = ds := hds
  constructor
  · intro heq chunk hchunk
    by_contra hnot
    have hlt := hlong rfl ⟨chunk, hchunk, hnot⟩
    rw [← hds, heq] at hlt
    exact Nat.lt_irrefl _ hlt
  · intro hall
    -- whole chunks are read one by one, and their texts have the bytes of the whole
    have hread : ∀ parts : List Bytes, (∀ part ∈ parts, Whole part) →
        parts.flatten = encode (decodeChunks parts) := by
      intro parts hparts
      induction parts with
      | nil => rfl
      | cons part parts ih =>
        obtain ⟨cs', rfl⟩ := hparts part List.mem_cons_self
        have htail := ih fun p hp => hparts p (List.mem_cons_of_mem _ hp)
        rw [List.flatten_cons, htail, ← encode_append]
        exact congrArg encode (congrArg (· ++ _) (decodeLossy_encode cs').symm)
    exact encode_inj ((hread chunks hall).symm.trans h)

end TmuxccDriver.Lib
