import Mathlib.Data.List.Basic
import Mathlib.Tactic.Ring

/-!
# Bytes

Byte strings are lists of `UInt8`. This module names the ASCII codes the parsers
compare against, the two conversions between bytes and text that the driver
uses on structural (ASCII) fields, and big-endian numbers of a fixed width.

Results:
1. `beNat_beBytes`: a number is read back modulo the range of its width.
2. `readUInt_append`: a field is read at its offset, whatever is around it.
-/

namespace TmuxccDriver.Lib

abbrev Bytes := List UInt8

/-- `\n`. -/
abbrev LF : UInt8 := 0x0a
/-- `\r`. -/
abbrev CR : UInt8 := 0x0d
/-- `%`. -/
abbrev PERCENT : UInt8 := 0x25
abbrev SPACE : UInt8 := 0x20
abbrev ESC : UInt8 := 0x1b
abbrev BACKSLASH : UInt8 := 0x5c

/-- ASCII text as bytes. -/
def ascii (s : String) : Bytes := s.toList.map fun c => UInt8.ofNat c.toNat

/-- `String.fromCharCode` on every byte. -/
def fromCharCodes (bs : Bytes) : String := String.ofList (bs.map fun b => Char.ofNat b.toNat)

/-! ## Big-endian numbers -/

/-- The last `width` bytes of a number, the highest first. -/
def beBytes : Nat → Nat → Bytes
  | 0, _ => []
  | width + 1, n => UInt8.ofNat (n / 256 ^ width) :: beBytes width n

def beNat (bs : Bytes) : Nat := bs.foldl (fun n b => 256 * n + b.toNat) 0

/-- The number of `width` bytes at an offset. -/
def readUInt (bs : Bytes) (offset width : Nat) : Nat := beNat ((bs.drop offset).take width)

@[simp] theorem length_beBytes (width n : Nat) : (beBytes width n).length = width := by
  induction width with
  | zero => rfl
  | succ width ih => rw [beBytes, List.length_cons, ih]

theorem beNat_beBytes (width n : Nat) : beNat (beBytes width n) = n % 256 ^ width := by
  suffices h : ∀ width acc, (beBytes width n).foldl (fun n b => 256 * n + b.toNat) acc =
      acc * 256 ^ width + n % 256 ^ width by
    rw [beNat, h, Nat.zero_mul, Nat.zero_add]
  intro width
  induction width with
  | zero =>
    intro acc
    simp [beBytes, Nat.mod_one]
  | succ width ih =>
    intro acc
    have hsplit :
        n % 256 ^ (width + 1) = n % 256 ^ width + 256 ^ width * (n / 256 ^ width % 256) := by
      rw [Nat.pow_succ, Nat.mod_mul]
    have hbyte : (UInt8.ofNat (n / 256 ^ width)).toNat = n / 256 ^ width % 256 :=
      UInt8.toNat_ofNat'
    rw [beBytes, List.foldl_cons, ih, hsplit, hbyte]
    ring

/-- Bytes past the field do not matter. -/
theorem readUInt_of_prefix {bs : Bytes} (more : Bytes) {offset width : Nat}
    (h : offset + width ≤ bs.length) :
    readUInt (bs ++ more) offset width = readUInt bs offset width := by
  rw [readUInt, readUInt, List.drop_append_of_le_length (by omega),
    List.take_append_of_le_length (by rw [List.length_drop]; omega)]

theorem readUInt_append (before after : Bytes) (width n : Nat) :
    readUInt (before ++ (beBytes width n ++ after)) before.length width = n % 256 ^ width := by
  rw [readUInt, List.drop_left, List.take_left' (length_beBytes width n), beNat_beBytes]

end TmuxccDriver.Lib
