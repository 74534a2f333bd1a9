import TmuxccDriver.Lib.Text

/-!
# Layout strings

`parser/layout-string.ts`: the recursive-descent parser of tmux's `#{window_layout}`, and the
serializer. The cursor is the list of characters that are left. The descent has a fuel
argument, which `parseLayout` sets to more than the length of its text; `parseLayout_fuel`
says it never runs out.
-/

namespace TmuxccDriver.Parser
open TmuxccDriver.Lib

/-! ## Geometry trees -/

inductive Orientation
  | horizontal
  | vertical
deriving DecidableEq, Repr

/-- What is parsed is never negative; what is written can be. -/
structure Geometry where
  width : Int
  height : Int
  x : Int
  y : Int
deriving DecidableEq, Repr

/-- `LayoutCell`; a leaf without a pane id is unassigned. -/
inductive LayoutCell
  | leaf (geometry : Geometry) (paneId : Option Nat)
  | split (orientation : Orientation) (geometry : Geometry) (children : List LayoutCell)
deriving Repr

def LayoutCell.geometry : LayoutCell → Geometry
  | .leaf geometry _ | .split _ geometry _ => geometry

structure ParsedLayout where
  checksum : Nat
  computedChecksum : Nat
  root : LayoutCell
deriving Repr

/-- `LayoutParseError`: what was expected, and the text left where it was expected. -/
inductive LayoutParseError
  | expectedChar (ch : Char) (rest : List Char)
  | expectedNumber (what : String) (rest : List Char)
  | badPrefix (start : List Char)
  | badChecksum (checksum : List Char)
  | trailingInput (rest : List Char)
  /-- Not an error of the source: the descent was given too little fuel. -/
  | outOfFuel
deriving DecidableEq, Repr

/-! ## Checksum -/

/-- One character of `layoutChecksum`: rotate right in sixteen bits, then add. -/
def checksumStep (csum : Nat) (c : Char) : Nat :=
  ((csum >>> 1 ||| (csum &&& 1) <<< 15) &&& 0xffff) + c.toNat &&& 0xffff

/-- `layoutChecksum`. -/
def layoutChecksum (body : List Char) : Nat := body.foldl checksumStep 0

/-! ## Recursive descent -/

/-- `readUint`. -/
def readUint (s : List Char) : Option (Nat × List Char) :=
  match s.takeWhile Char.isDigit with
  | [] => none
  | d :: ds => some (natOfDigits (d :: ds), s.dropWhile Char.isDigit)

/-- `readUint`, with the error of a number that has to be there. -/
def expectUint (what : String) (s : List Char) : Except LayoutParseError (Nat × List Char) :=
  match readUint s with
  | none => .error (.expectedNumber what s)
  | some read => .ok read

/-- `expect`. -/
def expectChar (ch : Char) (s : List Char) : Except LayoutParseError (List Char) :=
  if s.head? = some ch then .ok s.tail else .error (.expectedChar ch s)

/-- `parseGeometry`. -/
def parseGeometry (s : List Char) : Except LayoutParseError (Geometry × List Char) := do
  let (width, s) ← expectUint "width" s
  let s ← expectChar 'x' s
  let (height, s) ← expectUint "height" s
  let s ← expectChar ',' s
  let (x, s) ← expectUint "x offset" s
  let s ← expectChar ',' s
  let (y, s) ← expectUint "y offset" s
  return (⟨width, height, x, y⟩, s)

/-- The pane id of a leaf. Digits that an `x` follows belong to the next sibling. -/
def readLeafPaneId (s : List Char) : Option Nat × List Char :=
  match s with
  | ',' :: rest =>
    match readUint rest with
    | none => (none, s)
    | some (id, after) => if after.head? = some 'x' then (none, s) else (some id, after)
  | _ => (none, s)

mutual

def parseCell : Nat → List Char → Except LayoutParseError (LayoutCell × List Char)
  | 0, _ => .error .outOfFuel
  | fuel + 1, s => do
    let (geometry, s) ← parseGeometry s
    match s with
    | '{' :: s =>
      let (children, s) ← parseChildren fuel s
      let s ← expectChar '}' s
      return (.split .horizontal geometry children, s)
    | '[' :: s =>
      let (children, s) ← parseChildren fuel s
      let s ← expectChar ']' s
      return (.split .vertical geometry children, s)
    | s =>
      let (paneId, s) := readLeafPaneId s
      return (.leaf geometry paneId, s)

def parseChildren : Nat → List Char → Except LayoutParseError (List LayoutCell × List Char)
  | 0, _ => .error .outOfFuel
  | fuel + 1, s => do
    let (child, s) ← parseCell fuel s
    match s with
    | ',' :: s =>
      let (children, s) ← parseChildren fuel s
      return (child :: children, s)
    | s => return ([child], s)

end

/-- `/^[0-9a-f]$/i`. -/
def isHexDigit (c : Char) : Bool :=
  c.isDigit || ('a' ≤ c && c ≤ 'f') || ('A' ≤ c && c ≤ 'F')

def hexDigitVal (c : Char) : Nat :=
  if c.isDigit then c.toNat - 0x30 else if c ≤ 'F' then c.toNat - 0x37 else c.toNat - 0x57

/-- `parseLayout`. -/
def parseLayout (s : List Char) : Except LayoutParseError ParsedLayout :=
  if s.length < 5 ∨ s[4]? ≠ some ',' then .error (.badPrefix (s.take 6))
  else if (s.take 4).any fun c => !isHexDigit c then .error (.badChecksum (s.take 4))
  else do
    let checksum := (s.take 4).foldl (fun n c => 16 * n + hexDigitVal c) 0
    let body := s.drop 5
    let (root, rest) ← parseCell (2 * body.length + 1) body
    if rest ≠ [] then .error (.trailingInput rest)
    else .ok ⟨checksum, layoutChecksum body, root⟩

/-! ## Serializer -/

def dumpGeometry (geometry : Geometry) : List Char :=
  geometry.width.repr.toList ++ 'x' :: geometry.height.repr.toList ++ ',' ::
    geometry.x.repr.toList ++ ',' :: geometry.y.repr.toList

def Orientation.openBracket : Orientation → Char
  | .horizontal => '{'
  | .vertical => '['

def Orientation.closeBracket : Orientation → Char
  | .horizontal => '}'
  | .vertical => ']'

mutual

def dumpCell : LayoutCell → List Char
  | .leaf geometry none => dumpGeometry geometry
  | .leaf geometry (some paneId) => dumpGeometry geometry ++ ',' :: paneId.repr.toList
  | .split orientation geometry children =>
    dumpGeometry geometry ++ orientation.openBracket ::
      [','].intercalate (dumpCells children) ++ [orientation.closeBracket]

/-- `children.map(dumpCell)`. -/
def dumpCells : List LayoutCell → List (List Char)
  | [] => []
  | cell :: cells => dumpCell cell :: dumpCells cells

end

/-- `csum.toString(16).padStart(4, "0")`. -/
def dumpChecksum (csum : Nat) : List Char := (Nat.toDigits 16 csum).leftpad 4 '0'

/-- `dumpLayout`; the checksum is that of the body. -/
def dumpLayout (layout : ParsedLayout) : List Char :=
  let body := dumpCell layout.root
  dumpChecksum (layoutChecksum body) ++ ',' :: body

/-! ## The descent ends -/

/-- A parser that takes at least one character when it succeeds, and whose errors are
errors of the source. -/
def Consumes {α : Type} (s : List Char) : Except LayoutParseError (α × List Char) → Prop
  | .ok (_, rest) => rest.length < s.length
  | .error e => e ≠ .outOfFuel

theorem consumes_expectUint (what : String) (s : List Char) : Consumes s (expectUint what s) := by
  unfold expectUint readUint
  have hsplit := congrArg List.length (List.takeWhile_append_dropWhile (p := Char.isDigit) (l := s))
  rw [List.length_append] at hsplit
  cases hdigits : s.takeWhile Char.isDigit with
  | nil => simp [Consumes]
  | cons d ds =>
    rw [hdigits, List.length_cons] at hsplit
    show (s.dropWhile Char.isDigit).length < s.length
    omega

theorem expectChar_ok {ch : Char} {s rest : List Char} (h : expectChar ch s = .ok rest) :
    s = ch :: rest := by
  unfold expectChar at h
  split at h
  · next hhead =>
    cases h
    exact List.eq_cons_of_mem_head? hhead
  · cases h

theorem expectChar_error {ch : Char} {s : List Char} {e : LayoutParseError}
    (h : expectChar ch s = .error e) : e ≠ .outOfFuel := by
  unfold expectChar at h
  split at h
  · cases h
  · cases h
    simp

/-- Going on after a parser that took something, with one that takes something too. -/
theorem Consumes.bind {α β : Type} {s : List Char} {r : Except LayoutParseError (α × List Char)}
    {f : α × List Char → Except LayoutParseError (β × List Char)} (h : Consumes s r)
    (hf : ∀ a rest, rest.length < s.length → Consumes s (f (a, rest))) : Consumes s (r >>= f) := by
  rcases r with e | ⟨a, rest⟩
  · exact h
  · exact hf a rest h

theorem Consumes.mono {α : Type} {s s' : List Char} {r : Except LayoutParseError (α × List Char)}
    (h : Consumes s r) (hlen : s.length ≤ s'.length) : Consumes s' r := by
  rcases r with e | ⟨a, rest⟩
  · exact h
  · exact Nat.lt_of_lt_of_le h hlen

theorem consumes_expectChar {β : Type} {ch : Char} {s s' : List Char}
    {f : List Char → Except LayoutParseError (β × List Char)} (hs : s.length < s'.length)
    (hf : ∀ rest, rest.length < s'.length → Consumes s' (f rest)) :
    Consumes s' (expectChar ch s >>= f) := by
  cases hread : expectChar ch s with
  | error e => exact expectChar_error hread
  | ok rest =>
    refine hf rest ?_
    rw [expectChar_ok hread, List.length_cons] at hs
    omega

theorem consumes_parseGeometry (s : List Char) : Consumes s (parseGeometry s) := by
  unfold parseGeometry
  refine (consumes_expectUint _ s).bind fun width s₁ h₁ => ?_
  refine consumes_expectChar h₁ fun s₂ h₂ => ?_
  refine ((consumes_expectUint _ s₂).mono h₂.le).bind fun height s₃ h₃ => ?_
  refine consumes_expectChar h₃ fun s₄ h₄ => ?_
  refine ((consumes_expectUint _ s₄).mono h₄.le).bind fun x s₅ h₅ => ?_
  refine consumes_expectChar h₅ fun s₆ h₆ => ?_
  exact ((consumes_expectUint _ s₆).mono h₆.le).bind fun y s₇ h₇ => h₇

theorem readLeafPaneId_length (s : List Char) : (readLeafPaneId s).2.length ≤ s.length := by
  unfold readLeafPaneId
  split
  · next rest =>
    have hread := consumes_expectUint "" rest
    unfold expectUint at hread
    split
    · rfl
    · next id after hsome =>
      rw [hsome] at hread
      have hlt : after.length < rest.length := hread
      split
      · rfl
      · show after.length ≤ (',' :: rest).length
        rw [List.length_cons]
        omega
  · rfl

theorem parse_consumes (fuel : Nat) :
    (∀ s, 2 * s.length + 1 ≤ fuel → Consumes s (parseCell fuel s)) ∧
      ∀ s, 2 * s.length + 2 ≤ fuel → Consumes s (parseChildren fuel s) := by
  induction fuel with
  | zero => exact ⟨fun s hs => by omega, fun s hs => by omega⟩
  | succ fuel ih =>
    obtain ⟨ihCell, ihChildren⟩ := ih
    constructor
    · intro s hs
      unfold parseCell
      refine (consumes_parseGeometry s).bind fun geometry s₁ h₁ => ?_
      dsimp only
      split
      · next s₂ =>
        rw [List.length_cons] at h₁
        refine ((ihChildren s₂ (by omega)).mono (by omega)).bind fun children s₃ h₃ => ?_
        exact consumes_expectChar h₃ fun s₄ h₄ => h₄
      · next s₂ =>
        rw [List.length_cons] at h₁
        refine ((ihChildren s₂ (by omega)).mono (by omega)).bind fun children s₃ h₃ => ?_
        exact consumes_expectChar h₃ fun s₄ h₄ => h₄
      · exact (readLeafPaneId_length s₁).trans_lt h₁
    · intro s hs
      unfold parseChildren
      refine (ihCell s (by omega)).bind fun child s₁ h₁ => ?_
      dsimp only
      split
      · next s₂ =>
        rw [List.length_cons] at h₁
        refine ((ihChildren s₂ (by omega)).mono (by omega)).bind fun children s₃ h₃ => ?_
        exact h₃
      · exact h₁

/-- The fuel `parseLayout` gives is enough: its errors are the source's. -/
theorem parseLayout_fuel (s : List Char) : parseLayout s ≠ .error .outOfFuel := by
  unfold parseLayout
  split
  · simp
  · split
    · simp
    · have hcell := (parse_consumes (2 * (s.drop 5).length + 1)).1 (s.drop 5) le_rfl
      dsimp only
      rcases hparse : parseCell (2 * (s.drop 5).length + 1) (s.drop 5) with e | ⟨root, rest⟩
      · rw [hparse] at hcell
        exact fun h => hcell (Except.error.inj h)
      · show (if rest ≠ [] then Except.error (LayoutParseError.trailingInput rest) else _) ≠ _
        split <;> simp

end TmuxccDriver.Parser
