import Maketree.Text.Hex
/-! Strict UTF-8 decoding, piece by piece, with the place and reason of the first fault. -/
namespace Maketree.Text.Utf8

inductive Reason where
  | invalidStart
  | invalidContinuation
  | unexpectedEnd
  deriving DecidableEq, Repr

def Reason.text : Reason → String
  | .invalidStart => "invalid start byte"
  | .invalidContinuation => "invalid continuation byte"
  | .unexpectedEnd => "unexpected end of data"

structure Failure where
  start : Nat
  stop : Nat
  first : UInt8
  reason : Reason
  deriving DecidableEq, Repr

def Failure.describe (f : Failure) : String :=
  if f.stop = f.start + 1 then
    "\x27utf-8\x27 codec can\x27t decode byte 0x" ++ String.ofList (hexDigits 2 f.first.toNat) ++
      " in position " ++ toString f.start ++ ": " ++ f.reason.text
  else
    "\x27utf-8\x27 codec can\x27t decode bytes in position " ++ toString f.start ++ "-" ++
      toString (f.stop - 1) ++ ": " ++ f.reason.text

def isContinuation (b : UInt8) : Bool := 0x80 ≤ b && b ≤ 0xBF

def badSecondOfThree (b b2 : UInt8) : Bool :=
  !isContinuation b2 || (b == 0xE0 && b2 < 0xA0) || (b == 0xED && 0xA0 ≤ b2)

def badSecondOfFour (b b2 : UInt8) : Bool :=
  !isContinuation b2 || (b == 0xF0 && b2 < 0x90) || (b == 0xF4 && 0x90 ≤ b2)

def low (b : UInt8) (k : Nat) : Nat := b.toNat % Nat.pow 2 k

/-- The characters decoded from position `pos` on, and the bytes held back at the end; or the first
fault. -/
def scan (pos : Nat) : List UInt8 → Except Failure (List Char × List UInt8)
  | [] => .ok ([], [])
  | b :: rest =>
    let fault (width : Nat) (reason : Reason) : Except Failure (List Char × List UInt8) :=
      .error ⟨pos, pos + width, b, reason⟩
    let emit (c : Nat) (r : Except Failure (List Char × List UInt8)) :=
      r.map fun (cs, held) => (Char.ofNat c :: cs, held)
    if b < 0x80 then emit b.toNat (scan (pos + 1) rest)
    else if b < 0xC2 then fault 1 .invalidStart
    else if b < 0xE0 then
      match rest with
      | [] => .ok ([], [b])
      | b2 :: rest2 =>
        if isContinuation b2 then emit (low b 5 * 64 + low b2 6) (scan (pos + 2) rest2)
        else fault 1 .invalidContinuation
    else if b < 0xF0 then
      match rest with
      | [] => .ok ([], [b])
      | [b2] =>
        if !badSecondOfThree b b2 then .ok ([], [b, b2])
        else if b == 0xED && isContinuation b2 then .ok ([], [b, b2])
        else fault 1 .invalidContinuation
      | b2 :: b3 :: rest3 =>
        if badSecondOfThree b b2 then fault 1 .invalidContinuation
        else if !isContinuation b3 then fault 2 .invalidContinuation
        else emit (low b 4 * 4096 + low b2 6 * 64 + low b3 6) (scan (pos + 3) rest3)
    else if b < 0xF5 then
      match rest with
      | [] => .ok ([], [b])
      | [b2] => if badSecondOfFour b b2 then fault 1 .invalidContinuation else .ok ([], [b, b2])
      | [b2, b3] =>
        if badSecondOfFour b b2 then fault 1 .invalidContinuation
        else if !isContinuation b3 then fault 2 .invalidContinuation
        else .ok ([], [b, b2, b3])
      | b2 :: b3 :: b4 :: rest4 =>
        if badSecondOfFour b b2 then fault 1 .invalidContinuation
        else if !isContinuation b3 then fault 2 .invalidContinuation
        else if !isContinuation b4 then fault 3 .invalidContinuation
        else emit (low b 3 * 262144 + low b2 6 * 4096 + low b3 6 * 64 + low b4 6)
          (scan (pos + 4) rest4)
    else fault 1 .invalidStart

def finish : List UInt8 → Option Failure
  | [] => none
  | [0xED, b2] =>
    if 0xA0 ≤ b2 then some ⟨0, 1, 0xED, .invalidContinuation⟩ else some ⟨0, 2, 0xED, .unexpectedEnd⟩
  | b :: rest => some ⟨0, rest.length + 1, b, .unexpectedEnd⟩

def decodePieces (held : List UInt8) : List (List UInt8) → List Char × Except Failure (List UInt8)
  | [] => ([], .ok held)
  | piece :: rest =>
    match scan 0 (held ++ piece) with
    | .error f => ([], .error f)
    | .ok (cs, next) =>
      let (more, last) := decodePieces next rest
      (cs ++ more, last)

example : scan 0 [0x41, 0xC3, 0xA9] = .ok (['A', 'é'], []) := rfl
example : (scan 0 [0x41, 0x20, 0xE2, 0x82, 0x0A]).toOption = none ∧
    (match scan 0 [0x41, 0x20, 0xE2, 0x82, 0x0A] with
      | .error f => f.describe
      | .ok _ => "") = "\x27utf-8\x27 codec can\x27t decode bytes in position 2-3: invalid continuation byte" := by
  decide
example : scan 0 [0x41, 0xED, 0xA0] = .ok (['A'], [0xED, 0xA0]) ∧
    finish [0xED, 0xA0] = some ⟨0, 1, 0xED, .invalidContinuation⟩ := ⟨rfl, rfl⟩
example : decodePieces [] [[0x41, 0xC3], [0xA9, 0xFF]] = (['A'], .error ⟨2, 3, 0xFF, .invalidStart⟩) :=
  rfl

end Maketree.Text.Utf8
