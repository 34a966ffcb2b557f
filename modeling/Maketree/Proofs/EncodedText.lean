import Mathlib
import Maketree.Source
import Maketree.Proofs.SourceSize
/-! A file holding the UTF-8 encoding of a text, with no lone carriage return, reads as the text. -/
namespace Maketree.Text.Utf8

theorem charScalar (c : Char) : c.toNat < 0x110000 ∧ ¬(0xD800 ≤ c.toNat ∧ c.toNat ≤ 0xDFFF) := by
  have valid := c.valid
  simp only [UInt32.isValidChar, Nat.isValidChar] at valid
  simp only [Char.toNat]
  omega

theorem scanOne (pos : Nat) (b : UInt8) (more : List UInt8) (small : b.toNat < 0x80) :
    scan pos (b :: more) = (scan (pos + 1) more).map fun (cs, held) => (Char.ofNat b.toNat :: cs, held) := by
  rw [scan.eq_def]
  simp [UInt8.lt_iff_toNat_lt, small]

theorem scanTwo (pos : Nat) (b b2 : UInt8) (more : List UInt8) (lead : 0xC2 ≤ b.toNat ∧ b.toNat < 0xE0)
    (cont : 0x80 ≤ b2.toNat ∧ b2.toNat ≤ 0xBF) :
    scan pos (b :: b2 :: more) =
      (scan (pos + 2) more).map fun (cs, held) => (Char.ofNat (low b 5 * 64 + low b2 6) :: cs, held) := by
  have c2 : isContinuation b2 = true := by
    simp [isContinuation, UInt8.le_iff_toNat_le]; omega
  have notOne : ¬b.toNat < 0x80 := by omega
  have notStart : ¬b.toNat < 0xC2 := by omega
  rw [scan.eq_def]
  simp [UInt8.lt_iff_toNat_lt, notOne, notStart, lead.2, c2]

theorem scanThree (pos : Nat) (b b2 b3 : UInt8) (more : List UInt8) (lead : 0xE0 ≤ b.toNat ∧ b.toNat < 0xF0)
    (second : badSecondOfThree b b2 = false) (cont : 0x80 ≤ b3.toNat ∧ b3.toNat ≤ 0xBF) :
    scan pos (b :: b2 :: b3 :: more) = (scan (pos + 3) more).map
      fun (cs, held) => (Char.ofNat (low b 4 * 4096 + low b2 6 * 64 + low b3 6) :: cs, held) := by
  have c3 : isContinuation b3 = true := by
    simp [isContinuation, UInt8.le_iff_toNat_le]; omega
  have notOne : ¬b.toNat < 0x80 := by omega
  have notStart : ¬b.toNat < 0xC2 := by omega
  have notTwo : ¬b.toNat < 0xE0 := by omega
  rw [scan.eq_def]
  simp [UInt8.lt_iff_toNat_lt, notOne, notStart, notTwo, lead.2, second, c3]

theorem scanFour (pos : Nat) (b b2 b3 b4 : UInt8) (more : List UInt8) (lead : 0xF0 ≤ b.toNat ∧ b.toNat < 0xF5)
    (second : badSecondOfFour b b2 = false) (cont3 : 0x80 ≤ b3.toNat ∧ b3.toNat ≤ 0xBF)
    (cont4 : 0x80 ≤ b4.toNat ∧ b4.toNat ≤ 0xBF) :
    scan pos (b :: b2 :: b3 :: b4 :: more) = (scan (pos + 4) more).map
      fun (cs, held) => (Char.ofNat (low b 3 * 262144 + low b2 6 * 4096 + low b3 6 * 64 + low b4 6) :: cs,
        held) := by
  have c3 : isContinuation b3 = true := by
    simp [isContinuation, UInt8.le_iff_toNat_le]; omega
  have c4 : isContinuation b4 = true := by
    simp [isContinuation, UInt8.le_iff_toNat_le]; omega
  have notOne : ¬b.toNat < 0x80 := by omega
  have notStart : ¬b.toNat < 0xC2 := by omega
  have notTwo : ¬b.toNat < 0xE0 := by omega
  have notThree : ¬b.toNat < 0xF0 := by omega
  rw [scan.eq_def]
  simp [UInt8.lt_iff_toNat_lt, notOne, notStart, notTwo, notThree, lead.2, second, c3, c4]

theorem encodingCases (c : Char) :
    (∃ b, String.utf8EncodeChar c = [b] ∧ b.toNat < 0x80 ∧ Char.ofNat b.toNat = c) ∨
    (∃ b b2, String.utf8EncodeChar c = [b, b2] ∧ (0xC2 ≤ b.toNat ∧ b.toNat < 0xE0) ∧
      (0x80 ≤ b2.toNat ∧ b2.toNat ≤ 0xBF) ∧ Char.ofNat (low b 5 * 64 + low b2 6) = c) ∨
    (∃ b b2 b3, String.utf8EncodeChar c = [b, b2, b3] ∧ (0xE0 ≤ b.toNat ∧ b.toNat < 0xF0) ∧
      badSecondOfThree b b2 = false ∧ (0x80 ≤ b3.toNat ∧ b3.toNat ≤ 0xBF) ∧
      Char.ofNat (low b 4 * 4096 + low b2 6 * 64 + low b3 6) = c) ∨
    (∃ b b2 b3 b4, String.utf8EncodeChar c = [b, b2, b3, b4] ∧ (0xF0 ≤ b.toNat ∧ b.toNat < 0xF5) ∧
      badSecondOfFour b b2 = false ∧ (0x80 ≤ b3.toNat ∧ b3.toNat ≤ 0xBF) ∧
      (0x80 ≤ b4.toNat ∧ b4.toNat ≤ 0xBF) ∧
      Char.ofNat (low b 3 * 262144 + low b2 6 * 4096 + low b3 6 * 64 + low b4 6) = c) := by
  obtain ⟨below, notSurrogate⟩ := charScalar c
  have back : Char.ofNat c.toNat = c := Char.ofNat_toNat c
  by_cases one : c.toNat ≤ 0x7F
  · refine .inl ⟨UInt8.ofNat c.toNat, by simp [String.utf8EncodeChar, Char.toNat_val, one], by simp; omega, ?_⟩
    rw [UInt8.toNat_ofNat', Nat.mod_eq_of_lt (by omega), back]
  by_cases two : c.toNat ≤ 0x7FF
  · refine .inr (.inl ⟨UInt8.ofNat (c.toNat / 64 % 32 + 0xC0), UInt8.ofNat (c.toNat % 64 + 0x80),
      by simp [String.utf8EncodeChar, Char.toNat_val, one, two], by simp; omega, by simp; omega, ?_⟩)
    have value : low (UInt8.ofNat (c.toNat / 64 % 32 + 0xC0)) 5 * 64 + low (UInt8.ofNat (c.toNat % 64 + 0x80)) 6 =
        c.toNat := by
      simp only [low, UInt8.toNat_ofNat']
      norm_num
      omega
    rw [value, back]
  by_cases three : c.toNat ≤ 0xFFFF
  · -- the range of the second byte rules out overlong forms and surrogates
    have second : badSecondOfThree (UInt8.ofNat (c.toNat / 4096 % 16 + 0xE0))
        (UInt8.ofNat (c.toNat / 64 % 64 + 0x80)) = false := by
      simp [badSecondOfThree, isContinuation, UInt8.le_iff_toNat_le, UInt8.lt_iff_toNat_lt, UInt8.toNat_inj.symm]
      omega
    refine .inr (.inr (.inl ⟨UInt8.ofNat (c.toNat / 4096 % 16 + 0xE0), UInt8.ofNat (c.toNat / 64 % 64 + 0x80),
      UInt8.ofNat (c.toNat % 64 + 0x80), by simp [String.utf8EncodeChar, Char.toNat_val, one, two, three],
      by simp; omega, second, by simp; omega, ?_⟩))
    have value : low (UInt8.ofNat (c.toNat / 4096 % 16 + 0xE0)) 4 * 4096 +
        low (UInt8.ofNat (c.toNat / 64 % 64 + 0x80)) 6 * 64 + low (UInt8.ofNat (c.toNat % 64 + 0x80)) 6 =
        c.toNat := by
      simp only [low, UInt8.toNat_ofNat']
      norm_num
      omega
    rw [value, back]
  -- the range of the second byte rules out overlong forms and values past 0x10FFFF
  have second : badSecondOfFour (UInt8.ofNat (c.toNat / 262144 % 8 + 0xF0))
      (UInt8.ofNat (c.toNat / 4096 % 64 + 0x80)) = false := by
    simp [badSecondOfFour, isContinuation, UInt8.le_iff_toNat_le, UInt8.lt_iff_toNat_lt, UInt8.toNat_inj.symm]
    omega
  refine .inr (.inr (.inr ⟨UInt8.ofNat (c.toNat / 262144 % 8 + 0xF0), UInt8.ofNat (c.toNat / 4096 % 64 + 0x80),
    UInt8.ofNat (c.toNat / 64 % 64 + 0x80), UInt8.ofNat (c.toNat % 64 + 0x80),
    by simp [String.utf8EncodeChar, Char.toNat_val, one, two, three], by simp; omega, second, by simp; omega,
    by simp; omega, ?_⟩))
  have value : low (UInt8.ofNat (c.toNat / 262144 % 8 + 0xF0)) 3 * 262144 +
      low (UInt8.ofNat (c.toNat / 4096 % 64 + 0x80)) 6 * 4096 +
      low (UInt8.ofNat (c.toNat / 64 % 64 + 0x80)) 6 * 64 + low (UInt8.ofNat (c.toNat % 64 + 0x80)) 6 =
      c.toNat := by
    simp only [low, UInt8.toNat_ofNat']
    norm_num
    omega
  rw [value, back]

theorem scanChar (pos : Nat) (c : Char) (more : List UInt8) :
    scan pos (String.utf8EncodeChar c ++ more) =
      (scan (pos + c.utf8Size) more).map fun (cs, held) => (c :: cs, held) := by
  rw [← String.length_utf8EncodeChar]
  rcases encodingCases c with ⟨b, enc, small, value⟩ | ⟨b, b2, enc, lead, cont, value⟩ |
      ⟨b, b2, b3, enc, lead, second, cont, value⟩ | ⟨b, b2, b3, b4, enc, lead, second, cont3, cont4, value⟩
  · rw [enc, List.singleton_append, scanOne pos b more small, value]
    rfl
  · rw [enc, List.cons_append, List.singleton_append, scanTwo pos b b2 more lead cont, value]
    rfl
  · rw [enc, List.cons_append, List.cons_append, List.singleton_append,
      scanThree pos b b2 b3 more lead second cont, value]
    rfl
  · rw [enc, List.cons_append, List.cons_append, List.cons_append, List.singleton_append,
      scanFour pos b b2 b3 b4 more lead second cont3 cont4, value]
    rfl

def Cut (held : List UInt8) (cs : List Char) : Prop :=
  held = [] ∨ ∃ c more, cs = c :: more ∧ held <+: String.utf8EncodeChar c ∧ held.length < c.utf8Size

theorem scanCut (pos : Nat) {c : Char} {pre : List UInt8} (cut : pre <+: String.utf8EncodeChar c)
    (short : pre.length < c.utf8Size) : scan pos pre = .ok ([], pre) := by
  rw [← String.length_utf8EncodeChar] at short
  obtain ⟨k, rfl⟩ : ∃ k, pre = (String.utf8EncodeChar c).take k := ⟨_, List.prefix_iff_eq_take.mp cut⟩
  rcases encodingCases c with ⟨b, enc, small, -⟩ | ⟨b, b2, enc, lead, cont, -⟩ |
      ⟨b, b2, b3, enc, lead, second, cont, -⟩ | ⟨b, b2, b3, b4, enc, lead, second, cont3, cont4, -⟩ <;>
    rw [enc] at short ⊢ <;> simp only [List.length_take, List.length_cons, List.length_nil] at short
  · -- a character of one byte is never cut
    obtain rfl : k = 0 := by omega
    rfl
  · have notOne : ¬b.toNat < 0x80 := by omega
    have notStart : ¬b.toNat < 0xC2 := by omega
    have fewer : k < 2 := by omega
    interval_cases k
    · rfl
    · rw [scan.eq_def]
      simp [UInt8.lt_iff_toNat_lt, notOne, notStart, lead.2]
  · have notOne : ¬b.toNat < 0x80 := by omega
    have notStart : ¬b.toNat < 0xC2 := by omega
    have notTwo : ¬b.toNat < 0xE0 := by omega
    have fewer : k < 3 := by omega
    interval_cases k
    · rfl
    all_goals
      rw [scan.eq_def]
      simp [UInt8.lt_iff_toNat_lt, notOne, notStart, notTwo, lead.2, second]
  · have notOne : ¬b.toNat < 0x80 := by omega
    have notStart : ¬b.toNat < 0xC2 := by omega
    have notTwo : ¬b.toNat < 0xE0 := by omega
    have notThree : ¬b.toNat < 0xF0 := by omega
    have c3 : isContinuation b3 = true := by
      simp [isContinuation, UInt8.le_iff_toNat_le]; omega
    have fewer : k < 4 := by omega
    interval_cases k
    · rfl
    all_goals
      rw [scan.eq_def]
      simp [UInt8.lt_iff_toNat_lt, notOne, notStart, notTwo, notThree, lead.2, second, c3]

theorem Cut.scan {held : List UInt8} {cs : List Char} (cut : Cut held cs) (pos : Nat) :
    scan pos held = .ok ([], held) := by
  rcases cut with rfl | ⟨c, more, -, pre, short⟩
  · rfl
  · exact scanCut pos pre short

theorem scanEncoded (cs : List Char) {held : List UInt8} (cut : ∀ pos, scan pos held = .ok ([], held))
    (pos : Nat) : scan pos (cs.flatMap String.utf8EncodeChar ++ held) = .ok (cs, held) := by
  induction cs generalizing pos with
  | nil => exact cut pos
  | cons c more ih =>
    rw [List.flatMap_cons, List.append_assoc, scanChar, ih]
    rfl

theorem prefixOfEncoding {cs : List Char} {pre : List UInt8}
    (isPrefix : pre <+: cs.flatMap String.utf8EncodeChar) :
    ∃ k cut, pre = (cs.take k).flatMap String.utf8EncodeChar ++ cut ∧ Cut cut (cs.drop k) := by
  induction cs generalizing pre with
  | nil => exact ⟨0, [], by simpa using isPrefix, .inl rfl⟩
  | cons c more ih =>
    rw [List.flatMap_cons] at isPrefix
    by_cases short : pre.length < c.utf8Size
    · have within : pre <+: String.utf8EncodeChar c :=
        List.prefix_of_prefix_length_le isPrefix (List.prefix_append _ _)
          (by rw [String.length_utf8EncodeChar]; omega)
      exact ⟨0, pre, by simp, .inr ⟨c, more, rfl, within, short⟩⟩
    · have whole : String.utf8EncodeChar c <+: pre :=
        List.prefix_of_prefix_length_le (List.prefix_append _ _) isPrefix
          (by rw [String.length_utf8EncodeChar]; omega)
      obtain ⟨rest, rfl⟩ := whole
      obtain ⟨k, cut, split, held⟩ := ih ((List.prefix_append_right_inj _).mp isPrefix)
      exact ⟨k + 1, cut, by simp [split], held⟩

theorem decodeEncoded (pieces : List (List UInt8)) {held : List UInt8} {cs : List Char}
    (joined : held ++ pieces.flatten = cs.flatMap String.utf8EncodeChar) (cut : Cut held cs) :
    decodePieces held pieces = (cs, .ok []) := by
  induction pieces generalizing held cs with
  | nil =>
    rw [List.flatten_nil, List.append_nil] at joined
    rcases cut with rfl | ⟨c, more, rfl, -, short⟩
    · -- nothing held and nothing left: no characters at all
      have none : cs = [] := by
        rcases cs with _ | ⟨c, more⟩
        · rfl
        · have := String.utf8EncodeChar_ne_nil (c := c)
          simp_all
      rw [none]
      rfl
    · have long := congrArg List.length joined
      simp only [List.flatMap_cons, List.length_append, String.length_utf8EncodeChar] at long
      omega
  | cons piece rest ih =>
    have isPrefix : held ++ piece <+: cs.flatMap String.utf8EncodeChar :=
      ⟨rest.flatten, by rw [← joined, List.flatten_cons, List.append_assoc]⟩
    obtain ⟨k, next, split, nextCut⟩ := prefixOfEncoding isPrefix
    have scanned := scanEncoded (cs.take k) nextCut.scan 0
    rw [← split] at scanned
    have restJoined : next ++ rest.flatten = (cs.drop k).flatMap String.utf8EncodeChar := by
      have whole : cs.flatMap String.utf8EncodeChar =
          (cs.take k).flatMap String.utf8EncodeChar ++ (cs.drop k).flatMap String.utf8EncodeChar := by
        rw [← List.flatMap_append, List.take_append_drop]
      rw [whole, List.flatten_cons, ← List.append_assoc, split, List.append_assoc] at joined
      exact List.append_cancel_left joined
    rw [decodePieces, scanned]
    simp only [ih restJoined nextCut, List.take_append_drop]

end Maketree.Text.Utf8

namespace Maketree.Source

open Text.Utf8

theorem ofBytesEncoded (cs : List Char) :
    ofBytes (cs.flatMap String.utf8EncodeChar) = { lines := allLines cs, failure := none } := by
  have decoded := decodeEncoded (blocks blockSize (cs.flatMap String.utf8EncodeChar))
    (by rw [List.nil_append, blocksJoin]) (.inl rfl)
  simp only [ofBytes, decoded]
  rfl

def NoLoneReturn (cs : List Char) : Prop := ∀ i, cs[i]? = some '\r' → cs[i + 1]? = some '\n'

theorem noLoneReturnBelow (cs : List Char) :
    NoLoneReturn cs ↔ ∀ i < cs.length, cs[i]? = some '\r' → cs[i + 1]? = some '\n' := by
  refine ⟨fun lone i _ => lone i, fun below i found => ?_⟩
  obtain ⟨inside, -⟩ := List.getElem?_eq_some_iff.mp found
  exact below i inside found

instance : DecidablePred NoLoneReturn := fun cs => decidable_of_iff _ (noLoneReturnBelow cs).symm

example : NoLoneReturn "A\r\nB\n".toList ∧ ¬NoLoneReturn "A\rB".toList := by decide

theorem NoLoneReturn.tail {c : Char} {cs : List Char} (lone : NoLoneReturn (c :: cs)) : NoLoneReturn cs :=
  fun i found => lone (i + 1) found

theorem NoLoneReturn.feed {cs : List Char} (lone : NoLoneReturn ('\r' :: cs)) : cs.head? = some '\n' := by
  simpa [List.head?_eq_getElem?] using lone 0 rfl

def Plain (cs : List Char) : Prop := ∀ c ∈ cs, c ≠ '\r' ∧ c ≠ '\n'

theorem dropLineEndsPlain {cs : List Char} (plain : Plain cs) : dropLineEnds cs = cs := by
  unfold dropLineEnds
  rcases last : cs.reverse with _ | ⟨c, rest⟩
  · simpa using last
  · have inside : c ∈ cs := by rw [← List.mem_reverse, last]; exact List.mem_cons_self
    obtain ⟨notCr, notLf⟩ := plain c inside
    rw [List.dropWhile_cons_of_neg (by simp [notCr, notLf]), ← last, List.reverse_reverse]

theorem dropLineEndsReturn {cs : List Char} (plain : Plain cs) : dropLineEnds (cs ++ ['\r']) = cs := by
  unfold dropLineEnds
  rw [List.reverse_append, List.reverse_singleton, List.singleton_append,
    List.dropWhile_cons_of_pos (by simp)]
  exact dropLineEndsPlain plain

theorem Plain.cons {c : Char} {cs : List Char} (notCr : c ≠ '\r') (notLf : c ≠ '\n') (plain : Plain cs) :
    Plain (c :: cs) := by
  simp only [Plain, List.mem_cons, forall_eq_or_imp]
  exact ⟨⟨notCr, notLf⟩, plain⟩

theorem Plain.reverse {cs : List Char} (plain : Plain cs) : Plain cs.reverse :=
  fun c inside => plain c (List.mem_reverse.mp inside)

theorem linesCons (x : List Char) {pieces : List (List Char)} (more : pieces ≠ []) :
    ((x :: pieces).dropLast.map dropLineEnds, (x :: pieces).getLast?.getD []) =
      (dropLineEnds x :: pieces.dropLast.map dropLineEnds, pieces.getLast?.getD []) := by
  obtain ⟨p, rest, rfl⟩ := List.exists_cons_of_ne_nil more
  simp

theorem splitLinesTailPlain (cur cs : List Char) (plain : Plain cur) : Plain (splitLinesFrom cur cs).2 := by
  fun_induction splitLinesFrom cur cs with
  | case1 cur => exact plain.reverse
  | case2 cur rest ls tail split ih | case3 cur rest _ ls tail split ih | case4 cur rest ls tail split ih =>
    have after := ih (by simp [Plain])
    rwa [split] at after
  | case5 cur c rest _ notCr notLf ih => exact ih (plain.cons notCr notLf)

theorem splitLinesFromFeeds (cur cs : List Char) (plain : Plain cur) (lone : NoLoneReturn cs) :
    splitLinesFrom cur cs =
      ((cs.splitOnPPrepend (· == '\n') cur).dropLast.map dropLineEnds,
        (cs.splitOnPPrepend (· == '\n') cur).getLast?.getD []) := by
  fun_induction splitLinesFrom cur cs with
  | case1 cur => simp
  | case2 cur rest ls tail split ih =>
    rw [ih (by simp [Plain]) lone.tail.tail, ← List.splitOnP_eq_splitOnPPrepend, Prod.mk.injEq] at split
    rw [List.splitOnPPrepend_cons_neg (by rfl), List.splitOnPPrepend_cons_pos (by rfl),
      linesCons _ (List.splitOnP_ne_nil _ _), List.reverse_cons, dropLineEndsReturn plain.reverse,
      split.1, split.2]
  | case3 cur rest notFeed ls tail split ih =>
    obtain ⟨more, feed⟩ : ∃ more, rest = '\n' :: more := by
      have := lone.feed
      rcases rest with _ | ⟨d, more⟩ <;> simp_all
    exact (notFeed more feed).elim
  | case4 cur rest ls tail split ih =>
    rw [ih (by simp [Plain]) lone.tail, ← List.splitOnP_eq_splitOnPPrepend, Prod.mk.injEq] at split
    rw [List.splitOnPPrepend_cons_pos (by rfl), linesCons _ (List.splitOnP_ne_nil _ _),
      dropLineEndsPlain plain.reverse, split.1, split.2]
  | case5 cur c rest _ notCr notLf ih =>
    rw [ih (plain.cons notCr notLf) lone.tail, List.splitOnPPrepend_cons_neg (by simpa using notLf)]

theorem allLinesText (s : String) (lone : NoLoneReturn s.toList) : allLines s.toList = (ofText s).lines := by
  have split := splitLinesFromFeeds [] s.toList (by simp [Plain]) lone
  have last := splitLinesTailPlain [] s.toList (by simp [Plain])
  rw [split] at last
  simp only [allLines, splitLines, split, ofText, splitAtLineFeeds, List.splitOn_eq_splitOnP,
    List.splitOnP_eq_splitOnPPrepend] at last ⊢
  generalize List.splitOnPPrepend (· == '\n') s.toList [] = pieces at last ⊢
  -- the last piece holds no line end, so dropping line ends leaves it as it is
  split <;> simp [List.map_map, dropLineEndsPlain last]

theorem encodingBytes (s : String) : s.toUTF8.data.toList = s.toList.flatMap String.utf8EncodeChar := by
  rw [String.toUTF8_eq_toByteArray, ← String.utf8Encode_toList, List.utf8Encode, List.toList_data_toByteArray]

theorem ofBytesText (s : String) (lone : NoLoneReturn s.toList) : ofBytes s.toUTF8.data.toList = ofText s := by
  rw [encodingBytes, ofBytesEncoded, allLinesText s lone]
  rfl

example : (ofBytes [0x41, 0x0D, 0x42]).lines = ["A", "B"] ∧ (ofText "A\rB").lines = ["A\rB"] := by
  constructor <;> cbv

end Maketree.Source
