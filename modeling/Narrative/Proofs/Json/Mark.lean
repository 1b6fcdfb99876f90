import Mathlib.Data.List.TakeWhile
import Narrative.Proofs.Text
import Narrative.Script.Draft

namespace Narrative.Fault

@[simp]
theorem byteLength_cons (c : Char) (s : List Char) :
    byteLength (c :: s) = c.utf8Size + byteLength s := rfl

theorem byteLength_append (a b : List Char) : byteLength (a ++ b) = byteLength a + byteLength b := by
  induction a with
  | nil => simp [byteLength]
  | cons c a ih => rw [List.cons_append, byteLength_cons, byteLength_cons, ih, Nat.add_assoc]

theorem length_flatMap_utf8 (s : List Char) : (s.flatMap String.utf8EncodeChar).length = byteLength s := by
  induction s with
  | nil => rfl
  | cons c s ih =>
    rw [List.flatMap_cons, List.length_append, String.length_utf8EncodeChar, ih, byteLength_cons]

theorem not_newline_mem {c : Char} (h : c ≠ '\n') : 10 ∉ String.utf8EncodeChar c := by
  have hc : c.val.toNat ≠ 10 := fun heq => h (Char.ext (UInt32.toNat_inj.mp heq))
  have hbyte {n : Nat} (hn : n % 256 ≠ 10) : (10 : UInt8) ≠ UInt8.ofNat n := by
    intro heq
    have hvalue := congrArg UInt8.toNat heq
    rw [UInt8.toNat_ofNat'] at hvalue
    exact hn hvalue.symm
  simp only [String.utf8EncodeChar]
  split
  · rw [List.mem_singleton]
    exact hbyte (by omega)
  · split
    · simp only [List.mem_cons, List.not_mem_nil, or_false, not_or]
      exact ⟨hbyte (by omega), hbyte (by omega)⟩
    · split
      · simp only [List.mem_cons, List.not_mem_nil, or_false, not_or]
        exact ⟨hbyte (by omega), hbyte (by omega), hbyte (by omega)⟩
      · simp only [List.mem_cons, List.not_mem_nil, or_false, not_or]
        exact ⟨hbyte (by omega), hbyte (by omega), hbyte (by omega), hbyte (by omega)⟩

/-- How many bytes have been read since the last newline. -/
def column (read : List UInt8) : Nat := (read.reverse.takeWhile (· ≠ 10)).length

theorem position_eq (text : String) (count : Nat) :
    position text count =
      (1 + (text.toUTF8.toList.take count).count 10, column (text.toUTF8.toList.take count)) := rfl

theorem takeWhile_reverse_eq_self {b : List UInt8} :
    b.reverse.takeWhile (· ≠ 10) = b.reverse ↔ 10 ∉ b := by
  rw [List.takeWhile_eq_self_iff]
  constructor
  · intro h hmem
    simpa using h 10 (List.mem_reverse.mpr hmem)
  · intro h x hx
    have hne : x ≠ 10 := fun heq => h (heq ▸ List.mem_reverse.mp hx)
    simpa using hne

theorem column_append_of_mem {a b : List UInt8} (h : 10 ∈ b) : column (a ++ b) = column b := by
  have hlength : (b.reverse.takeWhile (· ≠ 10)).length ≠ b.reverse.length := fun heq =>
    takeWhile_reverse_eq_self.mp ((List.takeWhile_prefix _).eq_of_length heq) h
  rw [column, column, List.reverse_append, List.takeWhile_append, if_neg hlength]

theorem column_append_of_not_mem {a b : List UInt8} (h : 10 ∉ b) :
    column (a ++ b) = column a + b.length := by
  have hall := takeWhile_reverse_eq_self.mpr h
  rw [column, column, List.reverse_append, List.takeWhile_append, hall, if_pos rfl, List.length_append,
    List.length_reverse, Nat.add_comm]

theorem column_of_not_mem {b : List UInt8} (h : 10 ∉ b) : column b = b.length := by
  rw [column, takeWhile_reverse_eq_self.mpr h, List.length_reverse]

@[simp]
theorem column_newline (b : List UInt8) : column (10 :: b) = column b := by
  by_cases h : 10 ∈ b
  · exact column_append_of_mem (a := [10]) h
  · have hcolumn := column_append_of_not_mem (a := [10]) h
    rw [column_of_not_mem h]
    exact hcolumn.trans (Nat.zero_add _)

/-- Where a line starts, counted from 1. -/
def lineStart (text : List Char) (line : Nat) : Nat :=
  byteLength ((lines text).take (line - 1)).flatten

theorem lines_newline (s : List Char) : lines ('\n' :: s) = ['\n'] :: lines s := if_pos rfl

theorem lines_cons {c : Char} (hc : c ≠ '\n') (s : List Char) :
    lines (c :: s) = (c :: (lines s).headD []) :: (lines s).tail := by
  rw [lines, if_neg hc]
  cases lines s <;> rfl

/-- Some bytes into a text, on a line of which some have been read: the line is there, it is long enough,
and what is before it makes up the rest. -/
theorem exists_line (s : List Char) {n : Nat} (hn : n ≤ byteLength s) {read : List UInt8}
    (hread : (s.flatMap String.utf8EncodeChar).take n = read) (hcolumn : 1 ≤ column read) :
    ∃ line, (lines s)[read.count 10]? = some line ∧ column read ≤ byteLength line ∧
      byteLength ((lines s).take (read.count 10)).flatten + column read = n := by
  induction s generalizing n read with
  | nil =>
    subst hread
    rw [List.flatMap_nil, List.take_nil] at hcolumn
    cases hcolumn
  | cons c s ih =>
    rw [byteLength_cons] at hn
    by_cases hc : c = '\n'
    · subst hc
      cases n with
      | zero =>
        subst hread
        cases hcolumn
      | succ n =>
        have hsize : '\n'.utf8Size = 1 := rfl
        have hbytes : 10 :: (s.flatMap String.utf8EncodeChar).take n = read := hread
        subst hbytes
        rw [column_newline] at hcolumn ⊢
        obtain ⟨line, hline, hlong, hsum⟩ := ih (by omega) rfl hcolumn
        rw [lines_newline, List.count_cons_self]
        refine ⟨line, by simpa using hline, hlong, ?_⟩
        rw [List.take_succ_cons, List.flatten_cons, byteLength_append, byteLength_cons, hsize]
        have hnil : byteLength [] = 0 := rfl
        omega
    · have hencoded := not_newline_mem hc
      have hfirst : 10 ∉ (String.utf8EncodeChar c).take n := fun h => hencoded (List.mem_of_mem_take h)
      rw [List.flatMap_cons, List.take_append, String.length_utf8EncodeChar] at hread
      obtain ⟨rest, hrest⟩ : ∃ rest, (s.flatMap String.utf8EncodeChar).take (n - c.utf8Size) = rest := ⟨_, rfl⟩
      rw [hrest] at hread
      have hcount : read.count 10 = rest.count 10 := by
        rw [← hread, List.count_append, List.count_eq_zero.mpr hfirst, Nat.zero_add]
      rw [hcount, lines_cons hc]
      by_cases hnewline : 10 ∈ rest
      · have hsame : column read = column rest := by rw [← hread, column_append_of_mem hnewline]
        have hle : c.utf8Size ≤ n := by
          by_contra hlt
          rw [Nat.sub_eq_zero_of_le (by omega), List.take_zero] at hrest
          rw [← hrest] at hnewline
          cases hnewline
        rw [hsame] at hcolumn ⊢
        obtain ⟨line, hline, hlong, hsum⟩ := ih (by omega) hrest hcolumn
        obtain ⟨m, hm⟩ := Nat.exists_eq_succ_of_ne_zero (List.count_pos_iff.mpr hnewline).ne'
        rw [hm] at hline hsum ⊢
        cases hlines : lines s with
        | nil =>
          rw [hlines] at hline
          cases hline
        | cons first more =>
          rw [hlines, List.getElem?_cons_succ] at hline
          rw [hlines, List.take_succ_cons, List.flatten_cons, byteLength_append] at hsum
          refine ⟨line, hline, hlong, ?_⟩
          simp only [List.take_succ_cons, List.flatten_cons, List.headD_cons, List.tail_cons,
            byteLength_append, byteLength_cons]
          omega
      · have hnone : rest.count 10 = 0 := List.count_eq_zero.mpr hnewline
        have hlength : rest.length = min (n - c.utf8Size) (byteLength s) := by
          rw [← hrest, List.length_take, length_flatMap_utf8]
        have hwhole : column read = n := by
          have hnot : 10 ∉ read := by simp [← hread, hfirst, hnewline]
          rw [column_of_not_mem hnot, ← hread, List.length_append, List.length_take,
            String.length_utf8EncodeChar, hlength]
          omega
        rw [hnone, hwhole]
        refine ⟨_, rfl, ?_, Nat.zero_add n⟩
        rw [byteLength_cons]
        by_cases hinside : n ≤ c.utf8Size
        · omega
        · have hcolumn : column rest = n - c.utf8Size := by
            rw [column_of_not_mem hnewline, hlength]
            omega
          obtain ⟨line, hline, hlong, -⟩ := ih (by omega) hrest (by omega)
          rw [hnone] at hline
          have hhead : (lines s).headD [] = line := by
            cases hlines : lines s with
            | nil => simp [hlines] at hline
            | cons first more => simpa [hlines] using hline
          rw [hhead]
          omega

theorem length_le_byteLength (s : List Char) : s.length ≤ byteLength s := by
  induction s with
  | nil => exact Nat.le_refl 0
  | cons c s ih =>
    have hsize := c.utf8Size_pos
    rw [List.length_cons, byteLength_cons]
    omega

theorem byteLength_eq_length_iff {s : List Char} :
    byteLength s = s.length ↔ ∀ c ∈ s, c.utf8Size = 1 := by
  induction s with
  | nil => simp [byteLength]
  | cons c s ih =>
    have hsize := c.utf8Size_pos
    have hlength := length_le_byteLength s
    rw [List.forall_mem_cons, ← ih, byteLength_cons, List.length_cons]
    omega

theorem lines_flatten (s : List Char) : (lines s).flatten = s := by
  induction s with
  | nil => rfl
  | cons c s ih =>
    by_cases hc : c = '\n'
    · subst hc
      rw [lines_newline, List.flatten_cons, ih]
      rfl
    · rw [lines_cons hc, List.flatten_cons, List.cons_append]
      cases hlines : lines s with
      | nil =>
        rw [hlines] at ih
        exact congrArg (c :: ·) ih
      | cons first more =>
        rw [hlines] at ih
        exact congrArg (c :: ·) ih

theorem toUTF8_eq_flatMap (text : String) :
    text.toUTF8.toList = text.toList.flatMap String.utf8EncodeChar := by
  rw [← Text.toUTF8_ofList, String.ofList_toList]

theorem byteLength_eq_utf8ByteSize (text : String) : byteLength text.toList = text.utf8ByteSize := by
  rw [← length_flatMap_utf8, ← toUTF8_eq_flatMap, Text.toList_toUTF8]
  rfl

/-- A line ends within the text. -/
theorem lineStart_add_le {text chars : List Char} {line : Nat}
    (h : (lines text)[line - 1]? = some chars) :
    lineStart text line + byteLength chars ≤ byteLength text := by
  obtain ⟨hlt, hchars⟩ := List.getElem?_eq_some_iff.mp h
  have hparts : text = ((lines text).take (line - 1)).flatten ++ ((lines text).drop (line - 1)).flatten := by
    rw [← List.flatten_append, List.take_append_drop, lines_flatten]
  have htotal := congrArg byteLength hparts
  rw [List.drop_eq_getElem_cons hlt, hchars, List.flatten_cons, byteLength_append,
    byteLength_append] at htotal
  rw [lineStart]
  omega

/-- The mark of a column stands at the byte of that number or behind it. It stands at that byte just if
the characters before it are single bytes, or if it is the last byte of the line anyway. -/
theorem byteInLine_bounds {chars : List Char} {column : Nat} (hfirst : 1 ≤ column)
    (hlast : column ≤ byteLength chars) :
    column - 1 ≤ byteInLine chars column ∧ byteInLine chars column < byteLength chars ∧
      (byteInLine chars column = column - 1 ↔
        column = byteLength chars ∨ ∀ c ∈ chars.take (column - 1), c.utf8Size = 1) := by
  by_cases hinside : column - 1 < chars.length
  · have hlength : (chars.take (column - 1)).length = column - 1 := by
      rw [List.length_take]
      omega
    have hbefore := length_le_byteLength (chars.take (column - 1))
    have hbehind := length_le_byteLength (chars.drop (column - 1))
    have htotal := byteLength_append (chars.take (column - 1)) (chars.drop (column - 1))
    rw [List.take_append_drop] at htotal
    rw [List.length_drop] at hbehind
    rw [byteInLine, if_pos hinside, ← byteLength_eq_length_iff, hlength]
    omega
  · have htake : chars.take (column - 1) = chars := List.take_of_length_le (by omega)
    rw [byteInLine, if_neg hinside, htake, ← byteLength_eq_length_iff]
    omega

/-- The line and the column tell the byte of a fault. The mark stands on the line, at the character whose
number is the column or, if there are fewer, at the last byte: never before the byte of the fault, and at
that byte just if no character before it on the line takes several, or if the line ends with it. -/
theorem mark_on_line (text : String) (cause : Malformation) (rest : List Char) (bytes line col : Nat)
    (hplace : (malformed cause rest bytes).place? text = some (line, col)) (hcol : 1 ≤ col) :
    ∃ chars offending mark, 1 ≤ line ∧ (lines text.toList)[line - 1]? = some chars ∧
      col ≤ byteLength chars ∧ lineStart text.toList line + (col - 1) = offending ∧
      bytesRead text.toList rest bytes = offending + 1 ∧
      (malformed cause rest bytes).mark? text = some mark ∧
      (col ≤ chars.length →
        mark = lineStart text.toList line + byteLength (chars.take (col - 1))) ∧
      (chars.length < col → mark + 1 = lineStart text.toList line + byteLength chars) ∧
      offending ≤ mark ∧ mark < text.utf8ByteSize ∧
      (mark = offending ↔ col = byteLength chars ∨ ∀ c ∈ chars.take (col - 1), c.utf8Size = 1) := by
  have hposition : position text (bytesRead text.toList rest bytes) = (line, col) := by
    simpa [place?] using hplace
  rw [position_eq, toUTF8_eq_flatMap, Prod.mk.injEq] at hposition
  obtain ⟨hline, hcolumn⟩ := hposition
  have hread : bytesRead text.toList rest bytes ≤ byteLength text.toList := Nat.min_le_right _ _
  obtain ⟨chars, hchars, hlong, hsum⟩ := exists_line text.toList hread rfl (hcolumn ▸ hcol)
  have hindex : ((text.toList.flatMap String.utf8EncodeChar).take
      (bytesRead text.toList rest bytes)).count 10 = line - 1 := by omega
  rw [hindex, hcolumn] at hsum
  rw [hindex] at hchars
  rw [hcolumn] at hlong
  have hstart : byteLength ((lines text.toList).take (line - 1)).flatten = lineStart text.toList line := rfl
  have hmark : (malformed cause rest bytes).mark? text =
      some (lineStart text.toList line + byteInLine chars col) := by
    have hpositive : ¬ col = 0 := by omega
    rw [mark?, hplace, Option.map_some, markAt, if_neg hpositive, hchars]
    rfl
  obtain ⟨hbehind, hinside, hexact⟩ := byteInLine_bounds hcol hlong
  have hend := lineStart_add_le hchars
  have hsize := byteLength_eq_utf8ByteSize text
  refine ⟨chars, lineStart text.toList line + (col - 1), _, by omega, hchars, hlong, rfl, by omega, hmark,
    ?_, ?_, by omega, by omega, ?_⟩
  · intro hmany
    rw [byteInLine, if_pos (by omega)]
  · intro hfew
    rw [byteInLine, if_neg (by omega)]
    omega
  · rw [← hexact]
    omega

/-- A letter of two bytes on the line before the fault. -/
def letterAbove : String := "\x7b\"é\": 1,\n x\x7d"

theorem mark_on_line_letterAbove :
    (on .noValue ['x', '\x7d']).place? letterAbove = some (2, 2) ∧ 1 ≤ 2 ∧
      (on .noValue ['x', '\x7d']).mark? letterAbove = some (lineStart letterAbove.toList 2 + 1) := by
  have hplace : (on .noValue ['x', '\x7d']).place? letterAbove = some (2, 2) := by decide +kernel
  obtain ⟨chars, offending, mark, -, hchars, -, hoffending, -, hmark, -, -, -, -, hexact⟩ :=
    mark_on_line letterAbove .noValue ['x', '\x7d'] 1 2 2 hplace (by decide)
  have hline : chars = [' ', 'x', '\x7d'] := by
    have hfound : (lines letterAbove.toList)[2 - 1]? = some [' ', 'x', '\x7d'] := by decide +kernel
    rw [hfound] at hchars
    cases hchars
    rfl
  have hblank : ∀ c ∈ chars.take (2 - 1), c.utf8Size = 1 := by
    rw [hline]
    intro c hc
    obtain rfl : c = ' ' := List.mem_singleton.mp hc
    rfl
  have hsame : mark = offending := hexact.mpr (.inr hblank)
  refine ⟨hplace, by decide, ?_⟩
  rw [← show lineStart letterAbove.toList 2 + (2 - 1) = lineStart letterAbove.toList 2 + 1 from rfl,
    hoffending, ← hsame]
  exact hmark

/-- The same letter on the line of the fault, before it. -/
def letterBefore : String := "\x7b\"é\": x\x7d"

/-- The fault is about the byte at offset 7, and the mark stands at the next one. -/
theorem mark_behind_fault :
    Draft.ofText {} letterBefore = .error (.document letterBefore (on .noValue ['x', '\x7d'])) ∧
      (on .noValue ['x', '\x7d']).place? letterBefore = some (1, 8) ∧
      lineStart letterBefore.toList 1 + (8 - 1) = 7 ∧
      (on .noValue ['x', '\x7d']).mark? letterBefore = some 8 :=
  ⟨rfl, by decide +kernel, by decide, by decide +kernel⟩

end Narrative.Fault
