import Mathlib.Algebra.Group.Nat.Defs
import Narrative.Proofs.Keyed
import Narrative.Proofs.Lists
import Narrative.Proofs.Outcome
import Narrative.Proofs.Text
import Narrative.Save.Payload

namespace Narrative

theorem PlayerState.ofPairs_values (s : PlayerState) : ofPairs s.values = s := by
  have hvalues : Keyed.ofList s.values = s.values := Keyed.ofList_eq s.ordered
  rw [ofPairs]
  congr

namespace Payload

variable {α β : Type}

theorem number_ne_nil (n : Nat) : number n ≠ [] := by
  rw [number]
  split <;> simp

/-- A number that the bytes allowed can hold is read back. -/
theorem readNumber_number {most : Nat} (hmost : most < 128) (fuel : Nat) {n : Nat}
    (h : n < (most + 1) * 128 ^ fuel) (rest : Bytes) :
    readNumber most (fuel + 1) (number n ++ rest) = .ok (n, rest) := by
  induction fuel generalizing n with
  | zero =>
    have hn : n ≤ most := by omega
    have hbyte : (UInt8.ofNat n).toNat = n := by simp; omega
    rw [number, if_pos (by omega), List.singleton_append, readNumber, hbyte, if_pos (by omega),
      if_neg (by omega)]
  | succ fuel ih =>
    rw [pow_succ, ← Nat.mul_assoc] at h
    rw [number]
    split
    · rename_i hsmall
      have hbyte : (UInt8.ofNat n).toNat = n := by simp; omega
      rw [List.singleton_append, readNumber, hbyte, if_pos hsmall, if_neg (by omega)]
    · rename_i hlarge
      have hbyte : (UInt8.ofNat (n % 128 + 128)).toNat = n % 128 + 128 := by simp; omega
      have hhigh := ih (n := n / 128) (by omega)
      have hsum : n % 128 + 128 - 128 + 128 * (n / 128) = n := by omega
      rw [List.cons_append, readNumber, hbyte, if_neg (by omega), hhigh, Outcome.ok_bind]
      dsimp only
      rw [hsum]

theorem readWord_number {n : Nat} (h : n < UInt64.size) (rest : Bytes) :
    readWord (number n ++ rest) = .ok (n, rest) :=
  readNumber_number (by decide) 9 h rest

theorem readCase_number {n : Nat} (h : n < UInt32.size) (rest : Bytes) :
    readCase (number n ++ rest) = .ok (n, rest) :=
  readNumber_number (by decide) 4 h rest

theorem unfolded_folded (n : Int) : unfolded (folded n) = n := by
  cases n with
  | ofNat n =>
    have heven : 2 * n % 2 = 0 := by omega
    have hhalf : 2 * n / 2 = n := by omega
    rw [folded, unfolded, if_pos heven, hhalf]
  | negSucc n =>
    have hodd : ¬ (2 * n + 1) % 2 = 0 := by omega
    have hhalf : (2 * n + 1) / 2 = n := by omega
    rw [folded, unfolded, if_neg hodd, hhalf]

theorem folded_lt (n : Int64) : folded n.toInt < UInt64.size := by
  have hlow := Int64.le_toInt n
  have hhigh := Int64.toInt_lt n
  have hsize : UInt64.size = 2 ^ 64 := rfl
  cases h : n.toInt with
  | ofNat k =>
    rw [h, Int.ofNat_eq_natCast] at hhigh
    rw [folded]
    omega
  | negSucc k =>
    rw [h] at hlow
    rw [folded]
    omega

/-- A reader takes back just what the writer has made of a value, whatever comes after. A writer
always makes something, so a list is no longer than its bytes. -/
structure Lossless (write : α → Bytes) (read : Reader α) : Prop where
  ne_nil : ∀ a, write a ≠ []
  read : ∀ a, (write a).length < UInt64.size → ∀ rest, read (write a ++ rest) = .ok (a, rest)

theorem lossless_word : Lossless word readUInt64 where
  ne_nil n := number_ne_nil _
  read n _ rest := by
    rw [readUInt64, word, readWord_number n.toNat_lt, Outcome.ok_bind]
    simp

theorem lossless_int64 : Lossless int64 readInt64 where
  ne_nil n := number_ne_nil _
  read n _ rest := by
    rw [readInt64, int64, readWord_number (folded_lt n), Outcome.ok_bind]
    dsimp only
    rw [unfolded_folded, Int64.ofInt_toInt]

theorem lossless_text : Lossless text readText where
  ne_nil s := by simp [text, number_ne_nil]
  read s hsize rest := by
    rw [text, List.length_append] at hsize
    have hcount : s.toUTF8.toList.length < UInt64.size := by omega
    rw [readText, text, List.append_assoc, readWord_number hcount, Outcome.ok_bind]
    dsimp only
    rw [if_neg (by simp), List.take_left, List.drop_left, Text.fromUTF8?_toUTF8]

theorem readItems_flatMap {write : α → Bytes} {read : Reader α} (h : Lossless write read)
    {as : List α} (hsize : (as.flatMap write).length < UInt64.size) (rest : Bytes) :
    readItems read as.length (as.flatMap write ++ rest) = .ok (as, rest) := by
  induction as with
  | nil => rfl
  | cons a as ih =>
    rw [List.flatMap_cons, List.length_append] at hsize
    have hitem := h.read a (by omega) (as.flatMap write ++ rest)
    have hitems := ih (by omega)
    rw [List.flatMap_cons, List.append_assoc, List.length_cons, readItems, hitem, Outcome.ok_bind]
    dsimp only
    rw [hitems]
    rfl

theorem Lossless.list {write : α → Bytes} {read : Reader α} (h : Lossless write read) :
    Lossless (list write) (readList read) where
  ne_nil as := by simp [Payload.list, number_ne_nil]
  read as hsize rest := by
    rw [Payload.list, List.length_append] at hsize
    have hcount := length_le_flatMap h.ne_nil as
    rw [readList, Payload.list, List.append_assoc, readWord_number (by omega), Outcome.ok_bind]
    exact readItems_flatMap h (by omega) rest

/-- The word an item is led by. -/
theorem readOption_text {s : String} (h : (text s).length < UInt64.size) (rest : Bytes) :
    readOption readText (1 :: (text s ++ rest)) = .ok (some s, rest) := by
  rw [readOption, readByte, Outcome.ok_bind]
  dsimp only
  rw [if_neg (by decide), if_pos rfl, lossless_text.read s h, Outcome.ok_bind]

theorem readOperand_of_lossless {write : α → Bytes} {read : Reader α} (h : Lossless write read)
    (item : α → PathItem) {a : α} (hsize : (write a).length < UInt64.size) (rest : Bytes) :
    readOperand 2 read item (write a ++ rest) = .ok (item a, rest) := by
  rw [readOperand, if_neg (by decide), h.read a hsize, Outcome.ok_bind]

theorem lossless_pathItem : Lossless pathItem readPathItem where
  ne_nil item := by cases item <;> simp [pathItem, number_ne_nil]
  read item hsize rest := by
    have hone := readWord_number (n := 1) (by decide)
    have htwo := readWord_number (n := 2) (by decide)
    cases item with
    | index n =>
      simp only [pathItem, List.length_append, List.length_cons] at hsize
      have hoperand := readOperand_of_lossless lossless_int64 .index (a := n) (by omega) rest
      simp [pathItem, readPathItem, htwo, readOption, readByte, hoperand]
    | jump scene =>
      simp only [pathItem, List.length_append, List.length_cons] at hsize
      have htag := readOption_text (s := "jump") (by omega)
      have hoperand := readOperand_of_lossless lossless_text .jump (a := scene) (by omega) rest
      simp [pathItem, readPathItem, htwo, htag, hoperand]
    | enterChoice branch =>
      simp only [pathItem, BranchKind.word, List.length_append, List.length_cons] at hsize
      have htag := readOption_text (s := "choice") (by omega)
      have hoperand := readOperand_of_lossless lossless_word .enterChoice (a := branch) (by omega) rest
      simp [pathItem, readPathItem, htwo, htag, hoperand, BranchKind.word]
    | enterCondition key =>
      simp only [pathItem, BranchKind.word, List.length_append, List.length_cons] at hsize
      have htag := readOption_text (s := "condition") (by omega)
      have hoperand := readOperand_of_lossless lossless_text .enterCondition (a := key) (by omega) rest
      simp [pathItem, readPathItem, htwo, htag, hoperand, BranchKind.word]
    | enterBlock scene =>
      simp only [pathItem, BranchKind.word, List.length_append, List.length_cons] at hsize
      have htag := readOption_text (s := "block") (by omega)
      have hoperand := readOperand_of_lossless lossless_text .enterBlock (a := scene) (by omega) rest
      simp [pathItem, readPathItem, htwo, htag, hoperand, BranchKind.word]
    | exit kind =>
      simp only [pathItem, List.length_append, List.length_cons] at hsize
      have htag := readOption_text (s := kind.exitWord) (by omega) rest
      rw [pathItem, List.append_assoc, List.cons_append, readPathItem, hone, Outcome.ok_bind]
      dsimp only
      rw [if_neg (by decide), htag]
      cases kind <;> rfl

theorem lossless_path : Lossless path readPath := lossless_pathItem.list

theorem lossless_stateValue : Lossless stateValue readStateValue where
  ne_nil v := by cases v <;> simp [stateValue, number_ne_nil]
  read v hsize rest := by
    cases v with
    | bool b =>
      have hcase := readCase_number (n := 0) (by decide)
      cases b <;> simp [stateValue, readStateValue, hcase, bool, readBool, readByte]
    | int n =>
      simp only [stateValue, List.length_append] at hsize
      have hcase := readCase_number (n := 1) (by decide)
      have hn := lossless_int64.read n (by omega) rest
      simp [stateValue, readStateValue, hcase, hn]
    | text t =>
      simp only [stateValue, List.length_append] at hsize
      have hcase := readCase_number (n := 2) (by decide)
      have ht := lossless_text.read t (by omega) rest
      simp [stateValue, readStateValue, hcase, ht]

theorem lossless_stateEntry : Lossless stateEntry readStateEntry where
  ne_nil e := by simp [stateEntry, lossless_text.ne_nil]
  read e hsize rest := by
    rw [stateEntry, List.length_append] at hsize
    rw [readStateEntry, stateEntry, List.append_assoc, lossless_text.read e.1 (by omega),
      Outcome.ok_bind]
    dsimp only
    rw [lossless_stateValue.read e.2 (by omega), Outcome.ok_bind]

theorem lossless_state : Lossless state readState where
  ne_nil s := lossless_stateEntry.list.ne_nil s.values
  read s hsize rest := by
    rw [readState, state, lossless_stateEntry.list.read s.values hsize, Outcome.ok_bind]
    dsimp only
    rw [PlayerState.ofPairs_values]

theorem lossless_saveKind : Lossless saveKind readSaveKind where
  ne_nil k := by cases k <;> simp [saveKind, number_ne_nil]
  read k _ rest := by
    cases k with
    | auto => simp [saveKind, readSaveKind, readCase_number (n := 0) (by decide)]
    | manual => simp [saveKind, readSaveKind, readCase_number (n := 1) (by decide)]

theorem lossless_save : Lossless save readSave where
  ne_nil s := by simp [save, lossless_path.ne_nil]
  read s hsize rest := by
    simp only [save, List.length_append] at hsize
    have hpath := lossless_path.read s.path (by omega)
    have hstate := lossless_state.read s.state (by omega)
    have htime := lossless_word.read s.time (by omega)
    have hkind := lossless_saveKind.read s.kind (by omega)
    have hsnapshots := lossless_state.list.read s.snapshots (by omega)
    simp [readSave, save, hpath, hstate, htime, hkind, hsnapshots]

end Payload

end Narrative
