import Narrative.Save.Basic
import Narrative.Save.Fault
import Narrative.Script.Basic

namespace Narrative.Payload

abbrev Reader (α : Type) := Bytes → Except PayloadFault (α × Bytes)

/-- Seven bits a byte, the lowest first, every byte but the last with its high bit set. -/
def number (n : Nat) : Bytes :=
  if n < 128 then [UInt8.ofNat n] else UInt8.ofNat (n % 128 + 128) :: number (n / 128)

def word (n : UInt64) : Bytes := number n.toNat

/-- The sign goes into the lowest bit. -/
def folded : Int → Nat
  | .ofNat n => 2 * n
  | .negSucc n => 2 * n + 1

def unfolded (n : Nat) : Int := if n % 2 = 0 then .ofNat (n / 2) else .negSucc (n / 2)

def int64 (n : Int64) : Bytes := number (folded n.toInt)

def readByte : Reader UInt8
  | [] => .error .cutShort
  | b :: rest => .ok (b, rest)

/-- A number of at most so many bytes, the last possible one being no greater than `most`. -/
def readNumber (most : Nat) : Nat → Reader Nat
  | 0, _ => .error .endlessNumber
  | _ + 1, [] => .error .cutShort
  | n + 1, b :: rest =>
    if b.toNat < 128 then
      if n = 0 ∧ most < b.toNat then .error .endlessNumber else .ok (b.toNat, rest)
    else do
      let (high, rest) ← readNumber most n rest
      .ok (b.toNat - 128 + 128 * high, rest)

/-- A number of 64 bits: nine bytes of seven bits, and one bit. -/
def readWord : Reader Nat := readNumber 1 10

/-- A number of 32 bits: four bytes of seven bits, and four bits. -/
def readCase : Reader Nat := readNumber 15 5

def readUInt64 : Reader UInt64 := fun s => do
  let (n, s) ← readWord s
  .ok (UInt64.ofNat n, s)

def readInt64 : Reader Int64 := fun s => do
  let (n, s) ← readWord s
  .ok (Int64.ofInt (unfolded n), s)

def text (s : String) : Bytes :=
  let bytes := s.toUTF8.toList
  number bytes.length ++ bytes

def readText : Reader String := fun s => do
  let (n, s) ← readWord s
  if s.length < n then .error .cutShort
  match String.fromUTF8? ⟨(s.take n).toArray⟩ with
  | some t => .ok (t, s.drop n)
  | none => .error .badText

def bool (b : Bool) : Bytes := [if b then 1 else 0]

def readBool : Reader Bool := fun s => do
  let (b, s) ← readByte s
  if b = 0 then .ok (false, s) else if b = 1 then .ok (true, s) else .error .badBool

def readOption {α : Type} (item : Reader α) : Reader (Option α) := fun s => do
  let (b, s) ← readByte s
  if b = 0 then .ok (none, s)
  else if b = 1 then do
    let (a, s) ← item s
    .ok (some a, s)
  else .error .badOption

def list {α : Type} (item : α → Bytes) (as : List α) : Bytes := number as.length ++ as.flatMap item

def readItems {α : Type} (item : Reader α) : Nat → Reader (List α)
  | 0, s => .ok ([], s)
  | n + 1, s => do
    let (a, s) ← item s
    let (as, s) ← readItems item n s
    .ok (a :: as, s)

def readList {α : Type} (item : Reader α) : Reader (List α) := fun s => do
  let (n, s) ← readWord s
  readItems item n s

/-- An item is a list of one or two elements, the first of which is a word or nothing. -/
def pathItem : PathItem → Bytes
  | .index n => number 2 ++ 0 :: int64 n
  | .jump scene => number 2 ++ 1 :: text "jump" ++ text scene
  | .enterChoice branch => number 2 ++ 1 :: text BranchKind.choice.word ++ word branch
  | .enterCondition key => number 2 ++ 1 :: text BranchKind.condition.word ++ text key
  | .enterBlock scene => number 2 ++ 1 :: text BranchKind.block.word ++ text scene
  | .exit kind => number 1 ++ 1 :: text kind.exitWord

/-- The second element of an item, if one is announced. -/
def readOperand {α : Type} (announced : Nat) (operand : Reader α) (item : α → PathItem) :
    Reader PathItem := fun s =>
  if announced < 2 then .error .unfit
  else do
    let (a, s) ← operand s
    .ok (item a, s)

/-- Elements that are announced beyond those an item needs are not read. -/
def readPathItem : Reader PathItem := fun s => do
  let (announced, s) ← readWord s
  if announced = 0 then .error .unfit
  let (tag, s) ← readOption readText s
  match tag with
  | none => readOperand announced readInt64 .index s
  | some "jump" => readOperand announced readText .jump s
  | some "choice" => readOperand announced readUInt64 .enterChoice s
  | some "condition" => readOperand announced readText .enterCondition s
  | some "block" => readOperand announced readText .enterBlock s
  | some "choice:exit" => .ok (.exit .choice, s)
  | some "condition:exit" => .ok (.exit .condition, s)
  | some "block:exit" => .ok (.exit .block, s)
  | some _ => .error .unfit

def path (p : Path) : Bytes := list pathItem p

def readPath : Reader Path := readList readPathItem

def stateValue : StateValue → Bytes
  | .bool b => number 0 ++ bool b
  | .int n => number 1 ++ int64 n
  | .text t => number 2 ++ text t

def readStateValue : Reader StateValue := fun s => do
  let (n, s) ← readCase s
  match n with
  | 0 => do let (b, s) ← readBool s; .ok (.bool b, s)
  | 1 => do let (n, s) ← readInt64 s; .ok (.int n, s)
  | 2 => do let (t, s) ← readText s; .ok (.text t, s)
  | _ => .error .unfit

def stateEntry (e : String × StateValue) : Bytes := text e.1 ++ stateValue e.2

def readStateEntry : Reader (String × StateValue) := fun s => do
  let (key, s) ← readText s
  let (value, s) ← readStateValue s
  .ok ((key, value), s)

def state (s : PlayerState) : Bytes := list stateEntry s.values

/-- Entries may come in any order. -/
def readState : Reader PlayerState := fun s => do
  let (entries, s) ← readList readStateEntry s
  .ok (PlayerState.ofPairs entries, s)

def saveKind : SaveKind → Bytes
  | .auto => number 0
  | .manual => number 1

def readSaveKind : Reader SaveKind := fun s => do
  let (n, s) ← readCase s
  match n with
  | 0 => .ok (.auto, s)
  | 1 => .ok (.manual, s)
  | _ => .error .unfit

def save (s : Save) : Bytes :=
  path s.path ++ state s.state ++ word s.time ++ saveKind s.kind ++ list state s.snapshots

def readSave : Reader Save := fun s => do
  let (path, s) ← readPath s
  let (state, s) ← readState s
  let (time, s) ← readUInt64 s
  let (kind, s) ← readSaveKind s
  let (snapshots, s) ← readList readState s
  .ok (⟨⟨path, state, snapshots⟩, time, kind⟩, s)

def readScriptId : Reader ScriptId := fun s =>
  if h : (s.take 32).length = 32 then .ok (⟨(s.take 32).toArray, by simpa using h⟩, s.drop 32)
  else .error .cutShort

end Narrative.Payload
