import Narrative.Format.Value
import Narrative.Json.Skip

namespace Narrative.Format

variable {ρ : Type}

/-- How nested containers are read: by a format, or as JSON. -/
structure Nested (ρ : Type) where
  format : Format ρ → Reader Datum
  json : Reader Json

/-- The fault of a value that starts here and is not of the kind expected. -/
def unexpected (expected : String) (s : List Char) : Fault :=
  match s with
  | '[' :: _ => .unfit (.wrongType .sequence expected)
  | '\x7b' :: _ => .unfit (.wrongType .map expected)
  | s =>
    match Json.readScalar s with
    | .ok (j, _) => .unfit (.wrongType j.found expected)
    | .error fault => fault

def fitted {α : Type} : Except Mismatch α → Except Fault α
  | .ok a => .ok a
  | .error m => .error (.unfit m)

/-- Opens a container, if one more may be open. -/
def opening (nested : Option (Nested ρ)) (s : List Char) : Except Fault (Nested ρ) :=
  match nested with
  | some n => .ok n
  | none => .error (.on .tooDeep s)

def readText (expected : String) (s : List Char) : Except Fault (String × List Char) :=
  match Json.skipBlank s with
  | '"' :: r => Json.readString r
  | s => .error (unexpected expected s)

def readBool (s : List Char) : Except Fault (Datum × List Char) :=
  match Json.skipBlank s with
  | 't' :: r => do .ok (.bool true, ← Json.readWord ['r', 'u', 'e'] r)
  | 'f' :: r => do .ok (.bool false, ← Json.readWord ['a', 'l', 's', 'e'] r)
  | s => .error (unexpected "a boolean" s)

def readInt (w : Width) (s : List Char) : Except Fault (Datum × List Char) :=
  let number (r : Except Fault (Json × List Char)) : Except Fault (Datum × List Char) := do
    let (j, rest) ← r
    .ok (← fitted (w.check j), rest)
  match Json.skipBlank s with
  | '-' :: r => number (Json.readNumber true r)
  | c :: r =>
    if Text.Decimal.isDigit c then number (Json.readNumber false (c :: r))
    else .error (unexpected w.name (c :: r))
  | [] => .error (.after .endInValue [])

/-- The value of a field, which may be `null` if the field is nullable. -/
def readField (nested : Nested ρ) (f : Field ρ) (s : List Char) : Except Fault (Datum × List Char) :=
  match f.presence, Json.skipBlank s with
  | .nullable, 'n' :: r => do .ok (.null, ← Json.readWord ['u', 'l', 'l'] r)
  | _, s => nested.format f.format s

def readFieldsInOrder (nested : Nested ρ) (expecting : String) :
    Nat → Bool → List (Field ρ) → List Char → Except Fault (List Datum × List Char)
  | _, _, [], s => .ok ([], s)
  | i, first, f :: fields, s => do
    match ← Json.nextItem first s with
    | some s =>
      let (d, s) ← readField nested f s
      let (ds, s) ← readFieldsInOrder nested expecting (i + 1) false fields s
      .ok (d :: ds, s)
    | none =>
      match f.absent? with
      | some d =>
        let (ds, s) ← readFieldsInOrder nested expecting (i + 1) first fields s
        .ok (d :: ds, s)
      | none => .error (.unfit (.wrongLength i expecting))

/-- One entry of a record; what no field is named for is passed over. -/
def readFieldEntry (nested : Nested ρ) (r : Record ρ) (found : List (String × Datum)) (key : String)
    (s : List Char) : Except Fault (List (String × Datum) × List Char) :=
  match r.field? key with
  | none => do .ok (found, ← Json.skip (← Json.readColon s))
  | some f => do
    if found.any (·.1 = key) then .error (.unfit (.repeatedField key))
    let (d, s) ← readField nested f (← Json.readColon s)
    .ok ((key, d) :: found, s)

def readRecord (nested : Option (Nested ρ)) (r : Record ρ) (s : List Char) :
    Except Fault (Datum × List Char) :=
  match Json.skipBlank s with
  | '\x7b' :: t => do
    let nested ← opening nested ('\x7b' :: t)
    let (found, rest) ← Json.foldEntries (readFieldEntry nested r) (t.length + 1) true [] t
    .ok (.record (← fitted (Record.assemble found r.fields)), rest)
  | '[' :: t => do
    let nested ← opening nested ('[' :: t)
    let (ds, rest) ← readFieldsInOrder nested r.expecting 0 true r.fields t
    .ok (.record ds, ← Json.closeArray rest)
  | s => .error (unexpected r.title s)

def readTupleItems (nested : Nested ρ) (expecting : String) :
    Nat → List (Format ρ) → List Char → Except Fault (List Datum × List Char)
  | _, [], s => .ok ([], s)
  | i, f :: formats, s => do
    match ← Json.nextItem (i = 0) s with
    | none => .error (.unfit (.wrongLength i expecting))
    | some s =>
      let (d, s) ← nested.format f s
      let (ds, s) ← readTupleItems nested expecting (i + 1) formats s
      .ok (d :: ds, s)

def readTuple (nested : Option (Nested ρ)) (title : String) (formats : List (Format ρ))
    (s : List Char) : Except Fault (Datum × List Char) :=
  match Json.skipBlank s with
  | '[' :: t => do
    let nested ← opening nested ('[' :: t)
    let (ds, rest) ← readTupleItems nested (tupleExpecting title formats.length) 0 formats t
    .ok (.record ds, ← Json.closeArray rest)
  | s => .error (unexpected title s)

/-- What may stand beside a bare word. -/
def readUnit (s : List Char) : Except Fault (List Char) :=
  match Json.skipBlank s with
  | 'n' :: r => Json.readWord ['u', 'l', 'l'] r
  | s => .error (unexpected "unit" s)

/-- Closes the object that holds an alternative. -/
def closeSole (s : List Char) : Except Fault (List Char) :=
  match Json.skipBlank s with
  | [] => .error (.after .endInObject [])
  | '\x7d' :: r => .ok r
  | s => .error (.after .noValue s)

/-- The key of the object that holds an alternative, with the text after the colon. -/
def readSoleKey (s : List Char) : Except Fault (String × List Char) :=
  match Json.skipBlank s with
  | [] => .error (.after .endInObject [])
  | '"' :: r => Json.readString r
  | '\x7d' :: r => .error (.on .noValue ('\x7d' :: r))
  | s => .error (.on .keyNotText s)

def readWordCase (nested : Option (Nested ρ)) (words : List String) (s : List Char) :
    Except Fault (Datum × List Char) :=
  let known (w : String) : Except Fault Unit :=
    if w ∈ words then .ok () else .error (.unfit (.unknownCase w words))
  match Json.skipBlank s with
  | '"' :: t => do
    let (w, rest) ← Json.readString t
    known w
    .ok (.case (some w) [], rest)
  | '\x7b' :: t => do
    let _ ← opening nested ('\x7b' :: t)
    let (w, rest) ← readSoleKey t
    known w
    .ok (.case (some w) [], ← closeSole (← readUnit (← Json.readColon rest)))
  | [] => .error (.after .endInValue [])
  | s => .error (.on .noValue s)

def readWrapped (nested : Option (Nested ρ)) (cases : List (String × Format ρ)) (s : List Char) :
    Except Fault (Datum × List Char) :=
  let known (tag : String) : Except Fault (Format ρ) :=
    match cases.find? (·.1 = tag) with
    | some (_, f) => .ok f
    | none => .error (.unfit (.unknownCase tag (cases.map Prod.fst)))
  match Json.skipBlank s with
  | '"' :: t => do
    let (tag, _) ← Json.readString t
    let _ ← known tag
    .error (.unfit (.wrongType .bareCase "newtype variant"))
  | '\x7b' :: t => do
    let nested ← opening nested ('\x7b' :: t)
    let (tag, rest) ← readSoleKey t
    let f ← known tag
    let (d, rest) ← nested.format f (← Json.readColon rest)
    .ok (.case (some tag) [d], ← closeSole rest)
  | [] => .error (.after .endInValue [])
  | s => .error (.on .noValue s)

/-- The name of an alternative. -/
def readTag {β : Type} (cases : List (String × β)) (s : List Char) :
    Except Fault ((String × β) × List Char) := do
  let (tag, rest) ← readText "variant identifier" s
  .ok (← fitted (tagOf .whole cases (.str tag)), rest)

/-- One entry of a tagged object: its tag, or an entry read ahead. -/
def readTaggedEntry {β : Type} (nested : Nested ρ) (tagKey : String) (cases : List (String × β))
    (acc : Option (String × β) × List (String × Json)) (key : String) (s : List Char) :
    Except Fault ((Option (String × β) × List (String × Json)) × List Char) :=
  if key = tagKey then
    if acc.1.isSome then .error (.unfit (.repeatedField tagKey))
    else do
      let (c, s) ← readTag cases (← Json.readColon s)
      .ok ((some c, acc.2), s)
  else do
    let (j, s) ← nested.json (← Json.readColon s)
    .ok ((acc.1, (key, j) :: acc.2), s)

def readTagged (book : Book ρ) (nested : Option (Nested ρ)) (title key : String)
    (cases : List (String × Option (Record ρ))) (s : List Char) : Except Fault (Datum × List Char) :=
  let finish (tag : String × Option (Record ρ)) (others : Json) : Except Fault Datum := do
    .ok (.case (some tag.1) (← fitted (bodyOf (fun o f j => ofJson book o f j) tag.2 others)))
  match Json.skipBlank s with
  | '\x7b' :: t => do
    let nested ← opening nested ('\x7b' :: t)
    let (acc, rest) ←
      Json.foldEntries (readTaggedEntry nested key cases) (t.length + 1) true (none, []) t
    match acc.1 with
    | none => .error (.unfit (.missingField key))
    | some tag => do .ok (← finish tag (.obj acc.2.reverse), rest)
  | '[' :: t => do
    let nested ← opening nested ('[' :: t)
    match ← Json.nextItem true t with
    | none => .error (.unfit (.missingField key))
    | some t => do
      let (tag, t) ← readTag cases t
      let (items, rest) ← Json.readItems nested.json (t.length + 1) false t
      .ok (← finish tag (.arr items), rest)
  | s => .error (unexpected ("internally tagged enum " ++ title) s)

def readLead (s : List Char) : Except Fault (Option String × List Char) :=
  match Json.skipBlank s with
  | 'n' :: r => do .ok (none, ← Json.readWord ['u', 'l', 'l'] r)
  | s => do let (t, rest) ← readText "a string" s; .ok (some t, rest)

def readLed (nested : Option (Nested ρ)) (expecting : String)
    (cases : List (Option String × Option (Format ρ))) (s : List Char) :
    Except Fault (Datum × List Char) :=
  match Json.skipBlank s with
  | '[' :: t => do
    let nested ← opening nested ('[' :: t)
    match ← Json.nextItem true t with
    | none => .error (.unfit (.wrongLength 0 expecting))
    | some t => do
      let (tag, t) ← readLead t
      match ← fitted (operandOf? cases tag) with
      | none => .ok (.case tag [], ← Json.closeArray t)
      | some f =>
        match ← Json.nextItem false t with
        | none => .error (.unfit (.wrongLength 1 expecting))
        | some t => do
          let (d, t) ← nested.format f t
          .ok (.case tag [d], ← Json.closeArray t)
  | s => .error (unexpected expecting s)

/-- An item of a grouped list: the values it contributes. -/
def readGroup (nested : Nested ρ) (item : ρ) (expecting : String) (s : List Char) :
    Except Fault (List Datum × List Char) :=
  match Json.skipBlank s with
  | '\x7b' :: t => do
    let (d, rest) ← nested.format (.named item) ('\x7b' :: t)
    .ok ([d], rest)
  | '[' :: t => do
    let (d, rest) ← nested.format (.grouped item expecting) ('[' :: t)
    .ok (match d with | .list ds => ds | d => [d], rest)
  | s => .error (unexpected expecting s)

def readList {α : Type} (nested : Option (Nested ρ)) (item : Nested ρ → Reader α) (s : List Char) :
    Except Fault (List α × List Char) :=
  match Json.skipBlank s with
  | '[' :: t => do
    let nested ← opening nested ('[' :: t)
    Json.readItems (item nested) (t.length + 1) true t
  | s => .error (unexpected "a sequence" s)

def readDict (nested : Option (Nested ρ)) (value : Format ρ) (s : List Char) :
    Except Fault (Datum × List Char) :=
  match Json.skipBlank s with
  | '\x7b' :: t => do
    let nested ← opening nested ('\x7b' :: t)
    let step (m : Keyed Datum) (key : String) (s : List Char) :
        Except Fault (Keyed Datum × List Char) := do
      let (d, s) ← nested.format value (← Json.readColon s)
      .ok (Keyed.insert key d m, s)
    let (m, rest) ← Json.foldEntries step (t.length + 1) true [] t
    .ok (.dict m, rest)
  | s => .error (unexpected "a map" s)

/-- A document whose nested containers are read by `nested`, if one more may be open. -/
def readAt (book : Book ρ) (nested : Option (Nested ρ)) (f : Format ρ) (s : List Char) :
    Except Fault (Datum × List Char) :=
  match f with
  | .bool => readBool s
  | .int w => readInt w s
  | .text => do let (t, rest) ← readText "a string" s; .ok (.text t, rest)
  | .list item => do
    let (ds, rest) ← readList nested (fun n => n.format item) s
    .ok (.list ds, rest)
  | .grouped item expecting => do
    let (ds, rest) ← readList nested (fun n => readGroup n item expecting) s
    .ok (.list ds.flatten, rest)
  | .dict value => readDict nested value s
  | .named name =>
    match book name with
    | .record r => readRecord nested r s
    | .tuple title formats => readTuple nested title formats s
    | .word words => readWordCase nested words s
    | .wrapped cases => readWrapped nested cases s
    | .tagged title key cases => readTagged book nested title key cases s
    | .led expecting cases => readLed nested expecting cases s

/-- Reads a document that opens at most `levels` containers inside each other. -/
def read (book : Book ρ) : Nat → Format ρ → Reader Datum
  | 0, f => readAt book none f
  | levels + 1, f => readAt book (some ⟨read book levels, Json.read levels⟩) f

/-- What a whole text says under a format. -/
def ofText (book : Book ρ) (f : Format ρ) (text : String) : Except Fault Datum := do
  Json.finish (← read book Json.maxLevels f text.toList)

end Narrative.Format
