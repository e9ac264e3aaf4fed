import ZeroStack.Kernel.Response
import ZeroStack.Wire.CanonicalJson
import ZeroStack.ZeroCas.Expand

/-! The options of a read, as the guest passes them. -/

open Wire Zero.Cas

namespace Zero.Paging

inductive ConnectorError where
  | message (text : String)
  | deserialize (value : Json)
  | host (error : Kernel.HostError)

abbrev Members := List (String × Json)

variable (values : Members)

def member (key : String) : Option Json := (values.find? fun entry => entry.1 = key).map (·.2)

def containsKey (key : String) : Bool := values.any fun entry => entry.1 = key

def asU64 : Json → Option ℕ
  | .num n => (readDigits (2 ^ 64) 0 (n.text.map fun b => Char.ofNat b.toNat)).toOption
  | _ => none

def asBool : Json → Option Bool
  | .bool b => some b
  | _ => none

def requiredU64 (value : Option Json) (label : String) : Except ConnectorError ℕ :=
  match value.bind asU64 with
  | some n => .ok n
  | none => .error (.message s!"{label} must be an unsigned integer")

def normalizeKey (key : String) : String :=
  match key with
  | "maxBytes" => "max_bytes"
  | "maxVisibleBytes" => "max_visible_bytes"
  | "timeoutMs" => "timeout_ms"
  | "budgetTokens" => "budget_tokens"
  | "lineStart" => "line_start"
  | "lineEnd" => "line_end"
  | "next" => "offset"
  | "expectedPreimage" => "expected_preimage"
  | other => other

def normalizeKeys : Json → Json
  | .obj values => .obj (values.foldl
      (fun normalized entry =>
        (normalized.filter fun old => old.1 ≠ normalizeKey entry.1) ++ [(normalizeKey entry.1, entry.2)]) [])
  | value => value

def optionFields : List String := ["offset", "limit", "line_start", "line_end", "symbol"]

variable (whole : Json)

def numberBelow (bound : ℕ) (value : Json) : Except ConnectorError (Option ℕ) :=
  match (asU64 value).filter fun n => n < bound with
  | some n => .ok (some n)
  | none => .error (.deserialize whole)

def optionalNumber (bound : ℕ) : Option Json → Except ConnectorError (Option ℕ)
  | none | some .null => .ok none
  | some value => numberBelow whole bound value

def optionalText : Option Json → Except ConnectorError (Option String)
  | none | some .null => .ok none
  | some (.str bytes) =>
    match fromUtf8 bytes with
    | some text => .ok (some text)
    | none => .error (.deserialize whole)
  | some _ => .error (.deserialize whole)

def optionsOf (field : ℕ → String → Option Json) : Except ConnectorError ExpandOptions := do
  let offset ← optionalNumber whole (2 ^ 64) (field 0 "offset")
  let limit ← optionalNumber whole (2 ^ 64) (field 1 "limit")
  let lineStart ← optionalNumber whole (2 ^ 32) (field 2 "line_start")
  let lineEnd ← optionalNumber whole (2 ^ 32) (field 3 "line_end")
  let symbol ← optionalText whole (field 4 "symbol")
  .ok { offset, limit, lineStart, lineEnd, symbol }

/-- `serde_json::from_value`: an object by the names of its fields, an array by their places. -/
def fromValue (value : Json) : Except ConnectorError ExpandOptions :=
  match value with
  | .obj values =>
    if values.any fun entry => entry.1 ∉ optionFields then .error (.deserialize value)
    else optionsOf value fun _ name => member values name
  | .arr items =>
    if optionFields.length < items.length then .error (.deserialize value)
    else optionsOf value fun place _ => items[place]?
  | _ => .error (.deserialize value)

def selectors : ℕ :=
  let hasLines := containsKey values "lines" || containsKey values "lineStart" || containsKey values "line_start" ||
    containsKey values "lineEnd" || containsKey values "line_end"
  (containsKey values "bytes").toNat + hasLines.toNat + (containsKey values "symbol").toNat +
    (containsKey values "next").toNat + (containsKey values "offset").toNat + (containsKey values "all").toNat

def spanSelector (name : String) (span : Json) : Except ConnectorError (ℕ × ℕ) :=
  if values.length ≠ 1 then .error (.message s!"z.read {name} selector does not accept sibling options")
  else match span with
    | .obj fields =>
      if fields.length ≠ 2 then .error (.message s!"z.read {name} requires only start and end")
      else do
        let start ← requiredU64 (member fields "start") s!"z.read {name}.start"
        let stop ← requiredU64 (member fields "end") s!"z.read {name}.end"
        .ok (start, stop)
    | _ => .error (.message s!"z.read {name} must be an object")

def lineNumber (n : ℕ) : Except ConnectorError ℕ :=
  if n < 2 ^ 32 then .ok n else .error (.message "out of range integral type conversion attempted")

def bytesSelector (span : Json) : Except ConnectorError ExpandOptions := do
  let (start, stop) ← spanSelector values "bytes" span
  if stop ≤ start then .error (.message "z.read bytes.end must exceed bytes.start")
  else .ok { offset := some start, limit := some (stop - start) }

def linesSelector (span : Json) : Except ConnectorError ExpandOptions := do
  let (start, stop) ← spanSelector values "lines" span
  let lineStart ← lineNumber start
  let lineEnd ← lineNumber stop
  .ok { lineStart := some lineStart, lineEnd := some lineEnd }

def allSelector (all : Json) : Except ConnectorError ExpandOptions :=
  if values.length ≠ 1 ∨ asBool all ≠ some true then .error (.message "z.read all must be exactly \x7ball:true\x7d")
  else .ok {}

def nextOffset : Json → Except ConnectorError ℕ
  | .str bytes =>
    match readDecimal (2 ^ 64) (((fromUtf8 bytes).map String.toList).getD []) with
    | .ok n => .ok n
    | .error e => .error (.message ("invalid z.read next: " ++ e.display))
  | value => requiredU64 (some value) "z.read next"

def optionalLimit : Option Json → Except ConnectorError (Option ℕ)
  | some value => do
    let limit ← requiredU64 (some value) "z.read limit"
    .ok (some limit)
  | none => .ok none

def nextSelector (next : Json) : Except ConnectorError ExpandOptions :=
  if values.any fun entry => entry.1 ≠ "next" ∧ entry.1 ≠ "limit" then
    .error (.message "z.read next accepts only an optional limit")
  else do
    let offset ← nextOffset next
    let limit ← optionalLimit (member values "limit")
    .ok { offset := some offset, limit }

def expandOptions (value : Option Json) : Except ConnectorError ExpandOptions :=
  match value with
  | none => .ok {}
  | some (.obj values) =>
    if 1 < selectors values then
      .error (.message "z.read accepts exactly one bytes, lines, symbol, next, offset, or all selector")
    else match member values "bytes", member values "lines", member values "all", member values "next" with
      | some span, _, _, _ => bytesSelector values span
      | none, some span, _, _ => linesSelector values span
      | none, none, some all, _ => allSelector values all
      | none, none, none, some next => nextSelector values next
      | none, none, none, none => fromValue (normalizeKeys (.obj values))
  | some value => fromValue (normalizeKeys value)

def startArgs (limit : ℕ) : Json := .obj [("limit", .nat limit), ("offset", .nat 0)]

def nextArgs (next limit : ℕ) : Json := .obj [("limit", .nat limit), ("next", .nat next)]

theorem asU64_nat {n : ℕ} (h : n < 2 ^ 64) : asU64 (.nat n) = some n := by
  show (readDigits (2 ^ 64) 0 ((Json.decimalBytes n).map fun b => Char.ofNat b.toNat)).toOption = some n
  rw [Json.map_decimalBytes, readDigits_decimal h]
  rfl

theorem requiredU64_nat {n : ℕ} (h : n < 2 ^ 64) (label : String) : requiredU64 (some (.nat n)) label = .ok n := by
  rw [requiredU64, Option.bind_some, asU64_nat h]

theorem expandOptions_nextArgs {next limit : ℕ} (hnext : next < 2 ^ 64) (hlimit : limit < 2 ^ 64) :
    expandOptions (some (nextArgs next limit)) = .ok { offset := some next, limit := some limit } := by
  have hoffset : nextOffset (.nat next) = .ok next := requiredU64_nat hnext _
  have hvalue : optionalLimit (some (.nat limit)) = .ok (some limit) :=
    bind_eq_ok.mpr ⟨limit, requiredU64_nat hlimit _, rfl⟩
  exact bind_eq_ok.mpr ⟨next, hoffset, bind_eq_ok.mpr ⟨some limit, hvalue, rfl⟩⟩

theorem optionalNumber_nat {n bound : ℕ} (h : n < 2 ^ 64) (hbound : n < bound) (whole : Json) :
    optionalNumber whole bound (some (.nat n)) = .ok (some n) := by
  show numberBelow whole bound (.nat n) = .ok (some n)
  rw [numberBelow, asU64_nat h, Option.filter_some, if_pos (decide_eq_true hbound)]

theorem expandOptions_startArgs {limit : ℕ} (hlimit : limit < 2 ^ 64) :
    expandOptions (some (startArgs limit)) = .ok { offset := some 0, limit := some limit } := by
  refine bind_eq_ok.mpr ⟨some 0, optionalNumber_nat (by decide) (by decide) _, ?_⟩
  exact bind_eq_ok.mpr ⟨some limit, optionalNumber_nat hlimit hlimit _, rfl⟩

end Zero.Paging
