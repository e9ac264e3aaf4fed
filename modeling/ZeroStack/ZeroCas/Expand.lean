import Std.Data.TreeMap
import ZeroStack.Numeric
import ZeroStack.ZeroRef.Select

/-! The line index of a stored object, and its expansion: by a symbol or a line range of the index, or by bytes. -/

open Wire Numeric

namespace Zero.Cas

inductive ZeroCasError where
  | invalidHandle (detail : String)
  | policy (detail : String)
  | notFound
  | corrupt (expected actual : String)
  | invalidSelection (detail : String)
  | io (detail : String)
  deriving DecidableEq

structure SymbolSelection where
  byteStart : ℕ
  byteEnd : ℕ
  deriving DecidableEq

structure SelectionIndex where
  lineStarts : List ℕ
  symbols : Std.TreeMap String SymbolSelection

def SelectionIndex.fromUtf8 (text : String) : SelectionIndex :=
  { lineStarts := 0 :: offsetsBehind Ref.isNewline (utf8Bytes text), symbols := ∅ }

def SelectionIndex.lineRange (index : SelectionIndex) (start stop totalBytes : ℕ) : Except ZeroCasError (ℕ × ℕ) :=
  if start = 0 ∨ stop < start then .error (.invalidSelection "line range must be one-based and inclusive")
  else if index.lineStarts.length ≤ start - 1 then .error (.invalidSelection "line start is beyond the object")
  else .ok (index.lineStarts.getD (start - 1) 0, min (index.lineStarts[stop]?.getD totalBytes) totalBytes)

def zeroCasObjectByteLimit : ℕ := 256 * 1024 * 1024

structure ZeroHandle where
  digest : String
  deriving DecidableEq

structure ExpandOptions where
  offset : Option ℕ := none
  limit : Option ℕ := none
  lineStart : Option ℕ := none
  lineEnd : Option ℕ := none
  symbol : Option String := none
  deriving DecidableEq

structure ExpandedBlob where
  bytes : List UInt8
  byteStart : ℕ
  byteEnd : ℕ
  byteLength : ℕ
  deriving DecidableEq

structure CasView where
  file : ZeroHandle → Except ZeroCasError (List UInt8)
  selection : ZeroHandle → Except ZeroCasError (Option (Option SelectionIndex))

section Model
variable (blake3 : List UInt8 → String) (view : CasView)

def mapObject (handle : ZeroHandle) : Except ZeroCasError (List UInt8) := do
  let bytes ← view.file handle
  if zeroCasObjectByteLimit < bytes.length then .error (.policy s!"mapped object is {bytes.length} bytes")
  else if blake3 bytes ≠ handle.digest then .error (.corrupt handle.digest (blake3 bytes))
  else .ok bytes

def symbolRange (handle : ZeroHandle) (symbol : String) (total : ℕ) : Except ZeroCasError (ℕ × ℕ) := do
  match ← view.selection handle with
  | none => .error (.invalidSelection "symbol expansion requires metadata")
  | some index =>
    match index.bind fun index => index.symbols[symbol]? with
    | none => .error (.invalidSelection s!"unknown symbol {symbol}")
    | some selection => .ok (min selection.byteStart total, min selection.byteEnd total)

def lineSelection (handle : ZeroHandle) (mapped : List UInt8) (start stop : ℕ) : Except ZeroCasError (ℕ × ℕ) := do
  match (← view.selection handle).join with
  | some index => index.lineRange start stop mapped.length
  | none =>
    match fromUtf8 mapped with
    | none => .error (.invalidSelection "line expansion requires UTF-8 bytes")
    | some text => (SelectionIndex.fromUtf8 text).lineRange start stop mapped.length

def byteSelection (options : ExpandOptions) (total : ℕ) : ℕ × ℕ :=
  let start := min (options.offset.getD 0) total
  (start, min (saturate (2 ^ 64 - 1) (start + options.limit.getD total)) total)

def selectRange (handle : ZeroHandle) (mapped : List UInt8) (options : ExpandOptions) : Except ZeroCasError (ℕ × ℕ) :=
  match options.symbol, options.lineStart, options.lineEnd with
  | some symbol, _, _ => symbolRange view handle symbol mapped.length
  | none, some start, some stop => lineSelection view handle mapped start stop
  | none, _, _ => .ok (byteSelection options mapped.length)

def expandWithRange (handle : ZeroHandle) (options : ExpandOptions) : Except ZeroCasError ExpandedBlob := do
  let mapped ← mapObject blake3 view handle
  let range ← selectRange view handle mapped options
  if range.2 < range.1 then .error (.invalidSelection "selection start exceeds end")
  else .ok ⟨mapped.extract range.1 range.2, range.1, range.2, mapped.length⟩

def expand (handle : ZeroHandle) (options : ExpandOptions) : Except ZeroCasError (List UInt8) := do
  let expanded ← expandWithRange blake3 view handle options
  .ok expanded.bytes

end Model
end Zero.Cas
