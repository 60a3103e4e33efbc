import PlugAgente.Dart.Loop
import PlugAgente.Dart.Utf8

/-!
# Captured output in chunks

A long stdout or stderr of an execution spills into rows of at most
`chunkPayloadUtf8Bytes` bytes (`AgentActionCapturedOutputChunker.split`, stored by
`replaceStream`).  A window of the stream is read back from the rows (`sliceStreamWindow`); where
the whole text is at hand the window is cut from it (`sliceUtf8TextWindow`).

Offsets are counted in UTF-8 bytes.  An offset that a caller gives is an integer of 64 bits; once
it is clamped it is a natural number.  The sums `start + maxBytes` may wrap.
-/

namespace PlugAgente.CapturedOutput

open Dart

/-! ## Integers and lists of Dart -/

def clamp {α : Type} [LT α] [DecidableLT α] (x lower upper : α) : α :=
  if x < lower then lower else if upper < x then upper else x

/-- `+` of Dart integers, which have 64 bits. -/
def add64 (a b : Int) : Int :=
  (a + b).bmod (2 ^ 64)

def sublist {α : Type} (xs : List α) (first last : Nat) : List α :=
  (xs.take last).drop first

/-! ## AgentActionCapturedOutputConstants -/

/-- `_positiveInt`, of the value that `int.tryParse` gives for the variable. -/
def positiveInt (parsed : Option Int) (fallback lower upper : Nat) : Nat :=
  let value := match parsed with
    | none => fallback
    | some n => if n ≤ 0 then fallback else n.toNat
  clamp value lower upper

/-- `chunkPayloadUtf8Bytes`; `AGENT_ACTION_CAPTURED_OUTPUT_CHUNK_BYTES` holds `parsed`. -/
def chunkPayloadUtf8Bytes (parsed : Option Int) : Nat :=
  positiveInt parsed (32 * 1024) 4096 (512 * 1024)

/-! ## AgentActionCapturedOutputChunker -/

/-- `AgentActionCapturedOutputChunkSlice`. -/
structure ChunkSlice where
  chunkIndex : Nat
  utf8Offset : Nat
  payload : String

/-- The loop that moves `last` down until the bytes from `first` to `last` decode. -/
def lastDecodable (bytes : List UInt8) (first : Nat) : Nat → Nat
  | 0 => 0
  | last + 1 =>
    if first < last + 1 then
      match utf8Decode (sublist bytes first (last + 1)) with
      | .ok _ => last + 1
      | .error _ => lastDecodable bytes first last
    else last + 1

/-- One round of `split`; the state is the offset and the index of the next chunk. -/
def splitRound (chunkSize : Nat) (bytes : List UInt8) :
    Nat × Nat → Except FormatException (List ChunkSlice × Option (Nat × Nat))
  | (offset, index) =>
    if offset < bytes.length then
      let lowered := lastDecodable bytes offset
        (clamp (offset + chunkSize) offset bytes.length)
      let last := if lowered ≤ offset then clamp (offset + 1) offset bytes.length else lowered
      match utf8Decode (sublist bytes offset last) with
      | .error e => .error e
      | .ok payload =>
        .ok ([{ chunkIndex := index, utf8Offset := offset, payload }], some (last, index + 1))
    else .ok ([], none)

def split (chunkSize : Nat) (text : String) : Except FormatException (List ChunkSlice) :=
  let bytes := utf8Encode text
  Loop.emit (fun state => bytes.length - state.1) (splitRound chunkSize bytes) (0, 0)

/-! ## AgentActionCapturedOutputChunkStore -/

/-- A row of `AgentActionCapturedOutputChunkTable`. -/
structure ChunkRow where
  executionId : String
  stream : String
  chunkIndex : Nat
  utf8Offset : Nat
  payload : String

/-- The rows of a stream of an execution. -/
def ChunkRow.isOf (executionId stream : String) (row : ChunkRow) : Bool :=
  row.executionId = executionId && row.stream = stream

/-- The row that `replaceStream` inserts for a chunk. -/
def ChunkSlice.row (executionId stream : String) (slice : ChunkSlice) : ChunkRow :=
  { executionId, stream, chunkIndex := slice.chunkIndex, utf8Offset := slice.utf8Offset,
    payload := slice.payload }

def replaceStream (chunkSize : Nat) (table : List ChunkRow) (executionId stream text : String) :
    Except FormatException (List ChunkRow) :=
  let kept := table.filter fun row => !row.isOf executionId stream
  match split chunkSize text with
  | .error e => .error e
  | .ok slices => .ok (kept ++ slices.map (ChunkSlice.row executionId stream))

structure CapturedOutputUtf8Window where
  text : String
  nextOffset : Nat
  totalBytes : Nat
  responseTruncated : Bool
  effectiveStart : Nat

/-- The loop of `_alignUtf8StartOffset`: back to the byte that starts a character. -/
def alignBack (bytes : List UInt8) : Nat → Nat
  | 0 => 0
  | aligned + 1 =>
    match bytes[aligned + 1]? with
    | none => aligned + 1
    | some byte => if Utf8.continues byte then alignBack bytes aligned else aligned + 1

/-- `_alignUtf8StartOffset`, which the store and the pager both have. -/
def alignUtf8StartOffset (bytes : List UInt8) (offset : Int) : Nat :=
  alignBack bytes (clamp offset 0 bytes.length).toNat

/-- The loop of `_decodeUtf8Window`. -/
def decodeDown (bytes : List UInt8) (start : Nat) : Nat → Nat × String
  | 0 => (start, "")
  | last + 1 =>
    if start < last + 1 then
      match utf8Decode (sublist bytes start (last + 1)) with
      | .ok text => (last + 1, text)
      | .error _ => decodeDown bytes start last
    else (start, "")

def decodeUtf8Window (bytes : List UInt8) (start : Nat) (maxBytes : Int) : Nat × String :=
  decodeDown bytes start (min (add64 start maxBytes) bytes.length).toNat

/-- The window of a stream with nothing left at the offset. -/
def emptyWindow (totalBytes safeOffset : Nat) : CapturedOutputUtf8Window :=
  { text := "", nextOffset := totalBytes, totalBytes, responseTruncated := false
    effectiveStart := safeOffset }

/-- The bytes that a row stands for. -/
def ChunkRow.bytes (row : ChunkRow) : List UInt8 :=
  utf8Encode row.payload

def sliceStreamWindow (table : List ChunkRow) (executionId stream : String)
    (offsetUtf8 maxBytes : Int) : Option CapturedOutputUtf8Window :=
  let ofStream := table.filter (ChunkRow.isOf executionId stream)
  match (ofStream.mergeSort fun a b => decide (b.chunkIndex ≤ a.chunkIndex)).head? with
  | none => none
  | some last =>
    let totalBytes := last.utf8Offset + last.bytes.length
    let safeOffset := (clamp offsetUtf8 0 totalBytes).toNat
    if totalBytes ≤ safeOffset then some (emptyWindow totalBytes safeOffset)
    else
      let targetEnd := min (add64 safeOffset maxBytes) totalBytes
      let startMeta := ((ofStream.filter fun row => row.utf8Offset ≤ safeOffset).mergeSort
        fun a b => decide (b.utf8Offset ≤ a.utf8Offset)).head?
      match startMeta with
      | none => some (emptyWindow totalBytes safeOffset)
      | some startRow =>
        let rows := (ofStream.filter fun row =>
            decide (startRow.chunkIndex ≤ row.chunkIndex) && decide (row.utf8Offset < targetEnd))
          |>.mergeSort fun a b => decide (a.chunkIndex ≤ b.chunkIndex)
        match rows.head? with
        | none => some (emptyWindow totalBytes safeOffset)
        | some first =>
          let assembled := rows.flatMap ChunkRow.bytes
          let assembledStart := first.utf8Offset
          let relativeStart := alignUtf8StartOffset assembled
            ((safeOffset : Int) - (assembledStart : Int))
          let window := decodeUtf8Window assembled relativeStart maxBytes
          let absoluteEnd := assembledStart + window.1
          some
            { text := window.2, nextOffset := absoluteEnd, totalBytes
              responseTruncated := absoluteEnd < totalBytes
              effectiveStart := assembledStart + relativeStart }

/-! ## The window of a text at hand -/

def sliceUtf8TextWindow (fullText : String) (offsetUtf8 maxBytes : Int) :
    Except FormatException CapturedOutputUtf8Window :=
  let bytes := utf8Encode fullText
  let total := bytes.length
  let start := alignUtf8StartOffset bytes offsetUtf8
  if total ≤ start then .ok (emptyWindow total start)
  else
    let last := lastDecodable bytes start (clamp (add64 start maxBytes) start total).toNat
    match utf8Decode (sublist bytes start last) with
    | .error e => .error e
    | .ok decoded =>
      .ok
        { text := decoded, nextOffset := last, totalBytes := total
          responseTruncated := last < total, effectiveStart := start }

end PlugAgente.CapturedOutput
