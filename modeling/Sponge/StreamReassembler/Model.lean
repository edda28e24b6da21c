import Sponge.Support.OrderedMap
import Sponge.Support.Word
import Sponge.ByteStream

/-!
# The stream reassembler

Substrings of a byte stream arrive in any order and with any overlap.  The
reassembler writes the bytes that continue the output stream and keeps the
others, as pieces in a map from start index to contents, until the gap before
them is filled.

Indices and lengths of the source are 64-bit unsigned integers, and the sums
and differences that involve an index from outside, or the capacity, are
computed modulo `2 ^ 64` as there.  The counter `_expected_index` only ever
grows by bytes that have been written, and is a natural number.

One branch of `reorder_buffer` reads the map entry it has just erased.  What
the source does there is undefined; the model takes the erased string and
records in `usedAfterErase` that the branch was entered.
-/

namespace Sponge

/-- `std::string::substr`. -/
def substr (s : Bytes) (pos len : ℕ) : Bytes := (s.drop pos).take len

/-- The reassembler with its output stream. -/
structure StreamReassembler where
  output : ByteStream
  capacity : ℕ
  unassembledBytes : ℕ
  expectedIndex : ℕ
  buf : OrderedMap ℕ Bytes
  inputEnded : Bool
  usedAfterErase : Bool

namespace StreamReassembler

/-- A reassembler that stores up to `capacity` bytes. -/
def new (capacity : ℕ) : StreamReassembler where
  output := ByteStream.new capacity
  capacity := capacity
  unassembledBytes := 0
  expectedIndex := 0
  buf := OrderedMap.empty
  inputEnded := false
  usedAfterErase := false

/-- Is nothing waiting to be assembled? -/
def empty (r : StreamReassembler) : Bool := r.unassembledBytes == 0

/-! ## Joining two strings -/

/-- The union of two strings that overlap or are adjacent; the string that
starts first wins where they overlap. -/
def mergeString (str1 : Bytes) (ind1 : ℕ) (str2 : Bytes) (ind2 : ℕ) :
    Bytes :=
  if ind1 < ind2 ∧ add64 ind1 str1.length < ind2 then []
  else if ind2 < ind1 ∧ add64 ind2 str2.length < ind1 then []
  else if ind1 ≤ ind2 then
    let overlapped := sub64 (add64 ind1 str1.length) ind2
    if overlapped < str2.length then
      str1 ++ substr str2 overlapped (sub64 str2.length overlapped)
    else str1
  else
    let overlapped := sub64 (add64 ind2 str2.length) ind1
    if overlapped < str1.length then
      str2 ++ substr str1 overlapped (sub64 str1.length overlapped)
    else str2

/-! ## Merging a substring into the stored pieces -/

/-- The local variables of the loop of `merge`. -/
structure MergeScan where
  first : Bool
  index : ℕ
  s : Bytes
  toBeDeleted : List (ℕ × Bytes)
  itPrev : ℕ × Bytes

/-- The local variables before the loop.  `_index` and `it_prev` have no value
yet and are read only once `_first` is set. -/
def MergeScan.init : MergeScan := ⟨false, 0, [], [], (0, [])⟩

/-- What the loop does with an entry that touches the new substring. -/
def MergeScan.touch (scan : MergeScan) (data : Bytes) (index : ℕ)
    (it : ℕ × Bytes) : MergeScan :=
  let scan :=
    if scan.first then scan
    else if index < it.1 then { scan with index := index, first := true }
    else
      { scan with
        index := it.1
        s := mergeString it.2 it.1 data index
        first := true }
  { scan with toBeDeleted := scan.toBeDeleted ++ [it] }

/-- The loop of `merge`, over the entries from an iterator on. -/
def mergeScan (data : Bytes) (index : ℕ) :
    List (ℕ × Bytes) → MergeScan → MergeScan
  | [], scan => scan
  | it :: its, scan =>
      let scan :=
        if index ≤ add64 it.1 it.2.length ∧
            it.1 ≤ add64 index data.length then
          scan.touch data index it
        else scan
      if it.1 > add64 index data.length then scan
      else mergeScan data index its { scan with itPrev := it }

/-- Store a substring, joined with every stored piece it touches. -/
def merge (r : StreamReassembler) (data : Bytes) (index : ℕ) :
    StreamReassembler :=
  let scan := mergeScan data index r.buf.entries MergeScan.init
  let s :=
    if scan.first then
      if scan.s.isEmpty then
        mergeString data index scan.itPrev.2 scan.itPrev.1
      else mergeString scan.s scan.index scan.itPrev.2 scan.itPrev.1
    else scan.s
  if scan.toBeDeleted.isEmpty then
    { r with
      buf := r.buf.insert index data
      unassembledBytes := add64 r.unassembledBytes data.length }
  else
    let tot := scan.toBeDeleted.foldl (fun tot it => add64 tot it.2.length) 0
    let erased := scan.toBeDeleted.foldl (fun buf it => buf.erase it.1) r.buf
    { r with
      buf := erased.insert scan.index s
      unassembledBytes := sub64 r.unassembledBytes (sub64 tot s.length) }

/-! ## Writing the piece that continues the stream -/

/-- Write the first stored piece if it starts at the expected index. -/
def reorderBuffer (r : StreamReassembler) : StreamReassembler :=
  match r.buf.entries with
  | [] => r
  | it :: _ =>
      let bsRemCap := r.output.remainingCapacity
      if it.1 = r.expectedIndex ∧ bsRemCap > 0 then
        if it.2.length > bsRemCap then
          let tmp := substr it.2 0 bsRemCap
          let expectedIndex := r.expectedIndex + tmp.length
          let rest := substr it.2 bsRemCap (sub64 it.2.length bsRemCap)
          { r with
            output := (r.output.write tmp).2
            expectedIndex := expectedIndex
            unassembledBytes := sub64 r.unassembledBytes tmp.length
            buf := (r.buf.erase it.1).insert expectedIndex rest
            usedAfterErase := true }
        else
          { r with
            output := (r.output.write it.2).2
            unassembledBytes := sub64 r.unassembledBytes it.2.length
            expectedIndex := r.expectedIndex + it.2.length
            buf := r.buf.erase it.1 }
      else r

/-! ## Trimming a substring to the window -/

/-- The first index that is not accepted any more. -/
def upperBoundIndex (r : StreamReassembler) : ℕ :=
  add64 r.expectedIndex r.output.remainingCapacity

/-- The result of `validate`: the part of the data to store with its index,
whether it may end the stream, and whether the substring is dealt with at
all. -/
structure Validated where
  data : Bytes
  index : ℕ
  eof : Bool
  verified : Bool

/-- Trim a substring to the part between the expected index and the end of the
window. -/
def validate (r : StreamReassembler) (data : Bytes) (index : ℕ)
    (eof : Bool) : Validated :=
  let upper := r.upperBoundIndex
  let len := data.length
  if r.output.remainingCapacity = 0 then ⟨[], 0, eof, true⟩
  else if len = 0 then ⟨[], 0, eof, true⟩
  else if index ≥ upper then ⟨[], 0, false, false⟩
  else if add64 index len ≤ r.expectedIndex then ⟨[], 0, false, false⟩
  else if index ≤ r.expectedIndex then
    if add64 index len > upper then
      ⟨substr data (sub64 r.expectedIndex index)
        (sub64 upper r.expectedIndex), r.expectedIndex, false, true⟩
    else
      ⟨substr data (sub64 r.expectedIndex index)
        (sub64 (add64 len index) r.expectedIndex),
        r.expectedIndex, eof, true⟩
  else if add64 index len > upper then
    ⟨substr data 0 (sub64 upper index), index, false, true⟩
  else ⟨substr data 0 len, index, eof, true⟩

/-! ## The interface -/

/-- Store the accepted part of a substring and write what has become
contiguous. -/
def assemble (r : StreamReassembler) (v : Validated) : StreamReassembler :=
  if v.data.isEmpty then r else (r.merge v.data v.index).reorderBuffer

/-- End the output once the end has been seen and nothing is missing. -/
def finish (r : StreamReassembler) (eof : Bool) : StreamReassembler :=
  let r := if eof then { r with inputEnded := true } else r
  if r.inputEnded && r.empty then
    { r with output := r.output.endInput }
  else r

/-- Receive a substring and write any newly contiguous bytes. -/
def pushSubstring (r : StreamReassembler) (data : Bytes) (index : ℕ)
    (eof : Bool) : StreamReassembler :=
  let v := r.validate data index eof
  if v.verified then (r.assemble v).finish v.eof else r

/-- Read from the output stream. -/
def popOutput (r : StreamReassembler) (len : ℕ) : StreamReassembler :=
  { r with output := r.output.popOutput len }

end StreamReassembler

end Sponge
