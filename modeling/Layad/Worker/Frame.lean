import Layad.Host

namespace Layad

/-!
# Frames on the pipes

`readTurn` is one turn of the loop of `read_frame_buffered`: the bytes the reader offers
are taken up to the first newline into the frame buffer the caller keeps, so a read that
`select!` drops loses nothing.  `writeFrame` is the line a request is sent as.
-/

/-- What one read of the worker's stdout yields. -/
inductive Frame where
  | line (text : String)
  | eof
  | oversized (bytes : Nat)
  deriving DecidableEq, Repr

/-- What the operating system answers when the reader's own buffer is empty: bytes, none
    at the end of the stream, or an error. -/
inductive Fill where
  | data (bytes : List UInt8)
  | interrupted
  | failed (err : String)
  deriving DecidableEq, Repr

/-- The byte that ends a frame. -/
def newline : UInt8 := 10

/-- The byte dropped before a newline. -/
def carriageReturn : UInt8 := 13

/-- `if buf.last() == Some(&b) { buf.pop(); }`. -/
def popIf (b : UInt8) (buf : List UInt8) : List UInt8 :=
  if buf.getLast? = some b then buf.dropLast else buf

/-- The end of `read_frame_buffered`: the frame without its newline and one carriage
    return, as text. -/
def finishFrame (host : Host) (buf : List UInt8) : Except String Frame :=
  let bytes := popIf carriageReturn (popIf newline buf)
  match String.fromUTF8? ⟨bytes.toArray⟩ with
  | some text => .ok (.line text)
  | none => .error (host.utf8Error bytes)

/-- Where a turn leaves the frame buffer and the reader: still waiting, or with a result. -/
structure Turn where
  buf : List UInt8
  avail : List UInt8
  result : Option (Except String Frame)

/-- One turn of the loop over the bytes `fill_buf` returned. -/
def readTurn (host : Host) (maxBytes : Nat) (buf available : List UInt8) : Turn :=
  if available.isEmpty then
    if buf.isEmpty then ⟨buf, [], some (.ok .eof)⟩
    else ⟨[], [], some (finishFrame host buf)⟩
  else
    let position := available.findIdx? (· = newline)
    let take := (position.map (· + 1)).getD available.length
    -- what is too long is left where it is
    if maxBytes < buf.length + take then
      ⟨buf, available, some (.ok (.oversized (buf.length + take)))⟩
    else
      let buf := buf ++ available.take take
      let rest := available.drop take
      if position.isSome then ⟨[], rest, some (finishFrame host buf)⟩
      else ⟨buf, rest, none⟩

/-- `write_frame`: the serialised value and a newline. -/
def writeFrame (host : Host) (value : Json) : List UInt8 := host.toVec value ++ [newline]

end Layad
