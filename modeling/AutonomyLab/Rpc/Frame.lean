import AutonomyLab.Json.Ascii
import AutonomyLab.Process.Reader
import AutonomyLab.Process.Run

/-!
# JSON frames on a pipe

A frame is a JSON object on a line of at most `MAX_FRAME_BYTES` bytes.  The parts of the
runtime that may block read it from a file with `read_frame`; the others read a pipe with a
`PipeReader`, which keeps what it has of a line until the rest arrives.

* `readFrame`, `writeFrame` — a frame of a file.
* `Pipe`, `Poll` — a reader with the bytes it has yet to get, and how one wait for more ends.
* `PipeReader.read` — the loop of `PipeReader.read`, against a list of polls.
* `PipeReader.loop` — the states that the loop passes through, as a machine.
-/

namespace AutonomyLab.Rpc

open Json

abbrev Bytes : Type := List UInt8

/-- What the platform computes. -/
structure Platform where
  reprFloat : ℚ → String
  parseFloat : String → Option ℚ
  /-- `line.decode(json.detect_encoding(line), "surrogatepass")`. -/
  decode : Bytes → Option (List Char)

/-- `b"\n"`. -/
def newline : UInt8 := 10

/-- What is documented of the platform: floats are written in ASCII and read back, and a line
of ASCII is read as ASCII. -/
structure Platform.Documented (P : Platform) : Prop where
  float : FloatText P.reprFloat P.parseFloat
  printable : ∀ q, Printable (P.reprFloat q).toList
  decode : ∀ text, Printable text → P.decode (encode text ++ [newline]) = some (text ++ ['\n'])

def maxFrameBytes : ℕ := 8 * 1024 * 1024

/-- How a read may end other than by returning. -/
inductive Failure where
  | valueError (message : String)
  /-- `json.loads` has raised. -/
  | undecodable
  | timeoutError (message : String)
  deriving DecidableEq

/-- `separators=(",", ":")`. -/
def layout : Layout := { item := ",", key := ":" }

section
variable (P : Platform)

/-- The value of a line that is a frame. -/
def parseLine (line : Bytes) : Except Failure Json :=
  match (P.decode line).bind (loads P.parseFloat) with
  | none => .error .undecodable
  | some (.obj fs) => .ok (.obj fs)
  | some _ => .error (.valueError "RPC frame must be an object")

/-- `json.dumps(value, allow_nan=False, separators=(",", ":")).encode() + b"\n"`. -/
def encodeFrame (value : Json) : Bytes :=
  encode (dumps P.reprFloat layout value).toList ++ [newline]

/-- `write_frame`, as the bytes that it writes. -/
def writeFrame (value : Json) : Except Failure Bytes :=
  if (encodeFrame P value).length > maxFrameBytes then .error (.valueError "RPC frame too large")
  else .ok (encodeFrame P value)

end

/-! ## Reading a file -/

/-- `stream.readline(size)`, and what is left of the stream. -/
def readline : ℕ → Bytes → Bytes × Bytes
  | 0, stream => ([], stream)
  | _ + 1, [] => ([], [])
  | size + 1, b :: stream =>
      if b = newline then ([b], stream)
      else (b :: (readline size stream).1, (readline size stream).2)

/-- `read_frame`. -/
def readFrame (P : Platform) (stream : Bytes) : Except Failure Json × Bytes :=
  let (line, rest) := readline (maxFrameBytes + 1) stream
  if line = [] ∨ line.length > maxFrameBytes ∨ line.getLast? ≠ some newline then
    (.error (.valueError "Missing or oversized RPC frame"), rest)
  else (parseLine P line, rest)

/-- `read_frame` is called until it raises. -/
def fileReader (P : Platform) : Process.Reader Bytes Json Failure := fun stream =>
  (some (readFrame P stream).1, (readFrame P stream).2)

/-! ## Reading a pipe -/

/-- A `PipeReader`, and the bytes that it will find in the pipe before the end of the stream. -/
structure Pipe where
  buffer : Bytes
  unread : Bytes

/-- How one wait for bytes ends. -/
inductive Poll where
  /-- There is no time left, or `select` has found nothing in the time that was left. -/
  | expired
  /-- `os.read` has raised `BlockingIOError`. -/
  | blocked
  /-- `os.read` answers with at most `n + 1` bytes, or with the end of the stream. -/
  | ready (n : ℕ)
  deriving DecidableEq

namespace PipeReader

/-- `min(65536, MAX_FRAME_BYTES - len(self.buffer))`. -/
def asked (p : Pipe) : ℕ := min 65536 (maxFrameBytes - p.buffer.length)

/-- What a turn of the loop does with the buffer alone: it returns the first line, or refuses a
buffer that is full. -/
def take? (P : Platform) (p : Pipe) : Option (Except Failure Json × Pipe) :=
  match p.buffer.findIdx? (· = newline) with
  | some stop =>
      if stop + 1 > maxFrameBytes then some (.error (.valueError "Oversized RPC frame"), p)
      else some (parseLine P (p.buffer.take (stop + 1)),
        { p with buffer := p.buffer.drop (stop + 1) })
  | none =>
      if p.buffer.length ≥ maxFrameBytes then some (.error (.valueError "Oversized RPC frame"), p)
      else none

/-- The rest of a turn: more bytes are waited for. -/
def receive (p : Pipe) : Poll → Except Failure Pipe
  | .expired => .error (.timeoutError "RPC frame deadline")
  | .blocked => .ok p
  | .ready n =>
      let chunk := p.unread.take (min (n + 1) (asked p))
      if chunk = [] then .error (.valueError "Missing RPC frame")
      else .ok ⟨p.buffer ++ chunk, p.unread.drop chunk.length⟩

/-- `PipeReader.read`, where its waits end as the polls say; nothing is returned when it waits
after the last of them. -/
def read (P : Platform) (p : Pipe) (polls : List Poll) :
    Option (Except Failure Json) × Pipe × List Poll :=
  match take? P p with
  | some (result, p') => (some result, p', polls)
  | none => match polls with
    | [] => (none, p, [])
    | poll :: polls => match receive p poll with
      | .error e => (some (.error e), p, polls)
      | .ok p' => read P p' polls

/-- `PipeReader.read` is called until it raises. -/
def reader (P : Platform) : Process.Reader (Pipe × List Poll) Json Failure := fun s => read P s.1 s.2

/-- One turn of the loop, which waits or does not. -/
def loop (P : Platform) (p : Pipe) : Option Poll → Option Pipe
  | none => (take? P p).map Prod.snd
  | some poll => if (take? P p).isSome then none else (receive p poll).toOption

end PipeReader

/-- A reader of a stream that was just created. -/
def Pipe.initial (stream : Bytes) : Pipe := ⟨[], stream⟩

/-- What the reader has not returned yet. -/
def Pipe.pending (p : Pipe) : Bytes := p.buffer ++ p.unread

end AutonomyLab.Rpc
