import PhysicalAiStudio.Strings.Text

/-! The download of a trained model from a remote trainer: `_stream_archive` and
`_artifact_total_bytes` of `services/training_backends/remote.py`.

A server answers each request, which may ask for the bytes from an offset on. `httpx` hands a body on
in blocks of a fixed size. Progress reports and log lines are left out.
-/

set_option autoImplicit false

namespace PhysicalAiStudio.Remote.Artifact
open Strings

/-! ### The client -/

structure Headers where
  contentRange : Option Text := none
  contentLength : Option Text := none

/-- A response with the bytes that arrive of its body, and the answers of `should_stop` as they are read; `broken` where
reading on after them raises. -/
structure Response where
  status : Nat
  headers : Headers := {}
  body : List UInt8 := []
  broken : Bool := false
  stops : List Bool := []

/-- What comes of a request: an error of `httpx` before any response, or a response. -/
inductive Reply where
  | failed
  | answered (response : Response)

structure Download where
  file : List UInt8
  received : Nat
  deriving DecidableEq

/-- A header that `isdigit` accepts, read by `int`, which can still raise `ValueError`. -/
def readNumber (text : Text) : Option (Except Unit Nat) :=
  if isdigit text then some ((int text).elim (.error ()) fun value => .ok value.toNat) else none

def artifactTotalBytes (headers : Headers) (offset : Nat) : Except Unit (Option Nat) :=
  let ranged := (headers.contentRange.filter fun range => '/' ∈ range).bind fun range =>
    readNumber (range.rtakeWhile (· ≠ '/'))
  match ranged with
  | some total => total.map some
  | none =>
    match headers.contentLength.bind readNumber with
    | some length => length.map fun length => some (offset + length)
    | none => .ok none

def downloadChunkSize : Nat := 8 * 1024 * 1024

def blocks (chunkSize : Nat) : Nat → List UInt8 → List (List UInt8)
  | 0, _ => []
  | count + 1, body => body.take chunkSize :: blocks chunkSize count (body.drop chunkSize)

/-- The full blocks of a body that breaks off; one that ends has its rest for a last block. -/
def blockCount (chunkSize : Nat) (broken : Bool) (arriving : Nat) : Nat :=
  if broken then arriving / chunkSize else (arriving + chunkSize - 1) / chunkSize

def aiterBytes (chunkSize : Nat) (response : Response) : List (List UInt8) :=
  blocks chunkSize (blockCount chunkSize response.broken response.body.length) response.body

def readBlocks : List (List UInt8) → List Bool → Download → Download × Bool
  | [], _, st => (st, false)
  | block :: rest, stops, st =>
    if stops.headD false then (st, true)
    else readBlocks rest stops.tail { file := st.file ++ block, received := st.received + block.length }

inductive Turn where
  | returned | retried | raised
  deriving DecidableEq, Repr

def conclude (expected : Except Unit (Option Nat)) (stopped broken : Bool) (received : Nat) : Turn :=
  match expected with
  | .error _ => .raised
  | .ok expected =>
    if stopped then .raised
    else if broken then .retried
    else if expected = none ∨ expected = some received then .returned
    else .retried

def attempt (reply : Reply) (st : Download) : Turn × Download :=
  match reply with
  | .failed => (.retried, st)
  | .answered response =>
    if response.status < 200 ∨ 300 ≤ response.status then (.retried, st)
    else
      let read := readBlocks (aiterBytes downloadChunkSize response) response.stops st
      let expected := artifactTotalBytes response.headers st.received
      (conclude expected read.2 response.broken read.1.received, read.1)

def rangeOf (received : Nat) : Option Nat := if received = 0 then none else some received

/-- The attempts from one on, with so many retries left; nothing where an exception leaves the loop. -/
def attempts (stop : Nat → Bool) (server : Nat → Option Nat → Reply) : Nat → Nat → Download → Option Download
  | left, number, st =>
    if stop number then none
    else
      let turn := attempt (server number (rangeOf st.received)) st
      match turn.1, left with
      | .returned, _ => some turn.2
      | .raised, _ => none
      | .retried, 0 => none
      | .retried, left + 1 => attempts stop server left (number + 1) turn.2

def transferRetryLimit : Nat := 3

def streamArchive (stop : Nat → Bool) (server : Nat → Option Nat → Reply) (archive : Option (List UInt8)) :
    Option Download :=
  attempts stop server transferRetryLimit 0 { file := archive.getD [], received := (archive.getD []).length }

/-! ### The server -/

/-- How a server answers a request. Of a body so many bytes arrive; a part ends with the byte `last`; the headers may
leave out the length of the artifact or of the body. -/
inductive Plan where
  | lost
  | refused
  | whole (lengthTold : Bool) (arriving : Nat) (broken : Bool) (stops : List Bool)
  | part (last : Nat) (totalTold lengthTold : Bool) (arriving : Nat) (broken : Bool) (stops : List Bool)
  deriving DecidableEq

def wholeHeaders (total : Nat) (lengthTold : Bool) : Headers where
  contentLength := if lengthTold then some (decimal total) else none

def partHeaders (total offset last : Nat) (totalTold lengthTold : Bool) : Headers where
  contentRange := some ("bytes ".toList ++ decimal offset ++ ['-'] ++ decimal last ++ ['/'] ++
    if totalTold then decimal total else ['*'])
  contentLength := if lengthTold then some (decimal (last + 1 - offset)) else none

/-- The answer of a server that has an artifact; only a request with a satisfiable range is answered with a part. -/
def serve (artifact : List UInt8) (plan : Plan) (range : Option Nat) : Reply :=
  match plan with
  | .lost => .failed
  | .refused => .answered { status := 503 }
  -- The whole artifact, whether a range was asked for or not.
  | .whole lengthTold arriving broken stops => .answered {
      status := 200
      headers := wholeHeaders artifact.length lengthTold
      body := artifact.take arriving
      broken := broken
      stops := stops }
  -- A part answers a range only, and may end before the artifact does.
  | .part last totalTold lengthTold arriving broken stops =>
    match range with
    | none => .answered { status := 503 }
    | some offset =>
      if offset ≤ last ∧ last < artifact.length then .answered {
        status := 206
        headers := partHeaders artifact.length offset last totalTold lengthTold
        body := ((artifact.drop offset).take (last + 1 - offset)).take arriving
        broken := broken
        stops := stops }
      else .answered { status := 416 }

def requests (stop : Nat → Bool) (plans : Nat → Plan) (artifact : List UInt8) :
    Nat → Nat → Download → List (Nat × Plan)
  | left, number, st =>
    if stop number then []
    else
      let turn := attempt (serve artifact (plans number) (rangeOf st.received)) st
      (st.received, plans number) ::
        match turn.1, left with
        | .retried, left + 1 => requests stop plans artifact left (number + 1) turn.2
        | _, _ => []

end PhysicalAiStudio.Remote.Artifact
