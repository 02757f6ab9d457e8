import Srui.Basic.Varints

/-!
The client's decoder of length-delimited messages that arrive in chunks.

A buffer position is given by the bytes from it on. The parser of message bodies is a
parameter.
-/

namespace Srui.Client.StreamDecoders

open Basic.Varints (Bytes)

inductive SRUIFramingError where
  | malformedVarint
  | frameSizeLimitExceeded (limit : Int) (actual : Nat)
deriving DecidableEq, Repr

/-- What a decode ends with besides the messages: a framing error, or the body that
does not parse. -/
inductive Underlying where
  | framing (error : SRUIFramingError)
  | body (message : String)
deriving DecidableEq, Repr

inductive VarintDecodeResult where
  | incomplete
  | complete (value : Nat) (rest : Bytes)
deriving DecidableEq, Repr

/-- The loop of `decodeVarintIfComplete`. The bits that are set never reach 64, since the
tenth byte holds one. -/
def varintLoop (byteIndex value : Nat) : Bytes → Except SRUIFramingError VarintDecodeResult
  | [] => if byteIndex < 10 then .ok .incomplete else .error .malformedVarint
  | byte :: rest =>
    if 10 ≤ byteIndex then .error .malformedVarint
    else if byteIndex = 9 ∧ 1 < byte.toNat then .error .malformedVarint
    else
      let value := value ||| ((byte &&& 0x7f).toNat <<< (byteIndex * 7))
      if byte &&& 0x80 = 0 then .ok (.complete value rest)
      else varintLoop (byteIndex + 1) value rest

def decodeVarintIfComplete (bytes : Bytes) : Except SRUIFramingError VarintDecodeResult :=
  varintLoop 0 0 bytes

/-- `Int.max`. -/
def intMax : Nat := 9223372036854775807

def checkedFrameLength (length : Nat) (maxFrameSize : Int) : Except SRUIFramingError Nat :=
  let actual := min length intMax
  if 0 ≤ maxFrameSize ∧ (length : Int) ≤ maxFrameSize then .ok actual
  else .error (.frameSizeLimitExceeded maxFrameSize actual)

variable {M : Type}

/-- The body of the loop of `appendAndExtract`: the next message and the bytes after it,
if the buffer holds all of it. -/
def nextMessage (parse : Bytes → Except String M) (maxFrameSize : Int) (bytes : Bytes) :
    Except Underlying (Option (M × Bytes)) :=
  match decodeVarintIfComplete bytes with
  | .error e => .error (.framing e)
  | .ok .incomplete => .ok none
  | .ok (.complete length payload) =>
    match checkedFrameLength length maxFrameSize with
    | .error e => .error (.framing e)
    | .ok payloadLength =>
      if payloadLength ≤ payload.length then
        match parse (payload.take payloadLength) with
        | .error message => .error (.body message)
        | .ok message => .ok (some (message, payload.drop payloadLength))
      else .ok none

theorem varintLoop_suffix {byteIndex value length : Nat} {bytes rest : Bytes}
    (h : varintLoop byteIndex value bytes = .ok (.complete length rest)) :
    rest.length < bytes.length := by
  induction bytes generalizing byteIndex value with
  | nil =>
    rw [varintLoop] at h
    split at h
    · cases h
    · cases h
  | cons byte tail ih =>
    rw [varintLoop] at h
    split at h
    · cases h
    split at h
    · cases h
    simp only at h
    split at h
    · cases h
      exact Nat.lt_succ_self _
    · exact (ih h).trans (Nat.lt_succ_self _)

theorem nextMessage_shortens {parse : Bytes → Except String M} {maxFrameSize : Int}
    {bytes rest : Bytes} {message : M}
    (h : nextMessage parse maxFrameSize bytes = .ok (some (message, rest))) :
    rest.length < bytes.length := by
  rw [nextMessage] at h
  split at h
  · cases h
  · cases h
  rename_i length payload hinitial
  split at h
  · cases h
  split at h
  swap
  · cases h
  split at h
  · cases h
  · cases h
    rw [List.length_drop]
    exact (Nat.sub_le _ _).trans_lt (varintLoop_suffix hinitial)

/-- The loop of `appendAndExtract`: messages, error, and the bytes it keeps. -/
def extract (parse : Bytes → Except String M) (maxFrameSize : Int) (bytes : Bytes) :
    List M × Option Underlying × Bytes :=
  if bytes = [] then ([], none, [])
  else
    match h : nextMessage parse maxFrameSize bytes with
    | .error e => ([], some e, [])
    | .ok none => ([], none, bytes)
    | .ok (some (message, rest)) =>
      have : rest.length < bytes.length := nextMessage_shortens h
      let extracted := extract parse maxFrameSize rest
      (message :: extracted.1, extracted.2)
termination_by bytes.length

structure SRUIMessageStreamDecoder where
  buffer : Bytes := []
  maxFrameSize : Int

/-- `SRUIStreamDecodeError`. -/
structure SRUIStreamDecodeError (M : Type) where
  decodedMessages : List M
  underlying : Underlying

def appendAndExtract (parse : Bytes → Except String M) (decoder : SRUIMessageStreamDecoder)
    (incoming : Bytes) :
    SRUIMessageStreamDecoder × Except (SRUIStreamDecodeError M) (List M) :=
  let extracted := extract parse decoder.maxFrameSize (decoder.buffer ++ incoming)
  ({ decoder with buffer := extracted.2.2 },
    match extracted.2.1 with
    | none => .ok extracted.1
    | some e => .error ⟨extracted.1, e⟩)

/-- A reader of a stream: the messages so far, the error that ended it, the decoder. -/
structure StreamReader (M : Type) where
  messages : List M
  error : Option Underlying
  decoder : SRUIMessageStreamDecoder

def receive (parse : Bytes → Except String M) (reader : StreamReader M) (chunk : Bytes) :
    StreamReader M :=
  match reader.error with
  | some _ => reader
  | none =>
    match appendAndExtract parse reader.decoder chunk with
    | (decoder, .ok messages) => ⟨reader.messages ++ messages, none, decoder⟩
    | (decoder, .error failure) =>
      ⟨reader.messages ++ failure.decodedMessages, some failure.underlying, decoder⟩

def receiveAll (parse : Bytes → Except String M) (maxFrameSize : Int) (chunks : List Bytes) :
    StreamReader M :=
  chunks.foldl (receive parse) ⟨[], none, { maxFrameSize := maxFrameSize }⟩

end Srui.Client.StreamDecoders
