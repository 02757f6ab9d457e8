import Srui.Basic.Machine
import Srui.Basic.Varints

/-!
The length-delimited frame codec, fed from a stream that may be cut anywhere.

Messages are encoded and decoded by the protobuf runtime; that is a parameter
here.
-/

namespace Srui.Protocol.Codec

open Basic.Machine Basic.Varints

inductive FramingError where
  | frameSizeLimitExceeded (limit actual : Nat)
  | decodeError (message : String)
deriving DecidableEq, Repr

/-- The protobuf runtime: decoding is inverse to encoding, and an encoded message
fits in memory. -/
structure MessageCodec (M : Type) where
  encode : M → Bytes
  decode : Bytes → Except String M
  decode_encode : ∀ m, decode (encode m) = .ok m
  encode_length : ∀ m, (encode m).length < 2 ^ 63

variable {M : Type}

/-- `SruiCodec::decode`: what is left in the buffer, and the result. -/
def decode (codec : MessageCodec M) (maxFrameSize : Nat) (src : Bytes) :
    Bytes × Except FramingError (Option M) :=
  if src = [] then (src, .ok none)
  else
    match decodeVarint src with
    | none =>
      if src.length ≥ 10 then
        (src, .error (.decodeError
          "malformed or overlong varint length prefix (exceeds 10 bytes)"))
      else (src, .ok none)
    | some (varintLen, peekBuf) =>
      if varintLen > maxFrameSize then
        (src, .error (.frameSizeLimitExceeded maxFrameSize varintLen))
      else
        let headerLen := src.length - peekBuf.length
        match checkedAdd headerLen varintLen with
        | none => (src, .error (.frameSizeLimitExceeded maxFrameSize u64Max))
        | some totalFrameLen =>
          if src.length < totalFrameLen then (src, .ok none)
          else
            let frameBytes := src.take totalFrameLen
            match codec.decode (frameBytes.drop headerLen) with
            | .error e => (src.drop totalFrameLen, .error (.decodeError e))
            | .ok msg => (src.drop totalFrameLen, .ok (some msg))

/-- `SruiCodec::encode`: the bytes it appends. -/
def encode (codec : MessageCodec M) (maxFrameSize : Nat) (item : M) :
    Except FramingError Bytes :=
  let payloadLen := (codec.encode item).length
  if payloadLen > maxFrameSize then .error (.frameSizeLimitExceeded maxFrameSize payloadLen)
  else .ok (encodeVarint payloadLen ++ codec.encode item)

variable {rest src : Bytes}

theorem decode_shortens {codec : MessageCodec M} {maxFrameSize : Nat} {m : M}
    (h : decode codec maxFrameSize src = (rest, .ok (some m))) : rest.length < src.length := by
  unfold decode at h
  split at h
  · simp at h
  split at h
  · split at h
    · simp at h
    · simp at h
  rename_i varintLen peekBuf hvarint
  split at h
  · simp at h
  simp only at h
  split at h
  · simp at h
  rename_i total htotal
  split at h
  · simp at h
  rename_i hcomplete
  split at h
  · simp at h
  · obtain ⟨header, hne, rfl⟩ := decodeVarintFrom_suffix hvarint
    obtain ⟨-, rfl⟩ := checkedAdd_eq_some.mp htotal
    rw [← (Prod.mk.inj h).1, List.length_drop]
    have hheader : 0 < header.length := List.length_pos_iff.mpr hne
    simp only [List.length_append] at hcomplete ⊢
    omega

/-- The messages at the start of a buffer up to the first error, as repeated
`decode` calls give them: messages, error and what is left. -/
def drain (codec : MessageCodec M) (maxFrameSize : Nat) (src : Bytes) :
    List M × Option FramingError × Bytes :=
  match h : decode codec maxFrameSize src with
  | (rest, .ok none) => ([], none, rest)
  | (rest, .error e) => ([], some e, rest)
  | (rest, .ok (some m)) =>
    have : rest.length < src.length := decode_shortens h
    let drained := drain codec maxFrameSize rest
    (m :: drained.1, drained.2)
termination_by src.length

/-- A reader of the stream: the messages so far, the error that ended it, and the
buffer. -/
structure Reader (M : Type) where
  messages : List M
  error : Option FramingError
  buffer : Bytes

def receive (codec : MessageCodec M) (maxFrameSize : Nat) (reader : Reader M) (chunk : Bytes) :
    Reader M :=
  match reader.error with
  | some _ => reader
  | none =>
    let drained := drain codec maxFrameSize (reader.buffer ++ chunk)
    ⟨reader.messages ++ drained.1, drained.2.1, drained.2.2⟩

def receiveAll (codec : MessageCodec M) (maxFrameSize : Nat) (chunks : List Bytes) : Reader M :=
  chunks.foldl (receive codec maxFrameSize) ⟨[], none, []⟩

/-!
What one call makes of a longer buffer.
-/

variable {codec : MessageCodec M} {maxFrameSize : Nat}

theorem decode_none (h : decode codec maxFrameSize src = (rest, .ok none)) :
    rest = src := by
  unfold decode at h
  split at h
  · exact (Prod.mk.inj h).1.symm
  split at h
  · split at h
    · simp at h
    · exact (Prod.mk.inj h).1.symm
  split at h
  · simp at h
  simp only at h
  split at h
  · simp at h
  split at h
  · exact (Prod.mk.inj h).1.symm
  split at h
  · simp at h
  · simp at h

theorem decode_append {result : Except FramingError (Option M)}
    (h : decode codec maxFrameSize src = (rest, result)) (hdecided : result ≠ .ok none)
    (more : Bytes) : decode codec maxFrameSize (src ++ more) = (rest ++ more, result) := by
  unfold decode at h
  split at h
  · exact absurd (Prod.mk.inj h).2.symm hdecided
  rename_i hne
  have hne' : src ++ more ≠ [] := by simp [hne]
  unfold decode
  rw [if_neg hne']
  split at h
  · rename_i hvarint
    split at h
    · rename_i hten
      have hlong : (src ++ more).length ≥ 10 := by
        rw [List.length_append]
        omega
      have hmalformed : decodeVarint (src ++ more) = none :=
        decodeVarintFrom_none_append hvarint (by omega) more
      obtain ⟨rfl, rfl⟩ := Prod.mk.inj h
      simp only [hmalformed, if_pos hlong]
    · exact absurd (Prod.mk.inj h).2.symm hdecided
  · rename_i varintLen peekBuf hvarint
    have hvarint' : decodeVarint (src ++ more) = some (varintLen, peekBuf ++ more) :=
      decodeVarintFrom_append hvarint more
    have hheader : (src ++ more).length - (peekBuf ++ more).length =
        src.length - peekBuf.length := by
      simp only [List.length_append]
      omega
    simp only [hvarint', hheader]
    split at h
    · rename_i hlimit
      obtain ⟨rfl, rfl⟩ := Prod.mk.inj h
      rw [if_pos hlimit]
    rename_i hlimit
    rw [if_neg hlimit]
    simp only at h
    split at h
    · obtain ⟨rfl, rfl⟩ := Prod.mk.inj h
      rfl
    rename_i total htotal
    split at h
    · exact absurd (Prod.mk.inj h).2.symm hdecided
    rename_i hcomplete
    have hcomplete' : ¬ (src ++ more).length < total := by
      rw [List.length_append]
      omega
    have hfits : total ≤ src.length := Nat.not_lt.mp hcomplete
    rw [if_neg hcomplete', List.take_append_of_le_length hfits,
      List.drop_append_of_le_length hfits]
    split at h
    all_goals
      obtain ⟨rfl, rfl⟩ := Prod.mk.inj h
      rfl

/-!
What repeated calls make of a longer buffer.
-/

theorem drain_none (h : decode codec maxFrameSize src = (src, .ok none)) :
    drain codec maxFrameSize src = ([], none, src) := by
  rw [drain]
  split
  · rename_i heq
    rw [h] at heq
    rw [(Prod.mk.inj heq).1]
  all_goals
    rename_i heq
    rw [h] at heq
    simp at heq

theorem drain_error {e : FramingError}
    (h : decode codec maxFrameSize src = (rest, .error e)) :
    drain codec maxFrameSize src = ([], some e, rest) := by
  rw [drain]
  split
  · rename_i heq
    rw [h] at heq
    simp at heq
  · rename_i heq
    rw [h] at heq
    obtain ⟨rfl, herror⟩ := Prod.mk.inj heq
    rw [Except.error.inj herror]
  · rename_i heq
    rw [h] at heq
    simp at heq

theorem drain_some {m : M}
    (h : decode codec maxFrameSize src = (rest, .ok (some m))) :
    drain codec maxFrameSize src =
      (m :: (drain codec maxFrameSize rest).1, (drain codec maxFrameSize rest).2) := by
  rw [drain]
  split
  · rename_i heq
    rw [h] at heq
    simp at heq
  · rename_i heq
    rw [h] at heq
    simp at heq
  · rename_i heq
    rw [h] at heq
    obtain ⟨rfl, hmessage⟩ := Prod.mk.inj heq
    rw [Option.some.inj (Except.ok.inj hmessage)]

theorem drain_nil : drain codec maxFrameSize [] = ([], none, []) := drain_none rfl

theorem drain_append (codec : MessageCodec M) (maxFrameSize : Nat) (src more : Bytes) :
    (drain codec maxFrameSize (src ++ more)).1 = (drain codec maxFrameSize src).1 ++
        (match (drain codec maxFrameSize src).2.1 with
          | some _ => []
          | none => (drain codec maxFrameSize
              ((drain codec maxFrameSize src).2.2 ++ more)).1) ∧
      (drain codec maxFrameSize (src ++ more)).2.1 =
        (drain codec maxFrameSize src).2.1.or
          (drain codec maxFrameSize ((drain codec maxFrameSize src).2.2 ++ more)).2.1 ∧
      ((drain codec maxFrameSize src).2.1 = none →
        (drain codec maxFrameSize (src ++ more)).2.2 =
          (drain codec maxFrameSize ((drain codec maxFrameSize src).2.2 ++ more)).2.2) := by
  induction hlength : src.length using Nat.strongRecOn generalizing src with
  | ind n ih =>
    cases hdecode : decode codec maxFrameSize src with
    | mk rest result =>
      cases result with
      | error e =>
        have hmore := decode_append hdecode (by simp) more
        rw [drain_error hdecode, drain_error hmore]
        simp
      | ok message =>
        cases message with
        | none =>
          obtain rfl := decode_none hdecode
          rw [drain_none hdecode]
          simp
        | some m =>
          have hmore := decode_append hdecode (by simp) more
          have hrest := ih rest.length (hlength ▸ decode_shortens hdecode) rest rfl
          rw [drain_some hdecode, drain_some hmore]
          refine ⟨?_, hrest.2⟩
          rw [List.cons_append]
          exact congrArg (m :: ·) hrest.1

structure Reads (codec : MessageCodec M) (maxFrameSize : Nat) (bytes : Bytes)
    (reader : Reader M) : Prop where
  messages : reader.messages = (drain codec maxFrameSize bytes).1
  error : reader.error = (drain codec maxFrameSize bytes).2.1
  buffer : reader.error = none → reader.buffer = (drain codec maxFrameSize bytes).2.2

theorem Reads.receive {bytes : Bytes} {reader : Reader M}
    (h : Reads codec maxFrameSize bytes reader) (chunk : Bytes) :
    Reads codec maxFrameSize (bytes ++ chunk) (receive codec maxFrameSize reader chunk) := by
  obtain ⟨hmessages, herror, hbuffer⟩ := drain_append codec maxFrameSize bytes chunk
  rw [Codec.receive]
  split
  · rename_i e he
    have hended : (drain codec maxFrameSize bytes).2.1 = some e := h.error.symm.trans he
    rw [hended] at hmessages herror
    refine ⟨?_, ?_, by simp [he]⟩
    · rw [hmessages, h.messages, List.append_nil]
    · rw [herror, he]
      rfl
  · rename_i he
    have hlive : (drain codec maxFrameSize bytes).2.1 = none := h.error.symm.trans he
    rw [hlive] at hmessages herror
    rw [h.buffer he]
    refine ⟨?_, ?_, fun _ => (hbuffer hlive).symm⟩
    · rw [hmessages, h.messages]
    · rw [herror]
      rfl

theorem receiveAll_reads (chunks : List Bytes) :
    Reads codec maxFrameSize chunks.flatten (receiveAll codec maxFrameSize chunks) := by
  have hfold : ∀ (chunks : List Bytes) (bytes : Bytes) (reader : Reader M),
      Reads codec maxFrameSize bytes reader →
      Reads codec maxFrameSize (bytes ++ chunks.flatten)
        (chunks.foldl (receive codec maxFrameSize) reader) := by
    intro chunks
    induction chunks with
    | nil =>
      intro bytes reader h
      simpa using h
    | cons chunk rest ih =>
      intro bytes reader h
      rw [List.flatten_cons, ← List.append_assoc]
      exact ih (bytes ++ chunk) _ (h.receive chunk)
  have hempty : Reads codec maxFrameSize [] ⟨[], none, []⟩ := by
    refine ⟨?_, ?_, fun _ => ?_⟩
    · rw [drain_nil]
    · rw [drain_nil]
    · rw [drain_nil]
  exact hfold chunks [] _ hempty

theorem decode_encoded {item : M} (hlimit : (codec.encode item).length ≤ maxFrameSize)
    (rest : Bytes) :
    decode codec maxFrameSize
        (encodeVarint (codec.encode item).length ++ codec.encode item ++ rest) =
      (rest, .ok (some item)) := by
  have hlength := codec.encode_length item
  have hheader := length_encodeVarint_le (codec.encode item).length
  have hvarint := decodeVarint_encodeVarint (n := (codec.encode item).length) (by omega)
    (codec.encode item ++ rest)
  rw [List.append_assoc]
  have hne : encodeVarint (codec.encode item).length ++ (codec.encode item ++ rest) ≠ [] := by
    intro hnil
    rw [hnil] at hvarint
    simp [decodeVarint, decodeVarintFrom] at hvarint
  have hsize : (encodeVarint (codec.encode item).length ++ (codec.encode item ++ rest)).length -
      (codec.encode item ++ rest).length = (encodeVarint (codec.encode item).length).length := by
    rw [List.length_append, Nat.add_sub_cancel]
  have hfits : (encodeVarint (codec.encode item).length).length + (codec.encode item).length ≤
      u64Max := by
    unfold u64Max
    omega
  have htotal : checkedAdd (encodeVarint (codec.encode item).length).length
      (codec.encode item).length = some ((encodeVarint (codec.encode item).length).length +
        (codec.encode item).length) := checkedAdd_eq_some.mpr ⟨hfits, rfl⟩
  unfold decode
  rw [if_neg hne, hvarint]
  simp only [hsize, htotal]
  rw [if_neg (Nat.not_lt.mpr hlimit), if_neg (by simp only [List.length_append]; omega),
    ← List.append_assoc, ← List.length_append, List.take_left, List.drop_left, List.drop_left,
    codec.decode_encode]

theorem drain_encoded {items : List M}
    (hlimit : ∀ item ∈ items, (codec.encode item).length ≤ maxFrameSize) :
    ∃ frames, items.mapM (encode codec maxFrameSize) = .ok frames ∧
      drain codec maxFrameSize frames.flatten = (items, none, []) := by
  induction items with
  | nil => exact ⟨[], rfl, drain_nil⟩
  | cons item rest ih =>
    obtain ⟨frames, hframes, hdrain⟩ := ih fun other h => hlimit other (List.mem_cons_of_mem _ h)
    have hitem := hlimit item List.mem_cons_self
    have hencode : encode codec maxFrameSize item =
        .ok (encodeVarint (codec.encode item).length ++ codec.encode item) := by
      simp only [encode, if_neg (Nat.not_lt.mpr hitem)]
    refine ⟨(encodeVarint (codec.encode item).length ++ codec.encode item) :: frames, ?_, ?_⟩
    · rw [List.mapM_cons, hencode, hframes]
      rfl
    · rw [List.flatten_cons, drain_some (decode_encoded hitem frames.flatten), hdrain]

/-- However a stream is cut into chunks, the reader gets the messages and the
first error that one pass over the whole stream gets; and a stream of encoded
messages within the frame limit is decoded to exactly these messages. -/
theorem decoding_independent_of_chunks (codec : MessageCodec M) (maxFrameSize : Nat) :
    (∀ chunks : List Bytes,
      (receiveAll codec maxFrameSize chunks).messages =
          (drain codec maxFrameSize chunks.flatten).1 ∧
        (receiveAll codec maxFrameSize chunks).error =
          (drain codec maxFrameSize chunks.flatten).2.1) ∧
    ∀ items : List M, (∀ item ∈ items, (codec.encode item).length ≤ maxFrameSize) →
      ∃ frames, items.mapM (encode codec maxFrameSize) = .ok frames ∧
        drain codec maxFrameSize frames.flatten = (items, none, []) := by
  refine ⟨?_, fun items hlimit => drain_encoded hlimit⟩
  intro chunks
  have hreads : Reads codec maxFrameSize chunks.flatten (receiveAll codec maxFrameSize chunks) :=
    receiveAll_reads chunks
  exact ⟨hreads.messages, hreads.error⟩

/-- Messages of up to eight bytes, encoded as they are. -/
def shortBytes : MessageCodec { bytes : Bytes // bytes.length ≤ 8 } where
  encode := Subtype.val
  decode bytes := if h : bytes.length ≤ 8 then .ok ⟨bytes, h⟩ else .error "too long"
  decode_encode m := dif_pos m.property
  encode_length m := Nat.lt_of_le_of_lt m.property (by decide)

def twoPayloads : List { bytes : Bytes // bytes.length ≤ 8 } :=
  [⟨[1, 2, 3], by decide⟩, ⟨[4], by decide⟩]

/-- Two payloads, the first of them cut in two. -/
theorem twoPayloads_decoded :
    (∃ frames, twoPayloads.mapM (encode shortBytes 16) = .ok frames ∧
      drain shortBytes 16 frames.flatten = (twoPayloads, none, [])) ∧
      (receiveAll shortBytes 16 [[3, 1], [2, 3, 1], [4]]).messages = twoPayloads := by
  obtain ⟨hchunks, hencoded⟩ := decoding_independent_of_chunks shortBytes 16
  obtain ⟨frames, hframes, hdrain⟩ := hencoded twoPayloads (by decide)
  have hbytes : twoPayloads.mapM (encode shortBytes 16) = .ok [[3, 1, 2, 3], [1, 4]] := by
    simp [twoPayloads, encode, shortBytes, encodeVarint]
    rfl
  refine ⟨⟨frames, hframes, hdrain⟩, ?_⟩
  rw [(hchunks _).1]
  rw [Except.ok.inj (hframes.symm.trans hbytes)] at hdrain
  exact congrArg Prod.fst hdrain

end Srui.Protocol.Codec
