import Srui.Client.StreamDecoders
import Srui.Protocol.Codec

/-!
The two decoders of length-delimited streams accept the same language.

Both stop at the first error. One pass over the bytes is compared first; that no cut of
the bytes into chunks matters follows on each side.
-/

namespace Srui.Exchange.FrameStreams

open Basic.Machine Basic.Varints
open Protocol.Codec
  (MessageCodec FramingError Reads drain drain_none drain_error drain_some receiveAll_reads
    shortBytes)
open Client.StreamDecoders

variable {M : Type} {codec : MessageCodec M} {maxFrameSize : Nat}

/-! ### Varints -/

theorem toNat_payload (byte : UInt8) : (byte &&& 0x7f).toNat = byte.toNat % 128 := by
  have hmask : (0x7f : UInt8).toNat = 2 ^ 7 - 1 := rfl
  rw [UInt8.toNat_and, hmask, Nat.and_two_pow_sub_one_eq_mod]

theorem continuation_iff (byte : UInt8) : byte &&& 0x80 = 0 ↔ byte.toNat < 128 := by
  have hall : ∀ n < 256, n &&& 128 = 0 ↔ n < 128 := by decide +kernel
  rw [← UInt8.toNat_inj, UInt8.toNat_and]
  exact hall byte.toNat byte.toNat_lt

theorem or_shift {value payload shift : Nat} (h : value < 2 ^ shift) :
    value ||| payload <<< shift = value + 2 ^ shift * payload := by
  rw [Nat.or_comm, ← Nat.shiftLeft_add_eq_or_of_lt h, Nat.shiftLeft_eq, Nat.add_comm,
    Nat.mul_comm]

theorem decodeVarintFrom_ten (bytes : Bytes) : decodeVarintFrom 10 bytes = none := by
  rcases bytes with - | ⟨byte, rest⟩
  · rfl
  · rw [decodeVarintFrom, if_pos (Nat.le_refl 10)]

/-- With the bits of `byteIndex` bytes read, both sides read on alike: what is no varint
is malformed once ten bytes are there, and cut short before. -/
theorem varintLoop_eq {byteIndex value : Nat} (hindex : byteIndex ≤ 10)
    (hvalue : value < 2 ^ (byteIndex * 7)) (bytes : Bytes) :
    varintLoop byteIndex value bytes =
      match decodeVarintFrom byteIndex bytes with
      | some (high, rest) => .ok (.complete (value + 2 ^ (byteIndex * 7) * high) rest)
      | none =>
        if 10 ≤ byteIndex + bytes.length then .error .malformedVarint else .ok .incomplete := by
  induction bytes generalizing byteIndex value with
  | nil =>
    rw [varintLoop, decodeVarintFrom, List.length_nil, Nat.add_zero]
    simp only
    split
    · rw [if_neg (by omega)]
    · rw [if_pos (by omega)]
  | cons byte rest ih =>
    rw [varintLoop, decodeVarintFrom]
    have hten : 10 ≤ byteIndex → 10 ≤ byteIndex + (byte :: rest).length := fun h =>
      h.trans (Nat.le_add_right _ _)
    rcases Nat.lt_or_ge byteIndex 10 with hmore | hdone
    swap
    · rw [if_pos hdone, if_pos hdone]
      simp only
      rw [if_pos (hten hdone)]
    rw [if_neg (Nat.not_le.mpr hmore), if_neg (Nat.not_le.mpr hmore)]
    rcases Classical.em (byteIndex = 9 ∧ 1 < byte.toNat) with hwide | hfits
    · -- The tenth byte holds more than one bit.
      obtain ⟨rfl, hwide⟩ := hwide
      have hlength : 10 ≤ 9 + (byte :: rest).length := by
        rw [List.length_cons]
        omega
      have htenth : 9 = 9 ∧ byte.toNat ≥ 2 := ⟨rfl, hwide⟩
      rw [if_pos ⟨rfl, hwide⟩, decodeVarintFrom_ten rest]
      rcases Nat.lt_or_ge byte.toNat 128 with hlast | hlonger
      · rw [if_pos hlast, if_pos htenth]
        simp only
        rw [if_pos hlength]
      · rw [if_neg (Nat.not_lt.mpr hlonger)]
        simp only
        rw [if_pos hlength]
    rw [if_neg hfits, toNat_payload, or_shift hvalue]
    rcases Nat.lt_or_ge byte.toNat 128 with hlast | hlonger
    · have hnarrow : ¬(byteIndex = 9 ∧ byte.toNat ≥ 2) := hfits
      rw [if_pos ((continuation_iff byte).mpr hlast), if_pos hlast, if_neg hnarrow,
        Nat.mod_eq_of_lt hlast]
    have hcontinues : ¬byte &&& 0x80 = 0 := fun h =>
      Nat.not_lt.mpr hlonger ((continuation_iff byte).mp h)
    have hbyte := byte.toNat_lt
    have hpayload : byte.toNat % 128 = byte.toNat - 128 := by omega
    have hpower : 2 ^ ((byteIndex + 1) * 7) = 2 ^ (byteIndex * 7) * 128 := by
      rw [Nat.add_mul, Nat.pow_add]
    have hnext : value + 2 ^ (byteIndex * 7) * (byte.toNat - 128) <
        2 ^ ((byteIndex + 1) * 7) := by
      have hle : byte.toNat - 128 + 1 ≤ 128 := by omega
      calc value + 2 ^ (byteIndex * 7) * (byte.toNat - 128)
          < 2 ^ (byteIndex * 7) + 2 ^ (byteIndex * 7) * (byte.toNat - 128) := by omega
        _ = 2 ^ (byteIndex * 7) * (byte.toNat - 128 + 1) := by ring
        _ ≤ 2 ^ (byteIndex * 7) * 128 := Nat.mul_le_mul_left _ hle
        _ = 2 ^ ((byteIndex + 1) * 7) := hpower.symm
    rw [if_neg hcontinues, if_neg (Nat.not_lt.mpr hlonger), hpayload, ih hmore hnext]
    rcases hrest : decodeVarintFrom (byteIndex + 1) rest with - | ⟨high, after⟩
    · have hread : byteIndex + 1 + rest.length = byteIndex + (rest.length + 1) := by omega
      simp only
      rw [List.length_cons, hread]
    · have hread : value + 2 ^ (byteIndex * 7) * (byte.toNat - 128) +
          2 ^ ((byteIndex + 1) * 7) * high =
          value + 2 ^ (byteIndex * 7) * (byte.toNat - 128 + 128 * high) := by
        rw [hpower]
        ring
      simp only
      rw [hread]

theorem decodeVarintIfComplete_eq (bytes : Bytes) :
    decodeVarintIfComplete bytes =
      match decodeVarint bytes with
      | some (length, rest) => .ok (.complete length rest)
      | none => if 10 ≤ bytes.length then .error .malformedVarint else .ok .incomplete := by
  rw [decodeVarintIfComplete, varintLoop_eq (Nat.zero_le 10) Nat.one_pos, decodeVarint]
  simp

variable {bytes : Bytes}

theorem decodeVarintFrom_header {count : Nat} {rest : Bytes} {n : Nat}
    (h : decodeVarintFrom count bytes = some (n, rest)) :
    bytes.length + count ≤ rest.length + 10 := by
  induction bytes generalizing count n with
  | nil => cases h
  | cons byte tail ih =>
    rw [decodeVarintFrom] at h
    split at h
    · cases h
    rename_i hcount
    rw [List.length_cons]
    split at h
    · split at h
      · cases h
      · cases h
        omega
    · split at h
      · rename_i high after htail
        cases h
        have hrest := ih htail
        omega
      · cases h

/-! ### One pass -/

inductive Matches : Underlying → FramingError → Prop where
  | malformed : Matches (.framing .malformedVarint)
      (.decodeError "malformed or overlong varint length prefix (exceeds 10 bytes)")
  | oversized (limit length : Nat) : Matches
      (.framing (.frameSizeLimitExceeded limit (min length intMax)))
      (.frameSizeLimitExceeded limit length)
  | body (message : String) : Matches (.body message) (.decodeError message)

theorem nextMessage_agrees (codec : MessageCodec M) (hmax : maxFrameSize ≤ intMax)
    (hne : bytes ≠ []) :
    (Protocol.Codec.decode codec maxFrameSize bytes = (bytes, .ok none) ∧
        nextMessage codec.decode maxFrameSize bytes = .ok none) ∨
      (∃ rest message,
        Protocol.Codec.decode codec maxFrameSize bytes = (rest, .ok (some message)) ∧
        nextMessage codec.decode maxFrameSize bytes = .ok (some (message, rest))) ∨
      ∃ rest e e', Protocol.Codec.decode codec maxFrameSize bytes = (rest, .error e) ∧
        nextMessage codec.decode maxFrameSize bytes = .error e' ∧ Matches e' e := by
  rw [Protocol.Codec.decode, if_neg hne, nextMessage, decodeVarintIfComplete_eq]
  rcases hvarint : decodeVarint bytes with - | ⟨length, payload⟩
  · simp only
    rcases Nat.lt_or_ge bytes.length 10 with hshort | hlong
    · rw [if_neg (Nat.not_le.mpr hshort), if_neg (Nat.not_le.mpr hshort)]
      exact Or.inl ⟨rfl, rfl⟩
    · rw [if_pos hlong, if_pos hlong]
      exact Or.inr (Or.inr ⟨_, _, _, rfl, rfl, .malformed⟩)
  simp only
  rcases Nat.lt_or_ge maxFrameSize length with hover | hfits
  · have hrefused : ¬(0 ≤ (maxFrameSize : Int) ∧ (length : Int) ≤ maxFrameSize) := by omega
    rw [if_pos hover, checkedFrameLength, if_neg hrefused]
    exact Or.inr (Or.inr ⟨_, _, _, rfl, rfl, .oversized maxFrameSize length⟩)
  have hallowed : 0 ≤ (maxFrameSize : Int) ∧ (length : Int) ≤ maxFrameSize := by omega
  have hlength : min length intMax = length := Nat.min_eq_left (hfits.trans hmax)
  rw [if_neg (Nat.not_lt.mpr hfits), checkedFrameLength, if_pos hallowed, hlength]
  have hheader := decodeVarintFrom_header hvarint
  obtain ⟨header, -, rfl⟩ := decodeVarintFrom_suffix hvarint
  have hsize : (header ++ payload).length - payload.length = header.length := by
    rw [List.length_append, Nat.add_sub_cancel]
  have htotal : checkedAdd header.length length = some (header.length + length) := by
    refine checkedAdd_eq_some.mpr ⟨?_, rfl⟩
    rw [List.length_append] at hheader
    unfold intMax at hmax
    unfold u64Max
    omega
  simp only
  rw [hsize, htotal]
  simp only
  rcases Nat.lt_or_ge payload.length length with hshort | hwhole
  · have hwaits : (header ++ payload).length < header.length + length := by
      rw [List.length_append]
      omega
    rw [if_pos hwaits, if_neg (Nat.not_le.mpr hshort)]
    exact Or.inl ⟨rfl, rfl⟩
  have hreads : ¬(header ++ payload).length < header.length + length := by
    rw [List.length_append]
    omega
  have hframe : ((header ++ payload).take (header.length + length)).drop header.length =
      payload.take length := by
    rw [List.take_length_add_append, List.drop_left]
  have hrest : (header ++ payload).drop (header.length + length) = payload.drop length :=
    List.drop_length_add_append _
  rw [if_neg hreads, if_pos hwhole, hframe, hrest]
  rcases hparse : codec.decode (payload.take length) with message | message
  · exact Or.inr (Or.inr ⟨_, _, _, rfl, rfl, .body message⟩)
  · exact Or.inr (Or.inl ⟨_, _, rfl, rfl⟩)

theorem extract_none (hne : bytes ≠ [])
    (h : nextMessage codec.decode maxFrameSize bytes = .ok none) :
    extract codec.decode maxFrameSize bytes = ([], none, bytes) := by
  rw [extract, if_neg hne]
  split
  · rename_i heq
    rw [h] at heq
    cases heq
  · rfl
  · rename_i heq
    rw [h] at heq
    cases heq

theorem extract_error {e : Underlying} (hne : bytes ≠ [])
    (h : nextMessage codec.decode maxFrameSize bytes = .error e) :
    extract codec.decode maxFrameSize bytes = ([], some e, []) := by
  rw [extract, if_neg hne]
  split
  · rename_i heq
    rw [h] at heq
    cases heq
    rfl
  all_goals
    rename_i heq
    rw [h] at heq
    cases heq

theorem extract_some {rest : Bytes} {message : M} (hne : bytes ≠ [])
    (h : nextMessage codec.decode maxFrameSize bytes = .ok (some (message, rest))) :
    extract codec.decode maxFrameSize bytes =
      (message :: (extract codec.decode maxFrameSize rest).1,
        (extract codec.decode maxFrameSize rest).2) := by
  rw [extract, if_neg hne]
  split
  · rename_i heq
    rw [h] at heq
    cases heq
  · rename_i heq
    rw [h] at heq
    cases heq
  · rename_i heq
    rw [h] at heq
    cases heq
    rfl

/-- The two results of one pass: the same messages, the same failure, and the same bytes
kept if there is none. -/
structure Agree (swift : List M × Option Underlying × Bytes)
    (rust : List M × Option FramingError × Bytes) : Prop where
  messages : swift.1 = rust.1
  error : Option.Rel Matches swift.2.1 rust.2.1
  buffer : rust.2.1 = none → swift.2.2 = rust.2.2

theorem extract_agrees (codec : MessageCodec M) (hmax : maxFrameSize ≤ intMax) (bytes : Bytes) :
    Agree (extract codec.decode maxFrameSize bytes) (drain codec maxFrameSize bytes) := by
  induction hlength : bytes.length using Nat.strongRecOn generalizing bytes with
  | ind n ih =>
    rcases Classical.em (bytes = []) with rfl | hne
    · rw [extract, if_pos rfl, Protocol.Codec.drain_nil]
      exact ⟨rfl, .none, fun _ => rfl⟩
    rcases nextMessage_agrees codec hmax hne with
      ⟨hdecode, hnext⟩ | ⟨rest, message, hdecode, hnext⟩ |
      ⟨rest, e, e', hdecode, hnext, hsame⟩
    · rw [extract_none hne hnext, drain_none hdecode]
      exact ⟨rfl, .none, fun _ => rfl⟩
    · have hshorter : rest.length < n := by
        rw [← hlength]
        exact Protocol.Codec.decode_shortens hdecode
      have hrest := ih rest.length hshorter rest rfl
      rw [extract_some hne hnext, drain_some hdecode]
      refine ⟨?_, hrest.error, hrest.buffer⟩
      show _ :: _ = _ :: _
      rw [hrest.messages]
    · rw [extract_error hne hnext, drain_error hdecode]
      refine ⟨rfl, .some hsame, ?_⟩
      intro hnone
      cases hnone

/-! ### Chunks -/

structure Follows (limit : Nat) (swift : StreamReader M) (rust : Protocol.Codec.Reader M) :
    Prop where
  messages : swift.messages = rust.messages
  error : Option.Rel Matches swift.error rust.error
  buffer : rust.error = none → swift.decoder.buffer = rust.buffer
  limit : swift.decoder.maxFrameSize = limit

theorem Follows.receive (hmax : maxFrameSize ≤ intMax) {swift : StreamReader M}
    {rust : Protocol.Codec.Reader M} (h : Follows maxFrameSize swift rust) (chunk : Bytes) :
    Follows maxFrameSize (receive codec.decode swift chunk)
      (Protocol.Codec.receive codec maxFrameSize rust chunk) := by
  obtain ⟨swiftMessages, swiftError, ⟨swiftBuffer, limit⟩⟩ := swift
  obtain ⟨rustMessages, rustError, rustBuffer⟩ := rust
  obtain ⟨hmessages, herror, hbuffer, hlimit⟩ := h
  simp only at hmessages herror hbuffer hlimit
  subst hmessages hlimit
  rcases herror with hsame | -
  · exact ⟨rfl, .some hsame, hbuffer, rfl⟩
  obtain rfl := hbuffer rfl
  have hpass := extract_agrees codec hmax (swiftBuffer ++ chunk)
  have hmessages := hpass.messages
  have herror := hpass.error
  rw [Client.StreamDecoders.receive, Protocol.Codec.receive, appendAndExtract]
  simp only
  rcases hswift : (extract codec.decode maxFrameSize (swiftBuffer ++ chunk)).2.1 with - | e
  all_goals
    rw [hswift] at herror
    refine ⟨?_, herror, hpass.buffer, rfl⟩
    show _ ++ _ = _ ++ _
    rw [hmessages]

theorem receiveAll_follows (codec : MessageCodec M) (hmax : maxFrameSize ≤ intMax)
    (chunks : List Bytes) :
    Follows maxFrameSize (receiveAll codec.decode maxFrameSize chunks)
      (Protocol.Codec.receiveAll codec maxFrameSize chunks) := by
  have hfold : ∀ (swift : StreamReader M) (rust : Protocol.Codec.Reader M),
      Follows maxFrameSize swift rust →
      Follows maxFrameSize (chunks.foldl (receive codec.decode) swift)
        (chunks.foldl (Protocol.Codec.receive codec maxFrameSize) rust) := by
    induction chunks with
    | nil =>
      intro swift rust h
      exact h
    | cons chunk rest ih =>
      intro swift rust h
      exact ih _ _ (h.receive hmax chunk)
  exact hfold _ _ ⟨rfl, .none, fun _ => rfl, rfl⟩

/-- However a stream is cut into chunks for each of the two decoders, they give the same
messages, and both end in the same failure behind the same message, or in none. -/
theorem decoders_agree (codec : MessageCodec M) (maxFrameSize : Nat)
    (hmax : maxFrameSize ≤ intMax) {swiftChunks rustChunks : List Bytes}
    (hstream : swiftChunks.flatten = rustChunks.flatten) :
    (receiveAll codec.decode maxFrameSize swiftChunks).messages =
        (Protocol.Codec.receiveAll codec maxFrameSize rustChunks).messages ∧
      Option.Rel Matches (receiveAll codec.decode maxFrameSize swiftChunks).error
        (Protocol.Codec.receiveAll codec maxFrameSize rustChunks).error := by
  have hfollows := receiveAll_follows codec hmax swiftChunks
  have hswift : Reads codec maxFrameSize swiftChunks.flatten
      (Protocol.Codec.receiveAll codec maxFrameSize swiftChunks) := receiveAll_reads swiftChunks
  have hrust : Reads codec maxFrameSize rustChunks.flatten
      (Protocol.Codec.receiveAll codec maxFrameSize rustChunks) := receiveAll_reads rustChunks
  rw [hstream] at hswift
  refine ⟨?_, ?_⟩
  · rw [hfollows.messages, hswift.messages, hrust.messages]
  · have herror := hfollows.error
    rw [hswift.error, ← hrust.error] at herror
    exact herror

/-- A payload and a length over the limit, cut in two ways. -/
theorem overlongStream_agrees :
    (receiveAll shortBytes.decode 16 [[3, 1], [2, 3, 0xff], [0x7f]]).messages =
        (Protocol.Codec.receiveAll shortBytes 16 [[3, 1, 2, 3, 0xff, 0x7f]]).messages ∧
      Option.Rel Matches (receiveAll shortBytes.decode 16 [[3, 1], [2, 3, 0xff], [0x7f]]).error
        (Protocol.Codec.receiveAll shortBytes 16 [[3, 1, 2, 3, 0xff, 0x7f]]).error :=
  decoders_agree shortBytes 16 (by decide) (by decide)

end Srui.Exchange.FrameStreams
