import Srui.Basic.ScalarEncodings
import Srui.SemanticTree.Values

/-!
The queue of terminal input: what is pasted is cut into chunks that fit a message each.
-/

namespace Srui.Client.TerminalCommandPumps

open Basic.ScalarEncodings SemanticTree.Values
open String (utf8EncodeChar)

abbrev Bytes := List UInt8

def maxTerminalInputBytes : Nat := 65536

inductive Item where
  | input (streamID : NodeId) (data : Bytes)
  | resize (streamID : NodeId) (columns rows pixelWidth pixelHeight : Nat)

/-- The loop of `chunkLength`. -/
def cutBefore (bytes : Bytes) (limit floor : Nat) : Nat → Nat
  | 0 => limit
  | take + 1 =>
    if take + 1 ≤ floor then limit
    else if ¬IsContinuation (bytes.getD (take + 1) 0) then take + 1
    else cutBefore bytes limit floor take

def chunkLength (bytes : Bytes) (limit : Nat) : Nat :=
  if limit < bytes.length then cutBefore bytes limit (max 1 (limit - 3)) limit else bytes.length

variable {bytes : Bytes}

theorem cutBefore_bounds {limit floor take : Nat} (htake : take ≤ limit)
    (hlimit : 0 < limit) :
    0 < cutBefore bytes limit floor take ∧ cutBefore bytes limit floor take ≤ limit := by
  induction take with
  | zero => exact ⟨hlimit, Nat.le_refl limit⟩
  | succ take ih =>
    rw [cutBefore]
    split_ifs
    · exact ⟨hlimit, Nat.le_refl limit⟩
    · exact ih (Nat.le_of_succ_le htake)
    · exact ⟨Nat.succ_pos take, htake⟩

theorem chunkLength_bounds (hbytes : bytes ≠ []) :
    0 < chunkLength bytes maxTerminalInputBytes ∧
      chunkLength bytes maxTerminalInputBytes ≤ maxTerminalInputBytes := by
  rw [chunkLength]
  split_ifs with hlong
  · exact cutBefore_bounds (Nat.le_refl _) (by decide)
  · exact ⟨List.length_pos_iff.mpr hbytes, Nat.le_of_not_lt hlong⟩

/-- The loop of `enqueueInput`. -/
def splitInput (bytes : Bytes) : List Bytes :=
  if _h : bytes = [] then []
  else
    bytes.take (chunkLength bytes maxTerminalInputBytes) ::
      splitInput (bytes.drop (chunkLength bytes maxTerminalInputBytes))
termination_by bytes.length
decreasing_by
  have hpos := (chunkLength_bounds _h).1
  have hlength := List.length_pos_iff.mpr _h
  rw [List.length_drop]
  omega

/-- What `enqueueInput` leaves in the queue. -/
def enqueueInput (connected : Bool) (queue : List Item) (streamID : NodeId) (data : Bytes) :
    List Item :=
  if connected = false ∨ data = [] then queue
  else queue ++ (splitInput data).map (Item.input streamID)

theorem splitInput_chunks (bytes : Bytes) :
    (splitInput bytes).flatten = bytes ∧
      ∀ chunk ∈ splitInput bytes, chunk ≠ [] ∧ chunk.length ≤ maxTerminalInputBytes := by
  fun_induction splitInput bytes with
  | case1 => exact ⟨rfl, fun _ hmem => absurd hmem List.not_mem_nil⟩
  | case2 bytes hbytes ih =>
    obtain ⟨hpos, hle⟩ := chunkLength_bounds hbytes
    refine ⟨by rw [List.flatten_cons, ih.1, List.take_append_drop], fun chunk hmem => ?_⟩
    rcases List.mem_cons.mp hmem with rfl | hmem
    · refine ⟨?_, (List.length_take_le _ _).trans hle⟩
      rw [Ne, List.take_eq_nil_iff]
      exact not_or.mpr ⟨hpos.ne', hbytes⟩
    · exact ih.2 chunk hmem

/-! ### Where the cuts fall -/

/-- Packing whole scalars never leaves exactly three bytes of a chunk to one of four. -/
def packsWhole : Nat → List Char → Bool
  | _, [] => true
  | used, c :: rest =>
    if used + c.utf8Size ≤ maxTerminalInputBytes then packsWhole (used + c.utf8Size) rest
    else used + 3 ≠ maxTerminalInputBytes && packsWhole c.utf8Size rest

variable {used : Nat}

theorem packsWhole_of_fits {text : List Char}
    (h : used + (encoded text).length ≤ maxTerminalInputBytes) : packsWhole used text = true := by
  induction text generalizing used with
  | nil => rfl
  | cons c text ih =>
    rw [length_encoded_cons, ← Nat.add_assoc] at h
    rw [packsWhole, if_pos (Nat.le_of_add_right_le h)]
    exact ih h

theorem exists_overhang {text : List Char} (hused : used ≤ maxTerminalInputBytes)
    (h : maxTerminalInputBytes < used + (encoded text).length) :
    ∃ s c t, text = s ++ c :: t ∧ used + (encoded s).length ≤ maxTerminalInputBytes ∧
      maxTerminalInputBytes < used + (encoded s).length + c.utf8Size ∧
      packsWhole used text =
        (used + (encoded s).length + 3 ≠ maxTerminalInputBytes && packsWhole c.utf8Size t) := by
  induction text generalizing used with
  | nil => exact absurd h (Nat.not_lt.mpr hused)
  | cons c text ih =>
    rcases Nat.lt_or_ge maxTerminalInputBytes (used + c.utf8Size) with hover | hfits
    · refine ⟨[], c, text, rfl, hused, hover, ?_⟩
      rw [packsWhole, if_neg (Nat.not_le.mpr hover)]
      rfl
    · rw [length_encoded_cons, ← Nat.add_assoc] at h
      obtain ⟨s, d, t, rfl, hle, hlt, hpacks⟩ := ih hfits h
      refine ⟨c :: s, d, t, rfl, ?_⟩
      rw [packsWhole, if_pos hfits, length_encoded_cons, ← Nat.add_assoc]
      exact ⟨hle, hlt, hpacks⟩

theorem cutBefore_eq {limit floor take stop : Nat} (hstop : stop ≤ take)
    (hfirst : ¬IsContinuation (bytes.getD stop 0))
    (hrest : ∀ i, stop < i → i ≤ take → IsContinuation (bytes.getD i 0)) :
    cutBefore bytes limit floor take = if floor < stop then stop else limit := by
  induction take with
  | zero =>
    rw [if_neg (by omega)]
    rfl
  | succ take ih =>
    rw [cutBefore]
    by_cases hfloor : take + 1 ≤ floor
    · rw [if_pos hfloor, if_neg (by omega)]
    rw [if_neg hfloor]
    rcases Nat.eq_or_lt_of_le hstop with rfl | hlt
    · rw [if_pos hfirst, if_pos (Nat.lt_of_not_le hfloor)]
    · rw [if_neg (not_not.mpr (hrest _ hlt (Nat.le_refl _)))]
      exact ih (Nat.le_of_lt_succ hlt) fun i hi hle => hrest i hi (Nat.le_succ_of_le hle)

theorem chunkLength_overhang {s t : List Char} {c : Char}
    (hle : (encoded s).length ≤ maxTerminalInputBytes)
    (hlt : maxTerminalInputBytes < (encoded s).length + c.utf8Size) :
    chunkLength (encoded (s ++ c :: t)) maxTerminalInputBytes =
      if (encoded s).length + 3 = maxTerminalInputBytes then maxTerminalInputBytes
      else (encoded s).length := by
  have hsize := c.utf8Size_le_four
  have hbyte (j : Nat) (hj : j < c.utf8Size) :
      IsContinuation ((encoded (s ++ c :: t)).getD ((encoded s).length + j) 0) ↔ j ≠ 0 := by
    rw [encoded_append, encoded_cons, List.getD_eq_getElem?_getD,
      List.getElem?_append_right (Nat.le_add_right _ j), Nat.add_sub_cancel_left,
      List.getElem?_append_left (by rwa [String.length_utf8EncodeChar])]
    have hget := List.getElem?_eq_getElem (l := utf8EncodeChar c) (i := j)
      (by rwa [String.length_utf8EncodeChar])
    rw [hget, Option.getD_some]
    exact isContinuation_iff hget
  have hlong : maxTerminalInputBytes < (encoded (s ++ c :: t)).length := by
    rw [encoded_append, List.length_append, length_encoded_cons]
    omega
  rw [chunkLength, if_pos hlong, cutBefore_eq hle]
  · unfold maxTerminalInputBytes at hle hlt ⊢
    split_ifs <;> omega
  · intro hcontinues
    exact (hbyte 0 c.utf8Size_pos).mp hcontinues rfl
  · intro i hi hmax
    have hcontinues := (hbyte (i - (encoded s).length) (by omega)).mpr (by omega)
    rwa [Nat.add_sub_cancel' hi.le] at hcontinues

theorem splitInput_of_length_le (hle : bytes.length ≤ maxTerminalInputBytes) :
    ∀ chunk ∈ splitInput bytes, chunk = bytes := by
  rw [splitInput]
  split
  · exact fun _ hmem => absurd hmem List.not_mem_nil
  · rw [chunkLength, if_neg (Nat.not_lt.mpr hle), List.take_length, List.drop_length, splitInput]
    exact fun _ hmem => List.mem_singleton.mp hmem

theorem splitInput_wellFormed_iff (text : List Char) :
    (∀ chunk ∈ splitInput (encoded text), WellFormed chunk) ↔ packsWhole 0 text = true := by
  induction hlength : text.length using Nat.strong_induction_on generalizing text with
  | _ n ih =>
    rcases Nat.lt_or_ge maxTerminalInputBytes (encoded text).length with hover | hfits
    · rw [← Nat.zero_add (encoded text).length] at hover
      obtain ⟨s, c, t, rfl, hle, hlt, hpacks⟩ := exists_overhang (Nat.zero_le _) hover
      rw [Nat.zero_add] at hle hlt hpacks
      have hchunk := chunkLength_overhang (t := t) hle hlt
      have hne : encoded (s ++ c :: t) ≠ [] := by
        intro hnil
        rw [hnil] at hover
        exact absurd hover (Nat.not_lt.mpr (Nat.zero_le _))
      have hsize := c.utf8Size_le_four
      rw [hpacks, splitInput, dif_neg hne, List.forall_mem_cons, hchunk]
      by_cases hcut : (encoded s).length + 3 = maxTerminalInputBytes
      · rw [if_pos hcut, decide_eq_false (not_not.mpr hcut)]
        refine iff_of_false ?_ Bool.false_ne_true
        rintro ⟨hwell, -⟩
        refine not_wellFormed_cut (s := s) (c := c) (k := 3) (by decide) (by omega) ?_
        rwa [← hcut, encoded_append, encoded_cons, List.take_length_add_append,
          List.take_append_of_le_length (by rw [String.length_utf8EncodeChar]; omega)] at hwell
      · have hsmall : c.utf8Size ≤ maxTerminalInputBytes := hsize.trans (by decide)
        have hshort : (c :: t).length < n := by
          rw [← hlength, List.length_append]
          have hs : s ≠ [] := by
            rintro rfl
            exact absurd hsmall (Nat.not_le.mpr (Nat.zero_add c.utf8Size ▸ hlt))
          have := List.length_pos_iff.mpr hs
          omega
        have hrest := ih _ hshort (c :: t) rfl
        rw [packsWhole, Nat.zero_add, if_pos hsmall] at hrest
        rw [if_neg hcut, decide_eq_true hcut, Bool.true_and, encoded_append, List.take_left,
          List.drop_left, hrest]
        exact and_iff_right ⟨s, rfl⟩
    · refine iff_of_true ?_ (packsWhole_of_fits (by rwa [Nat.zero_add]))
      intro chunk hmem
      rw [splitInput_of_length_le hfits chunk hmem]
      exact ⟨text, rfl⟩

/-- A paste is queued in chunks that fit a message each and concatenate to it. The chunks of a text
are texts exactly when packing its scalars never leaves three bytes to one of four. -/
theorem paste_splits (queue : List Item) (streamID : NodeId) (data : Bytes) (hdata : data ≠ []) :
    ∃ chunks : List Bytes,
      enqueueInput true queue streamID data = queue ++ chunks.map (Item.input streamID) ∧
      (∀ chunk ∈ chunks, chunk ≠ [] ∧ chunk.length ≤ maxTerminalInputBytes) ∧
      chunks.flatten = data ∧
      ∀ text, encoded text = data →
        ((∀ chunk ∈ chunks, WellFormed chunk) ↔ packsWhole 0 text = true) := by
  obtain ⟨hflatten, hchunks⟩ := splitInput_chunks data
  refine ⟨splitInput data, ?_, hchunks, hflatten, ?_⟩
  · rw [enqueueInput, if_neg (not_or.mpr ⟨Bool.true_eq_false_eq_False, hdata⟩)]
  · rintro text rfl
    exact splitInput_wellFormed_iff text

theorem packsWhole_replicate {n : Nat} (h : used + n ≤ maxTerminalInputBytes)
    (rest : List Char) :
    packsWhole used (List.replicate n 'a' ++ rest) = packsWhole (used + n) rest := by
  induction n generalizing used with
  | zero => rfl
  | succ n ih =>
    have hsize : 'a'.utf8Size = 1 := by decide
    rw [List.replicate_succ, List.cons_append, packsWhole, hsize, if_pos (by omega),
      ih (by omega), Nat.add_assoc, Nat.add_comm 1]

theorem length_encoded_replicate (n : Nat) : (encoded (List.replicate n 'a')).length = n := by
  induction n with
  | zero => rfl
  | succ n ih =>
    rw [List.replicate_succ, length_encoded_cons, ih]
    exact Nat.add_comm 1 n

/-- A scalar of two bytes begins one byte before the end of the first chunk. -/
def accentedText : List Char := List.replicate (maxTerminalInputBytes - 1) 'a' ++ ['é', 'a']

theorem accented_paste_splits : maxTerminalInputBytes < (encoded accentedText).length ∧
    ∃ chunks : List Bytes,
      enqueueInput true [] 7 (encoded accentedText) = chunks.map (Item.input 7) ∧
      chunks.flatten = encoded accentedText ∧
      ∀ chunk ∈ chunks, WellFormed chunk ∧ chunk.length ≤ maxTerminalInputBytes := by
  have hlong : maxTerminalInputBytes < (encoded accentedText).length := by
    rw [accentedText, encoded_append, List.length_append, length_encoded_replicate]
    decide
  have hwhole : packsWhole 0 accentedText = true := by
    rw [accentedText, packsWhole_replicate (by decide)]
    decide
  obtain ⟨chunks, hqueue, hbounds, hflatten, hwell⟩ := paste_splits [] 7 (encoded accentedText)
    (List.length_pos_iff.mp (Nat.zero_lt_of_lt hlong))
  refine ⟨hlong, chunks, hqueue, hflatten, fun chunk hmem => ⟨?_, (hbounds chunk hmem).2⟩⟩
  exact (hwell accentedText rfl).mpr hwhole chunk hmem

/-- A scalar of four bytes begins three bytes before the end of the first chunk. -/
def straddlingText : List Char := List.replicate (maxTerminalInputBytes - 3) 'a' ++ ['😀']

theorem straddling_paste_cut : ¬∀ (queue : List Item) (streamID : NodeId) (data : Bytes),
    data ≠ [] → ∀ chunks : List Bytes,
      enqueueInput true queue streamID data = queue ++ chunks.map (Item.input streamID) →
      WellFormed data → ∀ chunk ∈ chunks, WellFormed chunk := by
  intro hall
  have hdata : encoded straddlingText ≠ [] := by
    rw [straddlingText, encoded_append]
    exact List.append_ne_nil_of_right_ne_nil _ (by decide)
  have hqueue : enqueueInput true [] 7 (encoded straddlingText) =
      [] ++ (splitInput (encoded straddlingText)).map (Item.input 7) := by
    rw [enqueueInput, if_neg (not_or.mpr ⟨Bool.true_eq_false_eq_False, hdata⟩)]
  have hwell := (splitInput_wellFormed_iff straddlingText).mp
    (hall [] 7 _ hdata _ hqueue ⟨straddlingText, rfl⟩)
  rw [straddlingText, packsWhole_replicate (by decide)] at hwell
  exact absurd hwell (by decide)

end Srui.Client.TerminalCommandPumps
