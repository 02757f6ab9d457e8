import Srui.Srtop.DisplayNames

/-!
The line that the kernel writes about one process.

The name in it is what the process chose and is not escaped. The fields before and after it are
found from the first opening parenthesis and the last closing one.
-/

namespace Srui.Srtop.ProcStats

open Basic.LenientReadings Basic.Machine Basic.ScalarEncodings Basic.Texts DisplayNames Sources
open Sessiond.Capabilities (parseU32)
open String (utf8EncodeChar)

/-! ### Parsing -/

/-- `u8::is_ascii_whitespace`. -/
def isAsciiWhitespace (byte : UInt8) : Bool :=
  byte = 0x20 || byte = 0x09 || byte = 0x0A || byte = 0x0C || byte = 0x0D

/-- `u8::is_ascii_digit`. -/
def isAsciiDigit (byte : UInt8) : Bool := 0x30 ≤ byte && byte ≤ 0x39

/-- `u64::from_str`. -/
def parseU64 (text : List Char) : Option Nat :=
  let digits :=
    match text with
    | '+' :: rest => rest
    | text => text
  (readDigits digits).filter (· ≤ u64Max)

/-- `parse_pid`. -/
def parsePid (name : Bytes) : Option Nat :=
  if name = [] ∨ 10 < name.length ∨ ¬name.all isAsciiDigit then none
  else
    match (fromUtf8 name).bind parseU32 with
    | some 0 => none
    | pid => pid

def starttimeFieldAfterComm : Nat := 19

def utimeFieldAfterComm : Nat := 11

def stimeFieldAfterComm : Nat := 12

structure StatFields where
  displayName : DisplayName
  startTicks : Nat
  cpuTicks : Option Nat
deriving DecidableEq

def count (fields : List Bytes) (index : Nat) : Option Nat :=
  fields[index]?.bind fun field => (fromUtf8 field).bind parseU64

/-- `parse_stat`. -/
def parseStat (pid : Nat) (bytes : Bytes) : Option StatFields := do
  let opening ← bytes.findIdx? (· = 0x28)
  let closing ← lastIndex? (· = 0x29) bytes
  if closing < opening then none
  else if parsePid (trim isAsciiWhitespace (bytes.take opening)) ≠ some pid then none
  else
    let fields := (words isAsciiWhitespace (bytes.drop (closing + 1))).take
      (starttimeFieldAfterComm + 1)
    let startTicks ← count fields starttimeFieldAfterComm
    let cpuTicks := do
      let user ← count fields utimeFieldAfterComm
      let system ← count fields stimeFieldAfterComm
      checkedAdd user system
    some ⟨sanitize ((bytes.take closing).drop (opening + 1)), startTicks, cpuTicks⟩

/-! ### Counts -/

def Count (field : Bytes) (n : Nat) : Prop :=
  ∃ digits, encoded digits = field ∧ readDigits digits = some n

variable {digits : List Char} {field : Bytes} {n : Nat}

theorem readDigits_eq_some : readDigits digits = some n ↔
    digits ≠ [] ∧ (∀ c ∈ digits, c.isDigit = true) ∧ Nat.ofDigitChars 10 digits 0 = n := by
  rw [readDigits, Option.ite_none_right_eq_some, Option.some_inj, List.all_eq_true, and_assoc]

theorem digit_bounds {c : Char} (h : c.isDigit = true) : 0x30 ≤ c.toNat ∧ c.toNat ≤ 0x39 :=
  Char.isDigit_iff_toNat.mp h

theorem encoded_digits (h : ∀ c ∈ digits, c.isDigit = true) :
    encoded digits = digits.map fun c => UInt8.ofNat c.toNat := by
  induction digits with
  | nil => rfl
  | cons c rest ih =>
    have hc := digit_bounds (h c List.mem_cons_self)
    rw [encoded_cons, utf8EncodeChar_ascii (by omega), List.singleton_append, List.map_cons,
      ih fun d hd => h d (List.mem_cons_of_mem c hd)]

theorem Count.digit (h : Count field n) {byte : UInt8} (hmem : byte ∈ field) :
    0x30 ≤ byte.toNat ∧ byte.toNat ≤ 0x39 := by
  obtain ⟨digits, rfl, hread⟩ := h
  have hdigits := (readDigits_eq_some.mp hread).2.1
  rw [encoded_digits hdigits] at hmem
  obtain ⟨c, hc, rfl⟩ := List.mem_map.mp hmem
  have hbounds := digit_bounds (hdigits c hc)
  rw [UInt8.toNat_ofNat']
  omega

theorem isAsciiDigit_iff {byte : UInt8} :
    isAsciiDigit byte = true ↔ 0x30 ≤ byte.toNat ∧ byte.toNat ≤ 0x39 := by
  rw [isAsciiDigit, Bool.and_eq_true, decide_eq_true_eq, decide_eq_true_eq]
  exact Iff.rfl

theorem digit_solid {byte : UInt8} (h : 0x30 ≤ byte.toNat ∧ byte.toNat ≤ 0x39) :
    isAsciiWhitespace byte = false ∧ byte ≠ 0x28 := by
  obtain ⟨hlow, hhigh⟩ := h
  constructor
  · simp only [isAsciiWhitespace, Bool.or_eq_false_iff, decide_eq_false_iff_not, ← UInt8.toNat_inj,
      UInt8.reduceToNat]
    omega
  · rintro rfl
    exact absurd hlow (by decide)

theorem exists_digits (h : ∀ byte ∈ field, isAsciiDigit byte = true) :
    ∃ digits, encoded digits = field ∧ ∀ c ∈ digits, c.isDigit = true := by
  have hdigit : ∀ c ∈ field.map fun byte => Char.ofNat byte.toNat, c.isDigit = true := by
    intro c hc
    obtain ⟨byte, hbyte, rfl⟩ := List.mem_map.mp hc
    have hbounds := isAsciiDigit_iff.mp (h byte hbyte)
    have hvalid : byte.toNat.isValidChar := Or.inl (by omega)
    have hread : (Char.ofNat byte.toNat).toNat = byte.toNat := by
      rw [Char.toNat_ofNat, if_pos hvalid]
    rw [Char.isDigit_iff_toNat, hread]
    exact hbounds
  refine ⟨field.map fun byte => Char.ofNat byte.toNat, ?_, hdigit⟩
  rw [encoded_digits hdigit, List.map_map]
  refine List.map_id'' (fun byte => ?_) field
  show UInt8.ofNat (Char.ofNat byte.toNat).toNat = byte
  have hvalid : byte.toNat.isValidChar := Or.inl (byte.toNat_lt.trans (by decide))
  rw [Char.toNat_ofNat, if_pos hvalid, UInt8.ofNat_toNat]

theorem no_sign (h : ∀ c ∈ digits, c.isDigit = true) (rest : List Char) : digits ≠ '+' :: rest := by
  rintro rfl
  exact absurd (h '+' List.mem_cons_self) (by decide)

theorem parseU64_digits (h : readDigits digits = some n) :
    parseU64 digits = (some n).filter (· ≤ u64Max) := by
  unfold parseU64
  split
  · exact absurd rfl (no_sign (readDigits_eq_some.mp h).2.1 _)
  · dsimp only
    rw [h]

theorem parseU32_digits (h : ∀ c ∈ digits, c.isDigit = true) :
    parseU32 digits = (readDigits digits).filter (· ≤ u32Max) := by
  unfold parseU32
  split
  · exact absurd rfl (no_sign h _)
  · rfl

theorem Count.parseU64 (h : Count field n) :
    ((fromUtf8 field).bind parseU64) = (some n).filter (· ≤ u64Max) := by
  obtain ⟨digits, rfl, hread⟩ := h
  rw [fromUtf8_encoded, Option.bind_some, parseU64_digits hread]

/-! ### Process identifiers -/

theorem parsePid_count (h : Count field n) (hpos : 0 < n) (hmax : n ≤ u32Max)
    (hlen : field.length ≤ 10) : parsePid field = some n := by
  obtain ⟨digits, rfl, hread⟩ := id h
  have hdigits := readDigits_eq_some.mp hread
  have hne : encoded digits ≠ [] := by
    rw [encoded_digits hdigits.2.1]
    exact fun hnil => hdigits.1 (List.map_eq_nil_iff.mp hnil)
  have hall : (encoded digits).all isAsciiDigit = true :=
    List.all_eq_true.mpr fun byte hbyte => isAsciiDigit_iff.mpr (h.digit hbyte)
  have hform : ¬(encoded digits = [] ∨ 10 < (encoded digits).length ∨
      ¬(encoded digits).all isAsciiDigit = true) := by
    rintro (hnil | hlong | hother)
    · exact hne hnil
    · exact absurd hlen (Nat.not_le.mpr hlong)
    · exact hother hall
  rw [parsePid, if_neg hform, fromUtf8_encoded, Option.bind_some, parseU32_digits hdigits.2.1,
    hread, Option.filter_some, if_pos (decide_eq_true hmax)]
  split
  · rename_i heq
    cases heq
    exact absurd hpos (Nat.lt_irrefl 0)
  · rfl

theorem count_of_parsePid (h : parsePid field = some n) : Count field n := by
  rw [parsePid] at h
  split_ifs at h with hform
  simp only [not_or, not_not] at hform
  obtain ⟨digits, rfl, hdigits⟩ := exists_digits (List.all_eq_true.mp hform.2.2)
  rw [fromUtf8_encoded, Option.bind_some, parseU32_digits hdigits] at h
  split at h
  · cases h
  · exact ⟨digits, rfl, (Option.filter_eq_some_iff.mp h).1⟩

/-! ### Lines -/

/-- A field that the kernel can write after the name. -/
def Plain (field : Bytes) : Prop :=
  field ≠ [] ∧ ∀ byte ∈ field, isAsciiWhitespace byte = false ∧ byte ≠ 0x29

def statLine (pid : Nat) (comm : Bytes) (fields : List Bytes) : Bytes :=
  encoded (Nat.toDigits 10 pid) ++ [0x20, 0x28] ++ comm ++ [0x29, 0x20] ++
    [0x20].intercalate fields

variable {pid : Nat} {comm tail : Bytes} {fields : List Bytes}

theorem count_toDigits (pid : Nat) : Count (encoded (Nat.toDigits 10 pid)) pid :=
  ⟨_, rfl, readDigits_toDigits pid⟩

theorem length_digits (h : pid ≤ u32Max) : (encoded (Nat.toDigits 10 pid)).length ≤ 10 := by
  have hdigits : ∀ c ∈ Nat.toDigits 10 pid, c.isDigit = true := fun c hc =>
    Nat.isDigit_of_mem_toDigits (by decide) (by decide) hc
  rw [encoded_digits hdigits, List.length_map,
    Nat.length_toDigits_le_iff (by decide) (by decide)]
  exact h.trans_lt (by decide)

theorem statLine_eq (pid : Nat) (comm : Bytes) (fields : List Bytes) (tail : Bytes) :
    statLine pid comm fields ++ tail =
      (encoded (Nat.toDigits 10 pid) ++ [0x20]) ++
        0x28 :: (comm ++ 0x29 :: 0x20 :: ([0x20].intercalate fields ++ tail)) := by
  simp only [statLine, List.append_assoc, List.cons_append, List.nil_append]

theorem opening_statLine (pid : Nat) (comm : Bytes) (fields : List Bytes) (tail : Bytes) :
    (statLine pid comm fields ++ tail).findIdx? (· = 0x28) =
      some ((encoded (Nat.toDigits 10 pid)).length + 1) := by
  rw [statLine_eq]
  refine (findIdx?_delimited _ ?_ (by decide)).trans (by rw [List.length_append]; rfl)
  intro byte hbyte
  refine decide_eq_false ?_
  rcases List.mem_append.mp hbyte with hbyte | hbyte
  · exact (digit_solid ((count_toDigits pid).digit hbyte)).2
  · obtain rfl := List.mem_singleton.mp hbyte
    decide

theorem closing_statLine (hfields : ∀ field ∈ fields, Plain field)
    (htail : ∀ byte ∈ tail, isAsciiWhitespace byte = true) :
    lastIndex? (· = 0x29) (statLine pid comm fields ++ tail) =
      some ((encoded (Nat.toDigits 10 pid)).length + 2 + comm.length) := by
  have hline : statLine pid comm fields ++ tail =
      (encoded (Nat.toDigits 10 pid) ++ 0x20 :: 0x28 :: comm) ++
        0x29 :: 0x20 :: ([0x20].intercalate fields ++ tail) := by
    simp only [statLine, List.append_assoc, List.cons_append, List.nil_append]
  rw [hline]
  refine (lastIndex?_delimited _ (by decide) ?_).trans ?_
  · intro byte hbyte
    refine decide_eq_false ?_
    rcases List.mem_cons.mp hbyte with rfl | hbyte
    · decide
    rcases List.mem_append.mp hbyte with hbyte | hbyte
    · rcases mem_intercalate hbyte with rfl | ⟨field, hfield, hbyte⟩
      · decide
      · exact ((hfields field hfield).2 byte hbyte).2
    · rintro rfl
      exact absurd (htail _ hbyte) (by decide)
  · rw [List.length_append, List.length_cons, List.length_cons]
    congr 1
    omega

theorem leading_statLine (hpos : 0 < pid) (hmax : pid ≤ u32Max) (comm : Bytes)
    (fields : List Bytes) (tail : Bytes) :
    parsePid (trim isAsciiWhitespace ((statLine pid comm fields ++ tail).take
      ((encoded (Nat.toDigits 10 pid)).length + 1))) = some pid := by
  have hpid : ∀ byte ∈ encoded (Nat.toDigits 10 pid), isAsciiWhitespace byte = false :=
    fun byte hbyte => (digit_solid ((count_toDigits pid).digit hbyte)).1
  have hspace : ∀ byte ∈ ([0x20] : Bytes), isAsciiWhitespace byte = true := by
    intro byte hbyte
    obtain rfl := List.mem_singleton.mp hbyte
    rfl
  rw [statLine_eq, List.take_left' (by rw [List.length_append]; rfl), trim_append hpid hspace]
  exact parsePid_count (count_toDigits pid) hpos hmax (length_digits hmax)

theorem name_statLine (pid : Nat) (comm : Bytes) (fields : List Bytes) (tail : Bytes) :
    ((statLine pid comm fields ++ tail).take
      ((encoded (Nat.toDigits 10 pid)).length + 2 + comm.length)).drop
        ((encoded (Nat.toDigits 10 pid)).length + 1 + 1) = comm := by
  have hsplit : statLine pid comm fields ++ tail =
      ((encoded (Nat.toDigits 10 pid) ++ [0x20, 0x28]) ++ comm) ++
        0x29 :: 0x20 :: ([0x20].intercalate fields ++ tail) := by
    simp only [statLine, List.append_assoc, List.cons_append, List.nil_append]
  rw [hsplit, List.take_left' (by rw [List.length_append, List.length_append]; rfl),
    List.drop_left' (by rw [List.length_append]; rfl)]

theorem words_statLine (hfields : ∀ field ∈ fields, Plain field)
    (htail : ∀ byte ∈ tail, isAsciiWhitespace byte = true) :
    words isAsciiWhitespace ((statLine pid comm fields ++ tail).drop
      ((encoded (Nat.toDigits 10 pid)).length + 2 + comm.length + 1)) = fields := by
  have hsplit : statLine pid comm fields ++ tail =
      ((encoded (Nat.toDigits 10 pid) ++ [0x20, 0x28]) ++ comm ++ [0x29]) ++
        ([] ++ 0x20 :: ([0x20].intercalate fields ++ tail)) := by
    simp only [statLine, List.append_assoc, List.cons_append, List.nil_append]
  have hsolid : ∀ field ∈ fields, field ≠ [] ∧ ∀ byte ∈ field, isAsciiWhitespace byte = false := by
    intro field hfield
    exact ⟨(hfields field hfield).1, fun byte hbyte => ((hfields field hfield).2 byte hbyte).1⟩
  have hlength : ((encoded (Nat.toDigits 10 pid) ++ [0x20, 0x28]) ++ comm ++ [0x29]).length =
      (encoded (Nat.toDigits 10 pid)).length + 2 + comm.length + 1 := by
    rw [List.length_append, List.length_append, List.length_append]
    rfl
  rw [hsplit, List.drop_left' hlength, words_append_cons rfl, words_intercalate rfl htail hsolid]
  rfl

theorem count_take {i : Nat} (hi : i < fields.length) (h20 : i < starttimeFieldAfterComm + 1)
    (h : Count (fields.get ⟨i, hi⟩) n) :
    count (fields.take (starttimeFieldAfterComm + 1)) i = (some n).filter (· ≤ u64Max) := by
  rw [count, List.getElem?_take_of_lt h20, List.getElem?_eq_getElem hi, Option.bind_some]
  exact h.parseU64

theorem filter_fits (h : n ≤ u64Max) : (some n).filter (· ≤ u64Max) = some n := by
  rw [Option.filter_some, if_pos (decide_eq_true h)]

theorem filter_exceeds (h : ¬n ≤ u64Max) : (some n).filter (· ≤ u64Max) = none := by
  rw [Option.filter_some, if_neg (by rw [decide_eq_true_eq]; exact h)]

theorem sum_counts (user system : Nat) :
    (((some user).filter (· ≤ u64Max)).bind fun user =>
      ((some system).filter (· ≤ u64Max)).bind fun system => checkedAdd user system) =
      checkedAdd user system := by
  by_cases huser : user ≤ u64Max
  · by_cases hsystem : system ≤ u64Max
    · rw [filter_fits huser, filter_fits hsystem, Option.bind_some, Option.bind_some]
    · rw [filter_fits huser, filter_exceeds hsystem, Option.bind_some, Option.bind_none, checkedAdd,
        if_neg (by omega)]
  · rw [filter_exceeds huser, Option.bind_none, checkedAdd, if_neg (by omega)]

theorem parseStat_statLine (hpos : 0 < pid) (hmax : pid ≤ u32Max)
    (hfields : ∀ field ∈ fields, Plain field)
    (htail : ∀ byte ∈ tail, isAsciiWhitespace byte = true)
    (hlen : 20 ≤ fields.length) {user system start : Nat} (huser : Count fields[11] user)
    (hsystem : Count fields[12] system) (hstart : Count fields[19] start)
    (hfits : start ≤ u64Max) :
    parseStat pid (statLine pid comm fields ++ tail) =
      some ⟨sanitize comm, start, checkedAdd user system⟩ := by
  have hclosed : ¬(encoded (Nat.toDigits 10 pid)).length + 2 + comm.length <
      (encoded (Nat.toDigits 10 pid)).length + 1 := by omega
  have hleading : ¬parsePid (trim isAsciiWhitespace ((statLine pid comm fields ++ tail).take
      ((encoded (Nat.toDigits 10 pid)).length + 1))) ≠ some pid :=
    not_not_intro (leading_statLine hpos hmax comm fields tail)
  have husers := count_take (i := utimeFieldAfterComm) (by exact hlen.trans_lt' (by decide))
    (by decide) huser
  have hsystems := count_take (i := stimeFieldAfterComm) (by exact hlen.trans_lt' (by decide))
    (by decide) hsystem
  have hstarts := count_take (i := starttimeFieldAfterComm) (by exact hlen.trans_lt' (by decide))
    (by decide) hstart
  simp only [parseStat, Option.bind_eq_bind, opening_statLine, Option.bind_some,
    closing_statLine hfields htail]
  rw [if_neg hclosed, if_neg hleading, words_statLine hfields htail, name_statLine, hstarts,
    husers, hsystems, sum_counts, filter_fits hfits, Option.bind_some]

theorem leading_of_parseStat {bytes : Bytes} {stat : StatFields}
    (h : parseStat pid bytes = some stat) :
    (∃ before rest, bytes = before ++ 0x28 :: rest ∧ 0x28 ∉ before ∧
      Count (trim isAsciiWhitespace before) pid) ∧
    ∃ comm, stat.displayName = sanitize comm := by
  simp only [parseStat, Option.bind_eq_bind, Option.bind_eq_some_iff] at h
  obtain ⟨opening, hopening, closing, -, h⟩ := h
  split_ifs at h with hclosed hleading
  rw [Option.bind_eq_some_iff] at h
  obtain ⟨start, -, h⟩ := h
  obtain rfl := Option.some.inj h
  refine ⟨?_, _, rfl⟩
  obtain ⟨x, hsplit, hx, hbefore⟩ := eq_delimited hopening
  obtain rfl := of_decide_eq_true hx
  refine ⟨_, _, hsplit, ?_, count_of_parsePid (not_not.mp hleading)⟩
  intro hmem
  exact absurd (hbefore _ hmem) (by decide)

/-- A name cannot shift the fields of its line, and a line that is read is that of the process
asked about and names it legibly. -/
theorem hostile_names_shift_nothing :
    (∀ (pid : Nat) (comm tail : Bytes) (fields : List Bytes) (user system start : Nat),
      1 ≤ pid → pid ≤ u32Max → (∀ byte ∈ tail, isAsciiWhitespace byte = true) →
      (∀ field ∈ fields, field ≠ [] ∧ ∀ byte ∈ field, isAsciiWhitespace byte = false ∧
        byte ≠ 0x29) →
      ∀ hlen : 20 ≤ fields.length, Count fields[11] user → Count fields[12] system →
      Count fields[19] start → start ≤ u64Max →
      parseStat pid (statLine pid comm fields ++ tail) = some
        { displayName := sanitize comm
          startTicks := start
          cpuTicks := checkedAdd user system }) ∧
    ∀ (pid : Nat) (bytes : Bytes) (stat : StatFields), parseStat pid bytes = some stat →
      (∃ before rest, bytes = before ++ 0x28 :: rest ∧ 0x28 ∉ before ∧
        Count (trim isAsciiWhitespace before) pid) ∧
      (∀ c ∈ stat.displayName.name.toList, isUnsafe c = false) ∧
      stat.displayName.name.toList.length ≤ 129 := by
  refine ⟨?_, ?_⟩
  · intro pid comm tail fields user system start hpos hmax htail hfields hlen huser hsystem hstart
      hfits
    exact parseStat_statLine hpos hmax hfields htail hlen huser hsystem hstart hfits
  · intro pid bytes stat h
    obtain ⟨hleading, comm, hname⟩ := leading_of_parseStat h
    refine ⟨hleading, ?_, ?_⟩
    · intro c hc
      rw [hname] at hc
      exact (sanitize_legible comm hc).2
    · rw [hname]
      exact length_sanitize comm

/-- The name `1) S (` in the line of process seven. -/
theorem closing_name_shifts_nothing :
    parseStat 7 (statLine 7 [0x31, 0x29, 0x20, 0x53, 0x20, 0x28] (List.replicate 20 [0x33]) ++ []) =
      some ⟨sanitize [0x31, 0x29, 0x20, 0x53, 0x20, 0x28], 3, some 6⟩ ∧
    ∃ before rest, statLine 7 [0x31, 0x29, 0x20, 0x53, 0x20, 0x28] (List.replicate 20 [0x33]) ++ [] =
      before ++ 0x28 :: rest ∧ 0x28 ∉ before ∧ Count (trim isAsciiWhitespace before) 7 := by
  have hcount : Count [0x33] 3 := ⟨['3'], by decide, by decide⟩
  have hfields : ∀ field ∈ List.replicate 20 ([0x33] : Bytes), Plain field := by
    intro field hfield
    obtain rfl := List.eq_of_mem_replicate hfield
    refine ⟨List.cons_ne_nil _ _, fun byte hbyte => ?_⟩
    obtain rfl := List.mem_singleton.mp hbyte
    exact ⟨rfl, by decide⟩
  have hstat := hostile_names_shift_nothing.1 7 [0x31, 0x29, 0x20, 0x53, 0x20, 0x28] []
    (List.replicate 20 [0x33]) 3 3 3 (by decide) (by decide) (fun byte hbyte => nomatch hbyte)
    hfields (by decide) hcount hcount hcount (by decide)
  exact ⟨hstat, (hostile_names_shift_nothing.2 7 _ _ hstat).1⟩

end Srui.Srtop.ProcStats
