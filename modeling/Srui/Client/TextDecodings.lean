import Srui.Basic.ScalarEncodings
import Srui.Client.VTParsers

/-!
What the terminal parser reads as text.

From ground, and from bytes of text alone, the screen takes the scalars that stand at the
positions of the input, read leniently: an overlong form is read for the scalar it names.
-/

namespace Srui.Client.TextDecodings

open Basic.ScalarEncodings Basic.CheckedArrays Client.TerminalGrids Client.VTParsers
open String (utf8EncodeChar)

/-! ### Readings -/

def IsText (byte : UInt8) : Prop := 0x20 ≤ byte ∧ byte ≠ 0x7F

instance (byte : UInt8) : Decidable (IsText byte) := inferInstanceAs (Decidable (_ ∧ _))

def scalarAt (bytes : Bytes) : Option Char := bytes.toByteArray.utf8DecodeChar? 0

def scalars (data : Bytes) : List Char := data.tails.filterMap scalarAt

def lead (byte : UInt8) : Option (Nat × Nat) :=
  let n := byte.toNat
  if 0x20 ≤ n ∧ n ≤ 0x7E then some (0, n)
  else if 0xC2 ≤ n ∧ n ≤ 0xDF then some (1, n % 32)
  else if 0xE0 ≤ n ∧ n ≤ 0xEF then some (2, n % 16)
  else if 0xF0 ≤ n ∧ n ≤ 0xF4 then some (3, n % 8)
  else none

def complete : Nat → Nat → Bytes → Option Nat
  | 0, value, _ => some value
  | _ + 1, _, [] => none
  | need + 1, value, byte :: rest =>
    if IsContinuation byte then complete need (value * 64 + byte.toNat % 64) rest else none

def charOf (value : Nat) : Option Char :=
  if value.isValidChar then some (Char.ofNat value) else none

def readAt : Bytes → Option Char
  | [] => none
  | byte :: rest => do
    let (need, value) ← lead byte
    let value ← complete need value rest
    charOf value

def readings (data : Bytes) : List Char := data.tails.filterMap readAt

/-- The start of a form of three or four bytes for a scalar that takes fewer. -/
def Overlong : Bytes → Prop
  | first :: second :: third :: rest =>
    IsContinuation second ∧ IsContinuation third ∧
      (first = 0xE0 ∧ second < 0xA0 ∨
        first = 0xF0 ∧ second < 0x90 ∧ ¬(second = 0x8D ∧ 0xA0 ≤ third) ∧
          ∃ fourth ∈ rest.head?, IsContinuation fourth)
  | _ => False

theorem scalarAt_iff {bytes : Bytes} {c : Char} :
    scalarAt bytes = some c ↔ utf8EncodeChar c <+: bytes := by
  constructor
  · intro h
    obtain ⟨rest, hrest⟩ := ByteArray.exists_of_utf8DecodeChar?_eq_some h
    refine ⟨rest.data.toList, ?_⟩
    simpa using (congrArg (fun b => b.data.toList) hrest).symm
  · rintro ⟨rest, rfl⟩
    rw [scalarAt, List.toByteArray_append, ByteArray.utf8DecodeChar?_utf8EncodeChar_append]

variable {bytes rest : Bytes} {first second third fourth : UInt8} {c : Char}

variable {value : Nat}

theorem charOf_iff : charOf value = some c ↔ c.toNat = value := by
  unfold charOf
  constructor
  · intro h
    split_ifs at h with hvalid
    rw [← Option.some.inj h, Char.toNat_ofNat, if_pos hvalid]
  · rintro rfl
    have hvalid : c.toNat.isValidChar := c.valid
    rw [if_pos hvalid, Char.ofNat_toNat]

theorem complete_succ {need : Nat} {bytes : Bytes} {result : Nat} :
    complete (need + 1) value bytes = some result ↔ ∃ byte rest, bytes = byte :: rest ∧
      IsContinuation byte ∧ complete need (value * 64 + byte.toNat % 64) rest = some result := by
  rcases bytes with - | ⟨byte, rest⟩
  · simp [complete]
  · rw [complete]
    split_ifs with hbyte
    · simp [hbyte]
    · simp [hbyte]

theorem readAt_eq_some : readAt bytes = some c ↔ ∃ first rest need value, bytes = first :: rest ∧
    lead first = some (need, value) ∧ complete need value rest = some c.toNat := by
  rcases bytes with - | ⟨first, rest⟩
  · simp [readAt]
  · simp only [readAt, Option.bind_eq_bind, Option.bind_eq_some_iff, charOf_iff, Prod.exists,
      List.cons.injEq]
    constructor
    · rintro ⟨need, value, hlead, result, hcomplete, rfl⟩
      exact ⟨first, rest, need, value, ⟨rfl, rfl⟩, hlead, hcomplete⟩
    · rintro ⟨_, _, need, value, ⟨rfl, rfl⟩, hlead, hcomplete⟩
      exact ⟨need, value, hlead, _, hcomplete, rfl⟩

theorem lead_eq_some {need : Nat} : lead first = some (need, value) ↔
    0x20 ≤ first.toNat ∧ first.toNat ≤ 0x7E ∧ need = 0 ∧ value = first.toNat ∨
    0xC2 ≤ first.toNat ∧ first.toNat ≤ 0xDF ∧ need = 1 ∧ value = first.toNat % 32 ∨
    0xE0 ≤ first.toNat ∧ first.toNat ≤ 0xEF ∧ need = 2 ∧ value = first.toNat % 16 ∨
    0xF0 ≤ first.toNat ∧ first.toNat ≤ 0xF4 ∧ need = 3 ∧ value = first.toNat % 8 := by
  unfold lead
  dsimp only
  constructor
  · intro h
    split_ifs at h with hascii htwo hthree hfour <;>
      obtain ⟨rfl, rfl⟩ := Prod.mk.inj (Option.some.inj h)
    · exact .inl ⟨hascii.1, hascii.2, rfl, rfl⟩
    · exact .inr (.inl ⟨htwo.1, htwo.2, rfl, rfl⟩)
    · exact .inr (.inr (.inl ⟨hthree.1, hthree.2, rfl, rfl⟩))
    · exact .inr (.inr (.inr ⟨hfour.1, hfour.2, rfl, rfl⟩))
  · rintro (⟨hlow, hhigh, rfl, rfl⟩ | ⟨hlow, hhigh, rfl, rfl⟩ | ⟨hlow, hhigh, rfl, rfl⟩ |
      ⟨hlow, hhigh, rfl, rfl⟩)
    · rw [if_pos ⟨hlow, hhigh⟩]
    · rw [if_neg (by omega), if_pos ⟨hlow, hhigh⟩]
    · rw [if_neg (by omega), if_neg (by omega), if_pos ⟨hlow, hhigh⟩]
    · rw [if_neg (by omega), if_neg (by omega), if_neg (by omega), if_pos ⟨hlow, hhigh⟩]

theorem complete_ofNat (need value : Nat) {k : Nat} (hk : k < 64) (rest : Bytes) :
    complete (need + 1) value (UInt8.ofNat (k + 0x80) :: rest) =
      complete need (value * 64 + k) rest := by
  have htoNat : (UInt8.ofNat (k + 0x80)).toNat = k + 0x80 := by
    rw [UInt8.toNat_ofNat']
    omega
  rw [complete, if_pos ((isContinuation_iff_bounds _).mpr (by omega)), htoNat]
  congr 1
  omega

theorem readAt_of_prefix (htext : ∀ byte ∈ bytes, IsText byte) (h : utf8EncodeChar c <+: bytes) :
    readAt bytes = some c := by
  obtain ⟨rest, rfl⟩ := h
  have hlt := toNat_lt c
  have hcontinued := fun k => Nat.mod_lt k (by decide : 64 > 0)
  rw [readAt_eq_some]
  rw [utf8EncodeChar_eq] at htext ⊢
  split_ifs at htext ⊢ with hone htwo hthree <;> simp only [List.cons_append, List.nil_append]
  · obtain ⟨hlow, hdelete⟩ := htext _ List.mem_cons_self
    refine ⟨_, _, 0, c.toNat, rfl, lead_eq_some.mpr (.inl ?_), rfl⟩
    have htoNat : (UInt8.ofNat c.toNat).toNat = c.toNat := by
      rw [UInt8.toNat_ofNat']
      omega
    have hlow := UInt8.le_iff_toNat_le.mp hlow
    have hne : c.toNat ≠ 0x7F := fun h => hdelete (by rw [h]; rfl)
    rw [htoNat] at hlow ⊢
    have h32 : (32 : UInt8).toNat = 32 := rfl
    omega
  · refine ⟨_, _, 1, c.toNat / 64 % 32, rfl, lead_eq_some.mpr (.inr (.inl ?_)), ?_⟩
    · rw [UInt8.toNat_ofNat']
      omega
    · simp only [complete_ofNat _ _ (hcontinued _)]
      exact congrArg some (by omega)
  · refine ⟨_, _, 2, c.toNat / 4096 % 16, rfl, lead_eq_some.mpr (.inr (.inr (.inl ?_))), ?_⟩
    · rw [UInt8.toNat_ofNat']
      omega
    · simp only [complete_ofNat _ _ (hcontinued _)]
      exact congrArg some (by omega)
  · refine ⟨_, _, 3, c.toNat / 262144 % 8, rfl, lead_eq_some.mpr (.inr (.inr (.inr ?_))), ?_⟩
    · rw [UInt8.toNat_ofNat']
      omega
    · simp only [complete_ofNat _ _ (hcontinued _)]
      exact congrArg some (by omega)

theorem first_of_prefix (h : utf8EncodeChar c <+: first :: rest) :
    c.toNat ≤ 0x7F ∧ first.toNat < 0xC0 ∨
    0x7F < c.toNat ∧ c.toNat ≤ 0x7FF ∧ 0xC0 ≤ first.toNat ∧ first.toNat < 0xE0 ∨
    0x7FF < c.toNat ∧ c.toNat ≤ 0xFFFF ∧ 0xE0 ≤ first.toNat ∧ first.toNat < 0xF0 ∨
    0xFFFF < c.toNat ∧ 0xF0 ≤ first.toNat := by
  have hlt := toNat_lt c
  rw [utf8EncodeChar_eq] at h
  split_ifs at h with hone htwo hthree <;> obtain ⟨rfl, -⟩ := List.cons_prefix_cons.mp h <;>
    rw [UInt8.toNat_ofNat'] <;> omega

theorem first_of_overlong (h : Overlong (first :: rest)) : first = 0xE0 ∨ first = 0xF0 := by
  rcases rest with - | ⟨second, - | ⟨third, rest⟩⟩
  · exact h.elim
  · exact h.elim
  · exact h.2.2.imp And.left And.left

variable {byte : UInt8}

theorem ofNat_eq {n : Nat} (h : n = byte.toNat) : UInt8.ofNat n = byte := by
  rw [h, UInt8.ofNat_toNat]

theorem toNat_eq_iff {other : UInt8} : byte = other ↔ byte.toNat = other.toNat :=
  UInt8.toNat_inj.symm

theorem readAt_prefix_iff (h : readAt bytes = some c) :
    utf8EncodeChar c <+: bytes ↔ ¬Overlong bytes := by
  have hvalid : c.toNat < 0xD800 ∨ 0xDFFF < c.toNat ∧ c.toNat < 0x110000 := c.valid
  obtain ⟨first, rest, need, value, rfl, hlead, hcomplete⟩ := readAt_eq_some.mp h
  have hfirst := fun hoverlong : Overlong (first :: rest) => first_of_overlong hoverlong
  simp only [toNat_eq_iff, UInt8.reduceToNat] at hfirst
  rcases lead_eq_some.mp hlead with ⟨hlow, hhigh, rfl, rfl⟩ | ⟨hlow, hhigh, rfl, rfl⟩ |
    ⟨hlow, hhigh, rfl, rfl⟩ | ⟨hlow, hhigh, rfl, rfl⟩
  · have hvalue := Option.some.inj hcomplete
    refine iff_of_true ⟨rest, ?_⟩ fun hoverlong => ?_
    · rw [utf8EncodeChar_eq, if_pos (by omega), ofNat_eq hvalue.symm]
      rfl
    · have := hfirst hoverlong
      omega
  · obtain ⟨second, rest, rfl, hsecond, hcomplete⟩ := complete_succ.mp hcomplete
    have hvalue := Option.some.inj hcomplete
    rw [isContinuation_iff_bounds] at hsecond
    refine iff_of_true ⟨rest, ?_⟩ fun hoverlong => ?_
    · rw [utf8EncodeChar_eq, if_neg (by omega), if_pos (by omega),
        ofNat_eq (show _ = first.toNat by omega), ofNat_eq (show _ = second.toNat by omega)]
      rfl
    · have := hfirst hoverlong
      omega
  · obtain ⟨second, rest, rfl, hsecond, hcomplete⟩ := complete_succ.mp hcomplete
    obtain ⟨third, rest, rfl, hthird, hcomplete⟩ := complete_succ.mp hcomplete
    have hvalue := Option.some.inj hcomplete
    have hoverlong : Overlong (first :: second :: third :: rest) ↔ c.toNat ≤ 0x7FF := by
      rw [Overlong, and_iff_right hsecond, and_iff_right hthird]
      rw [isContinuation_iff_bounds] at hsecond hthird
      simp only [toNat_eq_iff, UInt8.lt_iff_toNat_lt, UInt8.reduceToNat]
      omega
    rw [isContinuation_iff_bounds] at hsecond hthird
    rw [hoverlong]
    constructor
    · intro hprefix
      have hform := first_of_prefix hprefix
      omega
    · intro hlong
      refine ⟨rest, ?_⟩
      rw [utf8EncodeChar_eq, if_neg (by omega), if_neg hlong, if_pos (by omega),
        ofNat_eq (show _ = first.toNat by omega), ofNat_eq (show _ = second.toNat by omega),
        ofNat_eq (show _ = third.toNat by omega)]
      rfl
  · obtain ⟨second, rest, rfl, hsecond, hcomplete⟩ := complete_succ.mp hcomplete
    obtain ⟨third, rest, rfl, hthird, hcomplete⟩ := complete_succ.mp hcomplete
    obtain ⟨fourth, rest, rfl, hfourth, hcomplete⟩ := complete_succ.mp hcomplete
    have hvalue := Option.some.inj hcomplete
    have hoverlong : Overlong (first :: second :: third :: fourth :: rest) ↔
        c.toNat ≤ 0xFFFF := by
      have hlast : ∃ fourth' ∈ (fourth :: rest).head?, IsContinuation fourth' :=
        ⟨fourth, rfl, hfourth⟩
      rw [Overlong, and_iff_right hsecond, and_iff_right hthird, and_iff_left hlast]
      rw [isContinuation_iff_bounds] at hsecond hthird hfourth
      simp only [toNat_eq_iff, UInt8.lt_iff_toNat_lt, UInt8.le_iff_toNat_le, UInt8.reduceToNat]
      omega
    rw [isContinuation_iff_bounds] at hsecond hthird hfourth
    rw [hoverlong]
    constructor
    · intro hprefix
      have hform := first_of_prefix hprefix
      omega
    · intro hlong
      refine ⟨rest, ?_⟩
      rw [utf8EncodeChar_eq, if_neg (by omega), if_neg (by omega), if_neg hlong,
        ofNat_eq (show _ = first.toNat by omega), ofNat_eq (show _ = second.toNat by omega),
        ofNat_eq (show _ = third.toNat by omega), ofNat_eq (show _ = fourth.toNat by omega)]
      rfl

theorem readAt_of_overlong (h : Overlong bytes) : ∃ c, readAt bytes = some c := by
  have hread : ∀ {first rest need value} result, lead first = some (need, value) →
      complete need value rest = some result → result.isValidChar →
        ∃ c, readAt (first :: rest) = some c := by
    intro first rest need value result hlead hcomplete hvalid
    refine ⟨Char.ofNat result, readAt_eq_some.mpr ⟨_, _, _, _, rfl, hlead, ?_⟩⟩
    rw [hcomplete, Char.toNat_ofNat, if_pos hvalid]
  rcases bytes with - | ⟨first, - | ⟨second, - | ⟨third, rest⟩⟩⟩
  · exact h.elim
  · exact h.elim
  · exact h.elim
  · obtain ⟨hsecond, hthird, ⟨rfl, hlow⟩ | ⟨rfl, hlow, hsurrogate, fourth, hfourth, hlast⟩⟩ := h
    · have hlead : lead 0xE0 = some (2, 0) := by decide
      refine hread _ hlead (complete_succ.mpr ⟨_, _, rfl, hsecond,
        complete_succ.mpr ⟨_, _, rfl, hthird, rfl⟩⟩) (.inl ?_)
      rw [isContinuation_iff_bounds] at hsecond
      simp only [UInt8.lt_iff_toNat_lt, UInt8.reduceToNat] at hlow
      omega
    · obtain ⟨rest, rfl⟩ := List.head?_eq_some_iff.mp hfourth
      have hlead : lead 0xF0 = some (3, 0) := by decide
      refine hread _ hlead (complete_succ.mpr ⟨_, _, rfl, hsecond, complete_succ.mpr
        ⟨_, _, rfl, hthird, complete_succ.mpr ⟨_, _, rfl, hlast, rfl⟩⟩⟩) ?_
      rw [isContinuation_iff_bounds] at hsecond hthird
      simp only [toNat_eq_iff, UInt8.lt_iff_toNat_lt, UInt8.le_iff_toNat_le,
        UInt8.reduceToNat] at hlow hsurrogate
      unfold Nat.isValidChar
      omega

theorem filterMap_eq_iff {α β : Type} {f g : α → Option β} {xs : List α}
    (h : ∀ x ∈ xs, ∀ y, f x = some y → g x = some y) :
    xs.filterMap g = xs.filterMap f ↔ ∀ x ∈ xs, g x = f x := by
  have hlength : ∀ {ys : List α}, (∀ x ∈ ys, ∀ y, f x = some y → g x = some y) →
      (ys.filterMap f).length ≤ (ys.filterMap g).length := by
    intro ys hys
    induction ys with
    | nil => exact Nat.le_refl _
    | cons x ys ih =>
      have hle := ih fun x hx => hys x (List.mem_cons_of_mem _ hx)
      rcases hf : f x with - | y
      · rw [List.filterMap_cons_none hf]
        exact hle.trans ((List.sublist_cons_self x ys).filterMap g).length_le
      · rw [List.filterMap_cons_some hf, List.filterMap_cons_some (hys x List.mem_cons_self y hf)]
        exact Nat.succ_le_succ hle
  refine ⟨fun heq => ?_, fun hall => List.filterMap_congr hall⟩
  induction xs with
  | nil => exact fun x hx => absurd hx List.not_mem_nil
  | cons x xs ih =>
    have hrest : ∀ x ∈ xs, ∀ y, f x = some y → g x = some y :=
      fun x hx => h x (List.mem_cons_of_mem _ hx)
    rcases hf : f x with - | y
    · rcases hg : g x with - | y
      · rw [List.filterMap_cons_none hf, List.filterMap_cons_none hg] at heq
        exact List.forall_mem_cons.mpr ⟨hg.trans hf.symm, ih hrest heq⟩
      · have hle := hlength hrest
        rw [List.filterMap_cons_none hf, List.filterMap_cons_some hg] at heq
        rw [← heq] at hle
        exact absurd hle (Nat.not_succ_le_self _)
    · have hg := h x List.mem_cons_self y hf
      rw [List.filterMap_cons_some hf, List.filterMap_cons_some hg] at heq
      exact List.forall_mem_cons.mpr ⟨hg.trans hf.symm, ih hrest (List.cons.inj heq).2⟩

theorem readings_eq_iff {data : Bytes} (htext : ∀ byte ∈ data, IsText byte) :
    readings data = scalars data ↔ ∀ rest, rest <:+ data → ¬Overlong rest := by
  have hread : ∀ rest ∈ data.tails, ∀ c, scalarAt rest = some c → readAt rest = some c := by
    intro rest hrest c hc
    have hsuffix := (List.mem_tails _ _).mp hrest
    exact readAt_of_prefix (fun byte hbyte => htext byte (hsuffix.subset hbyte))
      (scalarAt_iff.mp hc)
  rw [readings, scalars, filterMap_eq_iff hread]
  refine forall_congr' fun rest => (imp_congr_left (List.mem_tails _ _)).trans
    (imp_congr_right fun hsuffix => ⟨fun heq hoverlong => ?_, fun hwell => ?_⟩)
  · obtain ⟨c, hc⟩ := readAt_of_overlong hoverlong
    exact (readAt_prefix_iff hc).mp (scalarAt_iff.mp (heq ▸ hc)) hoverlong
  · rcases hc : readAt rest with - | c
    · rcases hscalar : scalarAt rest with - | c
      · rfl
      · rw [hread rest ((List.mem_tails _ _).mpr hsuffix) c hscalar] at hc
        cases hc
    · exact (scalarAt_iff.mpr ((readAt_prefix_iff hc).mpr hwell)).symm

/-! ### The parser -/

theorem and_low (bits : Nat) (byte mask : UInt8) (hmask : mask.toNat = 2 ^ bits - 1) :
    (byte &&& mask).toUInt32.toNat = byte.toNat % 2 ^ bits := by
  rw [UInt8.toNat_toUInt32, UInt8.toNat_and, hmask, Nat.and_two_pow_sub_one_eq_mod]

theorem dispatch_text {parser : VTParser} (hground : parser.state = .ground) (htext : IsText byte) :
    match lead byte with
    | none => ∀ grid, dispatch parser byte grid = some (parser, grid)
    | some (0, value) =>
      ∀ grid, dispatch parser byte grid = drive parser (put grid (Char.ofNat value))
    | some (need, value) => ∃ scalar : UInt32, scalar.toNat = value ∧ ∀ grid,
        dispatch parser byte grid =
          some ({ parser with utf8Need := need, utf8Scalar := scalar }, grid) := by
  obtain ⟨hlow, hdelete⟩ := htext
  simp only [UInt8.le_iff_toNat_le, UInt8.reduceToNat] at hlow
  have hnot : ∀ controls : List UInt8, (∀ k ∈ controls, k.toNat < 0x20) → byte ∉ controls :=
    fun controls hcontrols hmem => absurd (hcontrols byte hmem) (Nat.not_lt_of_le hlow)
  have hne : ∀ k : UInt8, k.toNat < 0x20 → byte ≠ k := by
    rintro k hk rfl
    exact absurd hk (Nat.not_lt_of_le hlow)
  have hdispatch : ∀ grid, dispatch parser byte grid =
      let n := byte.toNat
      if 0x20 ≤ n ∧ n ≤ 0x7E then drive parser (put grid (Char.ofNat n))
      else if 0xC2 ≤ n ∧ n ≤ 0xDF then
        some ({ parser with utf8Need := 1, utf8Scalar := (byte &&& 0x1F).toUInt32 }, grid)
      else if 0xE0 ≤ n ∧ n ≤ 0xEF then
        some ({ parser with utf8Need := 2, utf8Scalar := (byte &&& 0x0F).toUInt32 }, grid)
      else if 0xF0 ≤ n ∧ n ≤ 0xF4 then
        some ({ parser with utf8Need := 3, utf8Scalar := (byte &&& 0x07).toUInt32 }, grid)
      else some (parser, grid) := by
    intro grid
    have hground' : dispatch parser byte grid = handleGround parser byte grid := by
      rw [dispatch, hground]
    rw [hground', handleGround, if_neg (hnot _ (by simp)), if_neg (hne _ (by decide)),
      if_neg (hne _ (by decide)), if_neg (hne _ (by decide)), if_neg (hnot _ (by simp)),
      if_neg (hne _ (by decide)), if_neg (hnot _ (by simp)), if_neg (hne _ (by decide)),
      if_neg hdelete]
    simp only [UInt8.le_iff_toNat_le, UInt8.reduceToNat]
  simp only [hdispatch, lead]
  split_ifs
  · exact fun grid => rfl
  · exact ⟨_, and_low 5 byte 0x1F rfl, fun grid => rfl⟩
  · exact ⟨_, and_low 4 byte 0x0F rfl, fun grid => rfl⟩
  · exact ⟨_, and_low 3 byte 0x07 rfl, fun grid => rfl⟩
  · exact fun grid => rfl

theorem shift_value {value : UInt32} {need : Nat} (h : (value.toNat + 1) * 64 ^ (need + 1) ≤ 2 ^ 21)
    (byte : UInt8) :
    ((value <<< 6) ||| (byte &&& 0x3F).toUInt32).toNat = value.toNat * 64 + byte.toNat % 64 ∧
      (((value <<< 6) ||| (byte &&& 0x3F).toUInt32).toNat + 1) * 64 ^ need ≤ 2 ^ 21 := by
  have hlow := and_low 6 byte 0x3F rfl
  have hmod := Nat.mod_lt byte.toNat (by decide : 2 ^ 6 > 0)
  have hpow : 1 ≤ 64 ^ need := Nat.one_le_pow _ _ (by decide)
  have hvalue : ((value <<< 6) ||| (byte &&& 0x3F).toUInt32).toNat =
      value.toNat * 64 + byte.toNat % 64 := by
    have hfits : value.toNat * 2 ^ 6 < 2 ^ 32 := by
      rw [pow_succ'] at h
      nlinarith
    have hshift : (value <<< 6).toNat = value.toNat <<< 6 := by
      rw [UInt32.toNat_shiftLeft, Nat.shiftLeft_eq, Nat.shiftLeft_eq]
      exact Nat.mod_eq_of_lt hfits
    rw [UInt32.toNat_or, hshift, hlow, ← Nat.shiftLeft_add_eq_or_of_lt hmod, Nat.shiftLeft_eq]
    rfl
  refine ⟨hvalue, ?_⟩
  rw [hvalue]
  calc (value.toNat * 64 + byte.toNat % 64 + 1) * 64 ^ need
      ≤ ((value.toNat + 1) * 64) * 64 ^ need := Nat.mul_le_mul_right _ (by omega)
    _ = (value.toNat + 1) * 64 ^ (need + 1) := by rw [pow_succ', Nat.mul_assoc]
    _ ≤ 2 ^ 21 := h

theorem unicodeScalar_eq (value : UInt32) : unicodeScalar value = charOf value.toNat := rfl

def opened (parser : VTParser) (data : Bytes) : List Char :=
  if parser.utf8Need = 0 then []
  else ((complete parser.utf8Need parser.utf8Scalar.toNat data).bind charOf).toList

theorem readAt_continuation (h : IsContinuation byte) (rest : Bytes) :
    readAt (byte :: rest) = none := by
  rw [isContinuation_iff_bounds] at h
  have hlead : lead byte = none := by
    rcases hlead : lead byte with - | ⟨need, value⟩
    · rfl
    · have hform := lead_eq_some.mp hlead
      omega
  rw [readAt, hlead]
  rfl

theorem readings_cons (byte : UInt8) (rest : Bytes) :
    readings (byte :: rest) = (readAt (byte :: rest)).toList ++ readings rest := by
  rw [readings, List.tails_cons, List.filterMap_cons]
  rcases readAt (byte :: rest) with - | c <;> rfl

/-- A run puts some scalars on the screen, and leaves the same parser whatever the screen. -/
def Puts (run : TerminalGrid → Option Terminal) (text : List Char) : Prop :=
  ∃ parser' : VTParser, ∀ grid, run grid = (text.foldlM put grid).map fun grid => (parser', grid)

theorem Puts.cons {run : TerminalGrid → Option Terminal} {text : List Char} (h : Puts run text)
    (c : Char) : Puts (fun grid => (put grid c).bind run) (c :: text) := by
  obtain ⟨parser', hrun⟩ := h
  refine ⟨parser', fun grid => ?_⟩
  rw [List.foldlM_cons]
  dsimp only
  rcases put grid c with - | grid
  · rfl
  · exact hrun grid

theorem opened_nil (parser : VTParser) : opened parser [] = [] := by
  unfold opened
  rcases parser.utf8Need with - | need <;> rfl

/-- The value of the open sequence has room for the bytes that are needed. -/
def Roomy (parser : VTParser) : Prop :=
  parser.state = .ground ∧
    (parser.utf8Need = 0 ∨ (parser.utf8Scalar.toNat + 1) * 64 ^ parser.utf8Need ≤ 2 ^ 21)

theorem lead_roomy {need : Nat} (h : lead byte = some (need + 1, value)) :
    (value + 1) * 64 ^ (need + 1) ≤ 2 ^ 21 := by
  rcases lead_eq_some.mp h with h | ⟨-, -, hneed, hvalue⟩ | ⟨-, -, hneed, hvalue⟩ |
    ⟨-, -, hneed, hvalue⟩
  · omega
  · rw [hneed, hvalue]
    omega
  · rw [hneed, hvalue]
    omega
  · rw [hneed, hvalue]
    omega

theorem dispatch_puts {rest : Bytes} (ih : ∀ parser, Roomy parser →
      Puts (fun grid => feed (parser, grid) rest) (opened parser rest ++ readings rest))
    (parser : VTParser) (hground : parser.state = .ground) (hneed : parser.utf8Need = 0)
    (htext : IsText byte) :
    Puts (fun grid => (dispatch parser byte grid).bind fun terminal => feed terminal rest)
      (readings (byte :: rest)) := by
  have hstep := dispatch_text hground htext
  have hclosed : opened parser rest = [] := if_pos hneed
  rw [readings_cons, readAt]
  rcases hlead : lead byte with - | ⟨need, value⟩
  · simp only [hlead] at hstep
    simp only [hstep, Option.bind_some, Option.bind_eq_bind, Option.bind_none, Option.toList_none]
    simpa only [hclosed] using ih parser ⟨hground, .inl hneed⟩
  have hform := lead_eq_some.mp hlead
  rcases need with - | need
  · have hvalue : charOf value = some (Char.ofNat value) := if_pos (.inl (by omega))
    simp only [hlead] at hstep
    simp only [hstep, complete, hvalue, Option.bind_some, Option.bind_eq_bind,
      Option.toList_some, List.singleton_append]
    have hnext := (ih parser ⟨hground, .inl hneed⟩).cons (Char.ofNat value)
    rw [hclosed, List.nil_append] at hnext
    obtain ⟨parser', hnext⟩ := hnext
    refine ⟨parser', fun grid => ?_⟩
    rw [← hnext]
    dsimp only [drive]
    rcases put grid (Char.ofNat value) with - | grid <;> rfl
  · simp only [hlead] at hstep
    obtain ⟨scalar, rfl, hstep⟩ := hstep
    have hnext := ih { parser with utf8Need := need + 1, utf8Scalar := scalar }
      ⟨hground, .inr (lead_roomy hlead)⟩
    simp only [hstep, Option.bind_some, Option.bind_eq_bind]
    exact hnext

theorem feed_text {data : Bytes} (htext : ∀ byte ∈ data, IsText byte) (parser : VTParser)
    (hroomy : Roomy parser) :
    Puts (fun grid => feed (parser, grid) data) (opened parser data ++ readings data) := by
  induction data generalizing parser with
  | nil =>
    rw [opened_nil]
    exact ⟨parser, fun grid => rfl⟩
  | cons byte rest ih =>
    obtain ⟨hground, hvalue⟩ := hroomy
    obtain ⟨hbyte, hrest⟩ := List.forall_mem_cons.mp htext
    have hfeed : ∀ grid, feed (parser, grid) (byte :: rest) =
        (consume parser byte grid).bind fun terminal => feed terminal rest := fun grid => rfl
    simp only [hfeed, consume]
    rcases hneed : parser.utf8Need with - | need
    · simp only [opened, hneed, if_true, List.nil_append, Nat.lt_irrefl, if_false]
      exact dispatch_puts (fun parser => ih hrest parser) parser hground hneed hbyte
    rw [hneed] at hvalue
    have hvalue := hvalue.resolve_left (Nat.succ_ne_zero need)
    simp only [Nat.zero_lt_succ, if_true, consumeContinuation]
    by_cases hcontinues : IsContinuation byte
    · obtain ⟨hscalar, hroomy⟩ := shift_value hvalue byte
      have hopened : opened parser (byte :: rest) = ((complete need
          (parser.utf8Scalar.toNat * 64 + byte.toNat % 64) rest).bind charOf).toList := by
        rw [opened, hneed, if_neg (Nat.succ_ne_zero need), complete, if_pos hcontinues]
      have hcondition : byte &&& 0xC0 = 0x80 := hcontinues
      rw [hopened, readings_cons, readAt_continuation hcontinues, Option.toList_none,
        List.nil_append, ← hscalar]
      simp only [if_pos hcondition, hneed, Nat.succ_sub_one]
      have hnext := ih hrest { parser with
        utf8Scalar := (parser.utf8Scalar <<< 6) ||| (byte &&& 0x3F).toUInt32
        utf8Need := need } ⟨hground, .inr hroomy⟩
      rcases need with - | need
      · simp only [opened, if_true, List.nil_append] at hnext
        simp only [if_true, complete, Option.bind_some, ← unicodeScalar_eq]
        rcases unicodeScalar ((parser.utf8Scalar <<< 6) ||| (byte &&& 0x3F).toUInt32) with - | c
        · exact hnext
        · obtain ⟨parser', hnext⟩ := hnext.cons c
          refine ⟨parser', fun grid => ?_⟩
          rw [Option.toList_some, List.singleton_append, ← hnext]
          dsimp only [drive]
          rcases put grid c with - | grid <;> rfl
      · simpa only [opened, Nat.succ_ne_zero, if_false, Option.bind_some] using hnext
    · have hopened : opened parser (byte :: rest) = [] := by
        rw [opened, hneed, if_neg (Nat.succ_ne_zero need), complete, if_neg hcontinues]
        rfl
      have hcondition : ¬byte &&& 0xC0 = 0x80 := hcontinues
      rw [hopened, List.nil_append]
      simp only [if_neg hcondition]
      exact dispatch_puts (fun parser => ih hrest parser) { parser with utf8Need := 0 } hground rfl
        hbyte

/-- Fed with text at ground, the parser puts what is read. That is the scalars of the well-formed
sequences exactly where no overlong form stands in the text. -/
theorem text_is_read (parser : VTParser) (hground : parser.state = .ground)
    (hneed : parser.utf8Need = 0) {data : Bytes} (htext : ∀ byte ∈ data, IsText byte) :
    Puts (fun grid => feed (parser, grid) data) (readings data) ∧
      (readings data = scalars data ↔ ∀ rest, rest <:+ data → ¬Overlong rest) := by
  have hputs := feed_text htext parser ⟨hground, .inl hneed⟩
  have hclosed : opened parser data = [] := if_pos hneed
  rw [hclosed] at hputs
  exact ⟨hputs, readings_eq_iff htext⟩

theorem truncated_text_is_read :
    Puts (fun grid => feed ({}, grid) [0xE2, 0x82, 0x41]) (readings [0xE2, 0x82, 0x41]) ∧
      (readings [0xE2, 0x82, 0x41] = scalars [0xE2, 0x82, 0x41] ↔
        ∀ rest, rest <:+ [0xE2, 0x82, 0x41] → ¬Overlong rest) :=
  text_is_read {} rfl rfl (by decide +kernel)

/-- An overlong form is printed as the scalar it names, and there is no scalar in the bytes. -/
theorem overlong_form_is_printed :
    (∀ grid, (feed ({}, grid) [0xE0, 0x81, 0x81]).map Prod.snd = put grid 'A') ∧
      scalars [0xE0, 0x81, 0x81] = [] := by
  refine ⟨fun grid => ?_, by decide +kernel⟩
  have hopens : consume {} 0xE0 grid = some ({ utf8Need := 2 }, grid) := by
    simp only [consume, dispatch, handleGround]
    rfl
  have hsecond : consume { utf8Need := 2 } 0x81 grid =
      some ({ utf8Need := 1, utf8Scalar := 1 }, grid) := rfl
  have hlast : consume { utf8Need := 1, utf8Scalar := 1 } 0x81 grid =
      drive { utf8Scalar := 0x41 } (put grid 'A') := rfl
  simp only [feed, List.foldlM_cons, List.foldlM_nil, hopens, hsecond, hlast, drive,
    Option.bind_eq_bind, Option.bind_some]
  rcases put grid 'A' with - | grid <;> rfl

end Srui.Client.TextDecodings
