import Srui.Client.TerminalSafety
import Srui.Client.VTParsers

/-!
Whatever bytes come, in whatever chunks, and however the screen is resized in between,
the terminal does not trap.

The screen stays well formed because every command is one of its operations; of the
parser only the lengths of the accumulators matter.
-/

namespace Srui.Client.VTParsers

open Basic.CheckedArrays Client.TerminalGrids

structure Bounded (parser : VTParser) : Prop where
  osc : parser.osc.length ≤ maxOSCBytes
  csi : parser.csi.length ≤ maxCSIBytes

structure Sound (size : Dimensions) (terminal : Terminal) : Prop where
  parser : Bounded terminal.1
  grid : WellFormed size terminal.2

variable {size : Dimensions} {parser : VTParser} {grid : TerminalGrid}

/-! ### Parameters -/

theorem parseParamsFrom_yields {bytes : Bytes} (h : ∀ b ∈ bytes, b = ascii ';' ∨ 0x30 ≤ b)
    (values : List Int) (current : Int) (sawDigit : Bool) :
    Yields (parseParamsFrom values current sawDigit bytes) fun _ => True := by
  induction bytes generalizing values current sawDigit with
  | nil => exact .pure trivial
  | cons byte rest ih =>
    have hrest : ∀ b ∈ rest, b = ascii ';' ∨ 0x30 ≤ b := fun b hb =>
      h b (List.mem_cons_of_mem byte hb)
    rw [parseParamsFrom]
    split
    · exact ih hrest _ _ _
    rename_i hdigit
    have hlow : (ascii '0').toNat ≤ byte.toNat :=
      (h byte List.mem_cons_self).resolve_left hdigit
    rw [subtractByte, if_pos hlow, Option.bind_eq_bind, Option.bind_some]
    split
    · exact ih hrest _ _ _
    · exact ih hrest _ _ _

theorem parseParams_yields (paramsSource : Bytes) :
    Yields (parseParams (paramBytes paramsSource)) fun _ => True := by
  rw [parseParams]
  split
  · exact .pure trivial
  · refine parseParamsFrom_yields ?_ _ _ _
    intro b hb
    have hkept := (List.mem_filter.mp hb).2
    exact (of_decide_eq_true hkept).imp id And.left

theorem paramOr_yields (params : List Int) (i : Nat) (otherwise : Int) :
    Yields (paramOr params i otherwise) fun _ => True := by
  rw [paramOr]
  split
  · rename_i hinside
    exact (read_yields (Int.natCast_nonneg i) (Int.ofNat_lt.mpr hinside)).mono
      fun _ _ => trivial
  · exact .pure trivial

theorem extendedColor_yields (params : List Int) (i : Nat) :
    Yields (extendedColor params i) fun _ => True := by
  rw [extendedColor]
  split
  swap
  · exact .pure trivial
  refine (read_yields (by omega) (by omega)).bind ?_
  intro kind _
  split
  · refine (read_yields (by omega) (by omega)).bind ?_
    intro index _
    exact .pure trivial
  split
  · refine (read_yields (by omega) (by omega)).bind ?_
    intro red _
    refine (read_yields (by omega) (by omega)).bind ?_
    intro green _
    refine (read_yields (by omega) (by omega)).bind ?_
    intro blue _
    exact .pure trivial
  · exact .pure trivial

theorem applySGRFrom_yields (params : List Int) (i : Nat) (attrs : TerminalAttributes) :
    Yields (applySGRFrom params i attrs) fun _ => True := by
  induction hleft : params.length - i using Nat.strongRecOn generalizing i attrs with
  | ind n ih =>
    rw [applySGRFrom]
    split
    swap
    · exact .pure trivial
    rename_i hinside
    obtain ⟨code, hread, -⟩ :=
      read_yields (Int.natCast_nonneg i) (Int.ofNat_lt.mpr hinside)
    rw [hread]
    simp only
    split
    · obtain ⟨⟨color, taken⟩, hcolor, -⟩ := extendedColor_yields params i
      rw [hcolor]
      rcases color with - | color
      · exact ih _ (by omega) _ _ rfl
      · exact ih _ (by omega) _ _ rfl
    · exact ih _ (by omega) _ _ rfl

/-! ### Commands -/

section

variable (h : WellFormed size grid)

include h

theorem applySGR_yields (params : List Int) :
    Yields (applySGR params grid) (WellFormed size) := by
  refine (applySGRFrom_yields params 0 _).bind ?_
  intro attrs _
  exact .pure { h with }

theorem applyMode_yields (enable : Bool) (mode : Int) :
    Yields (applyMode enable grid mode) (WellFormed size) := by
  rw [applyMode]
  split
  · exact .pure { h with }
  split
  · exact .pure { h with }
  split
  · exact .pure { h with }
  split
  · exact .pure { h with }
  split
  · exact .pure { h with }
  split
  swap
  · exact .pure h
  split
  · refine WellFormed.setAlternateScreen ?_ true
    split
    · exact h.saveCursor
    · exact h
  · refine (h.setAlternateScreen false).bind ?_
    intro grid' hwell
    refine .pure ?_
    split
    · exact hwell.restoreCursor
    · exact hwell

theorem applyPrivate_yields (final : UInt8) (params : List Int) :
    Yields (applyPrivate final params grid) (WellFormed size) := by
  rw [applyPrivate]
  split
  · exact Yields.foldlM (fun grid mode _ hwell => applyMode_yields hwell _ mode) h
  · exact .pure h

theorem applyCommand_yields (final : UInt8) (params : List Int) :
    Yields (applyCommand final params grid) (WellFormed size) := by
  have hkept {p : Prop} [Decidable p] {grid' : TerminalGrid} (h' : WellFormed size grid') :
      WellFormed size (if p then grid' else grid) := by
    split
    · exact h'
    · exact h
  unfold applyCommand
  refine .ite (fun _ => .pure (h.moveRelative _ _)) fun _ => ?_
  refine .ite (fun _ => .pure (h.moveRelative _ _)) fun _ => ?_
  refine .ite (fun _ => .pure (h.moveRelative _ _)) fun _ => ?_
  refine .ite (fun _ => .pure (h.moveRelative _ _)) fun _ => ?_
  refine .ite (fun _ => ?_) fun _ => ?_
  · refine (paramOr_yields params 0 1).bind ?_
    intro row _
    refine (paramOr_yields params 1 1).bind ?_
    intro col _
    exact .pure (h.moveCursor _ _)
  refine .ite (fun _ => h.eraseInDisplay _) fun _ => ?_
  refine .ite (fun _ => h.eraseInLine _) fun _ => ?_
  refine .ite (fun _ => h.insertLines _) fun _ => ?_
  refine .ite (fun _ => h.deleteLines _) fun _ => ?_
  refine .ite (fun _ => h.deleteCharacters _) fun _ => ?_
  refine .ite (fun _ => h.insertBlanks _) fun _ => ?_
  refine .ite (fun _ => h.eraseCharacters _) fun _ => ?_
  refine .ite (fun _ => .pure (h.setCursorColumn _)) fun _ => ?_
  refine .ite (fun _ => .pure (h.setCursorRow _)) fun _ => ?_
  refine .ite (fun _ => ?_) fun _ => ?_
  · refine (paramOr_yields params 0 1).bind ?_
    intro top _
    refine (paramOr_yields params 1 grid.rows).bind ?_
    intro bottom _
    exact .pure (h.setScrollRegion _ _)
  refine .ite (fun _ => h.scrollUp _) fun _ => ?_
  refine .ite (fun _ => h.scrollDown _) fun _ => ?_
  refine .ite (fun _ => applySGR_yields h _) fun _ => ?_
  refine .ite (fun _ => .pure (hkept { h with })) fun _ => ?_
  exact .ite (fun _ => .pure (hkept { h with })) fun _ => .pure h

theorem applyCSI_yields (raw : Bytes) :
    Yields (applyCSI raw grid) (WellFormed size) := by
  rw [applyCSI]
  split
  · exact .pure h
  rename_i final _
  simp only
  split
  · exact .pure h
  obtain ⟨params, hparams, -⟩ := parseParams_yields
    (if raw.dropLast.head? = some (ascii '?') then raw.dropLast.drop 1 else raw.dropLast)
  rw [hparams]
  simp only
  split
  · exact applyPrivate_yields h final params
  · exact applyCommand_yields h final params

theorem applyOSC_yields (raw : Bytes) :
    Yields (applyOSC raw grid) (WellFormed size) := by
  rw [applyOSC]
  split
  · exact .pure h
  rename_i semicolon hfound
  have hinside : semicolon < raw.length := (List.findIdx?_eq_some_iff_getElem.mp hfound).1
  refine (removeFirst_yields (by omega) (by omega)).bind ?_
  intro payload _
  split
  · refine .pure ?_
    split
    · exact { h with }
    · exact h
  split
  · exact .pure { h with }
  · exact .pure h

end

/-! ### The machine -/

section

variable (hparser : Bounded parser)

include hparser

theorem drive_yields {grid : Option TerminalGrid} (hgrid : Yields grid (WellFormed size)) :
    Yields (drive parser grid) (Sound size) := by
  refine hgrid.bind ?_
  intro grid hwell
  exact .pure ⟨hparser, hwell⟩

variable (h : WellFormed size grid)

include h

variable (byte : UInt8)

theorem handleGround_yields :
    Yields (handleGround parser byte grid) (Sound size) := by
  unfold handleGround
  refine .ite (fun _ => .pure ⟨hparser, h⟩) fun _ => ?_
  refine .ite (fun _ => .pure ⟨hparser, h⟩) fun _ => ?_
  refine .ite (fun _ => .pure ⟨hparser, h.backspace⟩) fun _ => ?_
  refine .ite (fun _ => .pure ⟨hparser, h.tab⟩) fun _ => ?_
  refine .ite (fun _ => drive_yields hparser h.lineFeed) fun _ => ?_
  refine .ite (fun _ => .pure ⟨hparser, h.carriageReturn⟩) fun _ => ?_
  refine .ite (fun _ => .pure ⟨{ hparser with }, h⟩) fun _ => ?_
  refine .ite (fun _ => .pure ⟨{ hparser with }, h⟩) fun _ => ?_
  refine .ite (fun _ => drive_yields hparser (h.put _)) fun _ => ?_
  refine .ite (fun _ => .pure ⟨hparser, h⟩) fun _ => ?_
  refine .ite (fun _ => .pure ⟨{ hparser with }, h⟩) fun _ => ?_
  refine .ite (fun _ => .pure ⟨{ hparser with }, h⟩) fun _ => ?_
  exact .ite (fun _ => .pure ⟨{ hparser with }, h⟩) fun _ => .pure ⟨hparser, h⟩

theorem handleEscape_yields :
    Yields (handleEscape parser byte grid) (Sound size) := by
  have hground : Bounded { parser with state := .ground } := { hparser with }
  unfold handleEscape
  refine .ite (fun _ => .pure ⟨hparser, h⟩) fun _ => ?_
  refine .ite (fun _ => .pure ⟨{ hparser with csi := Nat.zero_le _ }, h⟩) fun _ => ?_
  refine .ite (fun _ => .pure ⟨{ hparser with osc := Nat.zero_le _ }, h⟩) fun _ => ?_
  refine .ite (fun _ => .pure ⟨{ hparser with }, h⟩) fun _ => ?_
  refine .ite (fun _ => .pure ⟨hground, h.saveCursor⟩) fun _ => ?_
  refine .ite (fun _ => .pure ⟨hground, h.restoreCursor⟩) fun _ => ?_
  refine .ite (fun _ => drive_yields ⟨Nat.zero_le _, Nat.zero_le _⟩ h.reset) fun _ => ?_
  refine .ite (fun _ => drive_yields hground h.lineFeed) fun _ => ?_
  refine .ite (fun _ => drive_yields hground h.nextLine) fun _ => ?_
  refine .ite (fun _ => drive_yields hground h.reverseIndex) fun _ => ?_
  exact .ite (fun _ => .pure ⟨{ hparser with }, h⟩) fun _ => .pure ⟨hground, h⟩

theorem handleCSI_yields :
    Yields (handleCSI parser byte grid) (Sound size) := by
  have hcleared (state : State) : Bounded { parser with csi := [], state := state } :=
    { hparser with csi := Nat.zero_le _ }
  unfold handleCSI
  refine .ite (fun _ => .pure ⟨{ hparser with }, h⟩) fun hroom => ?_
  refine .ite (fun _ => drive_yields (hcleared .ground) (applyCSI_yields h _)) fun _ => ?_
  refine .ite (fun _ => .pure ⟨{ hparser with csi := ?_ }, h⟩) fun _ => ?_
  · show (parser.csi ++ [byte]).length ≤ maxCSIBytes
    rw [List.length_append]
    exact Nat.not_le.mp hroom
  exact .ite (fun _ => .pure ⟨hcleared .escape, h⟩) fun _ => .pure ⟨hcleared .ground, h⟩

theorem handleOSC_yields :
    Yields (handleOSC parser byte grid) (Sound size) := by
  have hcleared (state : State) : Bounded { parser with osc := [], state := state } :=
    { hparser with osc := Nat.zero_le _ }
  unfold handleOSC
  refine .ite (fun _ => drive_yields (hcleared .ground) (applyOSC_yields h _)) fun _ => ?_
  refine .ite (fun _ => .pure ⟨{ hparser with }, h⟩) fun _ => ?_
  refine .ite (fun _ => .pure ⟨hcleared .ignoreUntilST, h⟩) fun hroom => ?_
  refine .pure ⟨{ hparser with osc := ?_ }, h⟩
  show (parser.osc ++ [byte]).length ≤ maxOSCBytes
  rw [List.length_append]
  exact Nat.not_le.mp hroom

theorem handleOSCEscape_yields :
    Yields (handleOSCEscape parser byte grid) (Sound size) := by
  have hcleared (state : State) : Bounded { parser with osc := [], state := state } :=
    { hparser with osc := Nat.zero_le _ }
  refine (applyOSC_yields h parser.osc).bind ?_
  intro grid' hwell
  exact .ite (fun _ => .pure ⟨hcleared .ground, hwell⟩)
    fun _ => handleEscape_yields (hcleared .escape) hwell byte

theorem dispatch_yields :
    Yields (dispatch parser byte grid) (Sound size) := by
  rw [dispatch]
  split
  · exact handleGround_yields hparser h byte
  · exact handleEscape_yields hparser h byte
  · exact handleCSI_yields hparser h byte
  · exact handleOSC_yields hparser h byte
  · exact handleOSCEscape_yields hparser h byte
  · exact .pure ⟨{ hparser with }, h⟩
  · split
    · exact .pure ⟨{ hparser with }, h⟩
    split
    · exact .pure ⟨{ hparser with }, h⟩
    · exact .pure ⟨hparser, h⟩

theorem consumeContinuation_yields :
    Yields (consumeContinuation parser byte grid) (Sound size) := by
  have hread (need : Nat) (scalar : UInt32) :
      Bounded { parser with utf8Need := need, utf8Scalar := scalar } := { hparser with }
  unfold consumeContinuation
  refine .ite (fun _ => ?_) fun _ => dispatch_yields (hread 0 _) h byte
  refine .ite (fun _ => ?_) fun _ => .pure ⟨hread _ _, h⟩
  split
  · exact drive_yields (hread _ _) (h.put _)
  · exact .pure ⟨hread _ _, h⟩

theorem consume_yields :
    Yields (consume parser byte grid) (Sound size) :=
  .ite (fun _ => consumeContinuation_yields hparser h byte)
    fun _ => dispatch_yields hparser h byte

end

theorem feed_yields {terminal : Terminal} (h : Sound size terminal) (data : Bytes) :
    Yields (feed terminal data) (Sound size) :=
  Yields.foldlM (fun _ byte _ hsound => consume_yields hsound.parser hsound.grid byte) h

/-! ### Runs -/

inductive Call where
  | feed (data : Bytes)
  | resize (columns rows : Int)

def call (terminal : Terminal) : Call → Option Terminal
  | .feed data => feed terminal data
  | .resize columns rows => do
    let grid ← resize terminal.2 columns rows
    some (terminal.1, grid)

def runTerminal (columns rows : Int) (calls : List Call) : Option Terminal := do
  let grid ← TerminalGrid.init columns rows
  calls.foldlM call ({}, grid)

theorem call_yields {limit columns rows : Int} {terminal : Terminal}
    (h : Sound ⟨columns, rows, limit⟩ terminal) (c : Call) :
    Yields (call terminal c) fun terminal =>
      ∃ columns rows, Sound ⟨columns, rows, limit⟩ terminal := by
  rcases c with data | ⟨newColumns, newRows⟩
  · exact (feed_yields h data).mono fun _ hsound => ⟨columns, rows, hsound⟩
  · refine (h.grid.resize newColumns newRows).bind ?_
    intro grid hwell
    exact .pure ⟨_, _, h.parser, hwell⟩

/-- No sequence of calls traps, and each ends in a sound terminal that keeps at most as
many lines of scrollback as a new one. -/
theorem runTerminal_sound (columns rows : Int) (calls : List Call) :
    ∃ terminal, runTerminal columns rows calls = some terminal ∧
      ∃ columns rows, Sound ⟨columns, rows, 10000⟩ terminal := by
  refine (init_wellFormed columns rows).bind ?_
  intro grid hgrid
  refine Yields.foldlM ?_ ?_
  · rintro terminal c - ⟨columns, rows, hsound⟩
    exact call_yields hsound c
  · exact ⟨_, _, ⟨Nat.zero_le _, Nat.zero_le _⟩, hgrid⟩

end Srui.Client.VTParsers
