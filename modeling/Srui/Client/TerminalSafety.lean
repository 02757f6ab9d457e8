import Srui.Client.TerminalGrids

/-!
No operation of a terminal's screen traps, and each leaves a well-formed screen.

Every operation on the active buffer is a change of one row or a rotation of rows, and
what both need is shown once.
-/

namespace Srui.Client.TerminalGrids

open Basic.CheckedArrays

/-- Exactly `rows` lines of exactly `columns` cells. -/
structure Sized (columns rows : Int) (buf : Buffer) : Prop where
  rows : (buf.length : Int) = rows
  columns : ∀ line ∈ buf, (line.length : Int) = columns

structure Dimensions where
  columns : Int
  rows : Int
  maxScrollbackLines : Int

structure WellFormed (size : Dimensions) (grid : TerminalGrid) : Prop where
  dimensions : grid.columns = size.columns ∧ grid.rows = size.rows ∧
    grid.maxScrollbackLines = size.maxScrollbackLines
  columns : 1 ≤ grid.columns ∧ grid.columns ≤ maxTerminalColumns
  rows : 1 ≤ grid.rows ∧ grid.rows ≤ maxTerminalRows
  primary : Sized grid.columns grid.rows grid.primary
  alternate : ∀ buf, grid.alternate = some buf → Sized grid.columns grid.rows buf
  cursorColumn : 0 ≤ grid.cursorColumn ∧ grid.cursorColumn < grid.columns
  cursorRow : 0 ≤ grid.cursorRow ∧ grid.cursorRow < grid.rows
  scrollRegion : 0 ≤ grid.scrollTop ∧ grid.scrollTop ≤ grid.scrollBottom ∧
    grid.scrollBottom < grid.rows
  savedCursor : 0 ≤ grid.savedCursorColumn ∧ 0 ≤ grid.savedCursorRow
  scrollback : (grid.scrollback.length : Int) ≤ grid.maxScrollbackLines

variable {size : Dimensions} {grid : TerminalGrid} {columns rows : Int}

/-! ### Buffers -/

theorem blankBuffer_yields (hcolumns : 0 ≤ columns) (hrows : 0 ≤ rows) :
    Yields (blankBuffer columns rows) (Sized columns rows) := by
  refine (repeating_yields hcolumns).bind ?_
  rintro line ⟨hline, -⟩
  refine (repeating_yields hrows).mono ?_
  rintro buf ⟨hbuf, hall⟩
  refine ⟨hbuf, ?_⟩
  intro other hother
  rw [hall other hother, hline]

theorem clampColumns_bounds (n : Int) :
    1 ≤ clampColumns n ∧ clampColumns n ≤ maxTerminalColumns := by
  unfold clampColumns maxTerminalColumns
  omega

theorem clampRows_bounds (n : Int) : 1 ≤ clampRows n ∧ clampRows n ≤ maxTerminalRows := by
  unfold clampRows maxTerminalRows
  omega

variable {row : Int}

theorem resizedLine_yields (source : Buffer) (hcolumns : 0 ≤ columns) (hrow : 0 ≤ row) :
    Yields (resizedLine source columns row) fun line => (line.length : Int) = columns := by
  rw [resizedLine]
  split
  swap
  · exact (repeating_yields hcolumns).mono fun line h => h.1
  rename_i hinside
  refine (read_yields hrow hinside).bind ?_
  intro line _
  split
  · rename_i hshort
    refine (repeating_yields (by omega)).bind ?_
    rintro blanks ⟨hblanks, -⟩
    refine .pure ?_
    rw [List.length_append]
    omega
  split
  · rename_i hlong
    refine (removeLast_yields (by omega) (by omega)).mono ?_
    intro line h
    omega
  · exact .pure (by omega)

theorem resized_yields (source : Buffer) (hcolumns : 0 ≤ columns) (hrows : 0 ≤ rows) :
    Yields (resized source columns rows) (Sized columns rows) := by
  refine (range_yields hrows).bind ?_
  rintro positions ⟨hlength, hbounds⟩
  have hlines : ∀ row ∈ positions,
      Yields (resizedLine source columns row) fun line => (line.length : Int) = columns :=
    fun row hrow => resizedLine_yields source hcolumns (hbounds row hrow).1
  refine (Yields.mapM hlines).mono ?_
  rintro buf ⟨hbuf, hall⟩
  refine ⟨?_, hall⟩
  rw [hbuf, hlength, Int.sub_zero]

theorem resizeAlternate_yields (alternate : Option Buffer) (hcolumns : 0 ≤ columns)
    (hrows : 0 ≤ rows) :
    Yields (resizeAlternate alternate columns rows) fun alternate =>
      ∀ buf, alternate = some buf → Sized columns rows buf := by
  rcases alternate with - | alt
  · refine .pure ?_
    intro buf h
    cases h
  · refine (resized_yields alt hcolumns hrows).bind ?_
    intro alt halt
    refine .pure ?_
    rintro buf ⟨⟩
    exact halt

def initDimensions (columns rows : Int) : Dimensions :=
  ⟨clampColumns columns, clampRows rows, 10000⟩

theorem init_wellFormed (columns rows : Int) :
    Yields (TerminalGrid.init columns rows) (WellFormed (initDimensions columns rows)) := by
  have hcolumns := clampColumns_bounds columns
  have hrows := clampRows_bounds rows
  refine (blankBuffer_yields (by omega) (by omega)).bind ?_
  intro primary hprimary
  refine .pure ⟨⟨rfl, rfl, rfl⟩, hcolumns, hrows, hprimary, ?_, ?_, ?_, ?_, ?_, ?_⟩
  · intro buf h
    cases h
  · exact ⟨Int.le_refl 0, hcolumns.1⟩
  · exact ⟨Int.le_refl 0, hrows.1⟩
  · refine ⟨Int.le_refl 0, ?_, ?_⟩
    · show 0 ≤ clampRows rows - 1
      omega
    · show clampRows rows - 1 < clampRows rows
      omega
  · exact ⟨Int.le_refl 0, Int.le_refl 0⟩
  · show (0 : Int) ≤ 10000
    omega

theorem WellFormed.reset (h : WellFormed size grid) : Yields (reset grid) (WellFormed size) := by
  have hcolumns : max grid.columns 1 = grid.columns := max_eq_left h.columns.1
  have hrows : max grid.rows 1 = grid.rows := max_eq_left h.rows.1
  have hlimit := h.scrollback
  rw [TerminalGrids.reset, hcolumns, hrows]
  refine (blankBuffer_yields (by have := h.columns; omega) (by have := h.rows; omega)).bind ?_
  intro primary hprimary
  refine .pure ⟨h.dimensions, h.columns, h.rows, hprimary, ?_, ?_, ?_, ?_, ?_, ?_⟩
  · intro buf h
    cases h
  · exact ⟨Int.le_refl 0, h.columns.1⟩
  · exact ⟨Int.le_refl 0, h.rows.1⟩
  · refine ⟨Int.le_refl 0, ?_, ?_⟩
    · exact Int.sub_nonneg.mpr h.rows.1
    · exact Int.sub_one_lt_of_le (Int.le_refl _)
  · exact ⟨Int.le_refl 0, Int.le_refl 0⟩
  · show (0 : Int) ≤ grid.maxScrollbackLines
    omega

theorem reset_eq_init {columns rows : Int} (h : WellFormed (initDimensions columns rows) grid) :
    reset grid = TerminalGrid.init columns rows := by
  obtain ⟨hcolumns, hrows, hlimit⟩ := h.dimensions
  have hcolumns' : max grid.columns 1 = clampColumns columns :=
    (max_eq_left h.columns.1).trans hcolumns
  have hrows' : max grid.rows 1 = clampRows rows := (max_eq_left h.rows.1).trans hrows
  have hlimit' : grid.maxScrollbackLines = 10000 := hlimit
  rw [reset, TerminalGrid.init, hcolumns', hrows', hlimit']

theorem WellFormed.resize (h : WellFormed size grid) (newColumns newRows : Int) :
    Yields (resize grid newColumns newRows)
      (WellFormed ⟨clampColumns newColumns, clampRows newRows, size.maxScrollbackLines⟩) := by
  have hcolumns := clampColumns_bounds newColumns
  have hrows := clampRows_bounds newRows
  have hcursorColumn := h.cursorColumn
  have hcursorRow := h.cursorRow
  have hregion := h.scrollRegion
  refine (resized_yields grid.primary (by omega) (by omega)).bind ?_
  intro primary hprimary
  refine (resizeAlternate_yields grid.alternate (by omega) (by omega)).bind ?_
  intro alternate halternate
  refine .pure ⟨⟨rfl, rfl, h.dimensions.2.2⟩, hcolumns, hrows, hprimary, halternate, ?_, ?_, ?_,
    h.savedCursor, h.scrollback⟩
  · show 0 ≤ min _ _ ∧ min _ _ < clampColumns newColumns
    omega
  · show 0 ≤ min _ _ ∧ min _ _ < clampRows newRows
    omega
  · show 0 ≤ min _ _ ∧ min _ _ ≤ clampRows newRows - 1 ∧ clampRows newRows - 1 < clampRows newRows
    omega

/-! ### The active buffer -/

/-- What drawing leaves of a screen: only the buffers are others. -/
def Redrawn (grid grid' : TerminalGrid) : Prop :=
  ∃ primary alternate, grid' = { grid with primary := primary, alternate := alternate }

theorem Redrawn.refl (grid : TerminalGrid) : Redrawn grid grid := ⟨_, _, rfl⟩

theorem Redrawn.trans {grid' grid'' : TerminalGrid} (h : Redrawn grid grid')
    (h' : Redrawn grid' grid'') : Redrawn grid grid'' := by
  obtain ⟨_, _, rfl⟩ := h
  obtain ⟨primary, alternate, rfl⟩ := h'
  exact ⟨primary, alternate, rfl⟩

theorem WellFormed.alternateBuffer (h : WellFormed size grid) :
    Yields (alternateBuffer grid) (Sized grid.columns grid.rows) := by
  rw [TerminalGrids.alternateBuffer]
  split
  · rename_i alternate halternate
    exact .pure (h.alternate alternate halternate)
  · have hcolumns := h.columns
    have hrows := h.rows
    exact blankBuffer_yields (by omega) (by omega)

theorem WellFormed.withActiveBuffer (h : WellFormed size grid) {β : Type} (post : β → Prop)
    {body : Buffer → Option (Buffer × β)}
    (hbody : ∀ buf, Sized grid.columns grid.rows buf → Yields (body buf) fun changed =>
      Sized grid.columns grid.rows changed.1 ∧ post changed.2) :
    Yields (withActiveBuffer grid body) fun changed =>
      WellFormed size changed.1 ∧ Redrawn grid changed.1 ∧ post changed.2 := by
  rw [TerminalGrids.withActiveBuffer]
  split
  · refine h.alternateBuffer.bind ?_
    intro alternate halternate
    refine (hbody alternate halternate).bind ?_
    rintro changed ⟨hsized, hpost⟩
    refine .pure ⟨{ h with alternate := ?_ }, ⟨_, _, rfl⟩, hpost⟩
    rintro buf ⟨⟩
    exact hsized
  · refine (hbody grid.primary h.primary).bind ?_
    rintro changed ⟨hsized, hpost⟩
    exact .pure ⟨{ h with primary := hsized }, ⟨_, _, rfl⟩, hpost⟩

theorem changeRow_yields {change : Line → Option Line} {buf : Buffer}
    (hsized : Sized columns rows buf) (hlo : 0 ≤ row) (hhi : row < rows)
    (hchange : ∀ line : Line, (line.length : Int) = columns →
      Yields (change line) fun line => (line.length : Int) = columns) :
    Yields (changeRow row change buf) fun changed => Sized columns rows changed.1 ∧ True := by
  have hinside : row < buf.length := by
    rw [hsized.rows]
    exact hhi
  refine (read_yields hlo hinside).bind ?_
  intro line hline
  refine (hchange line (hsized.columns line hline)).bind ?_
  intro line hline
  refine (write_yields hlo hinside).bind ?_
  rintro buf' ⟨hlength, hall⟩
  refine .pure ⟨⟨?_, ?_⟩, trivial⟩
  · rw [hlength, hsized.rows]
  · intro other hother
    rcases hall other hother with hold | rfl
    · exact hsized.columns other hold
    · exact hline

section

variable (h : WellFormed size grid)

include h

theorem WellFormed.changeRow {change : Line → Option Line} (hlo : 0 ≤ row) (hhi : row < grid.rows)
    (hchange : ∀ line : Line, (line.length : Int) = grid.columns →
      Yields (change line) fun line => (line.length : Int) = grid.columns) :
    Yields (do
        let changed ← TerminalGrids.withActiveBuffer grid (changeRow row change)
        some changed.1) fun grid' => WellFormed size grid' ∧ Redrawn grid grid' := by
  refine (h.withActiveBuffer (fun _ => True) fun buf hbuf =>
    changeRow_yields hbuf hlo hhi hchange).bind ?_
  rintro changed ⟨hwell, hredrawn, -⟩
  exact .pure ⟨hwell, hredrawn⟩

theorem WellFormed.setCell {column : Int} (cell : TerminalCell) (hrow : 0 ≤ row ∧ row < grid.rows)
    (hcolumn : 0 ≤ column ∧ column < grid.columns) :
    Yields (setCell grid row column cell) fun grid' =>
      WellFormed size grid' ∧ Redrawn grid grid' := by
  refine h.changeRow hrow.1 hrow.2 ?_
  intro line hline
  refine (write_yields hcolumn.1 (by omega)).mono ?_
  rintro line' ⟨hlength, -⟩
  rw [hlength, hline]

theorem WellFormed.insertBlanks (count : Int) :
    Yields (insertBlanks grid count) (WellFormed size) := by
  have hcolumn := h.cursorColumn
  unfold TerminalGrids.insertBlanks
  simp only
  split
  swap
  · exact .pure h
  rename_i hn
  refine (h.changeRow h.cursorRow.1 h.cursorRow.2 ?_).mono fun grid' hgrid' => hgrid'.1
  intro line hline
  refine (repeating_yields (by omega)).bind ?_
  rintro blanks ⟨hblanks, -⟩
  refine (insertAt_yields hcolumn.1 (by omega)).bind ?_
  rintro line' ⟨hlength, -⟩
  split
  · rename_i hlong
    refine (removeLast_yields (by omega) (by omega)).mono ?_
    intro line'' hline''
    omega
  · exact .pure (by omega)

theorem WellFormed.fillRow (row count : Int) {start : Int} (hstart : 0 ≤ start) :
    Yields (fillRow grid row start count) fun grid' =>
      WellFormed size grid' ∧ Redrawn grid grid' := by
  unfold TerminalGrids.fillRow
  simp only
  split
  swap
  · exact .pure ⟨h, .refl grid⟩
  rename_i hrow
  split
  swap
  · exact .pure ⟨h, .refl grid⟩
  rename_i hstop
  refine (range_yields (Int.le_of_lt hstop)).bind ?_
  rintro positions ⟨-, hbounds⟩
  refine Yields.foldlM ?_ ⟨h, .refl grid⟩
  rintro grid' col hcol ⟨hwell, hredrawn⟩
  have hposition := hbounds col hcol
  have hframe := hredrawn
  obtain ⟨_, _, rfl⟩ := hframe
  refine (hwell.setCell _ hrow ⟨by omega, ?_⟩).mono ?_
  · show col < grid.columns
    omega
  · rintro grid'' ⟨hwell', hredrawn'⟩
    exact ⟨hwell', hredrawn.trans hredrawn'⟩

theorem WellFormed.fillRows {lo hi : Int} (hle : lo ≤ hi) :
    Yields (fillRows grid lo hi) fun grid' => WellFormed size grid' ∧ Redrawn grid grid' := by
  refine (range_yields hle).bind ?_
  rintro positions -
  refine Yields.foldlM ?_ ⟨h, .refl grid⟩
  rintro grid' row - ⟨hwell, hredrawn⟩
  refine (hwell.fillRow row _ (Int.le_refl 0)).mono ?_
  rintro grid'' ⟨hwell', hredrawn'⟩
  exact ⟨hwell', hredrawn.trans hredrawn'⟩

theorem rotateRow_yields {removed inserted : Int} {buf : Buffer}
    (hsized : Sized grid.columns grid.rows buf) (hremoved : 0 ≤ removed ∧ removed < grid.rows)
    (hinserted : 0 ≤ inserted ∧ inserted < grid.rows) :
    Yields (rotateRow grid removed inserted buf) fun rotated =>
      Sized grid.columns grid.rows rotated.2 := by
  have hrows := hsized.rows
  refine (removeAt_yields hremoved.1 (by omega)).bind ?_
  rintro rest ⟨hlength, -, hrest⟩
  refine (repeating_yields (by have := h.columns; omega)).bind ?_
  rintro blank ⟨hblank, -⟩
  refine (insertAt_yields hinserted.1 (by omega)).bind ?_
  rintro buf' ⟨hlength', hall⟩
  refine .pure ⟨?_, ?_⟩
  · rw [hlength', List.length_singleton]
    omega
  · intro line hline
    rcases hall line hline with hold | hnew
    · exact hsized.columns line (hrest line hold)
    · rw [List.mem_singleton.mp hnew]
      exact hblank

theorem WellFormed.rotateRows {n removed inserted : Int} (hn : 0 ≤ n)
    (hremoved : 0 ≤ removed ∧ removed < grid.rows) (hinserted : 0 ≤ inserted ∧ inserted < grid.rows) :
    Yields (do
        let changed ← TerminalGrids.withActiveBuffer grid (rotateRows grid n removed inserted)
        some changed.1) (WellFormed size) := by
  refine (h.withActiveBuffer (fun _ => True) ?_).bind ?_
  · intro buf hbuf
    refine (range_yields hn).bind ?_
    rintro positions -
    refine Yields.bind (Yields.foldlM ?_ hbuf) ?_
    · intro buf _ _ hbuf
      refine (rotateRow_yields h hbuf hremoved hinserted).bind ?_
      intro rotated hrotated
      exact .pure hrotated
    · intro buf hbuf
      exact .pure ⟨hbuf, trivial⟩
  · rintro changed ⟨hwell, -, -⟩
    exact .pure hwell

/-! ### The cursor -/

theorem WellFormed.placed {column : Int} (hcolumn : 0 ≤ column ∧ column < grid.columns)
    (hrow : 0 ≤ row ∧ row < grid.rows) (wrap : Bool) :
    WellFormed size { grid with cursorColumn := column, cursorRow := row, pendingWrap := wrap } :=
  { h with cursorColumn := hcolumn, cursorRow := hrow }

theorem WellFormed.origin :
    0 ≤ originTop grid ∧ originTop grid ≤ originBottom grid ∧
      originBottom grid < grid.rows := by
  have hregion := h.scrollRegion
  have hrows := h.rows
  unfold originTop originBottom
  split
  · exact hregion
  · omega

theorem WellFormed.carriageReturn :
    WellFormed size (carriageReturn grid) :=
  h.placed ⟨Int.le_refl 0, h.columns.1⟩ h.cursorRow false

theorem WellFormed.backspace : WellFormed size (backspace grid) := by
  have hcolumns := h.columns
  have hcolumn := h.cursorColumn
  have hrow := h.cursorRow
  have horigin := h.origin
  unfold TerminalGrids.backspace
  simp only
  split
  · exact h.placed (by omega) hrow false
  split
  · rename_i hbelow
    have hbelow : originTop grid < grid.cursorRow := hbelow
    exact h.placed (by omega) (by omega) false
  · exact h.placed hcolumn hrow false

theorem WellFormed.tab : WellFormed size (tab grid) := by
  have hcolumn := h.cursorColumn
  have hnext : 0 ≤ grid.cursorColumn.tdiv 8 := Int.tdiv_nonneg hcolumn.1 (by omega)
  exact h.placed (by omega) h.cursorRow false

theorem WellFormed.saveCursor : WellFormed size (saveCursor grid) :=
  { h with savedCursor := ⟨h.cursorColumn.1, h.cursorRow.1⟩ }

theorem WellFormed.restoreCursor :
    WellFormed size (restoreCursor grid) := by
  have hcolumns := h.columns
  have hrows := h.rows
  have hsaved := h.savedCursor
  refine { h with cursorColumn := ?_, cursorRow := ?_ }
  · show 0 ≤ min _ _ ∧ min _ _ < grid.columns
    omega
  · show 0 ≤ min _ _ ∧ min _ _ < grid.rows
    omega

theorem WellFormed.moveCursor (row column : Int) :
    WellFormed size (moveCursor grid row column) := by
  have hcolumns := h.columns
  have horigin := h.origin
  unfold originTop originBottom at horigin
  unfold TerminalGrids.moveCursor
  exact h.placed (by omega) (by omega) false

theorem WellFormed.moveRelative (dRow dCol : Int) :
    WellFormed size (moveRelative grid dRow dCol) := by
  have hcolumns := h.columns
  have horigin := h.origin
  exact h.placed (by omega) (by omega) false

theorem WellFormed.setCursorColumn (column : Int) :
    WellFormed size (setCursorColumn grid column) := by
  have hcolumns := h.columns
  exact h.placed (by omega) h.cursorRow false

theorem WellFormed.setCursorRow (row : Int) :
    WellFormed size (setCursorRow grid row) := by
  have horigin := h.origin
  exact h.placed h.cursorColumn (by omega) false

theorem WellFormed.setScrollRegion (top bottom : Int) :
    WellFormed size (setScrollRegion grid top bottom) := by
  have hrows := h.rows
  refine WellFormed.moveCursor ?_ 0 0
  refine { h with scrollRegion := ?_ }
  show 0 ≤ min _ _ ∧ min _ _ ≤ min _ _ ∧ min _ _ < grid.rows
  omega

/-! ### Erasing, inserting, deleting -/

theorem WellFormed.eraseInDisplay (mode : Int) :
    Yields (eraseInDisplay grid mode) (WellFormed size) := by
  have hcolumn := h.cursorColumn
  have hrow := h.cursorRow
  rw [TerminalGrids.eraseInDisplay]
  split
  · refine (h.fillRows hrow.1).bind ?_
    rintro grid' ⟨hwell, -⟩
    exact (hwell.fillRow _ _ (Int.le_refl 0)).mono fun grid'' hgrid'' => hgrid''.1
  split
  · exact (h.fillRows (by have := h.rows; omega)).mono fun grid' hgrid' => hgrid'.1
  · refine (h.fillRow _ _ hcolumn.1).bind ?_
    rintro grid' ⟨hwell, -⟩
    split
    · rename_i hbelow
      exact (hwell.fillRows (Int.le_of_lt hbelow)).mono fun grid'' hgrid'' => hgrid''.1
    · exact .pure hwell

theorem WellFormed.eraseInLine (mode : Int) :
    Yields (eraseInLine grid mode) (WellFormed size) := by
  rw [TerminalGrids.eraseInLine]
  split
  · exact (h.fillRow _ _ (Int.le_refl 0)).mono fun grid' hgrid' => hgrid'.1
  split
  · exact (h.fillRow _ _ (Int.le_refl 0)).mono fun grid' hgrid' => hgrid'.1
  · exact (h.fillRow _ _ h.cursorColumn.1).mono fun grid' hgrid' => hgrid'.1

theorem WellFormed.eraseCharacters (count : Int) :
    Yields (eraseCharacters grid count) (WellFormed size) :=
  (h.fillRow _ _ h.cursorColumn.1).mono fun _ hgrid' => hgrid'.1

theorem WellFormed.deleteCharacters (count : Int) :
    Yields (deleteCharacters grid count) (WellFormed size) := by
  have hcolumn := h.cursorColumn
  unfold TerminalGrids.deleteCharacters
  simp only
  split
  swap
  · exact .pure h
  rename_i hn
  refine (h.changeRow h.cursorRow.1 h.cursorRow.2 ?_).mono fun grid' hgrid' => hgrid'.1
  intro line hline
  refine (removeSubrange_yields hcolumn.1 (by omega) (by omega)).bind ?_
  intro line' hlength
  refine (repeating_yields (by omega)).bind ?_
  rintro blanks ⟨hblanks, -⟩
  refine .pure ?_
  rw [List.length_append]
  omega

theorem WellFormed.insertLines (count : Int) :
    Yields (insertLines grid count) (WellFormed size) := by
  have hregion := h.scrollRegion
  unfold TerminalGrids.insertLines
  simp only
  split
  swap
  · exact .pure h
  split
  swap
  · exact .pure h
  rename_i hn
  exact h.rotateRows (Int.le_of_lt hn) (by omega) h.cursorRow

theorem WellFormed.deleteLines (count : Int) :
    Yields (deleteLines grid count) (WellFormed size) := by
  have hregion := h.scrollRegion
  unfold TerminalGrids.deleteLines
  simp only
  split
  swap
  · exact .pure h
  split
  swap
  · exact .pure h
  rename_i hn
  exact h.rotateRows (Int.le_of_lt hn) h.cursorRow (by omega)

theorem WellFormed.scrollDown (count : Int) :
    Yields (scrollDown grid count) (WellFormed size) := by
  have hregion := h.scrollRegion
  exact h.rotateRows (by omega) (by omega) (by omega)

end

theorem appendScrollback_yields {limit : Int} {scrollback : Buffer} (removed : Line)
    (h : (scrollback.length : Int) ≤ limit) :
    Yields (appendScrollback limit scrollback removed) fun scrollback =>
      (scrollback.length : Int) ≤ limit := by
  have hlength : (scrollback ++ [removed]).length = scrollback.length + 1 :=
    List.length_append
  unfold appendScrollback
  simp only
  split
  · refine (removeFirst_yields (by omega) (by omega)).mono ?_
    intro scrollback' hscrollback'
    omega
  · rename_i hfits
    exact .pure (Int.not_lt.mp hfits)

variable (h : WellFormed size grid)

include h

theorem WellFormed.scrollUp (count : Int) :
    Yields (scrollUp grid count) (WellFormed size) := by
  have hregion := h.scrollRegion
  refine (h.withActiveBuffer
    (fun scrollback => (scrollback.length : Int) ≤ grid.maxScrollbackLines) ?_).bind ?_
  · intro buf hbuf
    refine (range_yields (by omega)).bind ?_
    rintro positions -
    refine Yields.foldlM ?_ ⟨hbuf, h.scrollback⟩
    rintro state - - ⟨hsized, hscrollback⟩
    refine (rotateRow_yields h hsized (by omega) (by omega)).bind ?_
    intro rotated hrotated
    split
    · exact .pure ⟨hrotated, hscrollback⟩
    · refine (appendScrollback_yields rotated.1 hscrollback).bind ?_
      intro scrollback hscrollback'
      exact .pure ⟨hrotated, hscrollback'⟩
  · rintro changed ⟨hwell, hredrawn, hscrollback⟩
    refine .pure { hwell with scrollback := ?_ }
    obtain ⟨_, _, hredrawn⟩ := hredrawn
    rw [hredrawn]
    exact hscrollback

theorem WellFormed.lineFeed :
    Yields (lineFeed grid) (WellFormed size) := by
  have hcleared : WellFormed size { grid with pendingWrap := false } := { h with }
  unfold TerminalGrids.lineFeed
  simp only
  split
  · exact hcleared.scrollUp 1
  split
  · rename_i hbelow
    have hrow := h.cursorRow
    exact .pure (h.placed h.cursorColumn (by omega) false)
  · exact .pure hcleared

theorem WellFormed.reverseIndex :
    Yields (reverseIndex grid) (WellFormed size) := by
  have hcleared : WellFormed size { grid with pendingWrap := false } := { h with }
  unfold TerminalGrids.reverseIndex
  simp only
  split
  · exact hcleared.scrollDown 1
  split
  · rename_i habove
    have hrow := h.cursorRow
    exact .pure (h.placed h.cursorColumn (by omega) false)
  · exact .pure hcleared

theorem WellFormed.nextLine :
    Yields (nextLine grid) (WellFormed size) :=
  h.carriageReturn.lineFeed

theorem WellFormed.setAlternateScreen (enabled : Bool) :
    Yields (setAlternateScreen grid enabled) (WellFormed size) := by
  rw [TerminalGrids.setAlternateScreen]
  split
  · refine h.alternateBuffer.bind ?_
    intro alternate halternate
    refine .pure { h with alternate := ?_ }
    rintro buf ⟨⟩
    exact halternate
  · exact .pure { h with }

theorem WellFormed.wrapPending :
    Yields (wrapPending grid) (WellFormed size) := by
  rw [TerminalGrids.wrapPending]
  split
  · refine h.carriageReturn.lineFeed.bind ?_
    intro grid' hwell
    exact .pure { hwell with }
  · exact .pure h

theorem WellFormed.put (scalar : Char) :
    Yields (put grid scalar) (WellFormed size) := by
  rw [TerminalGrids.put]
  split
  · exact .pure h
  refine h.wrapPending.bind ?_
  intro wrapped hwrapped
  have hblank : Yields (if wrapped.insertMode then TerminalGrids.insertBlanks wrapped 1
      else some wrapped) (WellFormed size) := by
    split
    · exact hwrapped.insertBlanks 1
    · exact .pure hwrapped
  refine hblank.bind ?_
  intro opened hopened
  refine (hopened.setCell _ hopened.cursorRow hopened.cursorColumn).bind ?_
  rintro drawn ⟨hdrawn, -⟩
  have hcolumn := hdrawn.cursorColumn
  split
  · exact .pure { hdrawn with }
  · exact .pure (hdrawn.placed (by omega) hdrawn.cursorRow false)

end Srui.Client.TerminalGrids
