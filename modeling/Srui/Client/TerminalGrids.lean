import Srui.Basic.CheckedArrays

/-!
The screen of a terminal: its buffers, cursor, scroll region and modes.

An operation that touches an array is none where the source traps. `Int` is unbounded:
parameters of the parser end at 9999, so no sum here reaches the end of the range.
-/

namespace Srui.Client.TerminalGrids

open Basic.CheckedArrays

def maxTerminalColumns : Int := 512

def maxTerminalRows : Int := 512

inductive TerminalColor where
  | defaultForeground
  | defaultBackground
  | indexed (index : UInt8)
  | rgb (red green blue : UInt8)
deriving DecidableEq, Repr

structure TerminalAttributes where
  bold : Bool := false
  faint : Bool := false
  italic : Bool := false
  underline : Bool := false
  inverse : Bool := false
  strikethrough : Bool := false
  blink : Bool := false
  foreground : TerminalColor := .defaultForeground
  background : TerminalColor := .defaultBackground
  hyperlink : Option String := none
deriving DecidableEq, Repr

structure TerminalCell where
  character : Char := ' '
  attributes : TerminalAttributes := {}
deriving DecidableEq, Repr

/-- `TerminalCell.empty`. -/
def emptyCell : TerminalCell := {}

abbrev Line := List TerminalCell

abbrev Buffer := List Line

/-- `primary` and `alternate` are the two screens; `scrollback` keeps the rows that left
`primary`. -/
structure TerminalGrid where
  columns : Int
  rows : Int
  cursorColumn : Int := 0
  cursorRow : Int := 0
  cursorVisible : Bool := true
  wraparound : Bool := true
  insertMode : Bool := false
  originMode : Bool := false
  applicationCursorKeys : Bool := false
  bracketedPaste : Bool := false
  title : String := ""
  currentAttributes : TerminalAttributes := {}
  pendingHyperlink : Option String := none
  primary : Buffer
  scrollback : Buffer := []
  maxScrollbackLines : Int := 10000
  alternate : Option Buffer := none
  usingAlternate : Bool := false
  savedCursorColumn : Int := 0
  savedCursorRow : Int := 0
  savedAttributes : TerminalAttributes := {}
  scrollTop : Int := 0
  scrollBottom : Int
  pendingWrap : Bool := false
deriving DecidableEq, Repr

def blankBuffer (columns rows : Int) : Option Buffer := do
  let line ← repeating emptyCell columns
  repeating line rows

def clampColumns (columns : Int) : Int := max 1 (min columns maxTerminalColumns)

def clampRows (rows : Int) : Int := max 1 (min rows maxTerminalRows)

/-- `TerminalGrid.init`, with both dimensions clamped. -/
def TerminalGrid.init (columns rows : Int) : Option TerminalGrid := do
  let cols := clampColumns columns
  let rws := clampRows rows
  let primary ← blankBuffer cols rws
  some { columns := cols, rows := rws, primary := primary, scrollBottom := rws - 1 }

/-- Modes, cursor and both screens as on a new grid; only the dimensions and the bound stay. -/
def reset (grid : TerminalGrid) : Option TerminalGrid := do
  let columns := max grid.columns 1
  let rows := max grid.rows 1
  let primary ← blankBuffer columns rows
  some {
    columns := columns
    rows := rows
    primary := primary
    maxScrollbackLines := grid.maxScrollbackLines
    scrollBottom := rows - 1 }

/-- A row that the old buffer lacks is blank; one that it has is padded or cut. -/
def resizedLine (source : Buffer) (columns row : Int) : Option Line :=
  if row < source.length then do
    let line ← read source row
    if line.length < columns then do
      let blanks ← repeating emptyCell (columns - line.length)
      some (line ++ blanks)
    else if columns < line.length then removeLast line (line.length - columns)
    else some line
  else repeating emptyCell columns

def resized (source : Buffer) (columns rows : Int) : Option Buffer := do
  let positions ← range 0 rows
  positions.mapM (resizedLine source columns)

def resizeAlternate (alternate : Option Buffer) (columns rows : Int) : Option (Option Buffer) :=
  match alternate with
  | some alt => do
    let alt ← resized alt columns rows
    some (some alt)
  | none => some none

/-- The scroll region keeps its top and ends in the last row. -/
def resize (grid : TerminalGrid) (newColumns newRows : Int) : Option TerminalGrid := do
  let cols := clampColumns newColumns
  let rws := clampRows newRows
  let primary ← resized grid.primary cols rws
  let alternate ← resizeAlternate grid.alternate cols rws
  some { grid with
    primary := primary
    alternate := alternate
    columns := cols
    rows := rws
    scrollTop := min grid.scrollTop (rws - 1)
    scrollBottom := rws - 1
    cursorColumn := min grid.cursorColumn (cols - 1)
    cursorRow := min grid.cursorRow (rws - 1)
    pendingWrap := false }

/-! ### Access to the active buffer -/

/-- Erased cells carry the current attributes. -/
def blankCell (grid : TerminalGrid) : TerminalCell := ⟨' ', grid.currentAttributes⟩

/-- The first row that the cursor may reach. -/
def originTop (grid : TerminalGrid) : Int := if grid.originMode then grid.scrollTop else 0

/-- The last row that the cursor may reach. -/
def originBottom (grid : TerminalGrid) : Int :=
  if grid.originMode then grid.scrollBottom else grid.rows - 1

/-- The alternate screen, made on first use. -/
def alternateBuffer (grid : TerminalGrid) : Option Buffer :=
  match grid.alternate with
  | some alternate => some alternate
  | none => blankBuffer grid.columns grid.rows

/-- `body` changes the screen that is shown and leaves the other alone. -/
def withActiveBuffer {β : Type} (grid : TerminalGrid) (body : Buffer → Option (Buffer × β)) :
    Option (TerminalGrid × β) :=
  if grid.usingAlternate then do
    let alternate ← alternateBuffer grid
    let changed ← body alternate
    some ({ grid with alternate := some changed.1 }, changed.2)
  else do
    let changed ← body grid.primary
    some ({ grid with primary := changed.1 }, changed.2)

def changeRow (row : Int) (change : Line → Option Line) (buf : Buffer) :
    Option (Buffer × Unit) := do
  let line ← read buf row
  let line ← change line
  let buf ← write buf row line
  some (buf, ())

def setCell (grid : TerminalGrid) (row column : Int) (cell : TerminalCell) :
    Option TerminalGrid := do
  let changed ← withActiveBuffer grid (changeRow row fun line => write line column cell)
  some changed.1

/-- What is pushed past the end of the row is cut off. -/
def insertBlanks (grid : TerminalGrid) (count : Int) : Option TerminalGrid :=
  let n := min (max count 0) (grid.columns - grid.cursorColumn)
  if 0 < n then do
    let changed ← withActiveBuffer grid <| changeRow grid.cursorRow fun line => do
      let blanks ← repeating (blankCell grid) n
      let line ← insertAt line blanks grid.cursorColumn
      if grid.columns < line.length then removeLast line (line.length - grid.columns)
      else some line
    some changed.1
  else some grid

/-- Cells outside the row are left out rather than trapped on. -/
def fillRow (grid : TerminalGrid) (row start count : Int) : Option TerminalGrid :=
  if 0 ≤ row ∧ row < grid.rows then
    let stop := min grid.columns (start + max count 0)
    if start < stop then do
      let positions ← range start stop
      positions.foldlM (fun grid col => setCell grid row col (blankCell grid)) grid
    else some grid
  else some grid

/-! ### The cursor -/

def carriageReturn (grid : TerminalGrid) : TerminalGrid :=
  { grid with pendingWrap := false, cursorColumn := 0 }

/-- At the first column the cursor goes back to the end of the row above. -/
def backspace (grid : TerminalGrid) : TerminalGrid :=
  let grid := { grid with pendingWrap := false }
  if 0 < grid.cursorColumn then { grid with cursorColumn := grid.cursorColumn - 1 }
  else if originTop grid < grid.cursorRow then
    { grid with cursorRow := grid.cursorRow - 1, cursorColumn := grid.columns - 1 }
  else grid

/-- Tab stops are eight columns apart. -/
def tab (grid : TerminalGrid) : TerminalGrid :=
  let next := (grid.cursorColumn.tdiv 8 + 1) * 8
  { grid with pendingWrap := false, cursorColumn := min next (grid.columns - 1) }

def saveCursor (grid : TerminalGrid) : TerminalGrid :=
  { grid with
    savedCursorColumn := grid.cursorColumn
    savedCursorRow := grid.cursorRow
    savedAttributes := grid.currentAttributes }

def restoreCursor (grid : TerminalGrid) : TerminalGrid :=
  { grid with
    cursorColumn := min grid.savedCursorColumn (grid.columns - 1)
    cursorRow := min grid.savedCursorRow (grid.rows - 1)
    currentAttributes := grid.savedAttributes
    pendingWrap := false }

/-- In origin mode rows count from the top of the scroll region. -/
def moveCursor (grid : TerminalGrid) (row column : Int) : TerminalGrid :=
  let top := if grid.originMode then grid.scrollTop else 0
  let bottom := if grid.originMode then grid.scrollBottom else grid.rows - 1
  { grid with
    pendingWrap := false
    cursorRow := min (max (top + max row 0) top) bottom
    cursorColumn := min (max column 0) (grid.columns - 1) }

def moveRelative (grid : TerminalGrid) (dRow dCol : Int) : TerminalGrid :=
  { grid with
    pendingWrap := false
    cursorRow := min (max (grid.cursorRow + dRow) (originTop grid)) (originBottom grid)
    cursorColumn := min (max (grid.cursorColumn + dCol) 0) (grid.columns - 1) }

def setCursorColumn (grid : TerminalGrid) (column : Int) : TerminalGrid :=
  { grid with pendingWrap := false, cursorColumn := min (max column 0) (grid.columns - 1) }

def setCursorRow (grid : TerminalGrid) (row : Int) : TerminalGrid :=
  { grid with
    pendingWrap := false
    cursorRow := min (max (originTop grid + max row 0) (originTop grid)) (originBottom grid) }

/-- The cursor goes home. -/
def setScrollRegion (grid : TerminalGrid) (top bottom : Int) : TerminalGrid :=
  let t := min (max top 0) (grid.rows - 1)
  let b := min (max bottom t) (grid.rows - 1)
  moveCursor { grid with scrollTop := t, scrollBottom := b } 0 0

/-! ### Erasing, inserting, deleting -/

def fillRows (grid : TerminalGrid) (lo hi : Int) : Option TerminalGrid := do
  let positions ← range lo hi
  positions.foldlM (fun grid row => fillRow grid row 0 grid.columns) grid

/-- Modes other than 1, 2 and 3 erase from the cursor on. -/
def eraseInDisplay (grid : TerminalGrid) (mode : Int) : Option TerminalGrid :=
  if mode = 1 then do
    let grid ← fillRows grid 0 grid.cursorRow
    fillRow grid grid.cursorRow 0 (grid.cursorColumn + 1)
  else if mode = 2 ∨ mode = 3 then fillRows grid 0 grid.rows
  else do
    let grid ← fillRow grid grid.cursorRow grid.cursorColumn (grid.columns - grid.cursorColumn)
    if grid.cursorRow + 1 < grid.rows then fillRows grid (grid.cursorRow + 1) grid.rows
    else some grid

/-- Modes other than 1 and 2 erase from the cursor on. -/
def eraseInLine (grid : TerminalGrid) (mode : Int) : Option TerminalGrid :=
  if mode = 1 then fillRow grid grid.cursorRow 0 (grid.cursorColumn + 1)
  else if mode = 2 then fillRow grid grid.cursorRow 0 grid.columns
  else fillRow grid grid.cursorRow grid.cursorColumn (grid.columns - grid.cursorColumn)

def eraseCharacters (grid : TerminalGrid) (count : Int) : Option TerminalGrid :=
  fillRow grid grid.cursorRow grid.cursorColumn (min count (grid.columns - grid.cursorColumn))

def insertCharacters (grid : TerminalGrid) (count : Int) : Option TerminalGrid :=
  insertBlanks grid count

/-- The row keeps its length: blanks come in at its end. -/
def deleteCharacters (grid : TerminalGrid) (count : Int) : Option TerminalGrid :=
  let row := grid.cursorRow
  let start := grid.cursorColumn
  let n := min (max count 0) (grid.columns - start)
  if 0 < n then do
    let changed ← withActiveBuffer grid <| changeRow row fun line => do
      let line ← removeSubrange line start (start + n)
      let blanks ← repeating (blankCell grid) n
      some (line ++ blanks)
    some changed.1
  else some grid

/-- Takes one row out and puts a blank one in; the row taken out is returned. -/
def rotateRow (grid : TerminalGrid) (removed inserted : Int) (buf : Buffer) :
    Option (Line × Buffer) := do
  let rest ← removeAt buf removed
  let blank ← repeating (blankCell grid) grid.columns
  let buf ← insertAt rest.2 [blank] inserted
  some (rest.1, buf)

/-- The rotation is made `n` times. -/
def rotateRows (grid : TerminalGrid) (n removed inserted : Int) (buf : Buffer) :
    Option (Buffer × Unit) := do
  let positions ← range 0 n
  let buf ← positions.foldlM (fun buf _ => do
    let rotated ← rotateRow grid removed inserted buf
    some rotated.2) buf
  some (buf, ())

/-- Outside the scroll region nothing happens. -/
def insertLines (grid : TerminalGrid) (count : Int) : Option TerminalGrid :=
  if grid.scrollTop ≤ grid.cursorRow ∧ grid.cursorRow ≤ grid.scrollBottom then
    let n := min (max count 0) (grid.scrollBottom - grid.cursorRow + 1)
    if 0 < n then do
      let changed ← withActiveBuffer grid (rotateRows grid n grid.scrollBottom grid.cursorRow)
      some changed.1
    else some grid
  else some grid

/-- Outside the scroll region nothing happens. -/
def deleteLines (grid : TerminalGrid) (count : Int) : Option TerminalGrid :=
  if grid.scrollTop ≤ grid.cursorRow ∧ grid.cursorRow ≤ grid.scrollBottom then
    let n := min (max count 0) (grid.scrollBottom - grid.cursorRow + 1)
    if 0 < n then do
      let changed ← withActiveBuffer grid (rotateRows grid n grid.cursorRow grid.scrollBottom)
      some changed.1
    else some grid
  else some grid

/-- The oldest rows go when there are too many. -/
def appendScrollback (maxScrollbackLines : Int) (scrollback : Buffer) (removed : Line) :
    Option Buffer :=
  let scrollback := scrollback ++ [removed]
  if maxScrollbackLines < scrollback.length then
    removeFirst scrollback (scrollback.length - maxScrollbackLines)
  else some scrollback

/-- One turn of the loop of `scrollUp`, on the buffer and the scrollback. -/
def scrollUpOnce (grid : TerminalGrid) (state : Buffer × Buffer) : Option (Buffer × Buffer) := do
  let rotated ← rotateRow grid grid.scrollTop grid.scrollBottom state.1
  if grid.usingAlternate then some (rotated.2, state.2)
  else do
    let scrollback ← appendScrollback grid.maxScrollbackLines state.2 rotated.1
    some (rotated.2, scrollback)

def scrollUp (grid : TerminalGrid) (count : Int) : Option TerminalGrid := do
  let n := min (max count 0) (grid.scrollBottom - grid.scrollTop + 1)
  let changed ← withActiveBuffer grid fun buf => do
    let positions ← range 0 n
    positions.foldlM (fun state _ => scrollUpOnce grid state) (buf, grid.scrollback)
  some { changed.1 with scrollback := changed.2 }

def scrollDown (grid : TerminalGrid) (count : Int) : Option TerminalGrid := do
  let n := min (max count 0) (grid.scrollBottom - grid.scrollTop + 1)
  let changed ← withActiveBuffer grid (rotateRows grid n grid.scrollBottom grid.scrollTop)
  some changed.1

/-- At the bottom of the scroll region the screen scrolls instead. -/
def lineFeed (grid : TerminalGrid) : Option TerminalGrid :=
  let grid := { grid with pendingWrap := false }
  if grid.cursorRow = grid.scrollBottom then scrollUp grid 1
  else if grid.cursorRow + 1 < grid.rows then some { grid with cursorRow := grid.cursorRow + 1 }
  else some grid

/-- At the top of the scroll region the screen scrolls instead. -/
def reverseIndex (grid : TerminalGrid) : Option TerminalGrid :=
  let grid := { grid with pendingWrap := false }
  if grid.cursorRow = grid.scrollTop then scrollDown grid 1
  else if 0 < grid.cursorRow then some { grid with cursorRow := grid.cursorRow - 1 }
  else some grid

def nextLine (grid : TerminalGrid) : Option TerminalGrid := lineFeed (carriageReturn grid)

/-- Neither screen is cleared. -/
def setAlternateScreen (grid : TerminalGrid) (enabled : Bool) : Option TerminalGrid :=
  if enabled then do
    let alternate ← alternateBuffer grid
    some { grid with alternate := some alternate, usingAlternate := true, pendingWrap := false }
  else some { grid with usingAlternate := false, pendingWrap := false }

/-- The wrap that the last column put off until the next character. -/
def wrapPending (grid : TerminalGrid) : Option TerminalGrid :=
  if grid.pendingWrap && grid.wraparound then do
    let grid ← lineFeed (carriageReturn grid)
    some { grid with pendingWrap := false }
  else some grid

/-- In the last column the cursor stays, and the wrap is put off. -/
def put (grid : TerminalGrid) (scalar : Char) : Option TerminalGrid :=
  if scalar = '\x7f' then some grid
  else do
    let grid ← wrapPending grid
    let attrs := { grid.currentAttributes with hyperlink := grid.pendingHyperlink }
    let grid ← (if grid.insertMode then insertBlanks grid 1 else some grid)
    let grid ← setCell grid grid.cursorRow grid.cursorColumn ⟨scalar, attrs⟩
    if grid.columns ≤ grid.cursorColumn + 1 then some { grid with pendingWrap := grid.wraparound }
    else some { grid with cursorColumn := grid.cursorColumn + 1, pendingWrap := false }

end Srui.Client.TerminalGrids
