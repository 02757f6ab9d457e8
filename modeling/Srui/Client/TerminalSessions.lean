import Srui.Client.VTParsers
import Srui.SemanticTree.Values

/-!
The terminals of a session: for each stream its parser and screen, and the offset of the
next byte.

The waiters that snapshots are handed to are left out, and so are the fields of a resync
that the code ignores. A call is none where the source traps.
-/

namespace Srui.Client.TerminalSessions

open Std Basic.Machine
open SemanticTree.Values (NodeId)
open Client.TerminalGrids Client.VTParsers

def maxTerminalOutputFrameBytes : Nat := 16384

def maxTerminalResumeMapEntries : Nat := 256

inductive TerminalApplyError where
  | emptyFrame
  | frameTooLarge (count : Nat)
  | offsetOverflow
  | tooManyStreams (count : Nat)
deriving DecidableEq, Repr

structure TerminalSnapshot where
  streamID : NodeId
  columns : Int
  rows : Int
  cursorColumn : Int
  cursorRow : Int
  cursorVisible : Bool
  cells : Buffer
  scrollback : Buffer
  title : String
  nextOffset : Nat
  needsRedraw : Bool
  bracketedPaste : Bool
  applicationCursorKeys : Bool
deriving DecidableEq, Repr

structure StreamState where
  grid : TerminalGrid
  parser : VTParser
  nextOffset : Nat
  needsRedraw : Bool
deriving DecidableEq, Repr

structure TerminalSession where
  streams : ExtTreeMap NodeId StreamState := ∅

/-- `TerminalGrid.cells`. -/
def cells (grid : TerminalGrid) : Buffer :=
  if grid.usingAlternate then grid.alternate.getD grid.primary else grid.primary

/-- `TerminalGrid.snapshot` of a stream. -/
def snapshot (streamID : NodeId) (state : StreamState) : TerminalSnapshot where
  streamID := streamID
  columns := state.grid.columns
  rows := state.grid.rows
  cursorColumn := state.grid.cursorColumn
  cursorRow := state.grid.cursorRow
  cursorVisible := state.grid.cursorVisible
  cells := cells state.grid
  scrollback := state.grid.scrollback
  title := state.grid.title
  nextOffset := state.nextOffset
  needsRedraw := state.needsRedraw
  bracketedPaste := state.grid.bracketedPaste
  applicationCursorKeys := state.grid.applicationCursorKeys

/-- The check of `admit`. -/
def checkRoom (session : TerminalSession) (streamID : NodeId) : Except TerminalApplyError Unit :=
  if session.streams[streamID]?.isSome ∨ session.streams.size < maxTerminalResumeMapEntries then
    .ok ()
  else .error (.tooManyStreams session.streams.size)

def addOffsets (a b : Nat) : Except TerminalApplyError Nat :=
  match checkedAdd a b with
  | some result => .ok result
  | none => .error .offsetOverflow

def streamState (session : TerminalSession) (streamID : NodeId) : Option StreamState :=
  match session.streams[streamID]? with
  | some state => some state
  | none => do
    let grid ← TerminalGrid.init 80 24
    some ⟨grid, {}, 0, false⟩

/-- The parser is fed, and the next byte is the one at `stop`. -/
def feedState (state : StreamState) (data : Bytes) (stop : Nat) : Option StreamState := do
  let fed ← feed (state.parser, state.grid) data
  some { state with parser := fed.1, grid := fed.2, nextOffset := stop }

/-- The screen and the parser start again; the input modes belong to the remote
application and stay. -/
def resetKeepingModes (state : StreamState) : Option StreamState := do
  let grid ← reset state.grid
  some { state with
    grid := { grid with
      bracketedPaste := state.grid.bracketedPaste
      applicationCursorKeys := state.grid.applicationCursorKeys }
    parser := state.parser.reset
    needsRedraw := true }

/-- The four cases of `applyData`: exact, wholly old, overlapping, ahead. -/
def advance (state : StreamState) (byteOffset stop : Nat) (data : Bytes) : Option StreamState :=
  if byteOffset = state.nextOffset then feedState state data stop
  else if stop ≤ state.nextOffset then some state
  else if byteOffset < state.nextOffset then
    let skip := state.nextOffset - byteOffset
    if skip < data.length then feedState state (data.drop skip) stop else some state
  else do
    let state ← resetKeepingModes state
    feedState state data stop

def applyData (session : TerminalSession) (streamID : NodeId) (byteOffset : Nat) (data : Bytes) :
    Option (TerminalSession × Except TerminalApplyError TerminalSnapshot) :=
  if data = [] then some (session, .error .emptyFrame)
  else if maxTerminalOutputFrameBytes < data.length then
    some (session, .error (.frameTooLarge data.length))
  else
    match checkRoom session streamID with
    | .error e => some (session, .error e)
    | .ok () =>
      match addOffsets byteOffset data.length with
      | .error e => some (session, .error e)
      | .ok stop => do
        let state ← streamState session streamID
        let state ← advance state byteOffset stop data
        some ({ session with streams := session.streams.insert streamID state },
          .ok (snapshot streamID state))

def applyResync (session : TerminalSession) (streamID : NodeId) (resumeAtOffset : Nat) :
    Option (TerminalSession × Except TerminalApplyError TerminalSnapshot) :=
  match checkRoom session streamID with
  | .error e => some (session, .error e)
  | .ok () => do
    let state ← streamState session streamID
    let state ← resetKeepingModes state
    let state := { state with nextOffset := resumeAtOffset, needsRedraw := true }
    some ({ session with streams := session.streams.insert streamID state },
      .ok (snapshot streamID state))

inductive SessionCall where
  | data (streamID : NodeId) (byteOffset : Nat) (bytes : Bytes)
  | resync (streamID : NodeId) (resumeAtOffset : Nat)

def SessionCall.streamID : SessionCall → NodeId
  | .data streamID _ _ => streamID
  | .resync streamID _ => streamID

def perform (session : TerminalSession) :
    SessionCall → Option (TerminalSession × Except TerminalApplyError TerminalSnapshot)
  | .data streamID byteOffset bytes => applyData session streamID byteOffset bytes
  | .resync streamID resumeAtOffset => applyResync session streamID resumeAtOffset

end Srui.Client.TerminalSessions
