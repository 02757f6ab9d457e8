import Srui.Client.TerminalGrids

/-!
The parser of terminal output, one byte at a time.

The text decoders of the platform are those of the prelude. A call is none where the
source traps.
-/

namespace Srui.Client.VTParsers

open Basic.CheckedArrays Client.TerminalGrids

abbrev Bytes := List UInt8

/-- `UInt8(ascii:)`. -/
def ascii (c : Char) : UInt8 := c.toNat.toUInt8

def maxOSCBytes : Nat := 4096

def maxCSIBytes : Nat := 256

inductive State where
  | ground
  | escape
  | csi
  | osc
  | oscEscape
  | charsetDesignate
  | ignoreUntilST
deriving DecidableEq, Repr

structure VTParser where
  state : State := .ground
  osc : Bytes := []
  csi : Bytes := []
  utf8Need : Nat := 0
  utf8Scalar : UInt32 := 0
deriving DecidableEq, Repr

/-- `VTParser.reset`. -/
def VTParser.reset (_ : VTParser) : VTParser := {}

/-! ### Parameters -/

def subtractByte (byte other : UInt8) : Option Nat :=
  if other.toNat ≤ byte.toNat then some (byte.toNat - other.toNat) else none

/-- The loop of `parseParams`: the finished values, the open one, whether it has a digit. -/
def parseParamsFrom (values : List Int) (current : Int) (sawDigit : Bool) :
    Bytes → Option (List Int)
  | [] => some (values ++ [if sawDigit then current else 0])
  | byte :: rest =>
    if byte = ascii ';' then
      parseParamsFrom (values ++ [if sawDigit then current else 0]) 0 false rest
    else do
      let digit ← subtractByte byte (ascii '0')
      if digit ≤ 9 then parseParamsFrom values (min (current * 10 + digit) 9999) true rest
      else parseParamsFrom values current sawDigit rest

def parseParams (bytes : Bytes) : Option (List Int) :=
  if bytes = [] then some [] else parseParamsFrom [] 0 false bytes

/-! ### Rendition -/

/-- `UInt8(clamping:)`. -/
def clampByte (n : Int) : UInt8 := (min (max n 0) 255).toNat.toUInt8

def extendedColor (params : List Int) (i : Nat) : Option (Option TerminalColor × Nat) :=
  if i + 1 < params.length then do
    let kind ← read params (i + 1)
    if kind = 5 ∧ i + 2 < params.length then do
      let index ← read params (i + 2)
      some (some (.indexed (clampByte index)), 2)
    else if kind = 2 ∧ i + 4 < params.length then do
      let red ← read params (i + 2)
      let green ← read params (i + 3)
      let blue ← read params (i + 4)
      some (some (.rgb (clampByte red) (clampByte green) (clampByte blue)), 4)
    else some (none, 0)
  else some (none, 0)

def applyCode (attrs : TerminalAttributes) (code : Int) : TerminalAttributes :=
  if code = 0 then { ({} : TerminalAttributes) with hyperlink := attrs.hyperlink }
  else if code = 1 then { attrs with bold := true }
  else if code = 2 then { attrs with faint := true }
  else if code = 3 then { attrs with italic := true }
  else if code = 4 then { attrs with underline := true }
  else if code = 5 ∨ code = 6 then { attrs with blink := true }
  else if code = 7 then { attrs with inverse := true }
  else if code = 9 then { attrs with strikethrough := true }
  else if code = 22 then { attrs with bold := false, faint := false }
  else if code = 23 then { attrs with italic := false }
  else if code = 24 then { attrs with underline := false }
  else if code = 25 then { attrs with blink := false }
  else if code = 27 then { attrs with inverse := false }
  else if code = 29 then { attrs with strikethrough := false }
  else if 30 ≤ code ∧ code ≤ 37 then
    { attrs with foreground := .indexed (code - 30).toNat.toUInt8 }
  else if code = 39 then { attrs with foreground := .defaultForeground }
  else if 40 ≤ code ∧ code ≤ 47 then
    { attrs with background := .indexed (code - 40).toNat.toUInt8 }
  else if code = 49 then { attrs with background := .defaultBackground }
  else if 90 ≤ code ∧ code ≤ 97 then
    { attrs with foreground := .indexed (code - 90 + 8).toNat.toUInt8 }
  else if 100 ≤ code ∧ code ≤ 107 then
    { attrs with background := .indexed (code - 100 + 8).toNat.toUInt8 }
  else attrs

/-- The loop of `applySGR`. -/
def applySGRFrom (params : List Int) (i : Nat) (attrs : TerminalAttributes) :
    Option TerminalAttributes :=
  if i < params.length then
    match read params i with
    | none => none
    | some code =>
      if code = 38 ∨ code = 48 then
        match extendedColor params i with
        | none => none
        | some (none, taken) => applySGRFrom params (i + taken + 1) attrs
        | some (some color, taken) =>
          applySGRFrom params (i + taken + 1)
            (if code = 38 then { attrs with foreground := color }
            else { attrs with background := color })
      else applySGRFrom params (i + 1) (applyCode attrs code)
  else some attrs
termination_by params.length - i

def applySGR (params : List Int) (grid : TerminalGrid) : Option TerminalGrid := do
  let attrs ← applySGRFrom params 0 grid.currentAttributes
  some { grid with currentAttributes := attrs }

/-! ### Commands -/

/-- The body of the loop of `applyPrivate`. -/
def applyMode (enable : Bool) (grid : TerminalGrid) (mode : Int) : Option TerminalGrid :=
  if mode = 1 then some { grid with applicationCursorKeys := enable }
  else if mode = 6 then some { grid with originMode := enable }
  else if mode = 7 then some { grid with wraparound := enable }
  else if mode = 25 then some { grid with cursorVisible := enable }
  else if mode = 2004 then some { grid with bracketedPaste := enable }
  else if mode = 1047 ∨ mode = 1049 then
    if enable then setAlternateScreen (if mode = 1049 then saveCursor grid else grid) true
    else do
      let grid ← setAlternateScreen grid false
      some (if mode = 1049 then restoreCursor grid else grid)
  else some grid

def applyPrivate (final : UInt8) (params : List Int) (grid : TerminalGrid) :
    Option TerminalGrid :=
  if final = ascii 'h' ∨ final = ascii 'l' then
    params.foldlM (applyMode (final = ascii 'h')) grid
  else some grid

def paramOr (params : List Int) (i : Nat) (otherwise : Int) : Option Int :=
  if i < params.length then read params i else some otherwise

/-- The commands of `applyCSI`. -/
def applyCommand (final : UInt8) (params : List Int) (grid : TerminalGrid) :
    Option TerminalGrid :=
  let p1 := params.head?.getD 0
  let count := if p1 = 0 then 1 else p1
  if final = ascii 'A' then some (moveRelative grid (-max count 1) 0)
  else if final = ascii 'B' then some (moveRelative grid (max count 1) 0)
  else if final = ascii 'C' then some (moveRelative grid 0 (max count 1))
  else if final = ascii 'D' then some (moveRelative grid 0 (-max count 1))
  else if final = ascii 'H' ∨ final = ascii 'f' then do
    let row ← paramOr params 0 1
    let col ← paramOr params 1 1
    some (moveCursor grid (max (row - 1) 0) (max (col - 1) 0))
  else if final = ascii 'J' then eraseInDisplay grid p1
  else if final = ascii 'K' then eraseInLine grid p1
  else if final = ascii 'L' then insertLines grid count
  else if final = ascii 'M' then deleteLines grid count
  else if final = ascii 'P' then deleteCharacters grid count
  else if final = ascii '@' then insertCharacters grid count
  else if final = ascii 'X' then eraseCharacters grid count
  else if final = ascii 'G' then some (setCursorColumn grid (max (count - 1) 0))
  else if final = ascii 'd' then some (setCursorRow grid (max (count - 1) 0))
  else if final = ascii 'r' then do
    let top ← paramOr params 0 1
    let bottom ← paramOr params 1 grid.rows
    some (setScrollRegion grid (max (top - 1) 0) (max (bottom - 1) 0))
  else if final = ascii 'S' then scrollUp grid count
  else if final = ascii 'T' then scrollDown grid count
  else if final = ascii 'm' then applySGR (if params = [] then [0] else params) grid
  else if final = ascii 'h' then
    some (if 4 ∈ params then { grid with insertMode := true } else grid)
  else if final = ascii 'l' then
    some (if 4 ∈ params then { grid with insertMode := false } else grid)
  else some grid

def paramBytes (paramsSource : Bytes) : Bytes :=
  paramsSource.filter fun b => b = ascii ';' ∨ (0x30 ≤ b ∧ b ≤ 0x39)

def applyCSI (raw : Bytes) (grid : TerminalGrid) : Option TerminalGrid :=
  match raw.getLast? with
  | none => some grid
  | some final =>
    let body := raw.dropLast
    let nonStandardPrefix := body.head? = some (ascii '<') ∨ body.head? = some (ascii '=') ∨
      body.head? = some (ascii '>')
    if nonStandardPrefix then some grid
    else
      let privateMark := body.head? = some (ascii '?')
      let paramsSource := if privateMark then body.drop 1 else body
      match parseParams (paramBytes paramsSource) with
      | none => none
      | some params =>
        if privateMark then applyPrivate final params grid
        else applyCommand final params grid

/-! ### Operating system commands -/

/-- `String(bytes:encoding:)` in ASCII. -/
def asciiString (bytes : Bytes) : Option String :=
  if ∀ b ∈ bytes, b < 0x80 then some (String.ofList (bytes.map fun b => Char.ofNat b.toNat))
  else none

/-- `String(bytes:encoding:)` in UTF-8. -/
def utf8String (bytes : Bytes) : Option String := String.fromUTF8? ⟨bytes.toArray⟩

def splitOSC8 (payload : Bytes) : List String :=
  (payload.splitOn (ascii ';')).map fun part => (utf8String part).getD ""

def applyOSC (raw : Bytes) (grid : TerminalGrid) : Option TerminalGrid :=
  match raw.findIdx? (fun b => b == ascii ';') with
  | none => some grid
  | some semicolon => do
    let code := (asciiString (raw.take semicolon)).getD ""
    let payload ← removeFirst raw (semicolon + 1)
    if code = "0" ∨ code = "2" then
      some (match utf8String payload with
        | some title => { grid with title := title }
        | none => grid)
    else if code = "8" then
      let uri := (splitOSC8 payload).getLast?.getD ""
      some { grid with pendingHyperlink := if uri = "" then none else some uri }
    else some grid

/-! ### The machine -/

def drive (parser : VTParser) (grid : Option TerminalGrid) : Option (VTParser × TerminalGrid) := do
  let grid ← grid
  some (parser, grid)

def handleGround (parser : VTParser) (byte : UInt8) (grid : TerminalGrid) :
    Option (VTParser × TerminalGrid) :=
  if byte ∈ [0x00, 0x01, 0x02, 0x03, 0x04, 0x05, 0x06, 0x0E, 0x0F] then some (parser, grid)
  else if byte = 0x07 then some (parser, grid)
  else if byte = 0x08 then some (parser, backspace grid)
  else if byte = 0x09 then some (parser, tab grid)
  else if byte ∈ [0x0A, 0x0B, 0x0C] then drive parser (lineFeed grid)
  else if byte = 0x0D then some (parser, carriageReturn grid)
  else if byte ∈ [0x18, 0x1A] then some ({ parser with state := .ground }, grid)
  else if byte = 0x1B then some ({ parser with state := .escape }, grid)
  else if 0x20 ≤ byte ∧ byte ≤ 0x7E then drive parser (put grid (Char.ofNat byte.toNat))
  else if byte = 0x7F then some (parser, grid)
  else if 0xC2 ≤ byte ∧ byte ≤ 0xDF then
    some ({ parser with utf8Need := 1, utf8Scalar := (byte &&& 0x1F).toUInt32 }, grid)
  else if 0xE0 ≤ byte ∧ byte ≤ 0xEF then
    some ({ parser with utf8Need := 2, utf8Scalar := (byte &&& 0x0F).toUInt32 }, grid)
  else if 0xF0 ≤ byte ∧ byte ≤ 0xF4 then
    some ({ parser with utf8Need := 3, utf8Scalar := (byte &&& 0x07).toUInt32 }, grid)
  else some (parser, grid)

def handleEscape (parser : VTParser) (byte : UInt8) (grid : TerminalGrid) :
    Option (VTParser × TerminalGrid) :=
  let grounded := { parser with state := .ground }
  if byte = 0x1B then some (parser, grid)
  else if byte = 0x5B then some ({ parser with csi := [], state := .csi }, grid)
  else if byte = 0x5D then some ({ parser with osc := [], state := .osc }, grid)
  else if byte ∈ [0x50, 0x5E, 0x5F, 0x58] then
    some ({ parser with state := .ignoreUntilST }, grid)
  else if byte = 0x37 then some (grounded, saveCursor grid)
  else if byte = 0x38 then some (grounded, restoreCursor grid)
  else if byte = 0x63 then drive parser.reset (reset grid)
  else if byte = 0x44 then drive grounded (lineFeed grid)
  else if byte = 0x45 then drive grounded (nextLine grid)
  else if byte = 0x4D then drive grounded (reverseIndex grid)
  else if byte ∈ [0x28, 0x29, 0x2A, 0x2B] then
    some ({ parser with state := .charsetDesignate }, grid)
  else some (grounded, grid)

def handleCSI (parser : VTParser) (byte : UInt8) (grid : TerminalGrid) :
    Option (VTParser × TerminalGrid) :=
  -- What was read stays in the accumulator here, until the next introducer.
  if maxCSIBytes ≤ parser.csi.length then some ({ parser with state := .ground }, grid)
  else if 0x40 ≤ byte ∧ byte ≤ 0x7E then
    drive { parser with csi := [], state := .ground } (applyCSI (parser.csi ++ [byte]) grid)
  else if 0x20 ≤ byte ∧ byte ≤ 0x3F then
    some ({ parser with csi := parser.csi ++ [byte] }, grid)
  else if byte = 0x1B then some ({ parser with state := .escape, csi := [] }, grid)
  else some ({ parser with state := .ground, csi := [] }, grid)

def handleOSC (parser : VTParser) (byte : UInt8) (grid : TerminalGrid) :
    Option (VTParser × TerminalGrid) :=
  if byte = 0x07 then
    drive { parser with osc := [], state := .ground } (applyOSC parser.osc grid)
  else if byte = 0x1B then some ({ parser with state := .oscEscape }, grid)
  else if maxOSCBytes ≤ parser.osc.length then
    some ({ parser with osc := [], state := .ignoreUntilST }, grid)
  else some ({ parser with osc := parser.osc ++ [byte] }, grid)

def handleOSCEscape (parser : VTParser) (byte : UInt8) (grid : TerminalGrid) :
    Option (VTParser × TerminalGrid) := do
  let grid ← applyOSC parser.osc grid
  if byte = 0x5C then some ({ parser with osc := [], state := .ground }, grid)
  else handleEscape { parser with osc := [], state := .escape } byte grid

def dispatch (parser : VTParser) (byte : UInt8) (grid : TerminalGrid) :
    Option (VTParser × TerminalGrid) :=
  match parser.state with
  | .ground => handleGround parser byte grid
  | .escape => handleEscape parser byte grid
  | .csi => handleCSI parser byte grid
  | .osc => handleOSC parser byte grid
  | .oscEscape => handleOSCEscape parser byte grid
  | .charsetDesignate => some ({ parser with state := .ground }, grid)
  | .ignoreUntilST =>
    if byte = 0x1B then some ({ parser with state := .escape }, grid)
    else if byte = 0x07 then some ({ parser with state := .ground }, grid)
    else some (parser, grid)

/-- `Unicode.Scalar(_:)`. -/
def unicodeScalar (value : UInt32) : Option Char :=
  if value.isValidChar then some (Char.ofNat value.toNat) else none

/-- A byte of a UTF-8 sequence that is open. One that does not continue it is read again
outside of it. -/
def consumeContinuation (parser : VTParser) (byte : UInt8) (grid : TerminalGrid) :
    Option (VTParser × TerminalGrid) :=
  if byte &&& 0xC0 = 0x80 then
    let scalar := (parser.utf8Scalar <<< 6) ||| (byte &&& 0x3F).toUInt32
    let parser := { parser with utf8Scalar := scalar, utf8Need := parser.utf8Need - 1 }
    if parser.utf8Need = 0 then
      match unicodeScalar scalar with
      | some scalar => drive parser (put grid scalar)
      | none => some (parser, grid)
    else some (parser, grid)
  else dispatch { parser with utf8Need := 0 } byte grid

def consume (parser : VTParser) (byte : UInt8) (grid : TerminalGrid) :
    Option (VTParser × TerminalGrid) :=
  if 0 < parser.utf8Need then consumeContinuation parser byte grid
  else dispatch parser byte grid

abbrev Terminal := VTParser × TerminalGrid

def feed (terminal : Terminal) (data : Bytes) : Option Terminal :=
  data.foldlM (fun terminal byte => consume terminal.1 byte terminal.2) terminal

end Srui.Client.VTParsers
