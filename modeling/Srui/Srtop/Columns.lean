import Srui.SemanticTree.Values
import Srui.Srtop.Sources

/-!
The columns of the process list: their cells and order values, the layouts they are
published in, and the rows made of them.
-/

namespace Srui.Srtop.Columns

open SemanticTree.Values (ItemId Value)
open Srtop.Sources

/-! ### Texts of metrics -/

def missingText : MissingReason → String
  | .unavailable => "Unavailable"
  | .denied => "Denied"

def iecUnits : List String := ["B", "KiB", "MiB", "GiB", "TiB", "PiB", "EiB"]

/-- Loop of `format_iec_bytes`, with the units that are left. -/
def iecExponent (bytes : Nat) : Nat → Nat → Nat
  | 0, exponent => exponent
  | units + 1, exponent =>
    if 0 < bytes >>> ((exponent + 1) * 10) then iecExponent bytes units (exponent + 1)
    else exponent

def formatIecBytes (bytes : Nat) : String :=
  let exponent := iecExponent bytes (iecUnits.length - 1) 0
  let unit := iecUnits.getD exponent ""
  if exponent = 0 then toString bytes ++ " " ++ unit
  else
    let shift := exponent * 10
    let whole := bytes >>> shift
    let remainder := bytes - whole <<< shift
    let tenths := (remainder * 10) >>> shift
    toString whole ++ "." ++ toString tenths ++ " " ++ unit

def bytesCell : Observed Nat → String
  | .known bytes => formatIecBytes bytes
  | .missing reason => missingText reason

def maxPlausibleLogicalCpus : Nat := 65536

/-- The largest `u128`. -/
def u128Max : Nat := 2 ^ 128 - 1

def cpuTenthsOfPercent (interval : CpuInterval) : Option Nat :=
  if interval.elapsed = 0 ∨ interval.ticksPerSecond = 0 then none
  else
    let numerator := interval.ticks * (1000 * 1000000000)
    let denominator := interval.ticksPerSecond * interval.elapsed
    if u128Max < numerator ∨ u128Max < denominator then none
    else
      let tenths := numerator / denominator
      if maxPlausibleLogicalCpus * 1000 < tenths then none else some tenths

def formatCpuTenths (tenths : Nat) : String :=
  toString (tenths / 10) ++ "." ++ toString (tenths % 10) ++ "%"

def cpuCell : CpuUsage → String
  | .measured interval =>
    match cpuTenthsOfPercent interval with
    | some tenths => formatCpuTenths tenths
    | none => missingText .unavailable
  | .warmingUp => "Warming up"
  | .missing reason => missingText reason

/-! ### Columns -/

inductive ProcessField where
  | pid
  | name
  | resident
  | cpu
deriving DecidableEq, Repr

/-- `PROCESS_LIST`. -/
def processList : List ProcessField := [.pid, .name, .resident, .cpu]

inductive SortDirection where
  | ascending
  | descending
deriving DecidableEq, Repr

namespace ProcessField

def index : ProcessField → Nat
  | .pid => 0
  | .name => 1
  | .resident => 2
  | .cpu => 3

theorem index_lt (field : ProcessField) : field.index < processList.length := by
  cases field <;> decide

def cell (key : ProcessKey) (record : ProcessRecord) : ProcessField → Value
  | .pid =>
    match key.pid with
    | .known n => .scalar (.unsignedInt n)
    | .missing reason => .scalar (.string (missingText reason))
  | .name => .scalar (.string record.displayName.name)
  | .resident => .scalar (.string (bytesCell record.resident))
  | .cpu => .scalar (.string (cpuCell record.cpu))

end ProcessField

structure Cells where
  values : List Value
  length_eq : values.length = processList.length
deriving DecidableEq

def Cells.ofRecord (key : ProcessKey) (record : ProcessRecord) : Cells where
  values := processList.map (ProcessField.cell key record)
  length_eq := List.length_map _

def Cells.get (cells : Cells) (field : ProcessField) : Value :=
  cells.values.get ⟨field.index, cells.length_eq ▸ field.index_lt⟩

/-! ### Layouts -/

structure ColumnLayout where
  fields : List ProcessField
  nonempty : fields ≠ []
  nodup : fields.Nodup
deriving DecidableEq

namespace ColumnLayout

def default : ColumnLayout where
  fields := processList
  nonempty := by decide
  nodup := by decide

end ColumnLayout

/-- `lay_out`: the published value of a row. -/
def layOut (cells : Cells) (layout : ColumnLayout) : Value :=
  .list (layout.fields.map cells.get)

/-! ### Order values -/

structure SortOrder where
  field : ProcessField
  direction : SortDirection
deriving DecidableEq, Repr

def opposite : SortDirection → SortDirection
  | .ascending => .descending
  | .descending => .ascending

inductive SortValue where
  | number (n : Nat)
  | text (s : String)
  | missing
deriving DecidableEq, Repr

structure SortValues where
  pid : SortValue
  name : SortValue
  resident : SortValue
  cpu : SortValue
deriving DecidableEq, Repr

def SortValue.ofObserved : Observed Nat → SortValue
  | .known n => .number n
  | .missing _ => .missing

/-- `value_of`: a value is there exactly when its cell states one. -/
def valueOf (key : ProcessKey) (record : ProcessRecord) : ProcessField → SortValue
  | .pid => .ofObserved key.pid
  | .name => .text record.displayName.name
  | .resident => .ofObserved record.resident
  | .cpu =>
    match record.cpu with
    | .measured interval =>
      match cpuTenthsOfPercent interval with
      | some tenths => .number tenths
      | none => .missing
    | .warmingUp => .missing
    | .missing _ => .missing

def SortValues.ofRecord (key : ProcessKey) (record : ProcessRecord) : SortValues where
  pid := valueOf key record .pid
  name := valueOf key record .name
  resident := valueOf key record .resident
  cpu := valueOf key record .cpu

def SortValues.get (values : SortValues) : ProcessField → SortValue
  | .pid => values.pid
  | .name => values.name
  | .resident => values.resident
  | .cpu => values.cpu

/-! ### Rows -/

structure Row where
  key : ProcessKey
  itemId : ItemId
  cells : Cells
  value : Value
  sort : SortValues
  displayName : DisplayName
deriving DecidableEq

def directed (direction : SortDirection) (ordering : Ordering) : Ordering :=
  match direction with
  | .ascending => ordering
  | .descending => ordering.swap

/-- A known component before a missing one; the two reasons for absence are no order. -/
def observedOrder {α : Type} (compare : α → α → Ordering) : Observed α → Observed α → Ordering
  | .known left, .known right => compare left right
  | .known _, .missing _ => .lt
  | .missing _, .known _ => .gt
  | .missing _, .missing _ => .eq

def creationOrder : CreationToken → CreationToken → Ordering
  | .linuxBootTicks left, .linuxBootTicks right => compare left right
  | .opaqueToken left, .opaqueToken right => compare left right
  | .linuxBootTicks _, .opaqueToken _ => .lt
  | .opaqueToken _, .linuxBootTicks _ => .gt

def processKeyOrder (left right : ProcessKey) : Ordering :=
  (compare left.source right.source).then
    ((observedOrder compare left.host right.host).then
      ((observedOrder compare left.boot right.boot).then
        ((observedOrder compare left.pidNamespace right.pidNamespace).then
          ((observedOrder compare left.pid right.pid).then
            (creationOrder left.creation right.creation)))))

/-- `sort::compare`. -/
def compareRows (order : SortOrder) (left right : Row) : Ordering :=
  let byKey := processKeyOrder left.key right.key
  match left.sort.get order.field, right.sort.get order.field with
  | .missing, .missing => byKey
  | .missing, _ => .gt
  | _, .missing => .lt
  | .number l, .number r => (directed order.direction (compare l r)).then byKey
  | .text l, .text r => (directed order.direction (compare l r)).then byKey
  | .number _, .text _ => byKey
  | .text _, .number _ => byKey

/-- `slice::sort_by`, which is stable. -/
def sortRows (order : SortOrder) (rows : List Row) : List Row :=
  rows.mergeSort fun left right => (compareRows order left right).isLE

end Srui.Srtop.Columns
