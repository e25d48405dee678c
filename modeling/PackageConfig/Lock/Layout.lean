import PackageConfig.Lock.Format
import PackageConfig.Lock.Header

/-!
The binary formats of locks and headers, field by field.
-/

namespace PackageConfig.Lock

namespace Format

/-- A value: the number of its kind, and the switch or text. -/
def value : Format Value where
  write
    | .flag on => writeNumber 0 ++ switch.write on
    | .text s => writeNumber 1 ++ text.write s
  read := do
    match ← readShort with
    | 0 => return .flag (← switch.read)
    | 1 => return .text (← text.read)
    | _ => throw .badTag

/-- A state: the number of its kind, and the value or the reason of the removal. -/
def state : Format State where
  write
    | .present v => writeNumber 0 ++ value.write v
    | .absent (.optionRule rule) => writeNumber 1 ++ text.write rule
    | .absent (.platformRule rule) => writeNumber 2 ++ text.write rule
    | .absent (.parent name) => writeNumber 3 ++ text.write name
  read := do
    match ← readShort with
    | 0 => return .present (← value.read)
    | 1 => return .absent (.optionRule (← text.read))
    | 2 => return .absent (.platformRule (← text.read))
    | 3 => return .absent (.parent (← text.read))
    | _ => throw .badTag

/-- A pin: its component and its version. -/
def pin : Format Pin :=
  (text.pair text).via (fun r => (r.name, r.version)) fun p => ⟨p.1, p.2⟩

/-- A lock: its fields in order. -/
def lock : Format Lock :=
  (text.pair (switch.pair ((list (text.pair state)).pair
    ((list pin).pair (list (text.pair value)))))).via
    (fun l => (l.platform, l.shared, l.options, l.pins, l.table))
    fun (platform, shared, options, pins, table) =>
      ⟨platform, shared, options, pins, table⟩

/-- A header: its fields in order. -/
def header : Format Header :=
  ((byte.pair (byte.pair (byte.pair byte))).pair (byte.pair
    (long.pair (long.pair (long.pair long))))).via
    (fun h => (h.mark, h.version, h.optionCount, h.pinCount, h.variableCount, h.checksum))
    fun (mark, version, options, pins, table, checksum) =>
      ⟨mark, version, options, pins, table, checksum⟩

end Format

end PackageConfig.Lock
