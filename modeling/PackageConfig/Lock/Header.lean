import PackageConfig.Lock.Checksum

/-!
The header of a lockfile: the mark by which lockfiles are known, the version of
the format, the lengths of the three lists and the checksum. A header is checked
before anything after it is read.
-/

namespace PackageConfig.Lock

/-- What stands in front of a lock. -/
structure Header where
  mark : UInt8 × UInt8 × UInt8 × UInt8
  version : UInt8
  optionCount : UInt64
  pinCount : UInt64
  variableCount : UInt64
  checksum : UInt64
  deriving DecidableEq, Inhabited

namespace Header

/-- The mark of lockfiles, the letters `AECF`. -/
def knownMark : UInt8 × UInt8 × UInt8 × UInt8 :=
  (0x41, 0x45, 0x43, 0x46)

/-- The one version of the format. -/
def knownVersion : UInt8 := 1

/-- The header of a lock. -/
def ofLock (lock : Lock) : Header where
  mark := knownMark
  version := knownVersion
  optionCount := lock.options.length.toUInt64
  pinCount := lock.pins.length.toUInt64
  variableCount := lock.table.length.toUInt64
  checksum := lock.checksum

/-- Refuse a list that announces more entries than a lockfile may hold. -/
def checkCount (list : LockList) (count : UInt64) : Except LockFault Unit :=
  if count.toNat ≤ LockList.limit then .ok () else .error (.tooMany list count)

/-- Refuse a header with another mark or version, or with too long a list. -/
def check (h : Header) : Except LockFault Unit := do
  if h.mark ≠ knownMark then throw .foreign
  if h.version ≠ knownVersion then throw .unknownVersion
  checkCount .options h.optionCount
  checkCount .pins h.pinCount
  checkCount .table h.variableCount

/-- Whether the three lists of a lock are as long as the header announces. -/
def counts (h : Header) (lock : Lock) : Bool :=
  lock.options.length.toUInt64 = h.optionCount &&
    lock.pins.length.toUInt64 = h.pinCount &&
    lock.table.length.toUInt64 = h.variableCount

end Header

end PackageConfig.Lock
